import DottedLisp.Bindings
import DottedLisp.Evaluation.Application
import DottedLisp.Evaluation.Basic
import DottedLisp.Evaluation.Loading
import DottedLisp.Evaluation.Special
import DottedLisp.Evaluation.Step
import DottedLisp.Fault
import DottedLisp.Form
import DottedLisp.Interpreter
import DottedLisp.Module.Host
import DottedLisp.Module.Path
import DottedLisp.Name
import DottedLisp.Native
import DottedLisp.Number.Binary64
import DottedLisp.Number.Decimal
import DottedLisp.Number.Integer
import DottedLisp.Number.Numeral
import DottedLisp.Number.Remainder
import DottedLisp.Placement
import DottedLisp.Reader
import DottedLisp.SpecialForm
import DottedLisp.Text.Blank
import DottedLisp.Text.CodeRange
import DottedLisp.Text.DecimalDigit
import DottedLisp.Text.Fields
import DottedLisp.Text.Printable
import DottedLisp.Text.Quoted
import DottedLisp.Token
import DottedLisp.Value
import DottedLisp.World
import DottedLisp.Proofs.Parts
import DottedLisp.Proofs.Simulation.Basic
import DottedLisp.Proofs.Simulation.Operations
import DottedLisp.Proofs.Simulation.Evaluator
import DottedLisp.Proofs.BoundValues
import DottedLisp.Proofs.Growth
import DottedLisp.Proofs.PlacementSoundness
import DottedLisp.Proofs.CheckDepth
import DottedLisp.Proofs.MappedWorlds
import DottedLisp.Proofs.ProperWorlds
import DottedLisp.Proofs.SignalConfinement
import DottedLisp.Proofs.LinkedWorlds
import DottedLisp.Proofs.TailCalls.Equivalence
import DottedLisp.Proofs.LexicalScoping
import DottedLisp.Proofs.ShiftedWorlds
import DottedLisp.Proofs.RegistryCoherence
import DottedLisp.Proofs.RetriedLoads
import DottedLisp.Proofs.Reading.Grammar
import DottedLisp.Proofs.Reading.Numerals
import DottedLisp.Proofs.Reading.RoundTrip
import DottedLisp.Proofs.Reading.Segmentation
import DottedLisp.Proofs.ModuleLoads
import DottedLisp.Proofs.DepthLimits
import DottedLisp.Proofs.ScopeFrames
import DottedLisp.Proofs.Isolation
import DottedLisp.Proofs.LoopIterations
import DottedLisp.Proofs.Reading.Queue
import DottedLisp.Proofs.TextSequences
import DottedLisp.Proofs.OpenedNamespaces
import DottedLisp.Proofs.RelativeNames
import DottedLisp.Proofs.ImmediateCalls
import DottedLisp.Proofs.Numbers.BitPatterns
import DottedLisp.Proofs.Numbers.Rounding
import DottedLisp.Proofs.Numbers.Words
import DottedLisp.Proofs.Numbers.Significance
import DottedLisp.Proofs.UsedNames
import DottedLisp.Proofs.MissingModules
import DottedLisp.Proofs.Reading.Rejoining
import DottedLisp.Proofs.ScopeChains
import DottedLisp.Proofs.Numbers.Order
import DottedLisp.Proofs.Numbers.IntegerRounding
import DottedLisp.Proofs.Numbers.Exceptional
import DottedLisp.Proofs.NativeCalls
import DottedLisp.Proofs.ModuleFiles
import DottedLisp.Proofs.ParameterBinding
