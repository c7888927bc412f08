import DottedLisp.Evaluation.Step
import DottedLisp.Module.Host

/-!
# The interpreter

The operations that a program embedding the language calls. An interpreter is a home namespace and
perhaps roots for modules; everything that changes is in the `World`. Every operation is an
`Evaluation`, so a failure leaves the world as far as it was changed.

Texts are treated in three ways. `evalText` takes the first form and needs the **whole** text to
fall into tokens. `evalAll` evaluates each form before it reads the next. `loadText` reads and
checks all forms before it evaluates any.
-/

namespace DottedLisp

/-- The limits that interpreters use: deep enough for every program that terminates in practice, and
shallow enough for the machine's stack. -/
def Limits.standard : Limits := ⟨4000, 8000, 1000000000000000⟩

/-- What is fixed when an interpreter is made. -/
structure Interpreter where
  /-- The namespace of code that names none. -/
  home : NamespaceId
  /-- The roots of modules, if they are not the host's. -/
  roots : Option (List Path)

namespace Interpreter

/-! ### Making an interpreter -/

/-- Bind a native function under an identifier. -/
def addNative (id : NamespaceId) (w : World) (entry : String × Native) : World :=
  let (stamp, w) := w.addStamp
  w.modifyBindings (.top id) fun b => b.insert entry.1 (.native entry.2 stamp)

/-- Register a group of native functions. -/
def addGroup (w : World) (group : Native.Group) : World :=
  let (id, w) := w.createNamespace group.path
  group.natives.foldl (addNative id) w

/-- The world that holds the native functions only. -/
def nativeWorld (stamps : Nat) : World :=
  Native.catalogue.foldl addGroup (.empty stamps)

/-- Make an interpreter. The home namespace is the given one, or else the host's; an empty name
counts as not given. Function objects are stamped from `stamps` on. -/
def create (host : Host) (roots : Option (List String)) (namespaceName : Option String)
    (stamps : Nat) : Interpreter × World :=
  let path := (namespaceName.filter fun name => !name.isEmpty).getD host.defaultNamespace
  let (home, w) := (nativeWorld stamps).createNamespace path
  (⟨home, roots.map fun paths => paths.map Path.ofText⟩, w)

/-! ### Evaluating -/

/-- What evaluations of this interpreter are given by the host. -/
def setting (i : Interpreter) (host : Host) : Setting :=
  ⟨.standard, host.moduleText i.roots⟩

/-- The evaluator of a setting. -/
def evaluator (setting : Setting) : Evaluator :=
  Evaluation.evaluate setting setting.limits.depth

/-- Check a form, then evaluate it at the top level of a namespace. -/
def evalForm (setting : Setting) (id : NamespaceId) (form : Form) : Evaluation Value := do
  Evaluation.ofExcept (Placement.check setting.limits.checkDepth form)
  evaluator setting form (.top id) .value

/-- Evaluate the first form of a text; what follows it is not evaluated. -/
def evalText (i : Interpreter) (setting : Setting) (text : String) : Evaluation Value := do
  evalForm setting i.home (← Evaluation.ofFault (readText text))

/-- Evaluate the first form of a text in the namespace under a path. -/
def evalTextIn (setting : Setting) (path text : String) : Evaluation Value := do
  let form ← Evaluation.ofFault (readText text)
  evalForm setting (← Evaluation.getNamespace path) form

/-- Evaluate forms in order for the last one's value, given the value before them. -/
def evalForms (setting : Setting) (id : NamespaceId) (value : Value) : List Form → Evaluation Value
  | [] => return value
  | form :: rest => do evalForms setting id (← evalForm setting id form) rest

/-- Evaluate every form of a text in order for the last one's value. A fault in the text is met
after the forms before it are evaluated. -/
def evalAll (i : Interpreter) (setting : Setting) (text : String) : Evaluation Value := do
  let (forms, fault, _) := (TokenStream.ofText text).readAll
  let value ← evalForms setting i.home .nothing forms
  match fault with
  | some fault => Evaluation.fail fault
  | none => return value

/-- Evaluate the first form of a text **without** the placement check. -/
def evalUnchecked (i : Interpreter) (setting : Setting) (position : Position) (text : String) :
    Evaluation Value := do
  evaluator setting (← Evaluation.ofFault (readText text)) (.top i.home) position

/-! ### Modules -/

/-- Load a module from its text. -/
def loadText (setting : Setting) (name text : String) : Evaluation NamespaceId :=
  Evaluation.loadText setting (evaluator setting) name text

/-- Load a module from its file, once. -/
def loadModule (setting : Setting) (name : String) : Evaluation NamespaceId :=
  Evaluation.loadModule setting (evaluator setting) name

end Interpreter

/-! ### Looking at the world -/

namespace World

/-- The registered paths in order of their code points. -/
def sortedPaths (w : World) : List String :=
  w.paths.mergeSort fun a b => decide (a ≤ b)

/-- The loaded modules in order of their code points. -/
def sortedLoaded (w : World) : List String :=
  w.loaded.mergeSort fun a b => decide (a ≤ b)

/-- The registered namespaces, in order of the code points of their paths. -/
def sortedNamespaces (w : World) : List (String × Namespace) :=
  w.sortedPaths.filterMap fun path => (w.registered? path).map fun id => (path, w.namespaceAt id)

end World

end DottedLisp
