import DottedLisp.Evaluation.Basic
import DottedLisp.Reader

/-!
# Loading modules

A module is a text whose forms are evaluated at the top level of the namespace that bears its name.
The whole text is read and checked first. A module counts as loaded **from before its first form is
evaluated**, so modules that use each other do not load each other again.

If a form fails, the paths that were not registered before and the modules that were not loaded
before are taken back, and the failure goes on.
-/

namespace DottedLisp.Evaluation

/-- All forms of a text, each of them checked. -/
def readModule (limits : Limits) (text : String) : Except Failure (List Form) :=
  match (TokenStream.ofText text).readAll with
  | (_, some fault, _) => .error (.fault fault)
  | (forms, none, _) => do
    forms.forM (Placement.check limits.checkDepth)
    return forms

/-- Evaluate forms at the top level of a namespace. -/
def runForms (evaluate : Evaluator) (id : NamespaceId) (forms : List Form) : Evaluation Unit :=
  forms.forM fun form => discard (evaluate form (.top id) .value)

/-- Load a module from its forms, which were read and checked. -/
def loadForms (evaluate : Evaluator) (name : String) (forms : List Form) :
    Evaluation NamespaceId := do
  let (paths, loaded) ← change fun w => ((w.paths, w.loaded), w)
  let id ← change fun w => w.createNamespace name
  change fun w => ((), w.markLoaded name)
  undoing (World.rollback paths loaded name) (runForms evaluate id forms)
  return id

/-- Load a module from its text. -/
def loadText (setting : Setting) (evaluate : Evaluator) (name text : String) :
    Evaluation NamespaceId := do
  loadForms evaluate name (← ofExcept (readModule setting.limits text))

/-- Load a module from its file; `none` if it has none. -/
def loadFile? (setting : Setting) (evaluate : Evaluator) (name : String) :
    Evaluation (Option NamespaceId) := do
  match ← ofExcept (setting.findModule name) with
  | some text => return some (← loadText setting evaluate name text)
  | none => return none

/-- Load a module that a `use` form needs, if it is not loaded and has a file. -/
def loadNeeded (setting : Setting) (evaluate : Evaluator) (name : String) : Evaluation Unit := do
  if ← change fun w => (w.isLoaded name, w) then return ()
  else discard (loadFile? setting evaluate name)

/-- Load a module, once. -/
def loadModule (setting : Setting) (evaluate : Evaluator) (name : String) :
    Evaluation NamespaceId := do
  if ← change fun w => (w.isLoaded name, w) then getNamespace name
  else
    match ← loadFile? setting evaluate name with
    | some id => return id
    | none => throw (.moduleMissing name)

end DottedLisp.Evaluation
