import DottedLisp.Placement
import DottedLisp.World

/-!
# Evaluations

An evaluation reads and changes the world and ends in an answer or a failure; **changes made before
a failure stay**. This module gives the operations on names and contexts that the special forms are
made of.

Nested evaluation is a parameter: an `Evaluator` says what evaluating a form means one level further
down, and every operation that evaluates takes one.
-/

namespace DottedLisp

/-- A computation on the world. -/
abbrev Evaluation := EStateM Failure World

/-- The meaning of a form in a context, given what the form is evaluated for. -/
abbrev Evaluator := Form → Context → Position → Evaluation Value

/-- How far an evaluation may go. -/
structure Limits where
  /-- How deep evaluations may nest. -/
  depth : Nat
  /-- How deep the placement check may nest. -/
  checkDepth : Nat
  /-- How many steps one loop may take. -/
  steps : Nat
  deriving Repr, DecidableEq

/-- What an evaluation is given from outside. -/
structure Setting where
  /-- How far it may go. -/
  limits : Limits
  /-- The text of a module; `none` if there is no file for it. -/
  findModule : String → Except Failure (Option String)

namespace Evaluation

/-- End in a fault. -/
def fail {α : Type} (fault : Fault) : Evaluation α :=
  throw (.fault fault)

/-- Carry a pure result or failure over. -/
def ofExcept {α : Type} : Except Failure α → Evaluation α
  | .ok answer => pure answer
  | .error failure => throw failure

/-- Carry a pure result or fault over. -/
def ofFault {α : Type} : Except Fault α → Evaluation α
  | .ok answer => pure answer
  | .error fault => fail fault

/-- Change the world and answer. -/
def change {α : Type} (f : World → α × World) : Evaluation α := fun w =>
  match f w with
  | (answer, w) => .ok answer w

/-- Undo parts of what an evaluation changed, if it fails. -/
def undoing {α : Type} (undo : World → World) (action : Evaluation α) : Evaluation α := fun w =>
  match action w with
  | .ok answer w => .ok answer w
  | .error failure w => .error failure (undo w)

/-! ### Binding and assigning -/

/-- Bind a name in the innermost level of a context, where it must not be bound yet. Only a symbol
that is no full name can be bound. -/
def define (c : Context) (name : Form) (value : Value) : Evaluation Value :=
  match name with
  | .symbol identifier => fun w =>
    if Name.isFull identifier then .error (.fault (.undefinable name)) w
    else if (w.bindingsOf c).binds identifier then .error (.fault (.alreadyBound identifier)) w
    else .ok value (w.modifyBindings c fun b => b.insert identifier value)
  | _ => fail (.undefinable name)

/-- Give the nearest variable of a name a new value. -/
def assign (c : Context) (name : String) (value : Value) : Evaluation Value := fun w =>
  match w.findScope? c name with
  | some scope => .ok value (w.modifyBindings scope fun b => b.replace name value)
  | none => .error (.fault (.unbound name)) w

/-- Bind names one after the other; those before the first that cannot be bound stay bound. -/
def defineAll (c : Context) (entries : List (Form × Value)) : Evaluation Unit :=
  entries.forM fun (name, value) => discard (define c name value)

/-- Open a scope and bind parameters to arguments in it, pairwise. -/
def openScope (outer : Context) (parameters : List String) (arguments : List Value) :
    Evaluation Context := do
  let c ← change fun w => w.addScope outer
  defineAll c ((parameters.map Form.symbol).zip arguments)
  return c

/-! ### Looking up names -/

/-- The value of a plain identifier in a context. -/
def get (c : Context) (name : String) : Evaluation Value := fun w =>
  match w.lookup? c name with
  | some value => .ok value w
  | none => .error (.fault (.unbound name)) w

/-- The namespace that is registered under a path. -/
def getNamespace (path : String) : Evaluation NamespaceId := fun w =>
  match w.registered? path with
  | some id => .ok id w
  | none => .error (.fault (.unknownNamespace path)) w

/-- Cut a full name into path and identifier. -/
def splitName (name : String) : Evaluation (String × String) :=
  match Name.split? name with
  | some parts => pure parts
  | none => fail (.malformedFullName name)

/-- The value of an absolute full name. -/
def getFull (name : String) : Evaluation Value := do
  let (path, identifier) ← splitName name
  get (.top (← getNamespace path)) identifier

/-- Make a name absolute, seen from the namespace that ends a context. -/
def normalize (c : Context) (name : String) : Evaluation String := fun w =>
  let path := (w.namespaceAt c.home).path
  match Name.normalize name (Name.moduleOf path) path with
  | .ok name => .ok name w
  | .error rest => .error (.fault (.beyondModule rest)) w

/-- The value of a symbol. A full name goes through the registry, a plain identifier through the
context. -/
def lookup (c : Context) (name : String) : Evaluation Value := do
  if Name.isFull name then getFull (← normalize c name) else get c name

/-! ### Forms that stand for names -/

/-- The name that a form stands for. -/
def nameOf : Form → Evaluation String
  | .symbol name => pure name
  | form => fail (.nameExpected form)

/-- The parameters of a parameter list, given those in front of it. -/
def parametersFrom (seen : List String) : List Form → Except Fault (List String)
  | [] => .ok seen.reverse
  | .symbol name :: rest =>
    if Name.isFull name then .error (.parameterName (.symbol name))
    else if seen.contains name then .error (.alreadyBound name)
    else parametersFrom (name :: seen) rest
  | form :: _ => .error (.parameterName form)

/-- The parameters of a parameter list: **distinct plain identifiers**. -/
def parameters : Form → Except Fault (List String)
  | .list items => parametersFrom [] items
  | form => .error (.parameterList form)

/-- Make a function object. -/
def makeFunction (kind : FunctionKind) (name : String) (parameters : List String) (body : Form)
    (c : Context) : Evaluation Function := do
  return ⟨kind, name, parameters, body, c, ← change World.addStamp⟩

end Evaluation

end DottedLisp
