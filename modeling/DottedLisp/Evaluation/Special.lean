import DottedLisp.Evaluation.Application
import DottedLisp.Evaluation.Loading

/-!
# The meaning of the special forms

One definition for each special form. Faults are met in a fixed order: first the number of operands,
then the place of the form, then its operands from left to right, and what they are bound to last.
-/

namespace DottedLisp.Evaluation

/-- The fault of a special form with the wrong number of operands. -/
def miscounted {α : Type} (form : SpecialForm) (operands : List Form) (expected : Nat) :
    Evaluation α :=
  fail (.operandCount form.keyword operands.length expected)

/-! ### Binding forms -/

/-- Bind a constant: only at the top level of a namespace. -/
def constant (evaluate : Evaluator) (c : Context) : List Form → Evaluation Value
  | [name, value] => do
    if !c.isTop then fail .constPlace
    else define c name (← evaluate value c .value)
  | operands => miscounted .constant operands 2

/-- Bind a variable: only in a scope. -/
def localVariable (evaluate : Evaluator) (c : Context) : List Form → Evaluation Value
  | [name, value] => do
    if c.isTop then fail .letPlace
    else define c name (← evaluate value c .value)
  | operands => miscounted .localVariable operands 2

/-- Give a variable a new value: only in a scope. -/
def assignment (evaluate : Evaluator) (c : Context) : List Form → Evaluation Value
  | [target, value] => do
    if c.isTop then fail .setPlace
    else
      match target with
      | .symbol name => assign c name (← evaluate value c .value)
      | _ => fail (.assignmentTarget target)
  | operands => miscounted .assignment operands 2

/-- Define a function of a kind: only at the top level of a namespace, which it captures. -/
def definition (form : SpecialForm) (kind : FunctionKind) (place : String) (c : Context) :
    List Form → Evaluation Value
  | [name, parameterList, body] => do
    if !c.isTop then fail (.definitionPlace place)
    else
      let parameters ← ofFault (parameters parameterList)
      let f ← makeFunction kind name.text parameters body c
      define c name (.function f)
  | operands => miscounted form operands 3

/-- Make a function without a name, which captures its context. -/
def closure (c : Context) : List Form → Evaluation Value
  | [parameterList, body] => do
    let parameters ← ofFault (parameters parameterList)
    return .function (← makeFunction .anonymous Function.anonymousName parameters body c)
  | operands => miscounted .closure operands 2

/-! ### Control -/

/-- Evaluate forms in order for the last one's value; only the last one may be in tail position. -/
def sequence (evaluate : Evaluator) (c : Context) (position : Position) :
    List Form → Evaluation Value
  | [] => return .nothing
  | [last] => evaluate last c position
  | form :: rest => do
    discard (evaluate form c .value)
    sequence evaluate c position rest

/-- Evaluate forms in a fresh scope. -/
def block (evaluate : Evaluator) (c : Context) (position : Position) (forms : List Form) :
    Evaluation Value := do
  sequence evaluate (← openScope c [] []) position forms

/-- Choose between two forms. -/
def conditional (evaluate : Evaluator) (c : Context) (position : Position) :
    List Form → Evaluation Value
  | [condition, yes, no] => do
    if (← evaluate condition c .value).isTrue then evaluate yes c position
    else evaluate no c position
  | operands => miscounted .conditional operands 3

/-- The values of forms, from left to right. -/
def values (evaluate : Evaluator) (c : Context) : List Form → Evaluation (List Value)
  | [] => return []
  | form :: rest => do
    let value ← evaluate form c .value
    return value :: (← values evaluate c rest)

/-- Repeat a body, first with the initial values. -/
def loop (setting : Setting) (evaluate : Evaluator) (c : Context) : List Form → Evaluation Value
  | [parameterList, initials, body] => do
    match initials with
    | .list initials =>
      let initials ← values evaluate c initials
      let parameters ← ofFault (parameters parameterList)
      (Loop.ofForm evaluate c parameters body).run setting.limits.steps initials
    | _ => fail (.initialValues initials)
  | operands => miscounted .loop operands 3

/-- End a control path of a loop. -/
def signal (evaluate : Evaluator) (c : Context) (s : Signal) (operands : List Form) :
    Evaluation Value := do
  return .signal s (← values evaluate c operands)

/-! ### Namespaces -/

/-- Evaluate forms in the namespace under a path, made if there is none. -/
def enterNamespace (evaluate : Evaluator) (c : Context) : List Form → Evaluation Value
  | path :: body => do
    let path ← normalize c (← nameOf path)
    let id ← change fun w => w.createNamespace path
    sequence evaluate (.top id) .value body
  | [] => miscounted .enterNamespace [] 1

/-- Bind an identifier of another namespace here, under its own name or another one. A module that
is needed for it and not loaded is loaded first. -/
def useAs (setting : Setting) (evaluate : Evaluator) (c : Context) (target : Form)
    (alias? : Option Form) : Evaluation Value := do
  if !c.isTop then fail .usePlace
  else
    let (path, identifier) ← splitName (← normalize c (← nameOf target))
    let name ← match alias? with
      | some form => nameOf form
      | none => pure identifier
    if ← change fun w => (w.isRegistered path, w) then pure ()
    else loadNeeded setting evaluate (Name.moduleOf path)
    let value ← get (.top (← getNamespace path)) identifier
    define c (.symbol name) value

/-- Use an identifier of another namespace. -/
def use (setting : Setting) (evaluate : Evaluator) (c : Context) : List Form → Evaluation Value
  | [target] => useAs setting evaluate c target none
  | [target, name] => useAs setting evaluate c target (some name)
  | operands => miscounted .use operands 1

/-! ### All of them -/

/-- What a special form does with its operands. -/
def special (setting : Setting) (evaluate : Evaluator) (form : SpecialForm) (operands : List Form)
    (c : Context) (position : Position) : Evaluation Value :=
  match form with
  | .constant => constant evaluate c operands
  | .localVariable => localVariable evaluate c operands
  | .assignment => assignment evaluate c operands
  | .enterNamespace => enterNamespace evaluate c operands
  | .use => use setting evaluate c operands
  | .block => block evaluate c position operands
  | .conditional => conditional evaluate c position operands
  | .loop => loop setting evaluate c operands
  | .leave => signal evaluate c .leave operands
  | .again => signal evaluate c .again operands
  | .function => definition .function .named "Defn" c operands
  | .recursiveFunction => definition .recursiveFunction .recursive "Defnr" c operands
  | .closure => closure c operands

end DottedLisp.Evaluation
