import DottedLisp.Evaluation.Basic
import DottedLisp.Native

/-!
# Calls and loops

A call of an ordinary function opens one scope inside the context **that the function was made in**
and evaluates the body there. Loops and recursive functions share one driver: it runs the body,
looks at the signal that ends it, and either answers or runs the body again. Each run returns to the
driver first, so steps of a loop do not nest.
-/

namespace DottedLisp.Evaluation

/-- Refuse a wrong number of operands. -/
def expectCount (name : String) (actual expected : Nat) : Evaluation Unit :=
  if actual = expected then pure () else fail (.operandCount name actual expected)

/-- What a loop is: how its values are checked, what its body does with them, and how it reports a
wrong ending. -/
structure Loop where
  /-- The word or name that the loop is reported under. -/
  owner : String
  /-- The test of the values of a step. -/
  check : List Value → Evaluation Unit
  /-- One run of the body. -/
  body : List Value → Evaluation Value
  /-- The fault of leaving with a wrong number of values. -/
  wrongResult : Nat → Fault

/-- Run a loop from given values, for at most `steps` runs of its body. -/
def Loop.run (l : Loop) : Nat → List Value → Evaluation Value
  | 0, _ => throw .stepsExceeded
  | steps + 1, values => do
    l.check values
    match ← l.body values with
    | .signal .again values => l.run steps values
    | .signal .leave [value] => return value
    | .signal .leave values => fail (l.wrongResult values.length)
    | _ => fail (.unended l.owner)

/-- The loop of a recursive function: each step is a call of its own. -/
def Loop.ofFunction (evaluate : Evaluator) (f : Function) : Loop where
  owner := f.name
  check values := expectCount f.name values.length f.parameters.length
  body values := do evaluate f.body (← openScope f.context f.parameters values) .tail
  wrongResult := .recursionResult f.name

/-- The loop of a `loop` form: each step has a scope of its own. -/
def Loop.ofForm (evaluate : Evaluator) (c : Context) (parameters : List String) (body : Form) :
    Loop where
  owner := SpecialForm.loop.keyword
  check values :=
    if values.length = parameters.length then pure ()
    else fail (.loopArguments values.length parameters.length)
  body values := do evaluate body (← openScope c parameters values) .tail
  wrongResult := .loopResult

/-- Apply a value to arguments; `operator` is what stood at the head of the call. -/
def apply (setting : Setting) (evaluate : Evaluator) (operator : Form) (function : Value)
    (arguments : List Value) : Evaluation Value :=
  match function with
  | .native n _ => do
    expectCount n.name arguments.length n.arity
    ofFault (n.call arguments)
  | .function f =>
    if f.kind = .recursive then (Loop.ofFunction evaluate f).run setting.limits.steps arguments
    else do
      expectCount f.name arguments.length f.parameters.length
      evaluate f.body (← openScope f.context f.parameters arguments) .value
  | _ => fail (.notAFunction operator)

end DottedLisp.Evaluation
