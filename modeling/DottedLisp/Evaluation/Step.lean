import DottedLisp.Evaluation.Special

/-!
# The evaluator

One step of evaluation says what a form means in terms of the forms inside it; the evaluator of
depth `n + 1` is a step over the evaluator of depth `n`, and that of depth zero always fails. So
every fact about evaluation is a fact about one step, carried up by induction on the depth.
-/

namespace DottedLisp.Evaluation

/-- Refuse a signal where a value is needed. -/
def expectValue (form : SpecialForm) (position : Position) (value : Value) : Evaluation Value :=
  if position = .value && value.isSignal then fail (.strayed form.keyword) else pure value

/-- What a form means, given what the forms inside it mean. -/
def step (setting : Setting) (evaluate : Evaluator) : Evaluator := fun form c position =>
  match form with
  | .number value => return .number value
  | .symbol name => lookup c name
  | .list [] => fail (.meaningless form)
  | .list (head :: operands) =>
    match head.special? with
    | some keyword => do
      expectValue keyword position (← special setting evaluate keyword operands c position)
    | none => do
      let function ← evaluate head c .value
      let arguments ← values evaluate c operands
      apply setting evaluate head function arguments

/-- The evaluator that nests at most `depth` evaluations. -/
def evaluate (setting : Setting) : Nat → Evaluator
  | 0 => fun _ _ _ => throw .depthExceeded
  | depth + 1 => step setting (evaluate setting depth)

@[simp] theorem evaluate_zero (setting : Setting) (form : Form) (c : Context)
    (position : Position) :
    evaluate setting 0 form c position = throw .depthExceeded := rfl

/-- With depth left, an evaluation is one step whose nested evaluations have one less. -/
theorem evaluate_succ (setting : Setting) (depth : Nat) :
    evaluate setting (depth + 1) = step setting (evaluate setting depth) := rfl

end DottedLisp.Evaluation
