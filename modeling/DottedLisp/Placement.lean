import DottedLisp.Fault
import DottedLisp.SpecialForm

/-!
# Placement of loop exits

Every control path through the body of a loop or of a recursive function ends in `break` or `recur`,
and these words stand nowhere else. A form is in **tail position** if it is such a body, a branch of
a conditional in tail position, or the last form of a block in tail position; every other form that
is evaluated is in **value position**.

The check runs before evaluation and nests at most as deep as its limit. Malformed special forms
pass where evaluation will refuse them: parameter lists hold names only and are not looked at, and
of a malformed conditional in tail position only the condition is.
-/

namespace DottedLisp

/-- What a form is evaluated for. -/
inductive Position where
  /-- Its value. -/
  | value
  /-- Its value, or the signal that ends a control path of a loop. -/
  | tail
  deriving Repr, DecidableEq

namespace Placement

/-- Refuse a form. -/
def refuse (violation : Violation) : Except Failure Unit :=
  .error (.fault (.placement violation))

mutual

/-- Check a form in value position. -/
def checkValue : Nat → Form → Except Failure Unit
  | 0, _ => .error .depthExceeded
  | _, .number _ | _, .symbol _ | _, .list [] => .ok ()
  | depth + 1, .list (head :: operands) =>
    match head.special?, operands with
    | some .leave, _ => refuse (.misplaced SpecialForm.leave.keyword)
    | some .again, _ => refuse (.misplaced SpecialForm.again.keyword)
    | some .loop, [_, .list initials, body] => do
      initials.forM (checkValue depth)
      checkTail depth SpecialForm.loop.keyword body
    | some .loop, [_, _, body] => checkTail depth SpecialForm.loop.keyword body
    | some .recursiveFunction, [name, _, body] => checkTail depth name.text body
    | some .closure, [_, body] => checkValue depth body
    | some .function, [_, _, body] => checkValue depth body
    | _, _ => (head :: operands).forM (checkValue depth)

/-- Check a form in tail position of the owner's body. -/
def checkTail : Nat → String → Form → Except Failure Unit
  | 0, _, _ => .error .depthExceeded
  | _, owner, .number _ | _, owner, .symbol _ | _, owner, .list [] => refuse (.unended owner)
  | depth + 1, owner, .list (head :: operands) =>
    match head.special?, operands with
    | some .leave, _ | some .again, _ => operands.forM (checkValue depth)
    | some .conditional, [condition, yes, no] => do
      checkValue depth condition
      checkTail depth owner yes
      checkTail depth owner no
    | some .conditional, condition :: _ => checkValue depth condition
    | some .conditional, [] => .ok ()
    | some .block, first :: rest => do
      ((first :: rest).dropLast).forM (checkValue depth)
      checkTail depth owner ((first :: rest).getLast (List.cons_ne_nil first rest))
    | _, _ => refuse (.unended owner)

end

/-- Check a whole form. -/
def check (depth : Nat) (form : Form) : Except Failure Unit :=
  checkValue depth form

end Placement

end DottedLisp
