import DottedLisp.Number.Binary64

/-!
# The truncated remainder

What is left of the dividend after taking the divisor away a whole number of times, with the sign of
the **dividend**. The remainder of two finite numbers is itself a number, so nothing is rounded.
-/

namespace DottedLisp.Number

/-- The truncated remainder. It is NaN for a zero divisor, an infinite dividend or a NaN; an
infinite divisor leaves a finite dividend as it is. -/
def remainder (dividend divisor : Float) : Float :=
  match read dividend, read divisor with
  | .finite negative a unit, .finite _ b unit' =>
    if b = 0 then notANumber
    else nearest negative (a <<< unit % b <<< unit') scale
  | .finite .., .infinite _ => dividend
  | _, _ => notANumber

example : remainder 5.5 2.0 = 1.5 ∧ remainder (-5.0) 3.0 = -2.0 ∧ remainder (-4.0) 2.0 = -0.0 := by
  decide +kernel

end DottedLisp.Number
