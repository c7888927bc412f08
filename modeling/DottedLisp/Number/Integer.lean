import DottedLisp.Number.Binary64

/-!
# Numbers and integers

Rounding a number to an integer, and the 64-bit word of a number. Every rounding goes to an exact
integer first and back by `ofInt`, so **a zero result is positive**; infinities and NaN have no
integer and stay what they are.
-/

namespace DottedLisp.Number

/-! ### Rounding to an integer -/

/-- Which integer near a quotient is meant. -/
inductive Rounding where
  /-- The least integer not below. -/
  | up
  /-- The greatest integer not above. -/
  | down
  /-- The integer part. -/
  | towardZero
  /-- The nearest integer, a half going to the even neighbour. -/
  | toNearest
  deriving Repr, DecidableEq

/-- Round `± magnitude / divisor` to an integer. -/
def Rounding.quotient (r : Rounding) (negative : Bool) (magnitude divisor : Nat) : Int :=
  match r with
  | .up => -(-(signed negative magnitude) / (divisor : Int))
  | .down => signed negative magnitude / (divisor : Int)
  | .towardZero => signed negative (magnitude / divisor)
  | .toNearest => signed negative (roundQuotient magnitude divisor)

/-- Round a number to an integer; `none` for infinities and NaN. -/
def toInt? (r : Rounding) (x : Float) : Option Int :=
  match read x with
  | .finite negative significand unit =>
    some (r.quotient negative (significand <<< unit) scale)
  | _ => none

/-- Round a number to a number that stands for an integer. -/
def roundToInteger (r : Rounding) (x : Float) : Float :=
  match toInt? r x with
  | some n => ofInt n
  | none => x

/-! ### Words -/

/-- How many 64-bit words there are. -/
def wordCount : Nat := 1 <<< 64

/-- The integer of 64 bits that a number stands for, read with a sign: the integer part, wrapped
into `[-2 ^ 63, 2 ^ 63)`. Infinities and NaN give zero. -/
def toSigned (x : Float) : Int :=
  ((toInt? .towardZero x).getD 0).bmod wordCount

/-- The same 64 bits read without a sign. -/
def toUnsigned (x : Float) : Nat :=
  (toSigned x % wordCount).toNat

/-- The 64-bit word of a number. -/
def toWord (x : Float) : BitVec 64 :=
  BitVec.ofInt 64 (toSigned x)

/-- The number of any integer, wrapped to 64 bits and read with a sign. -/
def ofWrapped (n : Int) : Float :=
  ofInt (n.bmod wordCount)

/-- The number of a word read with a sign. -/
def ofWord (w : BitVec 64) : Float :=
  ofInt w.toInt

/-- A shift amount is taken from the low six bits. -/
def shiftAmount (x : Float) : Nat :=
  toUnsigned x % 64

example : roundToInteger .toNearest 2.5 = 2.0 ∧ roundToInteger .up (-0.5) = 0.0 := by
  decide +kernel

example : toSigned (-1.5) = -1 ∧ toUnsigned (-1.0) = 0xffffffffffffffff ∧ toSigned 1e300 = 0 := by
  decide +kernel

end DottedLisp.Number
