/-!
# Binary64 numbers, read exactly

The one numeric type of the language is the binary64 number, `Float`. Sums, products, quotients,
roots and comparisons are `Float`'s own. Everything that leaves the format — integers, remainders,
numerals, printed digits — goes through the exact reading of a number given here:

```
value of (finite negative significand unit) = ± significand · 2 ^ unit / scale,   scale = 2 ^ 1074
```

Both fields are natural numbers, so exact work on numbers is arithmetic on `Nat` and `Int` over one
fixed denominator. Powers of two are written as shifts throughout. The way back is `nearest`, which
rounds **once**, to the nearest number and to an even significand where two are equally near.

Nothing is claimed about the payload of a NaN: all of them read as `nan`.
-/

namespace DottedLisp.Number

/-- What a number stands for. -/
inductive Reading where
  /-- Not a number. -/
  | nan
  /-- An infinity with its sign. -/
  | infinite (negative : Bool)
  /-- The number `± significand · 2 ^ unit / scale`; a zero keeps its sign. -/
  | finite (negative : Bool) (significand unit : Nat)
  deriving Repr, DecidableEq

/-- Every finite number is an integer over this denominator. -/
def scale : Nat := 1 <<< 1074

/-- The leading bit of a significand of 53 bits. -/
def leadingBit : Nat := 1 <<< 52

/-- The exponent field of infinities and NaN. -/
def lastField : Nat := 2047

/-- Read the sign, exponent and fraction fields of a 64-bit pattern. -/
def Reading.ofBits (bits : Nat) : Reading :=
  let negative := decide (1 <<< 63 ≤ bits)
  let field := bits >>> 52 % 2048
  let fraction := bits % leadingBit
  if field = lastField then
    if fraction = 0 then .infinite negative else .nan
  else if field = 0 then .finite negative fraction 0
  else .finite negative (leadingBit + fraction) (field - 1)

/-- Read a number. -/
def read (x : Float) : Reading :=
  .ofBits x.toBits.toNat

/-- A signed integer with the given magnitude. -/
def signed (negative : Bool) (magnitude : Nat) : Int :=
  if negative then -(magnitude : Int) else magnitude

/-- The numerator of a finite number over `scale`. -/
def scaled (negative : Bool) (significand unit : Nat) : Int :=
  signed negative (significand <<< unit)

/-! ### The way back -/

/-- The quotient rounded to the nearest integer, a half going to the **even** neighbour. -/
def roundQuotient (dividend divisor : Nat) : Nat :=
  let whole := dividend / divisor
  let twice := 2 * (dividend % divisor)
  if twice < divisor then whole
  else if divisor < twice then whole + 1
  else whole + whole % 2

/-- The bit pattern of infinity. -/
def infinityBits : Nat := lastField <<< 52

/-- The number `± significand · 2 ^ unit / scale`, for a significand of at most 53 bits (or the
power of two beyond them) that has its leading bit unless the unit is zero. The two fields of the
pattern simply **add up**, since the leading bit is worth one step of the exponent field; beyond the
last finite number the pattern is that of infinity. -/
def assemble (negative : Bool) (significand unit : Nat) : Float :=
  let magnitude := min (unit <<< 52 + significand) infinityBits
  Float.ofBits (UInt64.ofNat (if negative then 1 <<< 63 + magnitude else magnitude))

/-- The unit in which the fraction `numerator / denominator` has 53 bits, or the smallest one. -/
def unitOf (numerator denominator : Nat) : Nat :=
  (numerator * scale / denominator).log2 - 52

/-- The number **nearest** to `± numerator / denominator`. -/
def nearest (negative : Bool) (numerator denominator : Nat) : Float :=
  let unit := unitOf numerator denominator
  assemble negative (roundQuotient (numerator * scale) (denominator <<< unit)) unit

/-- The number nearest to an integer; zero is positive. -/
def ofInt (n : Int) : Float :=
  nearest (decide (n < 0)) n.natAbs 1

/-- Zero with a sign. -/
def zero (negative : Bool) : Float :=
  assemble negative 0 0

/-- Infinity with a sign. -/
def infinity (negative : Bool) : Float :=
  assemble negative infinityBits 0

/-- The number that is not one. -/
def notANumber : Float :=
  Float.ofBits 0x7ff8000000000000

/-! ### The rounding rule -/

/-- Rounding is off by at most half the divisor. -/
theorem two_mul_roundQuotient_mul_le (dividend divisor : Nat) :
    2 * (roundQuotient dividend divisor * divisor) ≤ 2 * dividend + divisor := by
  have hdiv := Nat.div_add_mod dividend divisor
  have hcomm := Nat.mul_comm divisor (dividend / divisor)
  unfold roundQuotient
  dsimp only
  split
  · omega
  · split
    · rw [Nat.add_mul]; omega
    · rcases Nat.mod_two_eq_zero_or_one (dividend / divisor) with h | h
      · rw [h, Nat.add_zero]; omega
      · rw [h, Nat.add_mul]; omega

/-- The rounded quotient is at most half a divisor too small. -/
theorem two_mul_le_two_mul_roundQuotient_mul_add (dividend : Nat) {divisor : Nat}
    (h : 0 < divisor) :
    2 * dividend ≤ 2 * (roundQuotient dividend divisor * divisor) + divisor := by
  have hdiv := Nat.div_add_mod dividend divisor
  have hcomm := Nat.mul_comm divisor (dividend / divisor)
  have hlt := Nat.mod_lt dividend h
  unfold roundQuotient
  dsimp only
  split
  · omega
  · split
    · rw [Nat.add_mul]; omega
    · rcases Nat.mod_two_eq_zero_or_one (dividend / divisor) with h | h
      · rw [h, Nat.add_zero]; omega
      · rw [h, Nat.add_mul]; omega

/-- A quotient without remainder is not rounded. -/
theorem roundQuotient_mul (n : Nat) {divisor : Nat} (h : 0 < divisor) :
    roundQuotient (n * divisor) divisor = n := by
  simp [roundQuotient, Nat.mul_div_cancel _ h, h]

example : read 1.0 = .finite false leadingBit 1022 ∧ read (-0.0) = .finite true 0 0 := by
  decide +kernel

example : ofInt 3 = 3.0 ∧ ofInt (-1) = -1.0 ∧ nearest false 1 10 = 0.1 := by
  decide +kernel

end DottedLisp.Number
