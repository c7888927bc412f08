import DottedLisp.Number.Binary64

/-!
# Shortest decimals and the text of a number

A number is written with the **fewest digits that read back** as the same number, and among those
the nearest. The search goes through the grids of one, two, … seventeen digits and tests the two
neighbours of the value on each grid against the interval of reals that round to the number.

The layout — where positional notation ends, how an exponent is written — is one record, `layout`.
-/

namespace DottedLisp.Number

/-! ### The digits -/

/-- A decimal `digits · 10 ^ exponent`, where `exponent` belongs to the **first** digit:
`d₁.d₂d₃… · 10 ^ exponent`. -/
structure Decimal where
  /-- The digits as one integer, no trailing zero. -/
  digits : Nat
  /-- The power of ten of the first digit. -/
  exponent : Int
  deriving Repr, DecidableEq

/-- The reals that round to a number, over `4 · scale`: the value, the two ends, and whether the
ends belong to it. The lower end is nearer below a power of two. -/
structure Interval where
  /-- The value itself. -/
  value : Nat
  /-- The lower end. -/
  low : Nat
  /-- The upper end. -/
  high : Nat
  /-- An even significand wins its ties. -/
  closed : Bool

/-- The interval of a finite number. -/
def Interval.of (significand unit : Nat) : Interval where
  value := (4 * significand) <<< unit
  low :=
    if significand = leadingBit && unit ≠ 0 then (4 * significand - 1) <<< unit
    else (4 * significand - 2) <<< unit
  high := (4 * significand + 2) <<< unit
  closed := significand % 2 = 0

/-- Whether `numerator / (4 · scale · factor)` lies in the interval. -/
def Interval.holds (i : Interval) (numerator factor : Nat) : Bool :=
  if i.closed then i.low * factor ≤ numerator && numerator ≤ i.high * factor
  else i.low * factor < numerator && numerator < i.high * factor

/-- How many decimal digits a positive integer has. -/
def digitCount (n : Nat) : Nat :=
  (Nat.toDigits 10 n).length

/-- The power of ten of the first digit of a positive `numerator / (4 · scale)`. -/
def Interval.leading (i : Interval) : Int :=
  (digitCount (i.value * Nat.pow 10 400 / (4 * scale)) : Int) - 401

/-- A decimal on the grid of `count` digits that reads back, if there is one; of two, the nearer,
and of two equally near the even one. -/
def Interval.onGrid? (i : Interval) (count : Nat) : Option Decimal :=
  let leading := i.leading
  let step : Int := leading - count + 1
  let factor := Nat.pow 10 (-step).toNat
  let divisor := 4 * scale * Nat.pow 10 step.toNat
  let below := i.value * factor / divisor
  let hitBelow := 0 < below && i.holds (below * divisor) factor
  let hitAbove := i.holds ((below + 1) * divisor) factor
  let choice :=
    if hitBelow && hitAbove then some (roundQuotient (i.value * factor) divisor)
    else if hitBelow then some below
    else if hitAbove then some (below + 1)
    else none
  choice.map fun digits =>
    -- The upper neighbour may be the next power of ten.
    ⟨digits, leading + (digitCount digits - count)⟩

/-- Drop trailing zeros; at most `fuel` of them. -/
def dropZeros : Nat → Nat → Nat
  | 0, n => n
  | fuel + 1, n => if n % 10 = 0 && n ≠ 0 then dropZeros fuel (n / 10) else n

/-- The fewest digits that read back as the number. Seventeen are always enough. -/
def shortest (significand unit : Nat) : Decimal :=
  let i := Interval.of significand unit
  match (List.range 17).findSome? fun n => i.onGrid? (n + 1) with
  | some d => { d with digits := dropZeros 17 d.digits }
  | none => ⟨i.value * Nat.pow 10 16 / (4 * scale), 0⟩

/-! ### The text -/

/-- How numbers are laid out. -/
structure Layout where
  /-- The least exponent that is written without an exponent mark. -/
  leastPositional : Int
  /-- The first exponent beyond those written without an exponent mark. -/
  beyondPositional : Int
  /-- The least number of digits of a written exponent. -/
  exponentDigits : Nat

/-- Numbers from `0.0001` up to below `10 ^ 16` are written **positionally and always with a
point**; the others have one digit before the point and a signed exponent of at least two digits. -/
def layout : Layout := ⟨-4, 16, 2⟩

/-- A text padded with zeros on the left. -/
def padLeft (width : Nat) (cs : List Char) : List Char :=
  List.replicate (width - cs.length) '0' ++ cs

/-- A text padded with zeros on the right. -/
def padRight (width : Nat) (cs : List Char) : List Char :=
  cs ++ List.replicate (width - cs.length) '0'

/-- Lay out a decimal. -/
def Layout.render (l : Layout) (d : Decimal) : List Char :=
  let digits := Nat.toDigits 10 d.digits
  if l.leastPositional ≤ d.exponent && d.exponent < l.beyondPositional then
    if d.exponent < 0 then
      '0' :: '.' :: List.replicate (-d.exponent - 1).toNat '0' ++ digits
    else
      let whole := d.exponent.toNat + 1
      let padded := padRight (whole + 1) digits
      padded.take whole ++ '.' :: padded.drop whole
  else
    let mantissa :=
      match digits with
      | first :: second :: rest => first :: '.' :: second :: rest
      | short => short
    let sign := if d.exponent < 0 then '-' else '+'
    mantissa ++ 'e' :: sign :: padLeft l.exponentDigits (Nat.toDigits 10 d.exponent.natAbs)

/-- The text of a number. -/
def text (x : Float) : String :=
  match read x with
  | .nan => "nan"
  | .infinite negative => if negative then "-inf" else "inf"
  | .finite negative significand unit =>
    let body :=
      if significand = 0 then ['0', '.', '0'] else layout.render (shortest significand unit)
    String.ofList (if negative then '-' :: body else body)

example : text 0.1 = "0.1" ∧ text 1e16 = "1e+16" ∧ text (-0.0) = "-0.0" ∧ text 1e-5 = "1e-05" := by
  decide +kernel

end DottedLisp.Number
