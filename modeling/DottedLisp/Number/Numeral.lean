import DottedLisp.Number.Binary64
import DottedLisp.Text.DecimalDigit

/-!
# Numerals

The texts that are read as numbers: an optional sign, decimal digits with an optional point among,
before or after them, and an optional exponent. Any other text is no numeral. Digits may come from
any script.

The value is the number nearest to the exact decimal value, however long the numeral is.
-/

namespace DottedLisp.Number

/-- An exact decimal value: `± coefficient · 10 ^ exponent`. -/
structure Numeral where
  /-- Whether a minus sign stands in front. -/
  negative : Bool
  /-- All digits, the point left out. -/
  coefficient : Nat
  /-- The power of ten, the digits after the point taken into account. -/
  exponent : Int
  deriving Repr, DecidableEq

namespace Numeral

/-- Take an optional sign off the front; the answer says whether it is a minus. -/
def takeSign : List Char → Bool × List Char
  | '-' :: rest => (true, rest)
  | '+' :: rest => (false, rest)
  | cs => (false, cs)

/-- The number that digits write, most significant first. -/
def ofDigits (digits : List Nat) : Nat :=
  digits.foldl (fun n d => 10 * n + d) 0

/-- The exponent part: nothing, or a mark, an optional sign and at least one digit. -/
def exponentPart? : List Char → Option Int
  | [] => some 0
  | mark :: rest =>
    if mark = 'e' || mark = 'E' then
      let (negative, rest) := takeSign rest
      match Text.spanDigits rest with
      | ([], _) => none
      | (digits, []) => some (signed negative (ofDigits digits))
      | (_, _ :: _) => none
    else none

/-- The digits after a point, if a point comes next. -/
def fractionPart : List Char → List Nat × List Char
  | '.' :: rest => Text.spanDigits rest
  | cs => ([], cs)

/-- Read a whole text as a numeral. -/
def ofChars? (cs : List Char) : Option Numeral :=
  let (negative, cs) := takeSign cs
  let (whole, cs) := Text.spanDigits cs
  let (fraction, cs) := fractionPart cs
  if whole.isEmpty && fraction.isEmpty then none
  else (exponentPart? cs).map fun exponent =>
    ⟨negative, ofDigits (whole ++ fraction), exponent - fraction.length⟩

/-- The number nearest to a numeral. A numeral whose first digit stands far beyond the range of the
format is infinite or zero without its power of ten being computed. -/
def toFloat (n : Numeral) : Float :=
  if n.coefficient = 0 then zero n.negative
  else
    let magnitude := (Nat.toDigits 10 n.coefficient).length + n.exponent
    if magnitude > 400 then infinity n.negative
    else if magnitude < -400 then zero n.negative
    else
      nearest n.negative (n.coefficient * Nat.pow 10 n.exponent.toNat)
        (Nat.pow 10 (-n.exponent).toNat)

end Numeral

/-- Read a text as a number, if it is a numeral. -/
def ofText? (s : String) : Option Float :=
  (Numeral.ofChars? s.toList).map Numeral.toFloat

example : ofText? "-12.5e1" = some (-125.0) ∧ ofText? ".5" = some 0.5 := by decide +kernel

example : ofText? "1." = some 1.0 := by decide +kernel

example : ofText? "." = none ∧ ofText? "1e" = none ∧ ofText? "inf" = none ∧ ofText? "-" = none := by
  decide +kernel

end DottedLisp.Number
