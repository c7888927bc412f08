import DottedLisp.Proofs.Numbers.Exceptional
import DottedLisp.Proofs.Numbers.IntegerRounding
import DottedLisp.Proofs.Translation

/-!
# Native calls refuse in the language only

Native functions are made of operations that are **partial**: there is no quotient by zero, no root
of what is below zero, no integer for an infinity. Such an operation, used where it is not defined,
raises an error that nothing in a call of a native function catches; an operand of a wrong kind, in
contrast, is caught and reported by the name of the function.

`Operation.run` does not show this, since its numbers have a result everywhere. Here every operation
is given once more over the partial ones, with its guards in the open and in their order
(`Operation.guarded`), and it is the same operation (`guarded_eq`). So the guards are enough, on all
arguments: zeros of both signs, infinities and NaN, and values that are no numbers.

Main statement: `Native.call_confined`.
-/

namespace DottedLisp

open Number

/-- Why operands are refused. -/
inductive Refusal where
  /-- One is no number where a number is needed, or their count is wrong. -/
  | kind
  /-- They are numbers, and the operation is not defined for them. -/
  | domain
  /-- Nothing is computed at all: the function is declared only. -/
  | undefined
  deriving DecidableEq

/-! ### Partial operations -/

namespace Partial

/-- The number that an operand is. -/
def number : Value → Except Refusal Float
  | .number x => .ok x
  | _ => .error .kind

/-- The quotient; not by zero. -/
def quotient (a b : Value) : Except Refusal Float := do
  let x ← number a
  let y ← number b
  if y == 0.0 then .error .domain else .ok (x / y)

/-- The remainder; not of an infinity and not by zero. -/
def remainder (a b : Value) : Except Refusal Float := do
  let x ← number a
  let y ← number b
  if x.isInf || y == 0.0 then .error .domain else .ok (Number.remainder x y)

/-- The square root; not of what is below zero. -/
def root (a : Value) : Except Refusal Float := do
  let x ← number a
  if x < 0.0 then .error .domain else .ok x.sqrt

/-- The integer that a number is rounded to; not for infinities and NaN. -/
def integer (r : Rounding) (a : Value) : Except Refusal ℤ := do
  let x ← number a
  match toInt? r x with
  | some n => .ok n
  | none => .error .domain

/-- The number of an integer; not where it is too large for a finite one. -/
def ofInteger (n : ℤ) : Except Refusal Float :=
  if (ofInt n).isFinite then .ok (ofInt n) else .error .domain

/-- A shift of an integer; not by a negative amount. -/
def shift (f : ℤ → Nat → ℤ) (n amount : ℤ) : Except Refusal ℤ :=
  if amount < 0 then .error .domain else .ok (f n amount.toNat)

end Partial

/-! ### The guards -/

namespace Guarded

open Partial (number)

/-- A divisor of zero is looked at first. -/
def quotient (a b : Value) : Except Refusal Float :=
  if b.same (.number 0.0) then
    if a.same (.number 0.0) then .ok notANumber
    else do
      if (← number a).isNaN then .ok notANumber
      else return copySign (infinity false) (← number a) * copySign 1.0 (← number b)
  else Partial.quotient a b

/-- A divisor of zero is looked at first, and the dividend only after it. -/
def remainder (a b : Value) : Except Refusal Float :=
  if b.same (.number 0.0) then .ok notANumber
  else do
    if (← number a).isInf then .ok notANumber else Partial.remainder a b

/-- NaN is not at least zero either. -/
def root (a : Value) : Except Refusal Float := do
  if 0.0 ≤ (← number a) then Partial.root a else .ok notANumber

/-- An infinity and NaN are given back. -/
def rounded (r : Rounding) (a : Value) : Except Refusal Float := do
  if (← number a).isFinite then Partial.ofInteger (← Partial.integer r a) else number a

/-- The signed integer of 64 bits; zero for infinities and NaN. -/
def signedWord (a : Value) : Except Refusal ℤ := do
  if (← number a).isFinite then return (← Partial.integer .towardZero a).bmod wordCount
  else return 0

/-- The same bits without a sign. -/
def unsignedWord (a : Value) : Except Refusal ℤ := do
  return (← signedWord a) % wordCount

/-- The number of an integer that is wrapped first. -/
def wrapped (n : ℤ) : Except Refusal Float :=
  Partial.ofInteger (n.bmod wordCount)

/-- The number of a truth value. -/
def boolean (b : Bool) : Float :=
  if b then 1.0 else 0.0

/-- What is defined for every number. -/
def mapped (f : Float → Float) (a : Value) : Except Refusal Float := do
  return f (← number a)

/-- What is defined for every two numbers. -/
def total (f : Float → Float → Float) (a b : Value) : Except Refusal Float := do
  return f (← number a) (← number b)

/-- What is defined for signed integers. -/
def onSigned (f : ℤ → ℤ → Except Refusal Float) (a b : Value) : Except Refusal Float := do
  f (← signedWord a) (← signedWord b)

/-- A test of two numbers. -/
def compared (f : Float → Float → Bool) : Value → Value → Except Refusal Float :=
  total fun x y => boolean (f x y)

/-- An operation on signed integers. -/
def bitwise (f : ℤ → ℤ → ℤ) : Value → Value → Except Refusal Float :=
  onSigned fun m n => wrapped (f m n)

/-- A test of two signed integers. -/
def tested (f : ℤ → ℤ → ℤ) : Value → Value → Except Refusal Float :=
  onSigned fun m n => .ok (boolean (f m n ≠ 0))

/-- A shift by the low six bits, of an integer with or without a sign. -/
def shifted (word : Value → Except Refusal ℤ) (f : ℤ → Nat → ℤ) (a b : Value) :
    Except Refusal Float := do
  wrapped (← Partial.shift f (← word a) ((← unsignedWord b) % 64))

/-- A function of one operand. -/
def unary (f : Value → Except Refusal Float) : List Value → Except Refusal Value
  | [a] => .number <$> f a
  | _ => .error .kind

/-- A function of two operands. -/
def binary (f : Value → Value → Except Refusal Float) : List Value → Except Refusal Value
  | [a, b] => .number <$> f a b
  | _ => .error .kind

end Guarded

namespace Operation

open Guarded

/-- **The operations over partial ones.** -/
def guarded : Operation → List Value → Except Refusal Value
  | add => binary (total (· + ·))
  | subtract => binary (total (· - ·))
  | multiply => binary (total (· * ·))
  | divide => binary Guarded.quotient
  | remainder => binary Guarded.remainder
  | bitAnd => binary (bitwise Int.land)
  | bitOr => binary (bitwise Int.lor)
  | bitXor => binary (bitwise Int.xor)
  | shiftLeft => binary (shifted signedWord (· <<< ·))
  | shiftRight => binary (shifted signedWord (· >>> ·))
  | shiftRightUnsigned => binary (shifted unsignedWord (· >>> ·))
  | equal => binary fun a b => return boolean (a.same b)
  | unequal => binary fun a b => return boolean (!a.same b)
  | less => binary (compared (· < ·))
  | greater => binary (compared (· > ·))
  | lessEqual => binary (compared (· ≤ ·))
  | greaterEqual => binary (compared (· ≥ ·))
  | absolute => unary (mapped Float.abs)
  | negate => unary (mapped Float.neg)
  | ceiling => unary (rounded .up)
  | floor => unary (rounded .down)
  | truncate => unary (rounded .towardZero)
  | nearest => unary (rounded .toNearest)
  | squareRoot => unary Guarded.root
  | itself => fun
    | [value] => .ok value
    | _ => .error .kind
  | logicalAnd => binary (tested Int.land)
  | logicalOr => binary (tested Int.lor)
  | logicalNot => unary fun a => return boolean (a.same (.number 0.0))
  | declared => fun _ => .error .undefined

end Operation

/-! ### Within the domain -/

namespace Guarded

open Partial (number)

variable {a b : Value} {x y : Float} {n : ℤ}

/-- A value is a number, or it is none and does not equal zero. -/
theorem number_or (a : Value) :
    (∃ x, a = .number x) ∨ number a = .error .kind ∧ a.same (.number 0.0) = false := by
  match a with
  | .number x => exact Or.inl ⟨x, rfl⟩
  | .nothing | .native .. | .function _ | .signal .. => exact Or.inr ⟨rfl, rfl⟩

theorem number_bind {α : Type} (x : Float) (f : Float → Except Refusal α) :
    number (.number x) >>= f = f x := rfl

theorem ok_bind {α β : Type} (a : α) (f : α → Except Refusal β) : Except.ok a >>= f = f a := rfl

theorem same_zero (x : Float) : (Value.number x).same (.number 0.0) = (x == 0.0) := rfl

/-- Between numbers the quotient is that of the host: where the host would refuse to divide, the
guard answers before it. -/
theorem quotient_number (x y : Float) : quotient (.number x) (.number y) = .ok (x / y) := by
  rw [quotient, same_zero, same_zero]
  simp only [Partial.quotient, number_bind]
  split
  · split
    · rw [div_zero_of_zero (Or.inl ‹_›) ‹_›]
    · split
      · rw [div_zero_of_zero (Or.inr ‹_›) ‹_›]
      · exact congrArg Except.ok (div_zero_of_ne_zero ‹_› ‹_› ‹_›).symm
  · rfl

/-- So it is with the remainder. -/
theorem remainder_number (x y : Float) :
    remainder (.number x) (.number y) = .ok (Number.remainder x y) := by
  rw [remainder, same_zero]
  simp only [Partial.remainder, number_bind]
  split
  · rw [remainder_of_zero x ‹_›]
  · split
    · rw [remainder_of_infinite ‹_› y]
    · rw [if_neg (by simp [*])]

/-- The root of a number below zero is answered by the guard. -/
theorem root_number (x : Float) : root (.number x) = .ok x.sqrt := by
  simp only [root, Partial.root, number_bind]
  split
  · rw [if_neg (not_lt_zero_of_le ‹_›)]
  · rw [sqrt_of_not_le ‹_›]

/-! #### Integers -/

/-- An integer can be taken from a number that has one. -/
theorem integer_eq_ok {r : Rounding} (h : toInt? r x = some n) :
    Partial.integer r (.number x) = .ok n := by
  simp only [Partial.integer, number_bind, h]

/-- An integer can be made a number if it does not run beyond the last. -/
theorem ofInteger_eq_ok {q : ℚ} (h : value? (ofInt n) = some q) :
    Partial.ofInteger n = .ok (ofInt n) :=
  if_pos (isFinite_iff.2 ⟨q, h⟩)

/-- A number is finite and rounded to an integer, or it is not finite and to none. -/
theorem finite_or (r : Rounding) (x : Float) :
    (∃ q n, x.isFinite = true ∧ value? x = some q ∧ toInt? r x = some n ∧ r.Takes q n) ∨
      ¬ x.isFinite = true ∧ toInt? r x = none := by
  cases hx : value? x with
  | none =>
    refine Or.inr ⟨fun hfinite ↦ ?_, toInt?_of_value_eq_none r hx⟩
    obtain ⟨q, hq⟩ := isFinite_iff.1 hfinite
    rw [hx] at hq
    cases hq
  | some q =>
    obtain ⟨n, htoInt, htakes⟩ := exists_toInt? r hx
    exact Or.inl ⟨q, n, isFinite_iff.2 ⟨q, hx⟩, rfl, htoInt, htakes⟩

/-- Rounding goes by way of integers for finite numbers only, and comes back within their range. -/
theorem rounded_number (r : Rounding) (x : Float) :
    rounded r (.number x) = .ok (roundToInteger r x) := by
  rw [rounded, number_bind, roundToInteger]
  obtain ⟨q, n, hfinite, hx, htoInt, htakes⟩ | ⟨hinfinite, htoInt⟩ := finite_or r x
  · rw [if_pos hfinite, integer_eq_ok htoInt, htoInt]
    exact ofInteger_eq_ok (value?_ofInt_of_takes hx htakes)
  · rw [if_neg hinfinite, htoInt]
    rfl

/-- The word of a number is taken from its integer, or it is zero. -/
theorem signedWord_number (x : Float) : signedWord (.number x) = .ok (toSigned x) := by
  rw [signedWord, number_bind, toSigned]
  obtain ⟨q, n, hfinite, -, htoInt, -⟩ | ⟨hinfinite, htoInt⟩ := finite_or .towardZero x
  · rw [if_pos hfinite, integer_eq_ok htoInt, htoInt]
    rfl
  · rw [if_neg hinfinite, htoInt]
    rfl

theorem unsignedWord_number (x : Float) : unsignedWord (.number x) = .ok (toUnsigned x : ℤ) := by
  have hpos : (0 : ℤ) < wordCount := by decide
  rw [unsignedWord, signedWord_number, toUnsigned,
    Int.toNat_of_nonneg (Int.emod_nonneg _ hpos.ne')]
  exact ok_bind _ _

/-- A wrapped integer is never too large. -/
theorem wrapped_eq (n : ℤ) : wrapped n = .ok (ofWrapped n) := by
  have hrounds := rounds_ofWord (BitVec.ofInt 64 n)
  rw [← ofWrapped_eq] at hrounds
  obtain ⟨q, hq⟩ := hrounds.finite
  exact ofInteger_eq_ok hq

/-- On numbers the operation is one of integers. -/
theorem onSigned_number (f : ℤ → ℤ → Except Refusal Float) (x y : Float) :
    onSigned f (.number x) (.number y) = f (toSigned x) (toSigned y) := by
  rw [onSigned, signedWord_number, signedWord_number, ok_bind, ok_bind]

/-- The amount of a shift is never negative. -/
theorem shifted_number {word : Value → Except Refusal ℤ} (hword : word (.number x) = .ok n)
    (f : ℤ → Nat → ℤ) (y : Float) :
    shifted word f (.number x) (.number y) = wrapped (f n (toUnsigned y % 64)) := by
  have hshift : Partial.shift f n ((toUnsigned y : ℤ) % 64) = .ok (f n (toUnsigned y % 64)) :=
    if_neg (by omega)
  rw [shifted, hword, unsignedWord_number, ok_bind, ok_bind, hshift, ok_bind]

/-! #### Words -/

/-- A test of integers is one of words. -/
theorem boolean_signed {f : ℤ → ℤ → ℤ} {g : BitVec 64 → BitVec 64 → BitVec 64}
    {c : Bool → Bool → Bool}
    (hword : ∀ m n, BitVec.ofInt 64 (f m n) = g (.ofInt 64 m) (.ofInt 64 n))
    (hbit : ∀ m n i, (f m n).testBit i = c (m.testBit i) (n.testBit i)) (x y : Float) :
    boolean (f (toSigned x) (toSigned y) ≠ 0) = boolean (g (toWord x) (toWord y) != 0) := by
  have hzero : g (toWord x) (toWord y) = 0 ↔ f (toSigned x) (toSigned y) = 0 := by
    rw [toWord, toWord, ← hword]
    refine ofInt_eq_zero_iff fun i hi ↦ ?_
    rw [hbit, hbit, testBit_toSigned x hi, testBit_toSigned y hi]
  congr 1
  rw [bne, beq_eq_decide, decide_eq_decide.2 hzero, decide_not]

/-- What comes of words is a word again, so it can be made a number. -/
theorem wrapped_onIntegers (operation : BitOperation) (x y : Float) :
    wrapped (operation.onIntegers x y) =
      .ok (ofWord (operation.onWords (toWord x) (toWord y))) := by
  rw [wrapped_eq, ofWrapped_eq, BitOperation.ofInt_onIntegers]

/-! #### Operands of a wrong kind -/

theorem error_bind {α β : Type} (e : Refusal) (f : α → Except Refusal β) :
    Except.error e >>= f = .error e := rfl

/-- A function that gives a number for two numbers, and refuses everything else by its kind. -/
structure Numeric (f : Value → Value → Except Refusal Float) (g : Float → Float → Float) :
    Prop where
  /-- The number for two numbers. -/
  number : ∀ x y, f (.number x) (.number y) = .ok (g x y)
  /-- The first operand is no number. -/
  left : ∀ {a} b, Partial.number a = .error .kind → f a b = .error .kind
  /-- Only the second operand is no number. -/
  right : ∀ x {b}, Partial.number b = .error .kind → f (.number x) b = .error .kind

/-- What is no number is not equal to zero. -/
theorem not_same_zero (h : number a = .error .kind) : a.same (.number 0.0) = false := by
  obtain ⟨x, rfl⟩ | ⟨-, hsame⟩ := number_or a
  · cases h
  · exact hsame

theorem signedWord_kind (h : number a = .error .kind) : signedWord a = .error .kind := by
  rw [signedWord, h, error_bind]

theorem unsignedWord_kind (h : number a = .error .kind) : unsignedWord a = .error .kind := by
  rw [unsignedWord, signedWord_kind h, error_bind]

/-- An operation that the host carries out for all numbers. -/
theorem numeric_total (f : Float → Float → Float) : Numeric (total f) f where
  number _ _ := rfl
  left _ ha := by rw [total, ha, error_bind]
  right _ _ hb := by rw [total, number_bind, hb, error_bind]

/-- **Division** asks whether the divisor is zero, as only a number can be, and about the kinds of
the operands after that. -/
theorem numeric_quotient : Numeric quotient (· / ·) where
  number := quotient_number
  left b ha := by
    rw [quotient, not_same_zero ha, Partial.quotient, ha, error_bind, error_bind]
    exact ite_self _
  right x _ hb := by
    rw [quotient, not_same_zero hb]
    show Partial.quotient _ _ = _
    rw [Partial.quotient, number_bind, hb, error_bind]

/-- An operation on signed words, if it does not leave their range. -/
theorem numeric_onSigned {f : ℤ → ℤ → Except Refusal Float} {g : Float → Float → Float}
    (h : ∀ x y, f (toSigned x) (toSigned y) = .ok (g x y)) : Numeric (onSigned f) g where
  number x y := (onSigned_number f x y).trans (h x y)
  left _ ha := by rw [onSigned, signedWord_kind ha, error_bind]
  right _ _ hb := by rw [onSigned, signedWord_number, signedWord_kind hb, ok_bind, error_bind]

/-- A shift, if its result is wrapped. -/
theorem numeric_shifted {word : Value → Except Refusal ℤ} {m : Float → ℤ} {f : ℤ → Nat → ℤ}
    {g : Float → Float → Float} (hword : ∀ x, word (.number x) = .ok (m x))
    (hkind : ∀ a, number a = .error .kind → word a = .error .kind)
    (h : ∀ x y, wrapped (f (m x) (toUnsigned y % 64)) = .ok (g x y)) :
    Numeric (shifted word f) g where
  number x y := (shifted_number (hword x) f y).trans (h x y)
  left _ ha := by rw [shifted, hkind _ ha, error_bind]
  right _ _ hb := by rw [shifted, hword, unsignedWord_kind hb, ok_bind, error_bind]

/-! #### Lists of operands -/

/-- An operation on numbers has no answer for anything else. -/
theorem onNumbers_eq_none {g : Float → Float → Float} {arguments : List Value}
    (h : ∀ x y, arguments ≠ [.number x, .number y]) : Operation.onNumbers g arguments = none := by
  rw [Operation.onNumbers]
  exact h

/-- Such a function, called with a list of operands, refuses what an operation on numbers has no
answer for. -/
theorem binary_of_numeric {f : Value → Value → Except Refusal Float} {g : Float → Float → Float}
    (h : Numeric f g) (arguments : List Value) :
    binary f arguments = (Operation.onNumbers g arguments).elim (.error .kind) .ok := by
  by_cases hnumbers : ∃ x y, arguments = [.number x, .number y]
  · obtain ⟨x, y, rfl⟩ := hnumbers
    show Value.number <$> f (.number x) (.number y) = _
    rw [h.number]
    rfl
  · rw [onNumbers_eq_none fun x y hxy ↦ hnumbers ⟨x, y, hxy⟩]
    match arguments with
    -- A wrong number of operands is refused before their kinds are looked at.
    | [] | [_] | _ :: _ :: _ :: _ => rfl
    | [a, b] =>
      show Value.number <$> f a b = _
      obtain ⟨x, rfl⟩ | ⟨ha, -⟩ := number_or a
      · obtain ⟨y, rfl⟩ | ⟨hb, -⟩ := number_or b
        · exact absurd ⟨x, y, rfl⟩ hnumbers
        · rw [h.right x hb]
          rfl
      · rw [h.left b ha]
        rfl

/-- So does one with a single operand. -/
theorem unary_eq {f : Value → Except Refusal Float} {g : Float → Float}
    (hnumber : ∀ x, f (.number x) = .ok (g x))
    (hkind : ∀ a, number a = .error .kind → f a = .error .kind) (arguments : List Value) :
    unary f arguments = (Operation.onNumber g arguments).elim (.error .kind) .ok := by
  match arguments with
  | [] | .number _ :: _ :: _ | .nothing :: _ :: _ | .native .. :: _ :: _ | .function _ :: _ :: _
  | .signal .. :: _ :: _ => rfl
  | [.number x] =>
    show Value.number <$> f (.number x) = _
    rw [hnumber]
    rfl
  | [.nothing] | [.native ..] | [.function _] | [.signal ..] =>
    show Value.number <$> f _ = _
    rw [hkind _ rfl]
    rfl

theorem map_ite_ok (c : Prop) [Decidable c] (x : Float) :
    Value.number <$> (if c then Except.ok x else .error Refusal.kind) =
      (if c then some (Value.number x) else none).elim (.error .kind) .ok := by
  split <;> rfl

/-- The remainder is no numeric function: a zero divisor, or an infinite dividend, is enough. -/
theorem binary_remainder (arguments : List Value) :
    binary remainder arguments = (Operation.remainderOf arguments).elim (.error .kind) .ok := by
  match arguments with
  | [] | [_] | _ :: _ :: _ :: _ => rfl
  | [a, .number y] =>
    match a with
    | .number x =>
      show Value.number <$> remainder (.number x) (.number y) = _
      rw [remainder_number]
      rfl
    -- A divisor of zero answers for a dividend of every kind.
    | .nothing | .native .. | .function _ | .signal .. =>
      exact map_ite_ok ((y == 0.0) = true) notANumber
  | [a, .nothing] | [a, .native ..] | [a, .function _] | [a, .signal ..] =>
    match a with
    | .number x => exact map_ite_ok (x.isInf = true) notANumber
    | .nothing | .native .. | .function _ | .signal .. => rfl

end Guarded

namespace Operation

open Guarded

/-- **The guards are enough**: where an operation has a result its partial operations have one, and
where it has none an operand is refused by its kind. -/
theorem guarded_eq (operation : Operation) (h : operation ≠ .declared) (arguments : List Value) :
    operation.guarded arguments = (operation.run arguments).elim (.error .kind) .ok := by
  match operation with
  | .add | .subtract | .multiply | .less | .greater | .lessEqual | .greaterEqual =>
    exact binary_of_numeric (numeric_total _) arguments
  | .divide => exact binary_of_numeric numeric_quotient arguments
  | .remainder => exact binary_remainder arguments
  | .bitAnd => exact binary_of_numeric (numeric_onSigned (wrapped_onIntegers .and)) arguments
  | .bitOr => exact binary_of_numeric (numeric_onSigned (wrapped_onIntegers .or)) arguments
  | .bitXor => exact binary_of_numeric (numeric_onSigned (wrapped_onIntegers .xor)) arguments
  -- The amount of a shift is taken modulo the width of the word, so it is one that the host allows.
  | .shiftLeft =>
    refine binary_of_numeric (numeric_shifted signedWord_number (fun _ ↦ signedWord_kind)
      fun x y ↦ ?_) arguments
    rw [shiftAmount_eq]
    exact wrapped_onIntegers .shiftLeft x y
  | .shiftRight =>
    refine binary_of_numeric (numeric_shifted signedWord_number (fun _ ↦ signedWord_kind)
      fun x y ↦ ?_) arguments
    rw [shiftAmount_eq]
    exact wrapped_onIntegers .shiftRight x y
  | .shiftRightUnsigned =>
    refine binary_of_numeric (numeric_shifted unsignedWord_number (fun _ ↦ unsignedWord_kind)
      fun x y ↦ ?_) arguments
    rw [shiftAmount_eq]
    exact wrapped_onIntegers .shiftRightUnsigned x y
  | .logicalAnd =>
    exact binary_of_numeric (numeric_onSigned fun x y ↦
      congrArg Except.ok (boolean_signed ofInt_land Int.testBit_land x y)) arguments
  | .logicalOr =>
    exact binary_of_numeric (numeric_onSigned fun x y ↦
      congrArg Except.ok (boolean_signed ofInt_lor Int.testBit_lor x y)) arguments
  | .equal | .unequal =>
    match arguments with
    | [] | [_] | [_, _] | _ :: _ :: _ :: _ => rfl
  | .absolute | .negate =>
    exact unary_eq (fun _ ↦ rfl) (fun a ha ↦ by rw [mapped, ha, error_bind]) arguments
  | .ceiling | .floor | .truncate | .nearest =>
    exact unary_eq (rounded_number _) (fun a ha ↦ by rw [rounded, ha, error_bind]) arguments
  | .squareRoot =>
    exact unary_eq root_number (fun a ha ↦ by rw [Guarded.root, ha, error_bind]) arguments
  | .itself =>
    match arguments with
    | [] | [_] | _ :: _ :: _ => rfl
  | .logicalNot =>
    match arguments with
    | [] | [.number _] | [.nothing] | [.native ..] | [.function _] | [.signal ..] => rfl
    | .number _ :: _ :: _ | .nothing :: _ :: _ | .native .. :: _ :: _ | .function _ :: _ :: _
    | .signal .. :: _ :: _ => rfl
  | .declared => exact absurd rfl h

end Operation

/-! ### Calls -/

/-- How many operands an operation takes. -/
def Operation.operands : Operation → Nat
  | absolute | negate | ceiling | floor | truncate | nearest | squareRoot | itself | logicalNot => 1
  | _ => 2

/-- Every operation that computes anything has a result for enough numbers. -/
theorem Operation.exists_run {operation : Operation} (h : operation ≠ .declared)
    {arguments : List Value} (hlength : arguments.length = operation.operands)
    (hnumbers : ∀ a ∈ arguments, ∃ x, a = .number x) :
    ∃ v, operation.run arguments = some v := by
  have hone : operation.operands = 1 → ∃ x, arguments = [.number x] := fun hoperands ↦ by
    obtain ⟨a, rfl⟩ := List.length_eq_one_iff.1 (hlength.trans hoperands)
    obtain ⟨x, rfl⟩ := hnumbers a List.mem_cons_self
    exact ⟨x, rfl⟩
  have htwo : operation.operands = 2 → ∃ x y, arguments = [.number x, .number y] :=
      fun hoperands ↦ by
    obtain ⟨a, b, rfl⟩ := List.length_eq_two.1 (hlength.trans hoperands)
    obtain ⟨x, rfl⟩ := hnumbers a List.mem_cons_self
    obtain ⟨y, rfl⟩ := hnumbers b (List.mem_cons_of_mem _ List.mem_cons_self)
    exact ⟨x, y, rfl⟩
  match operation with
  | .absolute | .negate | .ceiling | .floor | .truncate | .nearest | .squareRoot | .itself
  | .logicalNot =>
    obtain ⟨x, rfl⟩ := hone rfl
    exact ⟨_, rfl⟩
  | .add | .subtract | .multiply | .divide | .remainder | .bitAnd | .bitOr | .bitXor | .shiftLeft
  | .shiftRight | .shiftRightUnsigned | .equal | .unequal | .less | .greater | .lessEqual
  | .greaterEqual | .logicalAnd | .logicalOr =>
    obtain ⟨x, y, rfl⟩ := htwo rfl
    exact ⟨_, rfl⟩
  | .declared => exact absurd rfl h

namespace Native

/-- **How a call ends**, with what the partial operations gave and what the caller gets. There is no
end for operands outside a domain. -/
inductive Ends (n : Native) (arguments : List Value) :
    Except Refusal Value → Except Fault Value → Prop
  /-- With a number. -/
  | number (x : Float) : Ends n arguments (.ok (.number x)) (.ok (.number x))
  /-- With the argument itself. -/
  | itself (v : Value) : n.name = "builtin.val" → arguments = [v] → Ends n arguments (.ok v) (.ok v)
  /-- With an argument of a wrong kind, as long as there are enough of them. -/
  | kind : (arguments.length = n.arity → ∃ a ∈ arguments, ∀ x, a ≠ .number x) →
    Ends n arguments (.error .kind) (.error (.argumentType n.name))
  /-- With a function that is declared only. -/
  | undefined : n.operation = .declared →
    Ends n arguments (.error .undefined) (.error (.notImplemented n.name))

/-- What is registered under which name, and with how many parameters. -/
theorem registered_natives : ∀ g ∈ catalogue, ∀ entry ∈ g.natives,
    (entry.2.operation = .itself → entry.2.name = "builtin.val") ∧
      (entry.2.operation ≠ .declared → entry.2.arity = entry.2.operation.operands) := by
  decide +kernel

/-- **Calls of native functions refuse in the language only**, whatever the arguments are. -/
theorem call_confined {g : Group} (hg : g ∈ catalogue) {entry : String × Native}
    (hentry : entry ∈ g.natives) (arguments : List Value) :
    entry.2.Ends arguments (entry.2.operation.guarded arguments) (entry.2.call arguments) := by
  obtain ⟨hval, harity⟩ := registered_natives g hg entry hentry
  generalize entry.2 = n at hval harity ⊢
  by_cases hdeclared : n.operation = .declared
  · rw [call, if_pos hdeclared, hdeclared]
    exact .undefined hdeclared
  rw [call, if_neg hdeclared, Operation.guarded_eq _ hdeclared]
  cases hrun : n.operation.run arguments with
  | none =>
    refine .kind fun hlength ↦ ?_
    by_contra! hnumbers
    obtain ⟨v, hv⟩ := Operation.exists_run hdeclared (hlength.trans (harity hdeclared)) hnumbers
    rw [hrun] at hv
    cases hv
  | some v =>
    obtain ⟨hitself, harguments⟩ | ⟨x, rfl⟩ := Operation.itself_or_number_of_run hrun
    · exact .itself v (hval hitself) harguments
    · exact .number x

/-- A quotient by a negative zero, and the remainder of a function by zero. -/
theorem call_confined_by_zero :
    let quotient : String × Native := ("div_s", ⟨"native.i64.div_s", 2, .divide⟩)
    let remainder : String × Native := ("rem_s", ⟨"native.i64.rem_s", 2, .remainder⟩)
    (i64 ∈ catalogue ∧ quotient ∈ i64.natives ∧ remainder ∈ i64.natives) ∧
      (quotient.2.Ends [.number 1.0, .number (-0.0)]
          (quotient.2.operation.guarded [.number 1.0, .number (-0.0)])
          (quotient.2.call [.number 1.0, .number (-0.0)]) ∧
        quotient.2.call [.number 1.0, .number (-0.0)] = .ok (.number (infinity true))) ∧
      remainder.2.Ends [.native remainder.2 0, .number 0.0]
          (remainder.2.operation.guarded [.native remainder.2 0, .number 0.0])
          (remainder.2.call [.native remainder.2 0, .number 0.0]) ∧
        remainder.2.call [.native remainder.2 0, .number 0.0] = .ok (.number notANumber) := by
  intro quotient remainder
  have hgroup : i64 ∈ catalogue := List.mem_cons_self
  have hquotient : quotient ∈ i64.natives := by decide +kernel
  have hremainder : remainder ∈ i64.natives := by decide +kernel
  exact ⟨⟨hgroup, hquotient, hremainder⟩,
    ⟨call_confined hgroup hquotient _, by decide +kernel⟩,
    call_confined hgroup hremainder _, by decide +kernel⟩

end Native

end DottedLisp
