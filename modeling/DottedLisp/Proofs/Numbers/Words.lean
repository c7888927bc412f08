import DottedLisp.Native
import DottedLisp.Proofs.Numbers.Rounding
import Mathlib.Data.Int.Bitwise
import Mathlib.Data.Int.ModEq
import Mathlib.Data.Rat.Floor

/-!
# Numbers as words

The word of a number is the one word of 64 bits that is congruent to its integer part
(`IsWordOf`). `toSigned` and `toUnsigned` are its two readings, whatever the number is.

The native functions on bits can be said in two ways: on **integers without a bound**, where masks
and signs matter (`BitOperation.onIntegers`), and on **words** (`BitOperation.onWords`). They agree
once the integer is wrapped (`ofInt_onIntegers`), bit by bit for the logical ones. What a function
returns is the signed reading of the word, correctly rounded (`bits_are_words`).
-/

namespace DottedLisp.Number

/-! ### The integer part -/

/-- The integer part of a fraction: what is behind the point is dropped, toward zero. -/
def truncate (q : ℚ) : ℤ :=
  if q < 0 then ⌈q⌉ else ⌊q⌋

/-- The integer part of a number; zero for infinities and NaN. -/
def integerPart (x : Float) : ℤ :=
  ((value? x).map truncate).getD 0

/-- Dropping what is behind the point of a fraction is dividing. -/
theorem truncate_natCast_div (a b : Nat) : truncate ((a : ℚ) / b) = (a / b : Nat) := by
  have hnonneg : ¬ (a : ℚ) / b < 0 := not_lt.2 (by positivity)
  rw [truncate, if_neg hnonneg, Rat.floor_natCast_div_natCast, Int.natCast_ediv]

theorem truncate_intCast (z : ℤ) : truncate z = z := by
  rw [truncate, Int.ceil_intCast, Int.floor_intCast, ite_self]

/-- Toward zero is the same on both sides. -/
theorem truncate_neg (q : ℚ) : truncate (-q) = -truncate q := by
  obtain hlt | rfl | hgt := lt_trichotomy q 0
  · rw [truncate, truncate, if_neg (by linarith), if_pos hlt, Int.floor_neg]
  · simp [truncate]
  · rw [truncate, truncate, if_pos (by linarith), if_neg (by linarith), Int.ceil_neg]

/-- So the sign may be put in front afterwards. -/
theorem truncate_signed_div (neg : Bool) (a b : Nat) :
    truncate ((signed neg a : ℚ) / b) = signed neg (a / b) := by
  cases neg
  · simp [signed, truncate_natCast_div]
  · simp [signed, neg_div, truncate_neg, truncate_natCast_div]

/-- **Rounding toward zero gives the integer part** of the exact value. -/
theorem toInt?_towardZero (x : Float) : toInt? .towardZero x = (value? x).map truncate := by
  rw [value?_eq, toInt?]
  cases read x with
  | nan => rfl
  | infinite neg => rfl
  | finite neg s u =>
    show some (signed neg ((s <<< u) / scale)) = some (truncate ((scaled neg s u : ℚ) / scale))
    rw [scaled, truncate_signed_div]

/-! ### Words -/

/-- `V` is the **word** of a number: congruent to its integer part modulo `2 ^ 64`. -/
def IsWordOf (x : Float) (V : BitVec 64) : Prop :=
  (V.toNat : ℤ) ≡ integerPart x [ZMOD 2 ^ 64]

theorem wordCount_eq : wordCount = 2 ^ 64 := rfl

/-- The signed word is the integer part, wrapped round zero. -/
theorem toSigned_eq (x : Float) : toSigned x = (integerPart x).bmod (2 ^ 64) := by
  rw [toSigned, toInt?_towardZero, wordCount_eq, integerPart]

/-- The word is the integer part, as far as 64 bits go. -/
theorem toWord_eq (x : Float) : toWord x = BitVec.ofInt 64 (integerPart x) := by
  rw [toWord, toSigned_eq]
  apply BitVec.eq_of_toInt_eq
  rw [BitVec.toInt_ofInt, BitVec.toInt_ofInt, Int.bmod_bmod]

/-- Every number has a word, and one only. -/
theorem isWordOf_iff (x : Float) (V : BitVec 64) : IsWordOf x V ↔ V = toWord x := by
  rw [toWord_eq, IsWordOf, Int.ModEq, ← BitVec.toNat_inj, BitVec.toNat_ofInt]
  have hlt := V.isLt
  have hpos : (0 : ℤ) ≤ integerPart x % 2 ^ 64 := Int.emod_nonneg _ (by decide)
  omega

/-- The signed reading of the word. -/
theorem toSigned_eq_toInt (x : Float) : toSigned x = (toWord x).toInt := by
  rw [toSigned_eq, toWord_eq, BitVec.toInt_ofInt]

/-- The unsigned reading of the word. -/
theorem toUnsigned_eq_toNat (x : Float) : toUnsigned x = (toWord x).toNat := by
  rw [toUnsigned, toSigned_eq, toWord_eq, BitVec.toNat_ofInt, wordCount_eq, Int.bmod_emod]

/-- The shift amount is in the last six bits. -/
theorem shiftAmount_eq (y : Float) : shiftAmount y = (toWord y).toNat % 64 := by
  rw [shiftAmount, toUnsigned_eq_toNat]

/-! ### Integers without a bound -/

/-- The bits of the word of an integer are those of the integer. -/
theorem getLsbD_ofInt (z : ℤ) (i : Nat) :
    (BitVec.ofInt 64 z).getLsbD i = (decide (i < 64) && z.testBit i) := by
  cases z with
  | ofNat m => exact BitVec.getLsbD_ofNat 64 m i
  | negSucc m =>
    rw [BitVec.ofInt_negSucc_eq_not_ofNat, BitVec.getLsbD_not, BitVec.getLsbD_ofNat]
    cases hi : decide (i < 64)
    · rfl
    · rfl

/-- The high bits of a small integer are all its sign. -/
theorem testBit_eq_sign {z : ℤ} (hlow : -2 ^ 63 ≤ z) (hhigh : z < 2 ^ 63) {i : Nat} (hi : 63 ≤ i) :
    z.testBit i = decide (z < 0) := by
  have hbit : ∀ m < 2 ^ 63, m.testBit i = false := fun m hm ↦
    Nat.testBit_lt_two_pow (hm.trans_le (Nat.pow_le_pow_right Nat.two_pos hi))
  obtain hsign | hsign := le_or_gt 0 z
  · obtain ⟨m, rfl⟩ := Int.eq_ofNat_of_zero_le hsign
    rw [decide_eq_false (by omega)]
    exact hbit m (by omega)
  · obtain ⟨m, rfl⟩ := Int.eq_negSucc_of_lt_zero hsign
    rw [decide_eq_true hsign]
    show (!m.testBit i) = true
    rw [hbit m (by omega)]
    rfl

/-- From the sign on, all bits of a signed word are the same. -/
theorem testBit_toSigned (x : Float) {i : Nat} (hi : 63 ≤ i) :
    (toSigned x).testBit i = (toSigned x).testBit 63 := by
  have hlow := BitVec.le_two_mul_toInt (x := toWord x)
  have hhigh := BitVec.two_mul_toInt_lt (x := toWord x)
  rw [← toSigned_eq_toInt] at hlow hhigh
  rw [testBit_eq_sign (by omega) (by omega) hi, testBit_eq_sign (by omega) (by omega) le_rfl]

/-- An integer without a bit is zero. -/
theorem eq_zero_of_testBit {z : ℤ} (h : ∀ i, z.testBit i = false) : z = 0 := by
  match z with
  | .ofNat m => exact congrArg Int.ofNat (Nat.zero_of_testBit_eq_false h)
  | .negSucc m =>
    have hbit : (!m.testBit m) = false := h m
    rw [Nat.testBit_lt_two_pow Nat.lt_two_pow_self] at hbit
    cases hbit

/-- An integer whose high bits are all equal is zero if its word is. -/
theorem ofInt_eq_zero_iff {z : ℤ} (h : ∀ i, 63 ≤ i → z.testBit i = z.testBit 63) :
    BitVec.ofInt 64 z = 0#64 ↔ z = 0 := by
  refine ⟨fun hword ↦ eq_zero_of_testBit fun i ↦ ?_, fun hzero ↦ hzero ▸ rfl⟩
  have hlow : ∀ j < 64, z.testBit j = false := fun j hj ↦ by
    have hbit := getLsbD_ofInt z j
    rw [hword, decide_eq_true hj, Bool.true_and, BitVec.getLsbD_zero] at hbit
    exact hbit.symm
  obtain hi | hi := Nat.lt_or_ge i 64
  · exact hlow i hi
  · rw [h i (by omega)]
    exact hlow 63 (by decide)

/-- A conjunction may be taken before or after the word. Bit by bit; likewise the other operations.
-/
theorem ofInt_land (a b : ℤ) :
    BitVec.ofInt 64 (a.land b) = BitVec.ofInt 64 a &&& BitVec.ofInt 64 b := by
  refine BitVec.eq_of_getLsbD_eq fun i hi ↦ ?_
  rw [BitVec.getLsbD_and, getLsbD_ofInt, getLsbD_ofInt, getLsbD_ofInt, Int.testBit_land,
    decide_eq_true hi]
  rfl

theorem ofInt_lor (a b : ℤ) :
    BitVec.ofInt 64 (a.lor b) = BitVec.ofInt 64 a ||| BitVec.ofInt 64 b := by
  refine BitVec.eq_of_getLsbD_eq fun i hi ↦ ?_
  rw [BitVec.getLsbD_or, getLsbD_ofInt, getLsbD_ofInt, getLsbD_ofInt, Int.testBit_lor,
    decide_eq_true hi]
  rfl

theorem ofInt_xor (a b : ℤ) :
    BitVec.ofInt 64 (a.xor b) = BitVec.ofInt 64 a ^^^ BitVec.ofInt 64 b := by
  refine BitVec.eq_of_getLsbD_eq fun i hi ↦ ?_
  rw [BitVec.getLsbD_xor, getLsbD_ofInt, getLsbD_ofInt, getLsbD_ofInt, Int.testBit_lxor,
    decide_eq_true hi]
  rfl

/-- What is shifted out to the left is beyond the word. -/
theorem ofInt_shiftLeft (a : ℤ) (k : Nat) :
    BitVec.ofInt 64 (a <<< k) = BitVec.ofInt 64 a <<< k := by
  apply BitVec.eq_of_toInt_eq
  rw [Int.shiftLeft_eq, BitVec.toInt_ofInt, BitVec.toInt_shiftLeft, BitVec.toNat_ofInt,
    Nat.shiftLeft_eq, Nat.cast_mul, Int.toNat_of_nonneg (Int.emod_nonneg _ (by decide)),
    Int.emod_mul_bmod, Nat.cast_pow, Nat.cast_ofNat]

/-- A shift of the unsigned reading is a logical shift. -/
theorem ofInt_natCast_shiftRight (V : BitVec 64) (k : Nat) :
    BitVec.ofInt 64 ((V.toNat : ℤ) >>> k) = V >>> k := by
  have hcast : (V.toNat : ℤ) >>> k = ((V.toNat >>> k : Nat) : ℤ) := rfl
  rw [hcast, BitVec.ofInt_natCast]
  apply BitVec.eq_of_toNat_eq
  rw [BitVec.toNat_ofNat, BitVec.toNat_ushiftRight, Nat.mod_eq_of_lt]
  exact (Nat.shiftRight_le V.toNat k).trans_lt V.isLt

/-- Wrapping an integer takes its word. -/
theorem ofWrapped_eq (z : ℤ) : ofWrapped z = ofWord (BitVec.ofInt 64 z) := by
  rw [ofWrapped, ofWord, BitVec.toInt_ofInt, wordCount_eq]

/-- The number of a word is its signed reading, correctly rounded. -/
theorem rounds_ofWord (V : BitVec 64) : RoundsTo V.toInt (ofWord V) := by
  have hle := BitVec.two_mul_toInt_lt (x := V)
  have hge := BitVec.le_two_mul_toInt (x := V)
  exact rounds_ofInt (show 64 ≤ 1022 by decide) (by omega)

end DottedLisp.Number

namespace DottedLisp

open Number

/-- The native functions on bits. -/
inductive BitOperation where
  | and | or | xor | shiftLeft | shiftRight | shiftRightUnsigned

namespace BitOperation

/-- The identifier among the operations named for 64-bit integers. -/
def identifier : BitOperation → String
  | and => "and"
  | or => "or"
  | xor => "xor"
  | shiftLeft => "shl"
  | shiftRight => "shr_s"
  | shiftRightUnsigned => "shr_u"

/-- The operation on **integers without a bound**, of either sign. Only the logical shift starts
from the unsigned reading. -/
def onIntegers (v w : Float) : BitOperation → ℤ
  | and => (toSigned v).land (toSigned w)
  | or => (toSigned v).lor (toSigned w)
  | xor => (toSigned v).xor (toSigned w)
  | shiftLeft => toSigned v <<< (toUnsigned w % 64)
  | shiftRight => toSigned v >>> (toUnsigned w % 64)
  | shiftRightUnsigned => (toUnsigned v : ℤ) >>> (toUnsigned w % 64)

/-- The operation on **words of 64 bits**. -/
def onWords (V W : BitVec 64) : BitOperation → BitVec 64
  | and => V &&& W
  | or => V ||| W
  | xor => V ^^^ W
  | shiftLeft => V <<< (W.toNat % 64)
  | shiftRight => V.sshiftRight (W.toNat % 64)
  | shiftRightUnsigned => V >>> (W.toNat % 64)

/-- Working on integers without a bound and wrapping at the end is working on words. -/
theorem ofInt_onIntegers (op : BitOperation) (v w : Float) :
    BitVec.ofInt 64 (op.onIntegers v w) = op.onWords (toWord v) (toWord w) := by
  cases op with
  | and => exact ofInt_land _ _
  | or => exact ofInt_lor _ _
  | xor => exact ofInt_xor _ _
  | shiftLeft =>
    rw [onIntegers, onWords, ofInt_shiftLeft, toUnsigned_eq_toNat]
    rfl
  | shiftRight =>
    rw [onIntegers, onWords, toSigned_eq_toInt, toUnsigned_eq_toNat]
    rfl
  | shiftRightUnsigned =>
    rw [onIntegers, onWords, toUnsigned_eq_toNat, toUnsigned_eq_toNat, ofInt_natCast_shiftRight]

/-- What the native function of an operation gives. -/
theorem exists_native (op : BitOperation) :
    ∃ native, Native.i64.natives.lookup op.identifier = some native ∧
      ∀ v w, native.call [.number v, .number w] =
        .ok (.number (ofWord (op.onWords (toWord v) (toWord w)))) := by
  cases op with
  | and => exact ⟨⟨"native.i64.and", 2, .bitAnd⟩, rfl, fun _ _ ↦ rfl⟩
  | or => exact ⟨⟨"native.i64.or", 2, .bitOr⟩, rfl, fun _ _ ↦ rfl⟩
  | xor => exact ⟨⟨"native.i64.xor", 2, .bitXor⟩, rfl, fun _ _ ↦ rfl⟩
  | shiftLeft =>
    refine ⟨⟨"native.i64.shl", 2, .shiftLeft⟩, rfl, fun v w ↦ ?_⟩
    rw [onWords, ← toUnsigned_eq_toNat]
    rfl
  | shiftRight =>
    refine ⟨⟨"native.i64.shr_s", 2, .shiftRight⟩, rfl, fun v w ↦ ?_⟩
    rw [onWords, ← toUnsigned_eq_toNat]
    rfl
  | shiftRightUnsigned =>
    refine ⟨⟨"native.i64.shr_u", 2, .shiftRightUnsigned⟩, rfl, fun v w ↦ ?_⟩
    rw [onWords, ← toUnsigned_eq_toNat]
    rfl

/-- **The native functions on bits are those on words of 64 bits.** Every number has one word; its
two integers are the signed and the unsigned reading of it; and each function gives the signed
reading of its result, correctly rounded. That is also what integers without a bound give, once they
are wrapped. -/
theorem bits_are_words (v w : Float) :
    ∃ V W : BitVec 64,
      (∀ V', IsWordOf v V' ↔ V' = V) ∧ (∀ W', IsWordOf w W' ↔ W' = W) ∧
      toSigned v = V.toInt ∧ toUnsigned v = V.toNat ∧
      ∀ op : BitOperation, ∃ native r,
        Native.i64.natives.lookup op.identifier = some native ∧
        native.call [.number v, .number w] = .ok (.number r) ∧
        r = ofWrapped (op.onIntegers v w) ∧
        RoundsTo (op.onWords V W).toInt r ∧ ∀ r', RoundsTo (op.onWords V W).toInt r' → r' = r := by
  refine ⟨toWord v, toWord w, isWordOf_iff v, isWordOf_iff w, toSigned_eq_toInt v,
    toUnsigned_eq_toNat v, fun op ↦ ?_⟩
  obtain ⟨native, hlookup, hcall⟩ := op.exists_native
  have hrounds := rounds_ofWord (op.onWords (toWord v) (toWord w))
  refine ⟨native, _, hlookup, hcall v w, ?_, hrounds, fun r' hr' ↦ hr'.unique hrounds⟩
  rw [ofWrapped_eq, ofInt_onIntegers]

end BitOperation

end DottedLisp
