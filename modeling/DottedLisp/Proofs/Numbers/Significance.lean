import DottedLisp.Proofs.Numbers.Words

/-!
# Significant bits

A number holds an integer exactly when the integer has at most 53 significant bits
(`Significant`): a window of that width, anywhere. The integer part of a number is such an integer,
and the window survives wrapping at 64 bits, conjunction and the shifts that keep the sign. It is
the argument for each of them that differs:

* wrapping keeps the zeros at the end and makes no magnitude larger;
* a conjunction ends in the zeros of either operand, and an operand that is not negative bounds it;
  two negative operands are bounded by a power of two that they may **reach**
  (`natAbs_land_le`), which is why `significant_of_dvd` takes the bound itself as well;
* a shift to the right drops bits of the window, one to the left moves it.

So the results of these operations are not rounded, and a word read back from one is the word that
was written (`toWord_ofWord`). Nothing of this holds of disjunction, of exclusive disjunction and of
the logical shift.
-/

namespace DottedLisp.Number

variable {a b z : ℤ} {k : Nat} {x : Float}

/-- An integer of at most 53 significant bits. -/
def Significant (z : ℤ) : Prop :=
  ∃ (m : ℤ) (k : Nat), m.natAbs < 2 ^ 53 ∧ z = m * 2 ^ k

/-- Shifting does not look at the sign. -/
theorem natAbs_mul_two_pow (m : ℤ) (k : Nat) : (m * 2 ^ k).natAbs = m.natAbs * 2 ^ k := by
  rw [Int.natAbs_mul, Int.natAbs_pow]
  rfl

/-- The bound may be met: the power of two beyond the significands has one significant bit. -/
theorem significant_of_dvd (hdvd : (2 ^ k : ℤ) ∣ z) (hle : z.natAbs ≤ 2 ^ 53 * 2 ^ k) :
    Significant z := by
  obtain ⟨m, rfl⟩ := hdvd
  rw [mul_comm, natAbs_mul_two_pow] at hle
  obtain hlt | heq := Nat.lt_or_eq_of_le (Nat.le_of_mul_le_mul_right hle (Nat.two_pow_pos k))
  · exact ⟨m, k, hlt, mul_comm _ _⟩
  · obtain rfl | rfl : m = 2 ^ 53 ∨ m = -2 ^ 53 := by omega
    · exact ⟨1, 53 + k, by decide, by ring⟩
    · exact ⟨-1, 53 + k, by decide, by ring⟩

/-- A significand that is shifted by `k` has at most `k` bits more. -/
theorem Significant.natAbs_lt {m : ℤ} (hm : m.natAbs < 2 ^ 53) (k : Nat) :
    (m * 2 ^ k).natAbs < 2 ^ (53 + k) := by
  rw [natAbs_mul_two_pow, Nat.pow_add]
  exact Nat.mul_lt_mul_of_pos_right hm (Nat.two_pow_pos k)

/-- **Nothing is lost** in the number of such an integer. -/
theorem Significant.value?_ofInt (h : Significant z) (hk : k ≤ 1022) (hz : z.natAbs < 2 ^ k) :
    value? (ofInt z) = some (z : ℚ) := by
  obtain ⟨m, j, hm, rfl⟩ := h
  exact Number.value?_ofInt hk hz hm (natAbs_mul_two_pow m j)

/-! ### The integer part -/

/-- Dropping bits behind the point leaves at most as many. -/
theorem significant_signed_div {s : Nat} (hs : s < 2 ^ 53) (neg : Bool) (u e : Nat) :
    Significant (signed neg (s * 2 ^ u / 2 ^ e)) := by
  obtain hle | hlt := le_or_gt e u
  · refine ⟨signed neg s, u - e, by rwa [natAbs_signed], ?_⟩
    rw [Nat.mul_div_assoc _ (Nat.pow_dvd_pow 2 hle), Nat.pow_div hle Nat.two_pos, signed_mul,
      Nat.cast_pow, Nat.cast_ofNat]
  · refine ⟨signed neg (s * 2 ^ u / 2 ^ e), 0, ?_, by rw [pow_zero, mul_one]⟩
    rw [natAbs_signed, Nat.div_lt_iff_lt_mul (Nat.two_pow_pos e)]
    calc s * 2 ^ u < 2 ^ 53 * 2 ^ u := Nat.mul_lt_mul_of_pos_right hs (Nat.two_pow_pos u)
      _ ≤ 2 ^ 53 * 2 ^ e := Nat.mul_le_mul_left _ (Nat.pow_le_pow_right Nat.two_pos hlt.le)

theorem significant_zero : Significant 0 :=
  ⟨0, 0, by decide, rfl⟩

/-- **Integer parts of numbers are significant.** A number has no more bits to begin with. -/
theorem significant_integerPart (x : Float) : Significant (integerPart x) := by
  rw [integerPart]
  cases hvalue : value? x with
  | none => exact significant_zero
  | some q =>
    obtain ⟨neg, s, u, hread, rfl⟩ := exists_read_of_value hvalue
    obtain ⟨e, -, hscale⟩ := exists_scale
    show Significant (truncate _)
    rw [scaled_eq, truncate_signed_div, hscale]
    exact significant_signed_div (pattern_of_read hread).2.lt neg u e

/-! ### Wrapping -/

/-- Wrapping makes nothing larger. -/
theorem natAbs_bmod_le (z : ℤ) {n : Nat} (hn : 0 < n) : (z.bmod n).natAbs ≤ z.natAbs := by
  have hlow := Int.le_bmod (x := z) hn
  have hhigh := Int.bmod_lt (x := z) hn
  by_cases hin : -((n : ℤ) / 2) ≤ z ∧ z < ((n : ℤ) + 1) / 2
  · rw [Int.bmod_eq_of_le hin.1 hin.2]
  · omega

/-- **Wrapping loses no significance**: it keeps the zeros at the end, and no magnitude grows. -/
theorem Significant.bmod (h : Significant z) : Significant (z.bmod (2 ^ 64)) := by
  obtain ⟨m, k, hm, rfl⟩ := h
  -- A multiple of the whole word is zero in it; below that the trailing zeros stay.
  obtain hsmall | hlarge := le_or_gt k 64
  · have hle := natAbs_bmod_le (m * 2 ^ k) (Nat.two_pow_pos 64)
    have hlt := (Significant.natAbs_lt hm k).le
    rw [Nat.pow_add] at hlt
    refine significant_of_dvd ?_ (hle.trans hlt)
    have hword : (2 ^ k : ℤ) ∣ (2 ^ 64 : Nat) := by exact_mod_cast Nat.pow_dvd_pow 2 hsmall
    rw [Int.bmod_eq_self_sub_mul_bdiv]
    exact dvd_sub (dvd_mul_left _ _) (hword.mul_right _)
  · have hword : ((2 ^ 64 : Nat) : ℤ) ∣ m * 2 ^ k := by
      refine Dvd.dvd.mul_left ?_ m
      exact_mod_cast Nat.pow_dvd_pow 2 hlarge.le
    rw [Int.bmod_eq_zero_of_dvd hword]
    exact significant_zero

/-! ### Shifts -/

/-- Shifting to the left adds zeros. -/
theorem Significant.shiftLeft (h : Significant z) (k : Nat) : Significant (z <<< k) := by
  obtain ⟨m, j, hm, rfl⟩ := h
  exact ⟨m, j + k, hm, by rw [Int.shiftLeft_eq, mul_assoc, pow_add]⟩

/-- What is shifted out at the right leaves no more bits than there were. -/
theorem Significant.shiftRight (h : Significant z) (k : Nat) : Significant (z >>> k) := by
  obtain ⟨m, j, hm, rfl⟩ := h
  rw [Int.shiftRight_eq_div_pow, Nat.cast_pow, Nat.cast_ofNat]
  obtain hle | hgt := le_or_gt k j
  · obtain ⟨i, rfl⟩ := Nat.exists_eq_add_of_le hle
    refine ⟨m, i, hm, ?_⟩
    rw [pow_add, mul_left_comm, Int.mul_ediv_cancel_left _ (by positivity)]
  · obtain ⟨i, rfl⟩ := Nat.exists_eq_add_of_le hgt.le
    refine ⟨m / 2 ^ i, 0, (Int.natAbs_ediv_le_natAbs m _).trans_lt hm, ?_⟩
    rw [pow_add, mul_comm m, Int.mul_ediv_mul_of_pos _ _ (by positivity), pow_zero, mul_one]

/-! ### Conjunction -/

/-- The zeros at the end of one operand are kept. -/
theorem two_pow_dvd_land (h : (2 ^ k : ℤ) ∣ a) (b : ℤ) : (2 ^ k : ℤ) ∣ a.land b := by
  induction k generalizing a b with
  | zero => simp
  | succ k ih =>
    obtain ⟨c, rfl⟩ := h
    have hbit : (2 ^ (k + 1) * c : ℤ) = Int.bit false (2 ^ k * c) := by
      rw [Int.bit_val, cond_false, pow_succ']
      ring
    rw [hbit, ← Int.bit_decomp b, Int.land_bit, Int.bit_val, Bool.false_and, cond_false, add_zero,
      pow_succ']
    exact mul_dvd_mul_left 2 (ih (dvd_mul_right _ _) _)

/-- A conjunction does not depend on the order of its operands. Bit by bit. -/
theorem land_comm (a b : ℤ) : a.land b = b.land a := by
  obtain m | m := a <;> obtain n | n := b
  · exact congrArg Int.ofNat (Nat.land_comm m n)
  · rfl
  · rfl
  · exact congrArg Int.negSucc (Nat.lor_comm m n)

/-- A conjunction is bounded by an operand that is not negative. -/
theorem natAbs_land_lt (ha : 0 ≤ a) (hlt : a.natAbs < 2 ^ k) (b : ℤ) :
    (a.land b).natAbs < 2 ^ k := by
  obtain ⟨m, rfl⟩ := Int.eq_ofNat_of_zero_le ha
  refine Nat.lt_pow_two_of_testBit _ fun i hi ↦ ?_
  have hm : m.testBit i = false :=
    Nat.testBit_lt_two_pow (hlt.trans_le (Nat.pow_le_pow_right Nat.two_pos hi))
  cases b with
  | ofNat n =>
    show (m &&& n).testBit i = false
    rw [Nat.testBit_and, hm, Bool.false_and]
  | negSucc n =>
    show (m.ldiff n).testBit i = false
    rw [Nat.testBit_ldiff, hm, Bool.false_and]

/-- The conjunction of two negative integers may reach the power of two, but not pass it. -/
theorem natAbs_land_le (ha : a.natAbs < 2 ^ k) (hb : b.natAbs < 2 ^ k) :
    (a.land b).natAbs ≤ 2 ^ k := by
  obtain hnonneg | hneg := le_or_gt 0 a
  · exact (natAbs_land_lt hnonneg ha b).le
  obtain hnonneg' | hneg' := le_or_gt 0 b
  · rw [land_comm]
    exact (natAbs_land_lt hnonneg' hb a).le
  obtain ⟨m, rfl⟩ := Int.eq_negSucc_of_lt_zero hneg
  obtain ⟨n, rfl⟩ := Int.eq_negSucc_of_lt_zero hneg'
  exact Nat.or_lt_two_pow (Nat.lt_of_succ_lt ha) (Nat.lt_of_succ_lt hb)

/-- **Conjunction loses no significance.** One operand that is not negative is enough; of two
negative ones the window is that with more zeros at the end. -/
theorem Significant.land (ha : Significant a) (hb : Significant b) : Significant (a.land b) := by
  obtain ⟨m, j, hm, rfl⟩ := ha
  obtain ⟨n, k, hn, rfl⟩ := hb
  have hlta := Significant.natAbs_lt hm j
  have hltb := Significant.natAbs_lt hn k
  have hdvda : (2 ^ j : ℤ) ∣ (m * 2 ^ j).land (n * 2 ^ k) := two_pow_dvd_land (dvd_mul_left _ _) _
  have hdvdb : (2 ^ k : ℤ) ∣ (m * 2 ^ j).land (n * 2 ^ k) := by
    rw [land_comm]
    exact two_pow_dvd_land (dvd_mul_left _ _) _
  obtain hle | hge := le_total j k
  · have hlt : (m * 2 ^ j).natAbs < 2 ^ (53 + k) :=
      hlta.trans_le (Nat.pow_le_pow_right Nat.two_pos (by omega))
    exact significant_of_dvd hdvdb (Nat.pow_add 2 53 k ▸ natAbs_land_le hlt hltb)
  · have hlt : (n * 2 ^ k).natAbs < 2 ^ (53 + j) :=
      hltb.trans_le (Nat.pow_le_pow_right Nat.two_pos (by omega))
    exact significant_of_dvd hdvda (Nat.pow_add 2 53 j ▸ natAbs_land_le hlta hlt)

/-! ### Words -/

/-- Signed words of numbers are significant, since integer parts are and wrapping keeps them so. -/
theorem significant_toSigned (x : Float) : Significant (toSigned x) := by
  rw [toSigned_eq]
  exact (significant_integerPart x).bmod

/-- A signed word has at most 64 bits. -/
theorem natAbs_toInt_lt (V : BitVec 64) : V.toInt.natAbs < 2 ^ 64 := by
  have hle := BitVec.two_mul_toInt_lt (x := V)
  have hge := BitVec.le_two_mul_toInt (x := V)
  omega

/-- A number that stands for an integer is read as that integer, wrapped. -/
theorem toSigned_of_value (h : value? x = some (z : ℚ)) : toSigned x = z.bmod (2 ^ 64) := by
  rw [toSigned_eq, integerPart, h, Option.map_some, Option.getD_some, truncate_intCast]

section Exact

variable {V : BitVec 64} (h : Significant V.toInt)
include h

/-- A significant word is a number **without rounding**. -/
theorem value?_ofWord : value? (ofWord V) = some (V.toInt : ℚ) :=
  h.value?_ofInt (show 64 ≤ 1022 by decide) (natAbs_toInt_lt V)

/-- It is found again when the number is made a word. -/
theorem toSigned_ofWord : toSigned (ofWord V) = V.toInt := by
  rw [toSigned_of_value (value?_ofWord h), BitVec.toInt_bmod_cancel]

/-- **A significant word survives** as a number. -/
theorem toWord_ofWord : toWord (ofWord V) = V := by
  rw [toWord, toSigned_ofWord h, BitVec.ofInt_toInt]

end Exact

/-- Wrapping a signed word once more does nothing. -/
theorem ofWrapped_toSigned (x : Float) : ofWrapped (toSigned x) = ofWord (toWord x) := by
  rw [ofWrapped_eq, toWord]

end DottedLisp.Number

namespace DottedLisp.BitOperation

open Number

/-- The operations that keep significance. -/
def lossless : List BitOperation :=
  [and, shiftLeft, shiftRight]

variable {op : BitOperation}

/-- The three operations keep significance, each by its lemma above. -/
theorem significant_onIntegers (h : op ∈ lossless) (v w : Float) :
    Significant (op.onIntegers v w) := by
  have hv := significant_toSigned v
  simp only [lossless, List.mem_cons, List.not_mem_nil, or_false] at h
  obtain rfl | rfl | rfl := h
  · exact hv.land (significant_toSigned w)
  · exact hv.shiftLeft _
  · exact hv.shiftRight _

/-- Their results have at most 128 bits, so none is beyond the last number. -/
theorem natAbs_onIntegers_lt (h : op ∈ lossless) (v w : Float) :
    (op.onIntegers v w).natAbs < 2 ^ 128 := by
  have hv := natAbs_toInt_lt (toWord v)
  have hw := natAbs_toInt_lt (toWord w)
  rw [← toSigned_eq_toInt] at hv hw
  simp only [lossless, List.mem_cons, List.not_mem_nil, or_false] at h
  obtain rfl | rfl | rfl := h
  · exact (natAbs_land_le hv hw).trans_lt (by decide)
  · have hamount : toUnsigned w % 64 ≤ 64 := (Nat.mod_lt _ (by decide)).le
    rw [onIntegers, Int.shiftLeft_eq, natAbs_mul_two_pow]
    calc (toSigned v).natAbs * 2 ^ (toUnsigned w % 64)
        < 2 ^ 64 * 2 ^ (toUnsigned w % 64) := Nat.mul_lt_mul_of_pos_right hv (Nat.two_pow_pos _)
      _ ≤ 2 ^ 64 * 2 ^ 64 := Nat.mul_le_mul_left _ (Nat.pow_le_pow_right Nat.two_pos hamount)
      _ = 2 ^ 128 := rfl
  · rw [onIntegers, Int.shiftRight_eq_div_pow]
    exact (Int.natAbs_ediv_le_natAbs _ _).trans_lt (hv.trans (by decide))

/-- The same on words. -/
theorem significant_onWords (h : op ∈ lossless) (v w : Float) :
    Significant (op.onWords (toWord v) (toWord w)).toInt := by
  rw [← ofInt_onIntegers, BitVec.toInt_ofInt]
  exact (significant_onIntegers h v w).bmod

/-- **Conjunction and two of the shifts lose no bits.** -/
theorem lossless_keep_bits (v w : Float) :
    Significant (toSigned v) ∧
    value? (ofWrapped (toSigned v)) = some (toSigned v : ℚ) ∧
    toSigned (ofWrapped (toSigned v)) = toSigned v ∧
    (∀ op ∈ lossless,
      (∃ y, value? y = some (op.onIntegers v w : ℚ)) ∧
      ∃ native r, Native.i64.natives.lookup op.identifier = some native ∧
        native.call [.number v, .number w] = .ok (.number r) ∧
        value? r = some ((op.onWords (toWord v) (toWord w)).toInt : ℚ) ∧
        toSigned r = (op.onWords (toWord v) (toWord w)).toInt) ∧
    ∀ u : Float, ∃ native x y z, Native.i64.natives.lookup and.identifier = some native ∧
      native.call [.number u, .number v] = .ok x ∧ native.call [.number v, .number w] = .ok y ∧
      native.call [x, .number w] = .ok z ∧ native.call [.number u, y] = .ok z := by
  have hword : Significant (toWord v).toInt := toSigned_eq_toInt v ▸ significant_toSigned v
  refine ⟨significant_toSigned v, ?_, ?_, fun op hop ↦ ⟨⟨ofInt (op.onIntegers v w), ?_⟩, ?_⟩,
    fun u ↦ ?_⟩
  · rw [ofWrapped_toSigned, value?_ofWord hword, toSigned_eq_toInt]
  · rw [ofWrapped_toSigned, toSigned_ofWord hword, toSigned_eq_toInt]
  · exact (significant_onIntegers hop v w).value?_ofInt (show 128 ≤ 1022 by decide)
      (natAbs_onIntegers_lt hop v w)
  · obtain ⟨native, hlookup, hcall⟩ := op.exists_native
    have hresult := significant_onWords hop v w
    exact ⟨native, _, hlookup, hcall v w, value?_ofWord hresult, toSigned_ofWord hresult⟩
  · obtain ⟨native, hlookup, hcall⟩ := and.exists_native
    have hand : and ∈ lossless := List.mem_cons_self
    refine ⟨native, _, _, _, hlookup, hcall u v, hcall v w, hcall _ w, ?_⟩
    rw [hcall, toWord_ofWord (significant_onWords hand u v),
      toWord_ofWord (significant_onWords hand v w)]
    simp only [onWords, BitVec.and_assoc]

-- Disjunction is not among them: the last bit of `2 ^ 53 + 1` is lost.
example : toSigned (ofWord (or.onWords (toWord 9007199254740992.0) (toWord 1.0))) =
    9007199254740992 := by
  decide +kernel

end DottedLisp.BitOperation
