import DottedLisp.Number.Binary64
import Mathlib.Algebra.Order.Field.Rat
import Mathlib.Data.Rat.Cast.Order

/-!
# Numbers and their bit patterns

A finite number is a sign, a significand and a unit, and `read` and `assemble` go from the one to
the other and back (`Canonical.read_assemble`, `assemble_of_read`). The pairs of significand and
unit that occur are the `Canonical` ones: either the significand has its leading bit, or the unit is
the smallest. The pattern of such a number is the plain **sum** of its parts (`patternOf`), which is
what makes both ways arithmetic.

What a number stands for is not defined by `read`. The exact value `value?` is taken from the
unpacked form that the logic gives every number, and `value?_eq` says that reading agrees with it.
-/

namespace DottedLisp.Number

open Float.Model (Format UnpackedFloat)
open Float.Model.UnpackedFloat (Sign packComponents unpackSign unpackExponent unpackMantissa)

variable {n : Bool} {s u k : Nat} {x y : Float}

/-! ### Exact values -/

/-- The exact value of an unpacked number. Both zeros are zero; infinities and NaN have none. -/
def unpackedValue? : UnpackedFloat → Option ℚ
  | .finite sign mantissa exponent _ => some (sign.apply mantissa * 2 ^ exponent)
  | .zero _ => some 0
  | .infinity _ | .notANumber => none

theorem unpackedValue?_finite (sign : Sign) (e : Int) (h : 0 < s) :
    unpackedValue? (.finite sign s e h) = some ((sign.apply s : ℚ) * 2 ^ e) := rfl

theorem unpackedValue?_zero (sign : Sign) : unpackedValue? (.zero sign) = some 0 := rfl

/-- The exact value of a number. -/
def value? (x : Float) : Option ℚ :=
  unpackedValue? x.toModel.unpack

/-- The exact value of what was read. -/
def Reading.value? : Reading → Option ℚ
  | .finite negative significand unit => some (scaled negative significand unit / scale)
  | _ => none

/-- The sign in the unpacked form. -/
def signOf (negative : Bool) : Sign :=
  if negative then .negative else .positive

/-- The unpacked form of what was read. -/
def Reading.toUnpacked : Reading → UnpackedFloat
  | .nan => .notANumber
  | .infinite negative => .infinity (signOf negative)
  | .finite negative significand unit =>
    if h : 0 < significand then .finite (signOf negative) significand (unit - 1074) h
    else .zero (signOf negative)

/-- A significand that is not zero stays one. -/
theorem Reading.toUnpacked_of_pos (n : Bool) (u : Nat) (h : 0 < s) :
    (Reading.finite n s u).toUnpacked = .finite (signOf n) s (u - 1074) h :=
  dif_pos h

/-- A significand of zero is a zero with a sign. -/
theorem Reading.toUnpacked_of_zero (n : Bool) (u : Nat) (h : s = 0) :
    (Reading.finite n s u).toUnpacked = .zero (signOf n) :=
  dif_neg (Nat.not_lt.2 (Nat.le_of_eq h))

/-- The common denominator is a power of two. Its exponent stays a variable in proofs, so that none
of them evaluates the power. -/
theorem exists_scale : ∃ e, e = 1074 ∧ scale = 2 ^ e :=
  ⟨1074, rfl, by decide +kernel⟩

theorem scale_pos : 0 < scale := by
  obtain ⟨e, -, hscale⟩ := exists_scale
  rw [hscale]
  exact Nat.two_pow_pos e

/-- A finite number over the common denominator is an integer. -/
theorem scaled_eq (negative : Bool) (significand unit : Nat) :
    scaled negative significand unit = signed negative (significand * 2 ^ unit) := by
  rw [scaled, Nat.shiftLeft_eq]

theorem apply_signOf (n : Bool) (m : Nat) : (signOf n).apply m = signed n m := by
  cases n <;> rfl

/-- The sign can be put to one of two factors. -/
theorem signed_mul (n : Bool) (a b : Nat) : signed n (a * b) = signed n a * b := by
  cases n <;> simp [signed]

/-- What was read has the value of its unpacked form. -/
theorem unpackedValue?_toUnpacked (r : Reading) : unpackedValue? r.toUnpacked = r.value? := by
  rcases r with - | n | ⟨n, s, u⟩
  · rfl
  · rfl
  · obtain ⟨e, he, hscale⟩ := exists_scale
    have hunit : (u : Int) - 1074 = u - (e : Int) := by rw [he]; rfl
    rw [Reading.value?, scaled_eq, signed_mul, hscale]
    obtain hs | hs := Nat.eq_zero_or_pos s
    · rw [Reading.toUnpacked_of_zero n u hs, hs]
      cases n <;> simp [signed, unpackedValue?_zero]
    · rw [Reading.toUnpacked_of_pos n u hs, unpackedValue?_finite, hunit, apply_signOf,
        zpow_sub₀ two_ne_zero, zpow_natCast, zpow_natCast]
      push_cast
      rw [mul_div_assoc]

/-! ### Canonical pairs -/

/-- The pairs of a significand and a unit that finite numbers have. -/
structure Canonical (significand unit : Nat) : Prop where
  /-- The significand has at most 53 bits. -/
  lt : significand < 2 ^ 53
  /-- The significand has its leading bit, unless the unit is the smallest. -/
  leading : unit = 0 ∨ 2 ^ 52 ≤ significand
  /-- The unit is not beyond the last. -/
  le : unit ≤ 2045

/-- The sign bit. -/
def signBit (negative : Bool) : Nat :=
  if negative then 1 else 0

/-- The bit pattern of a number. -/
def patternOf (negative : Bool) (significand unit : Nat) : Nat :=
  signBit negative * 2 ^ 63 + (unit * 2 ^ 52 + significand)

theorem signBit_le (n : Bool) : signBit n ≤ 1 := by
  cases n <;> decide

/-- The sign bit of a pattern is its first. -/
theorem signBit_decide (h : k < 2 ^ 64) : signBit (decide (2 ^ 63 ≤ k)) = k / 2 ^ 63 := by
  by_cases hk : 2 ^ 63 ≤ k
  · rw [signBit, if_pos (decide_eq_true hk)]
    omega
  · rw [signBit, if_neg (by simpa using hk)]
    omega

/-- What is put behind the sign bit does not reach it. -/
theorem decide_signBit (n : Bool) (h : k < 2 ^ 63) :
    decide (2 ^ 63 ≤ signBit n * 2 ^ 63 + k) = n := by
  cases n
  · refine decide_eq_false ?_
    rw [signBit, if_neg Bool.false_ne_true]
    omega
  · refine decide_eq_true ?_
    rw [signBit, if_pos rfl]
    omega

/-- A pattern has 64 bits. -/
theorem Canonical.patternOf_lt (h : Canonical s u) (n : Bool) : patternOf n s u < 2 ^ 64 := by
  have hn := signBit_le n
  obtain ⟨hs, -, hu⟩ := h
  rw [patternOf]
  omega

/-- Reading a pattern, said with powers of two. -/
theorem Reading.ofBits_eq (k : Nat) :
    Reading.ofBits k =
      if k / 2 ^ 52 % 2048 = 2047 then
        if k % 2 ^ 52 = 0 then .infinite (decide (2 ^ 63 ≤ k)) else .nan
      else if k / 2 ^ 52 % 2048 = 0 then .finite (decide (2 ^ 63 ≤ k)) (k % 2 ^ 52) 0
      else .finite (decide (2 ^ 63 ≤ k)) (2 ^ 52 + k % 2 ^ 52) (k / 2 ^ 52 % 2048 - 1) := by
  simp only [Reading.ofBits, leadingBit, lastField, Nat.shiftLeft_eq, Nat.shiftRight_eq_div_pow,
    Nat.one_mul]

/-- **What is read adds up to the pattern.** -/
theorem patternOf_of_finite (hk : k < 2 ^ 64) (h : Reading.ofBits k = .finite n s u) :
    k = patternOf n s u ∧ Canonical s u := by
  rw [Reading.ofBits_eq] at h
  split at h
  · split at h <;> cases h
  · split at h
    · cases h
      refine ⟨?_, by omega, Or.inl rfl, by omega⟩
      rw [patternOf, signBit_decide hk]
      omega
    · cases h
      refine ⟨?_, by omega, Or.inr (by omega), by omega⟩
      rw [patternOf, signBit_decide hk]
      omega

/-- **Reading the pattern of a pair gives the pair back.** -/
theorem Canonical.ofBits_patternOf (h : Canonical s u) (n : Bool) :
    Reading.ofBits (patternOf n s u) = .finite n s u := by
  have hn := signBit_le n
  obtain ⟨hs, hleading, hu⟩ := h
  have hfield : patternOf n s u / 2 ^ 52 % 2048 = u + s / 2 ^ 52 := by
    rw [patternOf]
    omega
  have hfraction : patternOf n s u % 2 ^ 52 = s % 2 ^ 52 := by
    rw [patternOf]
    omega
  have hsign : decide (2 ^ 63 ≤ patternOf n s u) = n := decide_signBit n (by omega)
  rw [Reading.ofBits_eq, hfield, hfraction, hsign, if_neg (by omega)]
  -- A significand with its leading bit has it in the exponent field; without it the number is
  -- subnormal.
  by_cases hsmall : s < 2 ^ 52
  · obtain rfl : u = 0 := by omega
    rw [if_pos (by omega), Nat.mod_eq_of_lt hsmall]
  · have hsignificand : 2 ^ 52 + s % 2 ^ 52 = s := by omega
    have hunit : u + s / 2 ^ 52 - 1 = u := by omega
    rw [if_neg (by omega), hsignificand, hunit]

/-! ### The unpacked form -/

/-- The mantissa is in the last 52 bits. -/
theorem toNat_unpackMantissa (b : BitVec 64) :
    (@unpackMantissa Format.binary64 b).toNat = b.toNat % 2 ^ 52 := by
  simp only [unpackMantissa, BitVec.toNat_cast, BitVec.extractLsb_toNat]
  rfl

/-- The exponent is in the eleven bits before them. -/
theorem toNat_unpackExponent (b : BitVec 64) :
    (@unpackExponent Format.binary64 b).toNat = b.toNat / 2 ^ 52 % 2048 := by
  simp only [unpackExponent, BitVec.toNat_cast, BitVec.extractLsb_toNat,
    Nat.shiftRight_eq_div_pow]

/-- The sign is in front. -/
theorem ofBitVec_unpackSign (b : BitVec 64) :
    Sign.ofBitVec (@unpackSign Format.binary64 b) = signOf (decide (2 ^ 63 ≤ b.toNat)) := by
  have hlt := b.isLt
  have hbit : (@unpackSign Format.binary64 b).toNat = b.toNat / 2 ^ 63 % 2 := by
    show (b.extractLsb 63 63).toNat = b.toNat / 2 ^ 63 % 2
    rw [BitVec.extractLsb_toNat, Nat.shiftRight_eq_div_pow]
  have hzero : @unpackSign Format.binary64 b = 0#1 ↔ b.toNat / 2 ^ 63 % 2 = 0 := by
    rw [← BitVec.toNat_inj, hbit]
    rfl
  by_cases hsign : 2 ^ 63 ≤ b.toNat
  · rw [Sign.ofBitVec, signOf, if_neg (hzero.not.2 (by omega)), if_pos (decide_eq_true hsign)]
  · rw [Sign.ofBitVec, signOf, if_pos (hzero.2 (by omega)), if_neg (by simpa using hsign)]

/-- The leading bit that is not written. -/
theorem toNat_one_append (m : BitVec 52) : (1#1 ++ m).toNat = 2 ^ 52 + m.toNat := by
  rw [BitVec.toNat_append, ← Nat.shiftLeft_add_eq_or_of_lt m.isLt]
  rfl

/-- Finite numbers are equal if their fields are; the proof that the mantissa is not zero does not
count. -/
theorem finite_congr {sign sign' : Sign} {m m' : Nat} {e e' : Int} {hm : 0 < m} {hm' : 0 < m'}
    (hsign : sign = sign') (hmantissa : m = m') (hexponent : e = e') :
    UnpackedFloat.finite sign m e hm = .finite sign' m' e' hm' := by
  subst hsign hmantissa hexponent
  rfl

/-- **Reading a pattern is unpacking it.** -/
theorem unpack_eq (b : BitVec 64) :
    UnpackedFloat.unpack Format.binary64 b = (Reading.ofBits b.toNat).toUnpacked := by
  have hsign := ofBitVec_unpackSign b
  have hmantissa := toNat_unpackMantissa b
  have hexponent := toNat_unpackExponent b
  have hlast : @unpackExponent Format.binary64 b = -1#11 ↔ b.toNat / 2 ^ 52 % 2048 = 2047 := by
    rw [← BitVec.toNat_inj, hexponent]
    rfl
  have hfirst : @unpackExponent Format.binary64 b = 0#11 ↔ b.toNat / 2 ^ 52 % 2048 = 0 := by
    rw [← BitVec.toNat_inj, hexponent]
    rfl
  have hnone : @unpackMantissa Format.binary64 b = 0#52 ↔ b.toNat % 2 ^ 52 = 0 := by
    rw [← BitVec.toNat_inj, hmantissa]
    rfl
  have hbias : (Format.binary64.exponentBias : Int) + (52 : Nat) = 1075 := rfl
  rw [Reading.ofBits_eq]
  -- The three kinds of exponent field: all ones, all zeros, and the others.
  by_cases hinfinite : b.toNat / 2 ^ 52 % 2048 = 2047
  · refine (if_pos (hlast.2 hinfinite)).trans ?_
    rw [if_pos hinfinite]
    by_cases hzero : b.toNat % 2 ^ 52 = 0
    · rw [if_pos hzero]
      exact (if_pos (hnone.2 hzero)).trans (congrArg UnpackedFloat.infinity hsign)
    · rw [if_neg hzero]
      exact if_neg (hnone.not.2 hzero)
  refine (if_neg (hlast.not.2 hinfinite)).trans ?_
  rw [if_neg hinfinite]
  by_cases hsmall : b.toNat / 2 ^ 52 % 2048 = 0
  · refine (if_pos (hfirst.2 hsmall)).trans ?_
    rw [if_pos hsmall]
    by_cases hzero : b.toNat % 2 ^ 52 = 0
    · rw [Reading.toUnpacked_of_zero _ _ hzero]
      exact (dif_pos (hnone.2 hzero)).trans (congrArg UnpackedFloat.zero hsign)
    · rw [Reading.toUnpacked_of_pos _ _ (Nat.pos_of_ne_zero hzero)]
      refine (dif_neg (hnone.not.2 hzero)).trans (finite_congr hsign hmantissa ?_)
      rw [hexponent, hsmall, hbias]
      rfl
  · refine (if_neg (hfirst.not.2 hsmall)).trans ?_
    rw [if_neg hsmall, Reading.toUnpacked_of_pos _ _ (by omega)]
    refine finite_congr hsign ((toNat_one_append _).trans (by rw [hmantissa])) ?_
    rw [hexponent, hbias]
    omega

/-- **Reading a number agrees with what it stands for.** -/
theorem value?_eq (x : Float) : value? x = (read x).value? :=
  (congrArg unpackedValue? (unpack_eq x.toBits.toBitVec)).trans (unpackedValue?_toUnpacked _)

/-! ### Packing -/

/-- Packed fields stand one behind the other. -/
theorem toNat_packComponents (n : Bool) (e : BitVec 11) (m : BitVec 52) :
    (packComponents Format.binary64 (signOf n) e m).toNat =
      signBit n * 2 ^ 63 + (e.toNat * 2 ^ 52 + m.toNat) := by
  show (((signOf n).toBitVec ++ e) ++ m).toNat = _
  have hsign : (signOf n).toBitVec.toNat = signBit n := by
    cases n <;> rfl
  rw [BitVec.toNat_append, ← Nat.shiftLeft_add_eq_or_of_lt m.isLt, BitVec.toNat_append,
    ← Nat.shiftLeft_add_eq_or_of_lt e.isLt, hsign, Nat.shiftLeft_eq, Nat.shiftLeft_eq]
  omega

/-- Packing, with the constants of the format put in. -/
theorem pack_finite (sign : Sign) (e : Int) (hs : 0 < s) :
    UnpackedFloat.pack Format.binary64 (.finite sign s e hs) =
      if 2048 ≤ (e + 1023 + 52).toNat + 1 then UnpackedFloat.packedInfinity Format.binary64 sign
      else if s.log2 + 1 = 53 then
        packComponents Format.binary64 sign (BitVec.ofNat 11 (e + 1023 + 52).toNat)
          (BitVec.ofNat 52 s)
      else packComponents Format.binary64 sign 0#11 (BitVec.ofNat 52 s) := rfl

/-- Packing a canonical pair does not round it, and its pattern is the expected one. -/
theorem Canonical.toNat_pack (h : Canonical s u) (hs : 0 < s) (n : Bool) :
    (UnpackedFloat.pack Format.binary64 (.finite (signOf n) s (u - 1074) hs)).toNat =
      patternOf n s u := by
  obtain ⟨hlt, hleading, hu⟩ := h
  rw [pack_finite, if_neg (by omega)]
  by_cases hsmall : s < 2 ^ 52
  · have hlog : s.log2 < 52 := (Nat.log2_lt (Nat.ne_of_gt hs)).2 hsmall
    obtain rfl : u = 0 := by omega
    rw [if_neg (by omega), toNat_packComponents, patternOf, BitVec.toNat_ofNat,
      BitVec.toNat_ofNat, Nat.mod_eq_of_lt hsmall]
  · have hlog : s.log2 < 53 := (Nat.log2_lt (Nat.ne_of_gt hs)).2 hlt
    have hleast : 52 ≤ s.log2 := (Nat.le_log2 (Nat.ne_of_gt hs)).2 (by omega)
    rw [if_pos (by omega), toNat_packComponents, patternOf, BitVec.toNat_ofNat,
      BitVec.toNat_ofNat]
    omega

/-- Packing what was read gives its pattern, zeros included. -/
theorem Canonical.toNat_pack_toUnpacked (h : Canonical s u) (n : Bool) :
    (UnpackedFloat.pack Format.binary64 (Reading.finite n s u).toUnpacked).toNat =
      patternOf n s u := by
  obtain rfl | hs := Nat.eq_zero_or_pos s
  · obtain rfl : u = 0 := h.leading.resolve_right (by omega)
    rw [Reading.toUnpacked_of_zero n 0 rfl]
    exact toNat_packComponents n 0#11 0#52
  · rw [Reading.toUnpacked_of_pos n u hs]
    exact h.toNat_pack hs n

/-! ### There and back -/

theorem infinityBits_eq : infinityBits = 2047 * 2 ^ 52 := by
  decide +kernel

/-- The way of a pattern through a number: it is unpacked and packed again. -/
theorem toBits_ofBits (w : UInt64) :
    (Float.ofBits w).toBits.toBitVec =
      UnpackedFloat.pack Format.binary64 (UnpackedFloat.unpack Format.binary64 w.toBitVec) := rfl

/-- A number is assembled from its fields, which may carry into the exponent. -/
theorem assemble_eq (n : Bool) (s u : Nat) :
    assemble n s u =
      Float.ofBits (UInt64.ofNat (signBit n * 2 ^ 63 + min (u * 2 ^ 52 + s) infinityBits)) := by
  cases n
  · simp only [assemble, signBit, Nat.shiftLeft_eq, Bool.false_eq_true, if_false, Nat.zero_mul,
      Nat.zero_add]
  · simp only [assemble, signBit, Nat.shiftLeft_eq, if_true]

/-- The pattern of an assembled number. -/
theorem Canonical.toBits_assemble (h : Canonical s u) (n : Bool) :
    (assemble n s u).toBits.toNat = patternOf n s u := by
  have hfinite : u * 2 ^ 52 + s ≤ infinityBits := by
    obtain ⟨hs, -, hu⟩ := h
    rw [infinityBits_eq]
    omega
  have hword : (UInt64.ofNat (patternOf n s u)).toBitVec.toNat = patternOf n s u := by
    rw [UInt64.toNat_toBitVec, UInt64.toNat_ofNat_of_lt' (h.patternOf_lt n)]
  rw [assemble_eq, Nat.min_eq_left hfinite, ← UInt64.toNat_toBitVec, toBits_ofBits, unpack_eq,
    ← patternOf, hword, h.ofBits_patternOf, h.toNat_pack_toUnpacked]

/-- Reading what was assembled gives the pair back. -/
theorem Canonical.read_assemble (h : Canonical s u) (n : Bool) :
    read (assemble n s u) = .finite n s u := by
  rw [read, h.toBits_assemble, h.ofBits_patternOf]

/-- The pattern tells the number. -/
theorem eq_of_toBits (h : x.toBits.toNat = y.toBits.toNat) : x = y := by
  obtain ⟨⟨a, ha⟩⟩ := x
  obtain ⟨⟨b, hb⟩⟩ := y
  obtain rfl : a = b := UInt64.toNat_inj.1 h
  rfl

/-- The pattern of a finite number. -/
theorem pattern_of_read (h : read x = .finite n s u) :
    x.toBits.toNat = patternOf n s u ∧ Canonical s u :=
  patternOf_of_finite x.toBits.toNat_lt h

/-- **A finite number is assembled from what is read of it.** -/
theorem assemble_of_read (h : read x = .finite n s u) : assemble n s u = x := by
  obtain ⟨hbits, hcanonical⟩ := pattern_of_read h
  exact eq_of_toBits ((hcanonical.toBits_assemble n).trans hbits.symm)

/-- What has a value is finite, and its value is that of its fields. -/
theorem exists_read_of_value {q : ℚ} (h : value? x = some q) :
    ∃ n s u, read x = .finite n s u ∧ q = scaled n s u / scale := by
  rw [value?_eq] at h
  rcases hread : read x with - | n | ⟨n, s, u⟩
  · rw [hread] at h
    cases h
  · rw [hread] at h
    cases h
  · rw [hread] at h
    cases h
    exact ⟨n, s, u, rfl, rfl⟩

end DottedLisp.Number
