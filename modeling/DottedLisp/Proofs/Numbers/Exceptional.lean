import DottedLisp.Number.Remainder
import DottedLisp.Proofs.Numbers.Order

/-!
# Zeros, infinities and NaN

What arithmetic gives where a fraction would have no value: a quotient by zero (`div_zero_of_zero`,
`div_zero_of_ne_zero`), a remainder by zero or of an infinity, the root of what is below zero. Each
is said of the **test** that leads there. The tests are opened once: only the two zeros equal zero,
and NaN is neither below zero nor at least zero.
-/

namespace DottedLisp.Number

open Float.Model (UnpackedFloat)

variable {x y : Float}

/-! ### The tests -/

theorem unpack_zero : (0.0 : Float).toModel.unpack = .zero .positive := by
  have hread : read 0.0 = .finite false 0 0 := by decide +kernel
  rw [unpack_toModel, hread, Reading.toUnpacked_of_zero false 0 rfl]
  rfl

/-- Equality is a comparison of the unpacked forms. -/
theorem beq_iff_compare :
    (x == y) = true ↔ x.toModel.unpack.compare y.toModel.unpack = some .eq := by
  show (x.toModel.unpack.compare y.toModel.unpack == some .eq) = true ↔ _
  rw [beq_iff_eq]

/-- So is being smaller. -/
theorem lt_iff_compare : x < y ↔ x.toModel.unpack.compare y.toModel.unpack = some .lt := by
  show decide ((x.toModel.unpack.compare y.toModel.unpack == some .lt) = true) = true ↔ _
  rw [decide_eq_true_iff, beq_iff_eq]

/-- Only the two zeros equal zero. -/
theorem beq_zero_iff : (x == 0.0) = true ↔ ∃ n u, read x = .finite n 0 u := by
  rw [beq_iff_compare, unpack_zero, unpack_toModel]
  constructor
  · intro h
    rcases hread : read x with - | n | ⟨n, s, u⟩
    · rw [hread] at h
      cases h
    · rw [hread] at h
      cases n <;> cases h
    · obtain rfl | hs := Nat.eq_zero_or_pos s
      · exact ⟨n, u, rfl⟩
      · rw [hread, Reading.toUnpacked_of_pos n u hs] at h
        cases n <;> cases h
  · rintro ⟨n, u, hread⟩
    rw [hread, Reading.toUnpacked_of_zero n u rfl]
    rfl

/-- The finite numbers are those that have a value. -/
theorem isFinite_iff : x.isFinite = true ↔ ∃ q, value? x = some q := by
  show x.toModel.unpack.isFinite = true ↔ ∃ q, unpackedValue? x.toModel.unpack = some q
  match x.toModel.unpack with
  | .notANumber | .infinity _ => exact iff_of_false Bool.false_ne_true fun ⟨_, hq⟩ ↦ nomatch hq
  | .zero _ | .finite .. => exact iff_of_true rfl ⟨_, rfl⟩

/-- What passes the test for infinity was read as one. -/
theorem exists_read_of_isInf (h : x.isInf = true) : ∃ n, read x = .infinite n := by
  change x.toModel.unpack.isInf = true at h
  rw [unpack_toModel] at h
  rcases hread : read x with - | n | ⟨n, s, u⟩
  · rw [hread] at h
    cases h
  · exact ⟨n, rfl⟩
  · obtain hs | hs := Nat.eq_zero_or_pos s
    · rw [hread, Reading.toUnpacked_of_zero n u hs] at h
      cases h
    · rw [hread, Reading.toUnpacked_of_pos n u hs] at h
      cases h

/-- So it is with what is not a number. -/
theorem isNaN_iff : x.isNaN = true ↔ read x = .nan := by
  show x.toModel.unpack.isNaN = true ↔ _
  rw [unpack_toModel]
  rcases read x with - | n | ⟨n, s, u⟩
  · exact iff_of_true rfl rfl
  · exact iff_of_false Bool.false_ne_true nofun
  · refine iff_of_false ?_ nofun
    obtain hs | hs := Nat.eq_zero_or_pos s
    · rw [Reading.toUnpacked_of_zero n u hs]
      exact Bool.false_ne_true
    · rw [Reading.toUnpacked_of_pos n u hs]
      exact Bool.false_ne_true

/-- The tests before a root exclude each other. -/
theorem not_lt_zero_of_le (h : 0.0 ≤ x) : ¬ x < 0.0 := by
  rw [le_iff_compare, unpack_zero] at h
  rw [lt_iff_compare, unpack_zero]
  match hx : x.toModel.unpack with
  | .notANumber | .zero _ | .infinity .positive | .finite .positive .. => exact nofun
  | .infinity .negative | .finite .negative .. =>
    rw [hx] at h
    cases h

/-! ### The sign of a number -/

/-- The sign bit of a number. -/
def isNegative (x : Float) : Bool :=
  decide (2 ^ 63 ≤ x.toBits.toNat)

/-- The magnitude of one number with the sign of another. -/
def copySign (x y : Float) : Float :=
  if isNegative y then -x.abs else x.abs

/-- The sign of a finite number, **zero included**, is its sign bit. -/
theorem isNegative_of_finite {n : Bool} {s u : Nat} (h : read y = .finite n s u) :
    isNegative y = n := by
  obtain ⟨hbits, hs, -, hu⟩ := pattern_of_read h
  rw [isNegative, hbits]
  exact decide_signBit n (by omega)

/-- So is the sign of an infinity. -/
theorem isNegative_of_infinite {n : Bool} (h : read y = .infinite n) : isNegative y = n := by
  rw [read, Reading.ofBits_eq] at h
  split at h
  · split at h
    · exact Reading.infinite.inj h
    · cases h
  · split at h <;> cases h

/-! ### Quotients, remainders and roots -/

/-- Dividing is dividing what was read, packed again. -/
theorem div_eq (x y : Float) :
    x / y = .ofModel (.pack (UnpackedFloat.div .binary64 (read x).toUnpacked
      (read y).toUnpacked)) := by
  rw [← unpack_toModel, ← unpack_toModel]
  rfl

theorem ofModel_pack_notANumber : Float.ofModel (.pack .notANumber) = notANumber := by
  decide +kernel

/-- Zero by zero is NaN, and so is NaN by zero. -/
theorem div_zero_of_zero (hx : (x == 0.0) = true ∨ x.isNaN = true) (hy : (y == 0.0) = true) :
    x / y = notANumber := by
  obtain ⟨n, u, hread⟩ := beq_zero_iff.1 hy
  rw [div_eq, hread, Reading.toUnpacked_of_zero n u rfl]
  rcases hx with hzero | hnan
  · obtain ⟨n', u', hread'⟩ := beq_zero_iff.1 hzero
    rw [hread', Reading.toUnpacked_of_zero n' u' rfl]
    exact ofModel_pack_notANumber
  · rw [isNaN_iff.1 hnan]
    exact ofModel_pack_notANumber

/-- The infinity that a quotient by zero is. -/
theorem ofModel_pack_infinity (n n' : Bool) :
    Float.ofModel (.pack (.infinity (signOf n / signOf n'))) =
      (if n then -(infinity false).abs else (infinity false).abs) *
        if n' then -(1.0 : Float).abs else (1.0 : Float).abs := by
  match n, n' with
  | false, false | false, true | true, false | true, true => decide +kernel

/-- **Any other number by zero** is an infinity, with the product of the signs. -/
theorem div_zero_of_ne_zero (hx : ¬ (x == 0.0) = true) (hnan : ¬ x.isNaN = true)
    (hy : (y == 0.0) = true) : x / y = copySign (infinity false) x * copySign 1.0 y := by
  obtain ⟨n', u', hread'⟩ := beq_zero_iff.1 hy
  rw [div_eq, copySign, copySign, isNegative_of_finite hread', hread',
    Reading.toUnpacked_of_zero n' u' rfl]
  rcases hread : read x with - | n | ⟨n, s, u⟩
  · exact absurd (isNaN_iff.2 hread) hnan
  · rw [isNegative_of_infinite hread, ← ofModel_pack_infinity]
    rfl
  · obtain rfl | hs := Nat.eq_zero_or_pos s
    · exact absurd (beq_zero_iff.2 ⟨n, u, hread⟩) hx
    · rw [isNegative_of_finite hread, ← ofModel_pack_infinity, Reading.toUnpacked_of_pos n u hs]
      rfl

/-- There is no remainder of a division by zero. -/
theorem remainder_of_zero (x : Float) (hy : (y == 0.0) = true) : remainder x y = notANumber := by
  obtain ⟨n, u, hread⟩ := beq_zero_iff.1 hy
  rw [remainder, hread]
  rcases read x with - | n | ⟨n, s, u⟩ <;> rfl

/-- There is none of an infinity either. -/
theorem remainder_of_infinite (hx : x.isInf = true) (y : Float) : remainder x y = notANumber := by
  obtain ⟨n, hread⟩ := exists_read_of_isInf hx
  rw [remainder, hread]

/-- Below zero, and for what is not a number, there is no root. -/
theorem sqrt_of_not_le (h : ¬ 0.0 ≤ x) : x.sqrt = notANumber := by
  rw [le_iff_compare, unpack_zero] at h
  show Float.ofModel (.pack (UnpackedFloat.sqrt .binary64 x.toModel.unpack)) = notANumber
  match hx : x.toModel.unpack with
  | .notANumber | .infinity .negative | .finite .negative .. => exact ofModel_pack_notANumber
  | .zero _ | .infinity .positive | .finite .positive .. =>
    rw [hx] at h
    exact absurd rfl h

end DottedLisp.Number
