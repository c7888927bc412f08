import DottedLisp.Proofs.Numbers.Rounding
import Mathlib.Order.Compare

/-!
# The order of numbers

Comparisons are `Float`'s own. Finite numbers are compared by what they stand for
(`compare_of_value`): of two canonical pairs with the same sign, the one with the larger unit stands
for the larger magnitude, and only equal units leave it to the significands (`Canonical.cmp_eq`).
Beside a finite number an infinity is compared by its **sign alone**, whatever the number is
(`compare_infinite_left`, `compare_infinite_right`).
-/

namespace DottedLisp.Number

open Float.Model (UnpackedFloat)

variable {n n' : Bool} {s u s' u' : Nat} {x y z : Float} {p q : ℚ}

/-- The unpacked form of a number is that of what was read. -/
theorem unpack_toModel (x : Float) : x.toModel.unpack = (read x).toUnpacked :=
  unpack_eq x.toBits.toBitVec

/-! ### Finite numbers -/

/-- Magnitudes are compared by their units first. -/
theorem Canonical.cmp_eq (h : Canonical s u) (h' : Canonical s' u') :
    (cmp u u').then (cmp s s') = cmp (s * 2 ^ u) (s' * 2 ^ u') := by
  have hlt := h.lt_iff h'
  have hgt := h'.lt_iff h
  obtain ⟨hs, hleading, -⟩ := h
  obtain ⟨hs', hleading', -⟩ := h'
  rcases lt_trichotomy u u' with hu | rfl | hu
  · rw [(cmp_eq_lt_iff u u').2 hu]
    exact ((cmp_eq_lt_iff _ _).2 (hlt.2 (by omega))).symm
  · rw [cmp_self_eq_eq]
    exact ((strictMono_mul_right_of_pos (Nat.two_pow_pos u)).cmp_map_eq s s').symm
  · rw [(cmp_eq_gt_iff u u').2 hu]
    exact ((cmp_eq_gt_iff _ _).2 (hgt.2 (by omega))).symm

/-- Exponents compare as units do. -/
theorem compare_exponents (u u' : Nat) : compare ((u : ℤ) - 1074) (u' - 1074) = cmp u u' := by
  have hmono : StrictMono fun k : Nat ↦ (k : ℤ) - 1074 := fun a b hab ↦ by
    show (a : ℤ) - 1074 < b - 1074
    omega
  rw [← cmp_eq_compare]
  exact hmono.cmp_map_eq u u'

theorem cmp_signed_false (a b : Nat) : cmp (signed false a) (signed false b) = cmp a b :=
  Nat.strictMono_cast.cmp_map_eq a b

/-- Below zero the order is turned round. -/
theorem cmp_signed_true (a b : Nat) : cmp (signed true a) (signed true b) = cmp b a := by
  have hanti : StrictAnti (signed true) := fun a b hab ↦ by
    show -(b : ℤ) < -(a : ℤ)
    omega
  exact hanti.cmp_map_eq a b

theorem signed_zero (n : Bool) : signed n 0 = 0 := by
  cases n <;> rfl

/-- With a minus sign in front, what is not zero is below zero. -/
theorem signed_true_neg {a : Nat} (h : 0 < a) : signed true a < 0 := by
  show -(a : ℤ) < 0
  omega

/-- Without one nothing is. -/
theorem signed_false_nonneg (a : Nat) : 0 ≤ signed false a :=
  Int.natCast_nonneg a

/-- Comparing unpacked numbers is comparing their numerators. -/
theorem compare_toUnpacked (h : Canonical s u) (h' : Canonical s' u') :
    (Reading.finite n s u).toUnpacked.compare (Reading.finite n' s' u').toUnpacked =
      some (cmp (signed n (s * 2 ^ u)) (signed n' (s' * 2 ^ u'))) := by
  -- Zeros stand apart, since they are equal whatever their signs are; between the others the signs
  -- decide, and only between equal signs the exponent and the significand.
  obtain rfl | hs := Nat.eq_zero_or_pos s
  · rw [Reading.toUnpacked_of_zero n u rfl, Nat.zero_mul, signed_zero]
    obtain rfl | hs' := Nat.eq_zero_or_pos s'
    · rw [Reading.toUnpacked_of_zero n' u' rfl, Nat.zero_mul, signed_zero, cmp_self_eq_eq]
      rfl
    · have hpos := Nat.mul_pos hs' (Nat.two_pow_pos u')
      rw [Reading.toUnpacked_of_pos n' u' hs']
      match n' with
      | false => exact congrArg some ((cmp_eq_lt_iff _ _).2 (Int.natCast_pos.2 hpos)).symm
      | true => exact congrArg some ((cmp_eq_gt_iff _ _).2 (signed_true_neg hpos)).symm
  · have hpos := Nat.mul_pos hs (Nat.two_pow_pos u)
    rw [Reading.toUnpacked_of_pos n u hs]
    obtain rfl | hs' := Nat.eq_zero_or_pos s'
    · rw [Reading.toUnpacked_of_zero n' u' rfl, Nat.zero_mul, signed_zero]
      match n with
      | false => exact congrArg some ((cmp_eq_gt_iff _ _).2 (Int.natCast_pos.2 hpos)).symm
      | true => exact congrArg some ((cmp_eq_lt_iff _ _).2 (signed_true_neg hpos)).symm
    · have hpos' := Nat.mul_pos hs' (Nat.two_pow_pos u')
      rw [Reading.toUnpacked_of_pos n' u' hs']
      match n, n' with
      | false, false =>
        show some ((compare _ _).then (compare s s')) = _
        rw [compare_exponents, ← cmp_eq_compare, h.cmp_eq h', cmp_signed_false]
      | true, true =>
        show some ((compare _ _).then (compare s s')).swap = _
        rw [compare_exponents, ← cmp_eq_compare, h.cmp_eq h', cmp_swap, cmp_signed_true]
      | false, true =>
        exact congrArg some ((cmp_eq_gt_iff _ _).2
          ((signed_true_neg hpos').trans_le (signed_false_nonneg _))).symm
      | true, false =>
        exact congrArg some ((cmp_eq_lt_iff _ _).2
          ((signed_true_neg hpos).trans_le (signed_false_nonneg _))).symm

/-- **Finite numbers are compared by what they stand for.** -/
theorem compare_of_value (hx : value? x = some p) (hy : value? y = some q) :
    x.toModel.unpack.compare y.toModel.unpack = some (cmp p q) := by
  obtain ⟨n, s, u, hread, rfl⟩ := exists_read_of_value hx
  obtain ⟨n', s', u', hread', rfl⟩ := exists_read_of_value hy
  have hmono : StrictMono fun z : ℤ ↦ (z : ℚ) / scale := fun a b hab ↦
    div_lt_div_of_pos_right (Int.cast_lt.2 hab) (by exact_mod_cast scale_pos)
  rw [unpack_toModel, unpack_toModel, hread, hread',
    compare_toUnpacked (pattern_of_read hread).2 (pattern_of_read hread').2, scaled_eq, scaled_eq]
  exact congrArg some (hmono.cmp_map_eq _ _).symm

/-- Being at most is a comparison of the unpacked forms, and a comparison that has no answer does
not count. -/
theorem le_iff_compare : x ≤ y ↔
    (x.toModel.unpack.compare y.toModel.unpack).any (·.isLE) = true := by
  show decide ((x.toModel.unpack.compare y.toModel.unpack).any (·.isLE) = true) = true ↔ _
  exact decide_eq_true_iff

/-- **Finite numbers are ordered as their values.** -/
theorem le_iff_of_value (hx : value? x = some p) (hy : value? y = some q) : x ≤ y ↔ p ≤ q := by
  rw [le_iff_compare, compare_of_value hx hy, Option.any_some]
  rcases lt_trichotomy p q with h | rfl | h
  · rw [(cmp_eq_lt_iff _ _).2 h]
    exact iff_of_true rfl h.le
  · rw [cmp_self_eq_eq]
    exact iff_of_true rfl le_rfl
  · rw [(cmp_eq_gt_iff _ _).2 h]
    exact iff_of_false Bool.false_ne_true h.not_ge

/-! ### Infinities -/

section Infinite

variable {a b : UnpackedFloat}

/-- What is not finite is compared with a finite number as it is with zero. -/
theorem compare_infinite_left (ha : unpackedValue? a = none) (hb : unpackedValue? b = some q) :
    a.compare b = a.compare (.zero .positive) := by
  match a, b with
  | .notANumber, _ => rfl
  | .infinity .positive, .finite .. | .infinity .positive, .zero _
  | .infinity .negative, .finite .. | .infinity .negative, .zero _ => rfl

/-- What has no value is compared with a finite number as with zero. -/
theorem compare_infinite_right (ha : unpackedValue? a = none) (hb : unpackedValue? b = some q) :
    b.compare a = (UnpackedFloat.zero .positive).compare a := by
  match a, b with
  | .notANumber, .finite .. | .notANumber, .zero _
  | .infinity .positive, .finite .. | .infinity .positive, .zero _
  | .infinity .negative, .finite .. | .infinity .negative, .zero _ => rfl

end Infinite

/-- An infinity that is below one finite number is below every other. -/
theorem le_of_infinite_left (hx : value? x = none) (hy : value? y = some p) (hz : value? z = some q)
    (h : x ≤ y) : x ≤ z := by
  rw [le_iff_compare, compare_infinite_left hx hy] at h
  rwa [le_iff_compare, compare_infinite_left hx hz]

/-- What is beyond one finite number on the right is beyond every one. -/
theorem le_of_infinite_right (hx : value? x = none) (hy : value? y = some p)
    (hz : value? z = some q) (h : y ≤ x) : z ≤ x := by
  rw [le_iff_compare, compare_infinite_right hx hy] at h
  rwa [le_iff_compare, compare_infinite_right hx hz]

end DottedLisp.Number
