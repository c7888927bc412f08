import DottedLisp.Proofs.Numbers.Order
import DottedLisp.Proofs.Numbers.Significance

/-!
# Rounding to an integer

Each of the four roundings is described by the integer it takes for an exact value, with no
reference to numbers (`Rounding.Takes`). Two facts about that relation carry everything else: it
**keeps the order** (`Rounding.Takes.mono`), so that there is one such integer only, and it takes
every integer **for itself** (`Rounding.takes_intCast`).

The integer is turned into a number again, and nothing is lost on the way back
(`value?_ofInt_of_takes`). A number whose unit is at least one stands for an integer already, and an
integer that a number stands for is rounded to that number (`nearest_of_read`). Any other number is
below `2 ^ 53` in magnitude, and so is what is taken for it, up to the power of two that rounding up
may **reach**.

Main statement: `Rounding.native_exact`.
-/

namespace DottedLisp.Number

variable {r : Rounding} {q q' : ℚ} {n n' z : ℤ} {neg : Bool} {num den s u : Nat} {x y : Float}

/-! ### The integer that is taken -/

/-- `n` is the integer that a rounding takes for `q`. Of two integers that are equally near, the
nearest is the **even** one. -/
def Rounding.Takes (r : Rounding) (q : ℚ) (n : ℤ) : Prop :=
  match r with
  | .up => n = ⌈q⌉
  | .down => n = ⌊q⌋
  | .towardZero => n = truncate q
  | .toNearest =>
    (∀ m : ℤ, |(n : ℚ) - q| ≤ |(m : ℚ) - q|) ∧
      ∀ m : ℤ, m ≠ n → |(m : ℚ) - q| = |(n : ℚ) - q| → Even n

/-- Dropping what is behind the point keeps the order. -/
theorem truncate_mono (h : q ≤ q') : truncate q ≤ truncate q' := by
  rw [truncate, truncate]
  split
  · split
    · exact Int.ceil_mono h
    · have hneg : ⌈q⌉ ≤ 0 := Int.ceil_le.2 (by exact_mod_cast le_of_lt ‹_›)
      have hpos : 0 ≤ ⌊q'⌋ := Int.floor_nonneg.2 (not_lt.1 ‹_›)
      exact hneg.trans hpos
  · rw [if_neg (by linarith)]
    exact Int.floor_mono h

/-- What is at least as near to the larger of two is not below their middle. -/
theorem add_le_two_mul_of_abs_le {a b : ℚ} (hlt : a < b) (h : |b - q| ≤ |a - q|) :
    a + b ≤ 2 * q := by
  rw [← sq_le_sq] at h
  nlinarith

/-- What is at least as near to the smaller of two numbers is not beyond their middle. -/
theorem two_mul_le_add_of_abs_le {a b : ℚ} (hlt : a < b) (h : |a - q| ≤ |b - q|) :
    2 * q ≤ a + b := by
  rw [← sq_le_sq] at h
  nlinarith

/-- **A larger value is not rounded to a smaller integer.** -/
theorem Rounding.Takes.mono (h : r.Takes q n) (h' : r.Takes q' n') (hle : q ≤ q') : n ≤ n' := by
  match r with
  | .up =>
    obtain rfl : n = ⌈q⌉ := h
    obtain rfl : n' = ⌈q'⌉ := h'
    exact Int.ceil_mono hle
  | .down =>
    obtain rfl : n = ⌊q⌋ := h
    obtain rfl : n' = ⌊q'⌋ := h'
    exact Int.floor_mono hle
  | .towardZero =>
    obtain rfl : n = truncate q := h
    obtain rfl : n' = truncate q' := h'
    exact truncate_mono hle
  | .toNearest =>
    obtain ⟨hnear, heven⟩ := h
    obtain ⟨hnear', heven'⟩ := h'
    by_contra! hlt
    have hcast : (n' : ℚ) < n := Int.cast_lt.2 hlt
    have hlow := add_le_two_mul_of_abs_le hcast (hnear n')
    have hhigh := two_mul_le_add_of_abs_le hcast (hnear' n)
    -- Both values are the middle, so both integers are even and another lies between them.
    obtain rfl : q = q' := by linarith
    have htie : |(n' : ℚ) - q| = |(n : ℚ) - q| := le_antisymm (hnear' n) (hnear n')
    obtain ⟨a, rfl⟩ := heven n' hlt.ne htie
    obtain ⟨b, rfl⟩ := heven' (a + a) hlt.ne' htie.symm
    have hnearer : |((b + b + 1 : ℤ) : ℚ) - q| < |((b + b : ℤ) : ℚ) - q| :=
      abs_sub_lt_of_between hcast.ne htie
        (Or.inl ⟨Int.cast_lt.2 (by omega), Int.cast_lt.2 (by omega)⟩)
    exact absurd (hnear' (b + b + 1)) hnearer.not_ge

/-- A rounding takes one integer. -/
theorem Rounding.Takes.unique (h : r.Takes q n) (h' : r.Takes q n') : n = n' :=
  le_antisymm (h.mono h' le_rfl) (h'.mono h le_rfl)

/-- **An integer is taken for itself.** -/
theorem Rounding.takes_intCast (r : Rounding) (z : ℤ) : r.Takes z z := by
  match r with
  | .up => exact (Int.ceil_intCast z).symm
  | .down => exact (Int.floor_intCast z).symm
  | .towardZero => exact (truncate_intCast z).symm
  | .toNearest =>
    refine ⟨fun m ↦ ?_, fun m hm htie ↦ ?_⟩
    · rw [sub_self, abs_zero]
      exact abs_nonneg _
    · rw [sub_self, abs_zero, abs_eq_zero, sub_eq_zero, Int.cast_inj] at htie
      exact absurd htie hm

/-! ### Rounding a quotient -/

/-- The distance of an integer from a fraction, with the sign turned away, over the denominator. -/
theorem abs_intCast_sub_eq (hden : 0 < den) (neg : Bool) (num : Nat) (m : ℤ) :
    |(m : ℚ) - (signed neg num : ℚ) / den| = ((|turned neg m * den - num| : ℤ) : ℚ) / den := by
  have hden' : (0 : ℚ) < den := by exact_mod_cast hden
  rw [sub_div' hden'.ne', abs_div, abs_of_pos hden']
  congr 1
  match neg with
  | false =>
    show |(m : ℚ) * den - ((num : ℤ) : ℚ)| = ((|m * den - num| : ℤ) : ℚ)
    push_cast
    rfl
  | true =>
    show |(m : ℚ) * den - ((-(num : ℤ) : ℤ) : ℚ)| = ((|-m * den - num| : ℤ) : ℚ)
    push_cast
    rw [← abs_neg]
    ring_nf

/-- **The rounded quotient is the integer that is taken** for the quotient. -/
theorem Rounding.takes_quotient (r : Rounding) (neg : Bool) (num : Nat) (hden : 0 < den) :
    r.Takes ((signed neg num : ℚ) / den) (r.quotient neg num den) := by
  match r with
  | .up => exact (Rat.ceil_intCast_div_natCast _ _).symm
  | .down => exact (Rat.floor_intCast_div_natCast _ _).symm
  | .towardZero => exact (truncate_signed_div neg num den).symm
  | .toNearest =>
    have hden' : (0 : ℚ) < den := by exact_mod_cast hden
    show (∀ m : ℤ, |(signed neg (roundQuotient num den) : ℚ) - _| ≤ _) ∧ _
    simp only [abs_intCast_sub_eq hden, Rounding.quotient, turned_signed,
      div_le_div_iff_of_pos_right hden', div_left_inj' hden'.ne', Int.cast_le, Int.cast_inj]
    refine ⟨fun m ↦ roundQuotient_nearest num hden _, fun m hm htie ↦ ?_⟩
    -- The quotient is rounded without its sign, and so is the integer it is compared with.
    have hne : turned neg m ≠ roundQuotient num den := fun hsame ↦
      hm (turned_injective neg (hsame.trans (turned_signed neg _).symm))
    have heven := even_roundQuotient_of_tie hden hne htie
    rw [← Int.natAbs_even, natAbs_signed]
    exact Nat.even_iff.2 heven

/-- Every finite number is rounded to the integer that is taken for its exact value. -/
theorem exists_toInt? (r : Rounding) (hx : value? x = some q) :
    ∃ n, toInt? r x = some n ∧ r.Takes q n := by
  obtain ⟨neg, s, u, hread, rfl⟩ := exists_read_of_value hx
  refine ⟨r.quotient neg (s <<< u) scale, ?_, r.takes_quotient neg _ scale_pos⟩
  rw [toInt?, hread]

/-- A number without a value has no integer. -/
theorem toInt?_of_value_eq_none (r : Rounding) (hx : value? x = none) : toInt? r x = none := by
  rw [value?_eq] at hx
  rw [toInt?]
  rcases hread : read x with - | neg | ⟨neg, s, u⟩
  · rfl
  · rfl
  · rw [hread] at hx
    cases hx

/-! ### The way back -/

/-- A fraction that is a number has the unit of that number, so it is not rounded. -/
theorem Canonical.unitOf_eq (h : Canonical s u) (hden : 0 < den)
    (hvalue : num * scale = s * 2 ^ u * den) : unitOf num den = u := by
  rw [unitOf, hvalue, Nat.mul_div_cancel _ hden]
  obtain ⟨hs, hleading, -⟩ := h
  have hlt : s * 2 ^ u < 2 ^ (53 + u) := by
    rw [Nat.pow_add]
    exact Nat.mul_lt_mul_of_pos_right hs (Nat.two_pow_pos u)
  obtain rfl | hlarge := hleading
  · obtain rfl | hpos := Nat.eq_zero_or_pos s
    · rfl
    · have hlog := (Nat.log2_lt (Nat.mul_pos hpos (Nat.two_pow_pos 0)).ne').2 hlt
      omega
  · have hge : 2 ^ (52 + u) ≤ s * 2 ^ u := by
      rw [Nat.pow_add]
      exact Nat.mul_le_mul_right _ hlarge
    have hne : s * 2 ^ u ≠ 0 := ((Nat.two_pow_pos _).trans_le hge).ne'
    have hlog := (Nat.log2_lt hne).2 hlt
    have hleast := (Nat.le_log2 hne).2 hge
    omega

/-- **What a number stands for is rounded to that number.** -/
theorem nearest_of_read (h : read x = .finite neg s u) (hden : 0 < den)
    (hvalue : num * scale = s * 2 ^ u * den) : nearest neg num den = x := by
  have hunit := (pattern_of_read h).2.unitOf_eq hden hvalue
  have hpos : 0 < den * 2 ^ u := Nat.mul_pos hden (Nat.two_pow_pos u)
  have hsignificand : significandOf num den = s := by
    rw [significandOf, hunit, hvalue, Nat.mul_assoc, Nat.mul_comm (2 ^ u), roundQuotient_mul _ hpos]
  rw [nearest_eq, hunit, hsignificand, assemble_of_read h]

theorem ofInt_zero : ofInt 0 = zero false := by
  decide +kernel

/-- Both zeros have the value zero. -/
theorem value?_zero (neg : Bool) : value? (zero neg) = some 0 := by
  have hcanonical : Canonical 0 0 := ⟨by decide, Or.inl rfl, by decide⟩
  rw [value?_eq, zero, hcanonical.read_assemble, Reading.value?, scaled_eq, Nat.zero_mul,
    signed_zero, Int.cast_zero, zero_div]

/-- An integer that a number stands for is not rounded, however large it is. -/
theorem value?_ofInt_of_value (hx : value? x = some (z : ℚ)) : value? (ofInt z) = some (z : ℚ) := by
  obtain rfl | hz := eq_or_ne z 0
  · rw [ofInt_zero, value?_zero, Int.cast_zero]
  obtain ⟨neg, s, u, hread, heq⟩ := exists_read_of_value hx
  rw [scaled_eq] at heq
  have hnumerator : z * scale = signed neg (s * 2 ^ u) := by
    rw [eq_div_iff (by exact_mod_cast scale_pos.ne')] at heq
    exact_mod_cast heq
  have hvalue : z.natAbs * scale = s * 2 ^ u := by
    rw [← natAbs_signed neg (s * 2 ^ u), ← hnumerator, Int.natAbs_mul, Int.natAbs_natCast]
  have hpos : 0 < s * 2 ^ u := hvalue ▸ Nat.mul_pos (Int.natAbs_pos.2 hz) scale_pos
  have hsign : decide (z < 0) = neg := by
    rw [← Bool.coe_iff_coe, decide_eq_true_iff, ← Int.cast_lt_zero (R := ℚ), heq,
      signed_div_neg_iff scale_pos fun _ ↦ hpos]
  rw [ofInt, hsign, nearest_of_read hread Nat.one_pos (by rw [hvalue, Nat.mul_one]), hx]

/-- A number is an integer, or smaller than the integers that need more bits than there are. -/
theorem exists_intCast_or_abs_le (hx : value? x = some q) :
    (∃ z : ℤ, q = z) ∨ |q| ≤ ((2 ^ 53 : ℤ) : ℚ) := by
  obtain ⟨neg, s, u, hread, rfl⟩ := exists_read_of_value hx
  obtain ⟨e, -, hscale⟩ := exists_scale
  have hpos : (0 : ℚ) < scale := by exact_mod_cast scale_pos
  rw [scaled_eq]
  obtain hle | hlt := le_or_gt e u
  · left
    refine ⟨signed neg (s * 2 ^ (u - e)), ?_⟩
    have hmul : s * 2 ^ u = s * 2 ^ (u - e) * scale := by
      rw [hscale, Nat.mul_assoc, ← Nat.pow_add, Nat.sub_add_cancel hle]
    rw [div_eq_iff hpos.ne', hmul, signed_mul]
    push_cast
    rfl
  · right
    have hbound : s * 2 ^ u ≤ 2 ^ 53 * scale := by
      rw [hscale]
      exact Nat.mul_le_mul (pattern_of_read hread).2.lt.le
        (Nat.pow_le_pow_right Nat.two_pos hlt.le)
    rw [abs_div, abs_of_pos hpos, div_le_iff₀ hpos, ← Int.cast_abs, Int.abs_eq_natAbs,
      natAbs_signed]
    exact_mod_cast hbound

/-- **Nothing is lost on the way back.** -/
theorem value?_ofInt_of_takes (hx : value? x = some q) (h : r.Takes q n) :
    value? (ofInt n) = some (n : ℚ) := by
  obtain ⟨z, rfl⟩ | hsmall := exists_intCast_or_abs_le hx
  · obtain rfl := h.unique (r.takes_intCast z)
    exact value?_ofInt_of_value hx
  · obtain ⟨hlow, hhigh⟩ := abs_le.1 hsmall
    have hle : n ≤ 2 ^ 53 := h.mono (r.takes_intCast (2 ^ 53)) hhigh
    have hge : -2 ^ 53 ≤ n := (r.takes_intCast (-2 ^ 53)).mono h (by rwa [Int.cast_neg])
    have hsignificant : Significant n := significant_of_dvd (k := 0) (one_dvd n) (by omega)
    exact hsignificant.value?_ofInt (show 54 ≤ 1022 by decide) (by omega)

-- Rounding up carries into the next power of two, and large numbers stay as they are.
example : roundToInteger .up 4503599627370495.5 = 4503599627370496.0 ∧
    roundToInteger .toNearest (-1e300) = -1e300 := by
  decide +kernel

/-! ### Rounded numbers -/

/-- The rounded number stands for the integer that is taken. -/
theorem exists_roundToInteger (r : Rounding) (hx : value? x = some q) :
    ∃ n, r.Takes q n ∧ roundToInteger r x = ofInt n ∧
      value? (roundToInteger r x) = some (n : ℚ) := by
  obtain ⟨n, htoInt, htakes⟩ := exists_toInt? r hx
  have hround : roundToInteger r x = ofInt n := by rw [roundToInteger, htoInt]
  exact ⟨n, htakes, hround, hround ▸ value?_ofInt_of_takes hx htakes⟩

/-- Infinities, and what is not a number, are left as they are. -/
theorem roundToInteger_of_value_eq_none (r : Rounding) (hx : value? x = none) :
    roundToInteger r x = x := by
  rw [roundToInteger, toInt?_of_value_eq_none r hx]

/-- **Rounding twice is rounding once**: an integer is taken for itself. -/
theorem roundToInteger_idem (r : Rounding) (x : Float) :
    roundToInteger r (roundToInteger r x) = roundToInteger r x := by
  cases hx : value? x with
  | none => rw [roundToInteger_of_value_eq_none r hx, roundToInteger_of_value_eq_none r hx]
  | some q =>
    obtain ⟨n, -, hround, hvalue⟩ := exists_roundToInteger r hx
    obtain ⟨n', htakes', hround', -⟩ := exists_roundToInteger r hvalue
    rw [hround', hround, htakes'.unique (r.takes_intCast n)]

/-- **Rounding keeps the order**, also next to infinities. Only finite numbers need an argument. -/
theorem roundToInteger_mono (r : Rounding) (h : x ≤ y) :
    roundToInteger r x ≤ roundToInteger r y := by
  cases hx : value? x with
  | none =>
    rw [roundToInteger_of_value_eq_none r hx]
    cases hy : value? y with
    | none => rwa [roundToInteger_of_value_eq_none r hy]
    | some q' =>
      obtain ⟨n', -, -, hvalue'⟩ := exists_roundToInteger r hy
      exact le_of_infinite_left hx hy hvalue' h
  | some q =>
    obtain ⟨n, htakes, -, hvalue⟩ := exists_roundToInteger r hx
    cases hy : value? y with
    | none =>
      rw [roundToInteger_of_value_eq_none r hy]
      exact le_of_infinite_right hy hx hvalue h
    | some q' =>
      obtain ⟨n', htakes', -, hvalue'⟩ := exists_roundToInteger r hy
      rw [le_iff_of_value hx hy] at h
      rw [le_iff_of_value hvalue hvalue', Int.cast_le]
      exact htakes.mono htakes' h

/-! ### The native functions -/

/-- The identifier among the operations named for 64-bit floating-point numbers. -/
def Rounding.identifier : Rounding → String
  | .up => "ceil"
  | .down => "floor"
  | .towardZero => "trunc"
  | .toNearest => "nearest"

/-- There is a native function for each rounding. -/
theorem Rounding.exists_native (r : Rounding) :
    ∃ native, Native.f64.natives.lookup r.identifier = some native ∧
      ∀ x, native.call [.number x] = .ok (.number (roundToInteger r x)) := by
  match r with
  | .up => exact ⟨⟨"native.f64.ceil", 1, .ceiling⟩, rfl, fun _ ↦ rfl⟩
  | .down => exact ⟨⟨"native.f64.floor", 1, .floor⟩, rfl, fun _ ↦ rfl⟩
  | .towardZero => exact ⟨⟨"native.f64.trunc", 1, .truncate⟩, rfl, fun _ ↦ rfl⟩
  | .toNearest => exact ⟨⟨"native.f64.nearest", 1, .nearest⟩, rfl, fun _ ↦ rfl⟩

/-- **The roundings are exact.** Each is a function on all numbers. What it gives for a finite
number stands for the one integer that is taken for the exact value, a zero being positive;
infinities and NaN stay as they are. Rounding again changes nothing, and the order is kept. -/
theorem Rounding.native_exact (r : Rounding) :
    ∃ (native : Native) (f : Float → Float),
      Native.f64.natives.lookup r.identifier = some native ∧
      (∀ x, native.call [.number x] = .ok (.number (f x))) ∧
      (∀ x q, value? x = some q →
        ∃ n : ℤ, (∀ m, r.Takes q m ↔ m = n) ∧ value? (f x) = some (n : ℚ) ∧
          (n = 0 → f x = zero false)) ∧
      (∀ x, value? x = none → f x = x) ∧
      (∀ x, f (f x) = f x) ∧
      ∀ x y, x ≤ y → f x ≤ f y := by
  obtain ⟨native, hlookup, hcall⟩ := r.exists_native
  refine ⟨native, roundToInteger r, hlookup, hcall, fun x q hx ↦ ?_,
    fun x ↦ roundToInteger_of_value_eq_none r, roundToInteger_idem r,
    fun x y ↦ roundToInteger_mono r⟩
  obtain ⟨n, htakes, hround, hvalue⟩ := exists_roundToInteger r hx
  refine ⟨n, fun m ↦ ⟨fun hm ↦ hm.unique htakes, fun hm ↦ hm ▸ htakes⟩, hvalue, ?_⟩
  rintro rfl
  rw [hround, ofInt_zero]

end DottedLisp.Number
