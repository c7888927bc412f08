import DottedLisp.Proofs.Numbers.BitPatterns
import Mathlib.Algebra.Order.Field.Basic
import Mathlib.Algebra.Order.Ring.Abs
import Mathlib.Tactic.Linarith
import Mathlib.Tactic.Ring

/-!
# Correct rounding

`RoundsTo q x` says that `x` is the number that `q` is correctly rounded to, against **all** finite
numbers and with no reference to how `x` was made. `nearest` meets it (`rounds_nearest`), so the
number of an integer does (`rounds_ofInt`), and there is one such number only (`RoundsTo.unique`).

The argument is one on integers. Over the common denominator every finite number is an integer on a
grid (`OnGrid`): a multiple of the unit that `nearest` chose, or **strictly** farther from the
fraction than the least significand with its leading bit. Rounding among the multiples is the
rounding rule of `roundQuotient`.

A fraction whose rounding leaves the format is out of scope: every statement has the unit in range.
-/

namespace DottedLisp.Number

variable {neg : Bool} {num den s u N D : Nat} {x y : Float} {q : ℚ}

/-! ### The rounded quotient -/

/-- Two different multiples are at least one step apart. -/
theorem le_abs_add_abs_of_ne {a b d : ℤ} (n : ℤ) (hd : 0 ≤ d) (h : a ≠ b) :
    d ≤ |a * d - n| + |b * d - n| :=
  calc d = 1 * d := (one_mul d).symm
    _ ≤ |a - b| * d := mul_le_mul_of_nonneg_right (Int.one_le_abs (sub_ne_zero.2 h)) hd
    _ = |(a * d - n) - (b * d - n)| := by
      rw [sub_sub_sub_cancel_right, ← sub_mul, abs_mul, abs_of_nonneg hd]
    _ ≤ |a * d - n| + |b * d - n| := abs_sub _ _

/-- The rounded quotient is off by at most half a divisor, to either side. -/
theorem two_mul_abs_roundQuotient_sub_le (N : Nat) (h : 0 < D) :
    2 * |((roundQuotient N D : ℤ) * D - N)| ≤ D := by
  have hlow := two_mul_roundQuotient_mul_le N D
  have hhigh := two_mul_le_two_mul_roundQuotient_mul_add N h
  zify at hlow hhigh
  have hhalf : |2 * ((roundQuotient N D : ℤ) * D - N)| ≤ D :=
    abs_le.2 ⟨by linarith, by linarith⟩
  rwa [abs_mul, abs_two] at hhalf

/-- No multiple of the divisor is nearer than the rounded one. -/
theorem roundQuotient_nearest (N : Nat) (h : 0 < D) (m : ℤ) :
    |(roundQuotient N D : ℤ) * D - N| ≤ |m * D - N| := by
  by_cases hm : m = roundQuotient N D
  · rw [hm]
  · have hhalf := two_mul_abs_roundQuotient_sub_le N h
    have hapart := le_abs_add_abs_of_ne N (Int.natCast_nonneg D) hm
    linarith

/-- Off by exactly a half, the rounded quotient is even. -/
theorem even_roundQuotient (h : 0 < D) (hhalf : 2 * |(roundQuotient N D : ℤ) * D - N| = D) :
    roundQuotient N D % 2 = 0 := by
  have hdiv := Nat.div_add_mod N D
  have hlt := Nat.mod_lt N h
  rw [roundQuotient] at hhalf ⊢
  generalize N / D = whole at hdiv hhalf ⊢
  generalize N % D = rest at hdiv hlt hhalf ⊢
  zify at hdiv hlt
  split at hhalf
  · rw [abs_of_nonpos (by linarith)] at hhalf
    have hrest : (2 : ℤ) * rest = D := by linarith
    omega
  · rw [if_neg ‹_›]
    split at hhalf
    · push_cast at hhalf
      rw [abs_of_nonneg (by linarith)] at hhalf
      have hrest : (2 : ℤ) * rest = D := by linarith
      omega
    · rw [if_neg ‹_›]
      omega

/-- Of two multiples that are equally near, the rounded one is even. -/
theorem even_roundQuotient_of_tie (h : 0 < D) {m : ℤ} (hm : m ≠ roundQuotient N D)
    (htie : |m * D - N| = |(roundQuotient N D : ℤ) * D - N|) : roundQuotient N D % 2 = 0 := by
  have hhalf := two_mul_abs_roundQuotient_sub_le N h
  have hapart := le_abs_add_abs_of_ne N (Int.natCast_nonneg D) hm
  exact even_roundQuotient h (by linarith)

/-! ### The unit of a fraction -/

/-- The unit is large enough: the significand has at most 53 bits. -/
theorem lt_unitOf (num : Nat) (h : 0 < den) :
    num * scale < 2 ^ 53 * (den * 2 ^ unitOf num den) := by
  have hlog : num * scale / den < 2 ^ ((num * scale / den).log2 + 1) := Nat.lt_log2_self
  have hexponent : (num * scale / den).log2 + 1 ≤ 53 + unitOf num den := by
    rw [unitOf]
    omega
  have hlt : num * scale / den < 2 ^ (53 + unitOf num den) :=
    hlog.trans_le (Nat.pow_le_pow_right Nat.two_pos hexponent)
  calc num * scale < 2 ^ (53 + unitOf num den) * den := (Nat.div_lt_iff_lt_mul h).1 hlt
    _ = 2 ^ 53 * (den * 2 ^ unitOf num den) := by ring

/-- The unit is not too large: the significand has its leading bit, unless the unit is the smallest.
-/
theorem unitOf_le (h : 0 < den) (hunit : unitOf num den ≠ 0) :
    2 ^ 52 * (den * 2 ^ unitOf num den) ≤ num * scale := by
  have hexponent : (num * scale / den).log2 = 52 + unitOf num den := by
    rw [unitOf] at hunit ⊢
    omega
  have hpos : num * scale / den ≠ 0 := by
    intro hzero
    rw [hzero, Nat.log2_zero] at hexponent
    omega
  have hle : 2 ^ (52 + unitOf num den) ≤ num * scale / den := by
    rw [← hexponent]
    exact Nat.log2_self_le hpos
  calc 2 ^ 52 * (den * 2 ^ unitOf num den) = 2 ^ (52 + unitOf num den) * den := by ring
    _ ≤ num * scale := (Nat.le_div_iff_mul_le h).1 hle

/-- The significand that `nearest` rounds to. -/
def significandOf (num den : Nat) : Nat :=
  roundQuotient (num * scale) (den * 2 ^ unitOf num den)

/-- Rounding a fraction assembles its rounded significand and its unit. -/
theorem nearest_eq (neg : Bool) (num den : Nat) :
    nearest neg num den = assemble neg (significandOf num den) (unitOf num den) := by
  rw [nearest, significandOf, Nat.shiftLeft_eq]

/-- Rounding carries at most once. -/
theorem significandOf_le (num : Nat) (h : 0 < den) : significandOf num den ≤ 2 ^ 53 := by
  have hpos : 0 < den * 2 ^ unitOf num den := Nat.mul_pos h (Nat.two_pow_pos _)
  have hlow := two_mul_roundQuotient_mul_le (num * scale) (den * 2 ^ unitOf num den)
  have hlt := lt_unitOf num h
  rw [← significandOf] at hlow
  generalize den * 2 ^ unitOf num den = d at hpos hlow hlt
  by_contra hgreater
  have hmul : (2 ^ 53 + 1) * d ≤ significandOf num den * d :=
    Nat.mul_le_mul_right d (by omega)
  omega

/-- Rounding does not lose the leading bit. -/
theorem le_significandOf (h : 0 < den) (hunit : unitOf num den ≠ 0) :
    2 ^ 52 ≤ significandOf num den := by
  have hpos : 0 < den * 2 ^ unitOf num den := Nat.mul_pos h (Nat.two_pow_pos _)
  have hhigh := two_mul_le_two_mul_roundQuotient_mul_add (num * scale) hpos
  have hle := unitOf_le h hunit
  rw [← significandOf] at hhigh
  generalize den * 2 ^ unitOf num den = d at hpos hhigh hle
  by_contra hless
  have hmul : significandOf num den * d ≤ (2 ^ 52 - 1) * d :=
    Nat.mul_le_mul_right d (by omega)
  omega

/-! ### A carry out of the significand -/

/-- A significand that rounding may give: that of a number, or the power of two beyond it. -/
structure Rounded (significand unit : Nat) : Prop where
  /-- At most one carry has happened. -/
  le : significand ≤ 2 ^ 53
  /-- The significand has its leading bit, unless the unit is the smallest. -/
  leading : unit = 0 ∨ 2 ^ 52 ≤ significand
  /-- The fields add up to less than the pattern of infinity. -/
  room : unit * 2 ^ 52 + significand < 2047 * 2 ^ 52

/-- The fields add up, so a carry out of the significand lands in the unit. -/
theorem Rounded.exists_canonical (h : Rounded s u) :
    ∃ s' u', Canonical s' u' ∧ u * 2 ^ 52 + s = u' * 2 ^ 52 + s' ∧ s * 2 ^ u = s' * 2 ^ u' := by
  obtain ⟨hle, hleading, hroom⟩ := h
  by_cases hcarry : s = 2 ^ 53
  · refine ⟨2 ^ 52, u + 1, ⟨by omega, by omega, by omega⟩, by omega, ?_⟩
    rw [hcarry]
    ring
  · exact ⟨s, u, ⟨by omega, hleading, by omega⟩, rfl, rfl⟩

/-- Assembling gives the expected pattern, **also after a carry**, which goes into the exponent. -/
theorem Rounded.toBits_assemble (h : Rounded s u) (neg : Bool) :
    (assemble neg s u).toBits.toNat = patternOf neg s u := by
  obtain ⟨s', u', hcanonical, hsum, -⟩ := h.exists_canonical
  rw [assemble_eq, hsum, ← assemble_eq, hcanonical.toBits_assemble, patternOf, patternOf, hsum]

/-- It gives the expected value as well. -/
theorem Rounded.value?_assemble (h : Rounded s u) (neg : Bool) :
    value? (assemble neg s u) = some ((signed neg (s * 2 ^ u) : ℚ) / scale) := by
  obtain ⟨s', u', hcanonical, hsum, hvalue⟩ := h.exists_canonical
  rw [assemble_eq, hsum, ← assemble_eq, value?_eq, hcanonical.read_assemble, Reading.value?,
    scaled_eq, hvalue]

/-- A fraction below the last number is rounded to a significand that can be assembled. -/
theorem rounded_significandOf (h : 0 < den) (hunit : unitOf num den ≤ 2044) :
    Rounded (significandOf num den) (unitOf num den) where
  le := significandOf_le num h
  leading := by
    by_cases hzero : unitOf num den = 0
    · exact Or.inl hzero
    · exact Or.inr (le_significandOf h hzero)
  room := by
    have hle := significandOf_le num h
    omega

/-! ### Correct rounding -/

/-- `x` is the number that `q` is **correctly rounded** to: it is finite, no finite number is nearer
to `q`, it ends in an even bit where another is equally near, and it has the sign of `q`, zero being
positive. What becomes of a `q` beyond the last number is not said here. -/
structure RoundsTo (q : ℚ) (x : Float) : Prop where
  /-- The number is finite. -/
  finite : ∃ v, value? x = some v
  /-- No finite number is nearer. -/
  nearest : ∀ {v w : ℚ} {y : Float}, value? x = some v → value? y = some w → |v - q| ≤ |w - q|
  /-- Of two that are equally near it is the even one. -/
  even : ∀ {v w : ℚ} {y : Float}, value? x = some v → value? y = some w → w ≠ v →
    |w - q| = |v - q| → x.toBits.toNat % 2 = 0
  /-- The sign is that of what is rounded. -/
  sign : 2 ^ 63 ≤ x.toBits.toNat ↔ q < 0

/-- The integers that finite numbers stand for over the common denominator. -/
def OnGrid (z : ℤ) : Prop :=
  ∃ s u, Canonical s u ∧ z.natAbs = s * 2 ^ u

theorem natAbs_signed (neg : Bool) (a : Nat) : (signed neg a).natAbs = a := by
  cases neg <;> simp [signed]

/-- A finite number stands for an integer over the common denominator. -/
theorem exists_onGrid {w : ℚ} (h : value? x = some w) : ∃ z : ℤ, OnGrid z ∧ w = z / scale := by
  obtain ⟨neg, s, u, hread, rfl⟩ := exists_read_of_value h
  refine ⟨scaled neg s u, ⟨s, u, (pattern_of_read hread).2, ?_⟩, rfl⟩
  rw [scaled_eq, natAbs_signed]

/-- A point of the grid is a multiple of a unit, or below the least significand with its leading bit
in that unit. -/
theorem OnGrid.dvd_or_lt {z : ℤ} (h : OnGrid z) (u : Nat) :
    (∃ m, z = m * 2 ^ u) ∨ u ≠ 0 ∧ z < 2 ^ 52 * 2 ^ u := by
  obtain ⟨s', u', ⟨hlt, -, -⟩, hz⟩ := h
  by_cases hle : u ≤ u'
  · left
    have hdvd : 2 ^ u ∣ z.natAbs := hz ▸ Dvd.dvd.mul_left (Nat.pow_dvd_pow 2 hle) s'
    obtain ⟨m, hm⟩ := Int.natCast_dvd.2 hdvd
    exact ⟨m, by rw [hm]; push_cast; ring⟩
  · right
    have hpow : 2 * 2 ^ u' ≤ 2 ^ u := by
      rw [← Nat.pow_succ']
      exact Nat.pow_le_pow_right Nat.two_pos (by omega)
    have hbelow : s' * 2 ^ u' < 2 ^ 53 * 2 ^ u' :=
      Nat.mul_lt_mul_of_pos_right hlt (Nat.two_pow_pos u')
    refine ⟨by omega, ?_⟩
    have hnat : z.natAbs < 2 ^ 52 * 2 ^ u := by omega
    zify at hnat
    exact (le_abs_self z).trans_lt hnat

/-- How far `a / 2 ^ 1074` is from a fraction, over the common denominator. -/
def gap (num den : Nat) (a : ℤ) : ℤ :=
  |a * den - num * scale|

/-- The gap of a multiple of the unit is that of the rounded quotient. -/
theorem gap_mul_two_pow (num den : Nat) (m : ℤ) :
    gap num den (m * 2 ^ unitOf num den) =
      |m * ↑(den * 2 ^ unitOf num den) - ↑(num * scale)| := by
  rw [gap]
  congr 1
  push_cast
  ring

section Grid

variable {z : ℤ} (hden : 0 < den)
include hden

/-- Among the multiples of the unit none is nearer than the rounded significand. -/
theorem gap_significandOf_le (m : ℤ) :
    gap num den (significandOf num den * 2 ^ unitOf num den) ≤
      gap num den (m * 2 ^ unitOf num den) := by
  rw [gap_mul_two_pow, gap_mul_two_pow]
  exact roundQuotient_nearest _ (Nat.mul_pos hden (Nat.two_pow_pos _)) m

/-- What is no multiple of the unit is **strictly** farther away. -/
theorem gap_lt_of_lt (hunit : unitOf num den ≠ 0) (hz : z < 2 ^ 52 * 2 ^ unitOf num den) :
    gap num den (significandOf num den * 2 ^ unitOf num den) < gap num den z := by
  have hle : (2 ^ 52 * 2 ^ unitOf num den : ℤ) * den ≤ num * scale := by
    have hunits := unitOf_le hden hunit
    zify at hunits
    linarith
  have hbelow : z * den < 2 ^ 52 * 2 ^ unitOf num den * den :=
    mul_lt_mul_of_pos_right hz (by exact_mod_cast hden)
  calc gap num den (significandOf num den * 2 ^ unitOf num den)
      ≤ gap num den (2 ^ 52 * 2 ^ unitOf num den) := gap_significandOf_le hden (2 ^ 52)
    _ = num * scale - 2 ^ 52 * 2 ^ unitOf num den * den := by
      rw [gap, abs_of_nonpos (by linarith)]
      ring
    _ < num * scale - z * den := by linarith
    _ = gap num den z := by
      rw [gap, abs_of_nonpos (by linarith)]
      ring

/-- **The rounded significand is nearest** among all that finite numbers stand for. -/
theorem OnGrid.gap_le (hz : OnGrid z) :
    gap num den (significandOf num den * 2 ^ unitOf num den) ≤ gap num den z := by
  obtain ⟨m, rfl⟩ | ⟨hunit, hlt⟩ := hz.dvd_or_lt (unitOf num den)
  · exact gap_significandOf_le hden m
  · exact (gap_lt_of_lt hden hunit hlt).le

/-- If another number is as near, the rounded significand is even. -/
theorem OnGrid.even_of_gap_eq (hz : OnGrid z)
    (hne : z ≠ significandOf num den * 2 ^ unitOf num den)
    (heq : gap num den z = gap num den (significandOf num den * 2 ^ unitOf num den)) :
    significandOf num den % 2 = 0 := by
  obtain ⟨m, rfl⟩ | ⟨hunit, hlt⟩ := hz.dvd_or_lt (unitOf num den)
  · rw [gap_mul_two_pow, gap_mul_two_pow] at heq
    refine even_roundQuotient_of_tie (Nat.mul_pos hden (Nat.two_pow_pos _)) ?_ heq
    rintro rfl
    exact hne rfl
  · exact absurd heq (gap_lt_of_lt hden hunit hlt).ne'

end Grid

/-! ### Rounding a fraction -/

/-- An integer with its sign turned round. -/
def turned (neg : Bool) (z : ℤ) : ℤ :=
  if neg then -z else z

/-- Numbers come with both signs. -/
theorem OnGrid.turned {z : ℤ} (h : OnGrid z) (neg : Bool) : OnGrid (turned neg z) := by
  cases neg
  · exact h
  · obtain ⟨s, u, hcanonical, hz⟩ := h
    exact ⟨s, u, hcanonical, by rw [Number.turned, if_pos rfl, Int.natAbs_neg, hz]⟩

theorem turned_signed (neg : Bool) (a : Nat) : turned neg (signed neg a) = a := by
  cases neg <;> simp [turned, signed]

/-- Turning the sign loses nothing. -/
theorem turned_injective (neg : Bool) : Function.Injective (turned neg) := by
  intro a b h
  cases neg
  · exact h
  · exact neg_injective h

/-- The distance of a number from a signed fraction is the gap, over the common denominator. -/
theorem abs_div_sub_eq (hden : 0 < den) (neg : Bool) (num : Nat) (z : ℤ) :
    |(z : ℚ) / scale - (signed neg num : ℚ) / den| =
      gap num den (turned neg z) / (scale * den) := by
  have hscale : (0 : ℚ) < scale := by exact_mod_cast scale_pos
  have hden' : (0 : ℚ) < den := by exact_mod_cast hden
  have hgap : |(z : ℚ) * den - scale * (signed neg num : ℚ)| = gap num den (turned neg z) := by
    cases neg
    · simp only [gap, signed, turned, Bool.false_eq_true, if_false]
      push_cast
      rw [mul_comm (scale : ℚ)]
    · simp only [gap, signed, turned, if_true]
      push_cast
      rw [← abs_neg, mul_comm (scale : ℚ), neg_sub, neg_mul, neg_mul, sub_eq_add_neg,
        sub_eq_add_neg, add_comm]
  rw [div_sub_div _ _ hscale.ne' hden'.ne', abs_div, abs_of_pos (mul_pos hscale hden'), hgap]

/-- The sign bit tells the sign. -/
theorem Rounded.sign_iff (h : Rounded s u) (neg : Bool) :
    2 ^ 63 ≤ patternOf neg s u ↔ neg = true := by
  obtain ⟨hle, -, hroom⟩ := h
  rw [patternOf, ← decide_eq_true_iff (p := 2 ^ 63 ≤ _), decide_signBit neg (by omega)]

/-- A signed fraction is below zero exactly where it has a minus sign, if zero has none. -/
theorem signed_div_neg_iff (hden : 0 < den) (hzero : neg = true → 0 < num) :
    (signed neg num : ℚ) / den < 0 ↔ neg = true := by
  have hden' : (0 : ℚ) < den := by exact_mod_cast hden
  rw [div_lt_iff₀ hden', zero_mul, Int.cast_lt_zero, signed]
  cases neg
  · simp
  · simpa using hzero rfl

/-- **`nearest` rounds correctly**, as long as the unit is in range. -/
theorem rounds_nearest (hden : 0 < den) (hunit : unitOf num den ≤ 2044)
    (hzero : neg = true → 0 < num) :
    RoundsTo ((signed neg num : ℚ) / den) (nearest neg num den) := by
  have hrounded := rounded_significandOf hden hunit
  have hvalue := hrounded.value?_assemble neg
  have hbits := hrounded.toBits_assemble neg
  rw [← nearest_eq] at hvalue hbits
  have hpos : (0 : ℚ) < scale * den :=
    mul_pos (by exact_mod_cast scale_pos) (by exact_mod_cast hden)
  have hgap := abs_div_sub_eq hden neg num
    (signed neg (significandOf num den * 2 ^ unitOf num den))
  rw [turned_signed] at hgap
  push_cast at hgap
  refine ⟨⟨_, hvalue⟩, ?_, ?_, ?_⟩
  · intro v w y hv hw
    obtain rfl : _ = v := Option.some.inj (hvalue.symm.trans hv)
    obtain ⟨z, hz, rfl⟩ := exists_onGrid hw
    rw [hgap, abs_div_sub_eq hden]
    exact div_le_div_of_nonneg_right (by exact_mod_cast (hz.turned neg).gap_le hden) hpos.le
  · intro v w y hv hw hne heq
    obtain rfl : _ = v := Option.some.inj (hvalue.symm.trans hv)
    obtain ⟨z, hz, rfl⟩ := exists_onGrid hw
    rw [hgap, abs_div_sub_eq hden, div_left_inj' hpos.ne'] at heq
    -- A tie goes to the even significand.
    have heven : significandOf num den % 2 = 0 := by
      refine (hz.turned neg).even_of_gap_eq hden ?_ (by exact_mod_cast heq)
      intro hsame
      refine hne ?_
      rw [turned_injective neg (hsame.trans (by rw [turned_signed]; rfl))]
    rw [hbits, patternOf]
    omega
  · rw [hbits, hrounded.sign_iff, signed_div_neg_iff hden hzero]

/-- Integers of up to 1022 bits are below the last number. -/
theorem unitOf_one_le {k : Nat} (hk : k ≤ 1022) (h : num < 2 ^ k) : unitOf num 1 ≤ 2044 := by
  obtain ⟨e, he, hscale⟩ := exists_scale
  rw [unitOf, Nat.div_one, hscale]
  by_cases hzero : num * 2 ^ e = 0
  · rw [hzero, Nat.log2_zero]
    omega
  · have hlt : num * 2 ^ e < 2 ^ (k + e) := by
      rw [Nat.pow_add]
      exact Nat.mul_lt_mul_of_pos_right h (Nat.two_pow_pos e)
    have hlog := (Nat.log2_lt hzero).2 hlt
    omega

/-- An integer is its size with its sign. -/
theorem signed_decide_natAbs (n : ℤ) : signed (decide (n < 0)) n.natAbs = n := by
  rw [signed]
  split
  · rename_i hneg
    have := of_decide_eq_true hneg
    omega
  · rename_i hneg
    have := of_decide_eq_false (eq_false_of_ne_true hneg)
    omega

/-- **The number of an integer is the integer correctly rounded.** -/
theorem rounds_ofInt {k : Nat} (hk : k ≤ 1022) {n : ℤ} (h : n.natAbs < 2 ^ k) :
    RoundsTo n (ofInt n) := by
  have hrounds : RoundsTo ((signed (decide (n < 0)) n.natAbs : ℚ) / (1 : ℕ)) (ofInt n) := by
    refine rounds_nearest Nat.one_pos (unitOf_one_le hk h) fun hneg ↦ ?_
    have hless := of_decide_eq_true hneg
    omega
  rwa [signed_decide_natAbs, Nat.cast_one, div_one] at hrounds

/-- **An integer of at most 53 significant bits is not rounded.** -/
theorem value?_ofInt {k : Nat} (hk : k ≤ 1022) {n : ℤ} (h : n.natAbs < 2 ^ k) {m j : Nat}
    (hm : m < 2 ^ 53) (hn : n.natAbs = m * 2 ^ j) : value? (ofInt n) = some (n : ℚ) := by
  obtain ⟨e, -, hscale⟩ := exists_scale
  have hnumerator : n.natAbs * scale = m * 2 ^ (j + e) := by
    rw [hn, hscale, Nat.pow_add, Nat.mul_assoc]
  have hunit : unitOf n.natAbs 1 ≤ j + e := by
    rw [unitOf, Nat.div_one, hnumerator]
    by_cases hzero : m * 2 ^ (j + e) = 0
    · rw [hzero, Nat.log2_zero]
      omega
    · have hlt : m * 2 ^ (j + e) < 2 ^ (53 + (j + e)) := by
        rw [Nat.pow_add 2 53]
        exact Nat.mul_lt_mul_of_pos_right hm (Nat.two_pow_pos _)
      have hlog := (Nat.log2_lt hzero).2 hlt
      omega
  -- The unit is fine enough for the integer, so rounding changes nothing.
  obtain ⟨c, hc⟩ : 2 ^ unitOf n.natAbs 1 ∣ n.natAbs * scale :=
    hnumerator ▸ Dvd.dvd.mul_left (Nat.pow_dvd_pow 2 hunit) m
  have hsignificand : significandOf n.natAbs 1 * 2 ^ unitOf n.natAbs 1 = n.natAbs * scale := by
    rw [significandOf, Nat.one_mul, hc, Nat.mul_comm _ c, roundQuotient_mul _ (Nat.two_pow_pos _)]
  have hpos : (scale : ℚ) ≠ 0 := by exact_mod_cast scale_pos.ne'
  rw [ofInt, nearest_eq,
    (rounded_significandOf Nat.one_pos (unitOf_one_le hk h)).value?_assemble, hsignificand,
    signed_mul, signed_decide_natAbs]
  push_cast
  rw [mul_div_assoc, div_self hpos, mul_one]

/-! ### There is one such number -/

/-- Magnitudes are ordered as the patterns are. -/
theorem Canonical.lt_of_pattern_lt {s' u' : Nat} (h : Canonical s u) (h' : Canonical s' u')
    (hlt : u * 2 ^ 52 + s < u' * 2 ^ 52 + s') : s * 2 ^ u < s' * 2 ^ u' := by
  obtain ⟨hs, hleading, -⟩ := h
  obtain ⟨hs', hleading', -⟩ := h'
  obtain rfl | hless | hgreater : u = u' ∨ u < u' ∨ u' < u := by omega
  · exact Nat.mul_lt_mul_of_pos_right (by omega) (Nat.two_pow_pos u)
  · calc s * 2 ^ u < 2 ^ 53 * 2 ^ u := Nat.mul_lt_mul_of_pos_right hs (Nat.two_pow_pos u)
      _ = 2 ^ 52 * 2 ^ (u + 1) := by ring
      _ ≤ s' * 2 ^ u' :=
        Nat.mul_le_mul (by omega) (Nat.pow_le_pow_right Nat.two_pos hless)
  · omega

/-- **Patterns are ordered as values**: the unit counts first. -/
theorem Canonical.lt_iff {s' u' : Nat} (h : Canonical s u) (h' : Canonical s' u') :
    s * 2 ^ u < s' * 2 ^ u' ↔ u * 2 ^ 52 + s < u' * 2 ^ 52 + s' := by
  refine ⟨fun hlt ↦ ?_, h.lt_of_pattern_lt h'⟩
  obtain hless | heq | hgreater := Nat.lt_trichotomy (u * 2 ^ 52 + s) (u' * 2 ^ 52 + s')
  · exact hless
  · obtain ⟨hs, hleading, -⟩ := h
    obtain ⟨hs', hleading', -⟩ := h'
    obtain rfl : u = u' := by omega
    obtain rfl : s = s' := by omega
    exact absurd hlt (lt_irrefl _)
  · exact absurd hlt (h'.lt_of_pattern_lt h hgreater).not_gt

/-- A value has one canonical pair. -/
theorem Canonical.pattern_eq {s' u' : Nat} (h : Canonical s u) (h' : Canonical s' u')
    (heq : s * 2 ^ u = s' * 2 ^ u') : u * 2 ^ 52 + s = u' * 2 ^ 52 + s' := by
  have hle := (h.lt_iff h').not.1 heq.not_lt
  have hge := (h'.lt_iff h).not.1 heq.not_gt
  omega

/-- Between two magnitudes with even patterns lies another. -/
theorem Canonical.exists_between {s' u' : Nat} (h : Canonical s u) (h' : Canonical s' u')
    (heven : s % 2 = 0) (heven' : s' % 2 = 0) (hlt : s * 2 ^ u < s' * 2 ^ u') :
    Rounded (s + 1) u ∧ (s + 1) * 2 ^ u < s' * 2 ^ u' := by
  have hpattern := (h.lt_iff h').1 hlt
  have hrounded : Rounded (s + 1) u := by
    obtain ⟨hs, hleading, -⟩ := h
    obtain ⟨hs', -, hu'⟩ := h'
    exact ⟨by omega, by omega, by omega⟩
  obtain ⟨t, v, hcanonical, hsum, hvalue⟩ := hrounded.exists_canonical
  refine ⟨hrounded, ?_⟩
  rw [hvalue, hcanonical.lt_iff h', ← hsum]
  omega

/-- What lies between two numbers that are equally near is nearer. -/
theorem abs_sub_lt_of_between {v w z : ℚ} (hne : v ≠ w) (htie : |v - q| = |w - q|)
    (hbetween : v < z ∧ z < w ∨ w < z ∧ z < v) : |z - q| < |v - q| := by
  have hmiddle : q = (v + w) / 2 := by
    obtain hsame | hopposite := abs_eq_abs.1 htie
    · exact absurd (sub_left_injective hsame) hne
    · linarith
  subst hmiddle
  obtain ⟨hv, hw⟩ | ⟨hw, hv⟩ := hbetween
  · rw [abs_of_neg (by linarith : v - (v + w) / 2 < 0), abs_lt]
    constructor <;> linarith
  · rw [abs_of_pos (by linarith : 0 < v - (v + w) / 2), abs_lt]
    constructor <;> linarith

/-- Between stays between, whatever the sign. -/
theorem signed_between {a b c : Nat} (hac : a < c) (hcb : c < b) (neg : Bool) :
    (signed neg a : ℚ) / scale < (signed neg c : ℚ) / scale ∧
        (signed neg c : ℚ) / scale < (signed neg b : ℚ) / scale ∨
      (signed neg b : ℚ) / scale < (signed neg c : ℚ) / scale ∧
        (signed neg c : ℚ) / scale < (signed neg a : ℚ) / scale := by
  have hscale : (0 : ℚ) < scale := by exact_mod_cast scale_pos
  simp only [div_lt_div_iff_of_pos_right hscale, Int.cast_lt]
  cases neg
  · left
    simp only [signed, Bool.false_eq_true, if_false]
    omega
  · right
    simp only [signed, if_true]
    omega

/-- What a correctly rounded number is made of, as a relation to what is rounded. -/
structure RoundsTo.Parts (q : ℚ) (x : Float) (s u : Nat) : Prop where
  /-- The pair is one of a number. -/
  canonical : Canonical s u
  /-- The pattern, with the sign of what is rounded. -/
  bits : x.toBits.toNat = patternOf (decide (q < 0)) s u
  /-- The value. -/
  value : value? x = some ((signed (decide (q < 0)) (s * 2 ^ u) : ℚ) / scale)

/-- A correctly rounded number is made of a canonical pair. -/
theorem RoundsTo.exists_parts (h : RoundsTo q x) : ∃ s u, Parts q x s u := by
  obtain ⟨v, hv⟩ := h.finite
  obtain ⟨neg, s, u, hread, hvalue⟩ := exists_read_of_value hv
  obtain ⟨hbits, hcanonical⟩ := pattern_of_read hread
  have hsign : decide (q < 0) = neg := by
    obtain ⟨hs, -, hu⟩ := hcanonical
    rw [← decide_signBit neg (show u * 2 ^ 52 + s < 2 ^ 63 by omega), ← patternOf, ← hbits,
      decide_eq_decide]
    exact h.sign.symm
  subst hsign
  exact ⟨s, u, hcanonical, hbits, by rw [hv, hvalue, scaled_eq]⟩

/-- Of two correctly rounded numbers neither is smaller: the number between them, or the one next to
them, would be nearer, or they would both be even. -/
theorem RoundsTo.Parts.not_lt {s' u' : Nat} (hx : RoundsTo q x) (hy : RoundsTo q y)
    (hpx : Parts q x s u) (hpy : Parts q y s' u') : ¬ s * 2 ^ u < s' * 2 ^ u' := by
  intro hlt
  have htie := le_antisymm (hx.nearest hpx.value hpy.value) (hy.nearest hpy.value hpx.value)
  have hscale : (0 : ℚ) < scale := by exact_mod_cast scale_pos
  have hne : (signed (decide (q < 0)) (s * 2 ^ u) : ℚ) / scale ≠
      (signed (decide (q < 0)) (s' * 2 ^ u') : ℚ) / scale := by
    rw [Ne, div_left_inj' hscale.ne', Int.cast_inj]
    intro hsame
    rw [← natAbs_signed (decide (q < 0)) (s * 2 ^ u), hsame, natAbs_signed] at hlt
    exact lt_irrefl _ hlt
  have heven := hx.even hpx.value hpy.value hne.symm htie.symm
  have heven' := hy.even hpy.value hpx.value hne htie
  rw [hpx.bits, patternOf] at heven
  rw [hpy.bits, patternOf] at heven'
  -- Both would be even neighbours of a middle, but a number lies between them.
  obtain ⟨hrounded, hbetween⟩ :=
    hpx.canonical.exists_between hpy.canonical (by omega) (by omega) hlt
  have hless : s * 2 ^ u < (s + 1) * 2 ^ u :=
    Nat.mul_lt_mul_of_pos_right (Nat.lt_succ_self s) (Nat.two_pow_pos u)
  have hnearer := abs_sub_lt_of_between hne htie
    (signed_between hless hbetween (decide (q < 0)))
  exact absurd (hx.nearest hpx.value (hrounded.value?_assemble _)) hnearer.not_ge

/-- **Correct rounding leaves no choice.** -/
theorem RoundsTo.unique (hx : RoundsTo q x) (hy : RoundsTo q y) : x = y := by
  obtain ⟨s, u, hpx⟩ := hx.exists_parts
  obtain ⟨s', u', hpy⟩ := hy.exists_parts
  have heq : s * 2 ^ u = s' * 2 ^ u' := by
    have hle := Parts.not_lt hx hy hpx hpy
    have hge := Parts.not_lt hy hx hpy hpx
    omega
  apply eq_of_toBits
  rw [hpx.bits, hpy.bits, patternOf, patternOf, hpx.canonical.pattern_eq hpy.canonical heq]

end DottedLisp.Number
