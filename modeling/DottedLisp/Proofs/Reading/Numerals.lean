import DottedLisp.Number.Numeral
import DottedLisp.Text.Blank
import DottedLisp.Text.Printable

/-!
# Which texts are numerals

`Number.IsNumeral` is the pattern of numerals, written down piece by piece: a sign, a mantissa and
an exponent. The reader of numerals accepts a text **exactly if** it has that pattern
(`Number.isSome_ofText_iff`).

A numeral is made of digits and of `+`, `-`, `.`, `e` and `E`. Digits may come from any script, so
that they are printable and not blank is a fact about the tables, checked range against range.
-/

namespace DottedLisp

/-! ### Tables that have nothing in common -/

namespace CodeRange

/-- Whether no code point of a range is found in an ascending table. -/
def clearOf (range : CodeRange) : List CodeRange → Bool
  | [] => true
  | other :: rest =>
    Nat.blt range.last other.first || Nat.blt other.last range.first && range.clearOf rest

/-- No code of a range is found in a table that has nothing in common with the range. -/
theorem find?_eq_none_of_clearOf {range : CodeRange} {code : Nat} (hfirst : range.first ≤ code)
    (hlast : code ≤ range.last) {table : List CodeRange} (h : range.clearOf table = true) :
    find? code table = none := by
  induction table with
  | nil => rfl
  | cons other rest ih =>
    simp only [clearOf, Bool.or_eq_true, Bool.and_eq_true, Nat.blt_eq] at h
    rw [find?]
    rcases h with hbefore | ⟨hbehind, hrest⟩
    · rw [if_pos (by omega)]
    · rw [if_neg (show ¬ code ≤ other.last by omega), ih hrest, ite_self]

/-- A character that one table holds is not in another, if their ranges are apart. -/
theorem not_member_of_clearOf {table others : List CodeRange} {c : Char}
    (h : table.all (fun range ↦ range.clearOf others) = true)
    (hc : (find? c.toNat table).isSome = true) : member others c = false := by
  obtain ⟨range, hrange⟩ := Option.isSome_iff_exists.1 hc
  obtain ⟨hmem, hfirst, hlast⟩ := mem_of_find?_eq_some hrange
  rw [member, find?_eq_none_of_clearOf hfirst hlast (List.all_eq_true.1 h range hmem)]
  rfl

end CodeRange

namespace Text

/-- A decimal digit of any script. -/
def IsDigit (c : Char) : Prop := (digitValue? c).isSome = true

instance (c : Char) : Decidable (IsDigit c) :=
  inferInstanceAs (Decidable ((digitValue? c).isSome = true))

/-- Digits can be printed: the table of digits has nothing in common with that of the characters
that cannot. -/
theorem IsDigit.isPrintable {c : Char} (h : IsDigit c) : isPrintable c = true := by
  have hapart : decimalDigits.all (fun range ↦ range.clearOf unprintables) = true := by
    decide +kernel
  rw [IsDigit, digitValue?, Option.isSome_map] at h
  rw [Text.isPrintable, CodeRange.not_member_of_clearOf hapart h]
  rfl

theorem IsDigit.isBlank {c : Char} (h : IsDigit c) : isBlank c = false := by
  have hapart : decimalDigits.all (fun range ↦ range.clearOf blanks) = true := by
    decide +kernel
  rw [IsDigit, digitValue?, Option.isSome_map] at h
  exact CodeRange.not_member_of_clearOf hapart h

/-! ### Digits at the front -/

theorem spanDigits_of_not_digit {rest : List Char} (hrest : ∀ c ∈ rest.head?, ¬ IsDigit c) :
    spanDigits rest = ([], rest) := by
  cases rest with
  | nil => rfl
  | cons c rest =>
    have hc : digitValue? c = none := by simpa [IsDigit] using hrest c rfl
    rw [spanDigits, hc]

/-- Digits are taken up to the first other character. -/
theorem spanDigits_append {digits rest : List Char} (hdigits : ∀ c ∈ digits, IsDigit c)
    (hrest : ∀ c ∈ rest.head?, ¬ IsDigit c) :
    ∃ values, values.isEmpty = digits.isEmpty ∧ spanDigits (digits ++ rest) = (values, rest) := by
  induction digits with
  | nil => exact ⟨[], rfl, spanDigits_of_not_digit hrest⟩
  | cons c digits ih =>
    obtain ⟨value, hvalue⟩ := Option.isSome_iff_exists.1 (hdigits c (List.mem_cons_self ..))
    obtain ⟨values, -, hspan⟩ :=
      ih fun other hother ↦ hdigits other (List.mem_cons_of_mem _ hother)
    refine ⟨value :: values, rfl, ?_⟩
    rw [List.cons_append, spanDigits, hvalue]
    simp only [hspan]

/-- What is taken are digits. -/
theorem eq_append_of_spanDigits {cs rest : List Char} {values : List Nat}
    (h : spanDigits cs = (values, rest)) :
    ∃ digits, cs = digits ++ rest ∧ (∀ c ∈ digits, IsDigit c) ∧
      digits.isEmpty = values.isEmpty := by
  induction cs generalizing values with
  | nil =>
    cases h
    exact ⟨[], rfl, by simp, rfl⟩
  | cons c cs ih =>
    rw [spanDigits] at h
    rcases hc : digitValue? c with - | value
    · rw [hc] at h
      cases h
      exact ⟨[], rfl, by simp, rfl⟩
    · rw [hc] at h
      cases h
      obtain ⟨digits, hcs, hdigits, -⟩ := ih rfl
      refine ⟨c :: digits, congrArg (c :: ·) hcs, fun other hother ↦ ?_, rfl⟩
      rcases List.mem_cons.1 hother with rfl | hother
      · rw [IsDigit, hc]
        rfl
      · exact hdigits other hother

end Text

namespace Number

open Text Numeral

/-! ### The pattern -/

/-- A sign or none. -/
inductive IsSign : List Char → Prop
  | none : IsSign []
  | plus : IsSign ['+']
  | minus : IsSign ['-']

/-- Digits, at least one of them, with a point or without. -/
inductive IsMantissa : List Char → Prop
  | whole {digits : List Char} (hdigits : ∀ c ∈ digits, IsDigit c) (hne : digits ≠ []) :
    IsMantissa digits
  | point {digits fraction : List Char} (hdigits : ∀ c ∈ digits, IsDigit c) (hne : digits ≠ [])
    (hfraction : ∀ c ∈ fraction, IsDigit c) : IsMantissa (digits ++ '.' :: fraction)
  | fraction {fraction : List Char} (hfraction : ∀ c ∈ fraction, IsDigit c)
    (hne : fraction ≠ []) : IsMantissa ('.' :: fraction)

/-- A mark, a sign or none, and digits; or nothing at all. -/
inductive IsExponent : List Char → Prop
  | none : IsExponent []
  | some {mark : Char} {sign digits : List Char} (hmark : mark = 'e' ∨ mark = 'E')
    (hsign : IsSign sign) (hdigits : ∀ c ∈ digits, IsDigit c) (hne : digits ≠ []) :
    IsExponent (mark :: (sign ++ digits))

/-- The pattern of numerals. -/
def IsNumeral (cs : List Char) : Prop :=
  ∃ sign mantissa exponent, cs = sign ++ (mantissa ++ exponent) ∧ IsSign sign ∧
    IsMantissa mantissa ∧ IsExponent exponent

/-! ### Its pieces -/

/-- A sign is taken off what does not begin with one. -/
theorem takeSign_append {sign rest : List Char} (hsign : IsSign sign)
    (hrest : ∀ c ∈ rest.head?, c ≠ '+' ∧ c ≠ '-') : (takeSign (sign ++ rest)).2 = rest := by
  cases hsign with
  | plus => rfl
  | minus => rfl
  | none =>
    cases rest with
    | nil => rfl
    | cons c rest =>
      obtain ⟨hplus, hminus⟩ := hrest c rfl
      rw [List.nil_append, takeSign]
      · rintro _ ⟨⟩
        exact hminus rfl
      · rintro _ ⟨⟩
        exact hplus rfl

/-- `takeSign` takes a sign off, the empty one included. -/
theorem exists_sign (cs : List Char) : ∃ sign, IsSign sign ∧ cs = sign ++ (takeSign cs).2 := by
  unfold takeSign
  split
  · exact ⟨_, .minus, rfl⟩
  · exact ⟨_, .plus, rfl⟩
  · exact ⟨_, .none, rfl⟩

theorem not_isDigit_mark : ∀ c ∈ ['+', '-', '.', 'e', 'E'], ¬ IsDigit c := by
  intro c hc
  simp only [List.mem_cons, List.not_mem_nil, or_false] at hc
  rcases hc with rfl | rfl | rfl | rfl | rfl <;> decide

/-- Digits begin with no sign. -/
theorem head_ne_sign {digits : List Char} (hdigits : ∀ c ∈ digits, IsDigit c)
    (hne : digits ≠ []) (rest : List Char) : ∀ c ∈ (digits ++ rest).head?, c ≠ '+' ∧ c ≠ '-' := by
  rcases digits with - | ⟨digit, digits⟩
  · exact absurd rfl hne
  · have hdigit : IsDigit digit := hdigits digit (List.mem_cons_self ..)
    rintro c ⟨⟩
    constructor
    · rintro rfl
      exact not_isDigit_mark _ (by simp) hdigit
    · rintro rfl
      exact not_isDigit_mark _ (by simp) hdigit

/-- **An exponent is recognised** exactly if it is one: a mark, a sign and at least one digit, to
the end of the text. -/
theorem isSome_exponentPart_iff {cs : List Char} :
    (exponentPart? cs).isSome = true ↔ IsExponent cs := by
  constructor
  · intro h
    rcases cs with - | ⟨mark, rest⟩
    · exact .none
    · rw [exponentPart?] at h
      split at h
      · rename_i hmark
        obtain ⟨sign, hsign, hrest⟩ := exists_sign rest
        rcases hspan : spanDigits (takeSign rest).2 with ⟨values, after⟩
        obtain ⟨digits, hcs, hdigits, hempty⟩ := eq_append_of_spanDigits hspan
        rw [hrest, hcs]
        simp only [hspan] at h
        -- only digits that go on to the end are an exponent
        rcases values with - | ⟨value, values⟩
        · cases h
        · rcases after with - | ⟨c, after⟩
          · rw [List.append_nil]
            refine .some (by simpa using hmark) hsign hdigits ?_
            rintro rfl
            cases hempty
          · cases h
      · cases h
  · intro h
    cases h with
    | none => rfl
    | @some mark sign digits hmark hsign hdigits hne =>
      rw [← List.append_nil digits]
      have hsigned := takeSign_append hsign (head_ne_sign hdigits hne [])
      obtain ⟨values, hempty, hspan⟩ :=
        spanDigits_append hdigits (show ∀ c ∈ ([] : List Char).head?, ¬ IsDigit c by simp)
      rw [exponentPart?, if_pos (by simpa using hmark)]
      simp only [hsigned, hspan]
      rcases values with - | ⟨value, values⟩
      · exact absurd (List.isEmpty_iff.1 hempty.symm) hne
      · rfl

/-- An exponent begins with a mark. -/
theorem IsExponent.mark {cs : List Char} (h : IsExponent cs) :
    ∀ c ∈ cs.head?, c = 'e' ∨ c = 'E' := by
  cases h with
  | none => simp
  | some hmark => simpa using hmark

/-- A mantissa is not empty, and begins with no sign. -/
theorem IsMantissa.head {cs : List Char} (h : IsMantissa cs) (rest : List Char) :
    ∀ c ∈ (cs ++ rest).head?, c ≠ '+' ∧ c ≠ '-' := by
  cases h with
  | whole hdigits hne => exact head_ne_sign hdigits hne rest
  | point hdigits hne hfraction =>
    rw [List.append_assoc]
    exact head_ne_sign hdigits hne _
  | fraction hfraction hne => simp

/-- Reading the digits of a mantissa, with a point or without. -/
theorem spanDigits_mantissa {mantissa exponent : List Char} (hmantissa : IsMantissa mantissa)
    (hexponent : IsExponent exponent) :
    ∃ whole fraction rest, spanDigits (mantissa ++ exponent) = (whole, rest) ∧
      fractionPart rest = (fraction, exponent) ∧ (whole.isEmpty && fraction.isEmpty) = false := by
  have hrest : ∀ c ∈ exponent.head?, ¬ IsDigit c := by
    intro c hc
    rcases hexponent.mark c hc with rfl | rfl
    · exact not_isDigit_mark _ (by simp)
    · exact not_isDigit_mark _ (by simp)
  have hpoint : ∀ rest : List Char, ∀ c ∈ ('.' :: rest).head?, ¬ IsDigit c := by
    rintro rest c ⟨⟩
    exact not_isDigit_mark _ (by simp)
  cases hmantissa with
  | whole hdigits hne =>
    obtain ⟨values, hempty, hspan⟩ := spanDigits_append hdigits hrest
    refine ⟨values, [], exponent, hspan, ?_, by simp [hempty, hne]⟩
    -- An exponent begins with its mark, so it is not taken for a fraction.
    rcases exponent with - | ⟨c, exponent⟩
    · rfl
    · rw [fractionPart]
      rintro _ ⟨⟩
      exact absurd (hexponent.mark _ rfl) (by decide)
  | @point digits fraction hdigits hne hfraction =>
    obtain ⟨values, hempty, hspan⟩ := spanDigits_append hdigits (hpoint (fraction ++ exponent))
    obtain ⟨values', -, hspan'⟩ := spanDigits_append hfraction hrest
    refine ⟨values, values', '.' :: (fraction ++ exponent), ?_, hspan', by simp [hempty, hne]⟩
    rw [List.append_assoc]
    exact hspan
  | @fraction fraction hfraction hne =>
    obtain ⟨values, hempty, hspan⟩ := spanDigits_append hfraction hrest
    refine ⟨[], values, '.' :: (fraction ++ exponent), ?_, hspan, by simp [hempty, hne]⟩
    exact spanDigits_of_not_digit (hpoint (fraction ++ exponent))

/-- What is read as digits with a point or without is a mantissa. -/
theorem exists_mantissa {cs rest exponent : List Char} {whole fraction : List Nat}
    (hspan : spanDigits cs = (whole, rest)) (hfraction : fractionPart rest = (fraction, exponent))
    (hne : (whole.isEmpty && fraction.isEmpty) = false) :
    ∃ mantissa, IsMantissa mantissa ∧ cs = mantissa ++ exponent := by
  obtain ⟨digits, rfl, hdigits, hempty⟩ := eq_append_of_spanDigits hspan
  rw [← hempty] at hne
  unfold fractionPart at hfraction
  split at hfraction
  · obtain ⟨digits', rfl, hdigits', hempty'⟩ := eq_append_of_spanDigits hfraction
    rw [← hempty'] at hne
    rcases digits with - | ⟨c, digits⟩
    · exact ⟨_, .fraction hdigits' (by simpa using hne), rfl⟩
    · refine ⟨_, .point hdigits (by simp) hdigits', ?_⟩
      rw [List.append_assoc]
      rfl
  · cases hfraction
    exact ⟨digits, .whole hdigits (by simpa using hne), rfl⟩

/-! ### Numerals -/

/-- **Exactly the numerals** have a value as numbers. -/
theorem isSome_ofChars_iff {cs : List Char} :
    (ofChars? cs).isSome = true ↔ IsNumeral cs := by
  constructor
  · intro h
    obtain ⟨sign, hsign, hcs⟩ := exists_sign cs
    rcases hspan : spanDigits (takeSign cs).2 with ⟨whole, rest⟩
    rcases hfraction : fractionPart rest with ⟨fraction, exponent⟩
    simp only [ofChars?, hspan, hfraction] at h
    split at h
    · cases h
    · rename_i hne
      rw [Option.isSome_map, isSome_exponentPart_iff] at h
      obtain ⟨mantissa, hmantissa, hrest⟩ :=
        exists_mantissa hspan hfraction (Bool.eq_false_iff.2 hne)
      exact ⟨sign, mantissa, exponent, by rw [← hrest]; exact hcs, hsign, hmantissa, h⟩
  · rintro ⟨sign, mantissa, exponent, rfl, hsign, hmantissa, hexponent⟩
    obtain ⟨whole, fraction, rest, hspan, hfraction, hne⟩ :=
      spanDigits_mantissa hmantissa hexponent
    simp only [ofChars?, takeSign_append hsign (hmantissa.head exponent), hspan, hfraction, hne,
      Bool.false_eq_true, if_false, Option.isSome_map]
    exact isSome_exponentPart_iff.2 hexponent

/-- **The texts that are read as numbers are the numerals.** -/
theorem isSome_ofText_iff {s : String} : (ofText? s).isSome = true ↔ IsNumeral s.toList := by
  rw [ofText?, Option.isSome_map, isSome_ofChars_iff]

/-! ### The characters of a numeral -/

/-- What a numeral is made of. -/
def IsNumeralChar (c : Char) : Prop :=
  IsDigit c ∨ c ∈ ['+', '-', '.', 'e', 'E']

theorem IsSign.chars {cs : List Char} (h : IsSign cs) : ∀ c ∈ cs, IsNumeralChar c := by
  intro c hc
  refine Or.inr ?_
  cases h with
  | none => cases hc
  | plus => simp_all
  | minus => simp_all

theorem IsMantissa.chars {cs : List Char} (h : IsMantissa cs) : ∀ c ∈ cs, IsNumeralChar c := by
  intro c hc
  cases h with
  | whole hdigits => exact Or.inl (hdigits c hc)
  | point hdigits _ hfraction =>
    rcases List.mem_append.1 hc with hc | hc
    · exact Or.inl (hdigits c hc)
    · rcases List.mem_cons.1 hc with rfl | hc
      · exact Or.inr (by simp)
      · exact Or.inl (hfraction c hc)
  | fraction hfraction =>
    rcases List.mem_cons.1 hc with rfl | hc
    · exact Or.inr (by simp)
    · exact Or.inl (hfraction c hc)

theorem IsExponent.chars {cs : List Char} (h : IsExponent cs) : ∀ c ∈ cs, IsNumeralChar c := by
  intro c hc
  cases h with
  | none => cases hc
  | some hmark hsign hdigits =>
    rcases List.mem_cons.1 hc with rfl | hc
    · exact Or.inr (by rcases hmark with rfl | rfl <;> simp)
    · rcases List.mem_append.1 hc with hc | hc
      · exact hsign.chars c hc
      · exact Or.inl (hdigits c hc)

/-- A numeral consists of digits and of the five marks only, so nothing in it ends a token. -/
theorem IsNumeral.chars {cs : List Char} (h : IsNumeral cs) : ∀ c ∈ cs, IsNumeralChar c := by
  obtain ⟨sign, mantissa, exponent, rfl, hsign, hmantissa, hexponent⟩ := h
  intro c hc
  rcases List.mem_append.1 hc with hc | hc
  · exact hsign.chars c hc
  · rcases List.mem_append.1 hc with hc | hc
    · exact hmantissa.chars c hc
    · exact hexponent.chars c hc

theorem IsMantissa.ne_nil {cs : List Char} (h : IsMantissa cs) : cs ≠ [] := by
  cases h with
  | whole _ hne => exact hne
  | point => simp
  | fraction => simp

theorem IsNumeral.ne_nil {cs : List Char} (h : IsNumeral cs) : cs ≠ [] := by
  obtain ⟨sign, mantissa, exponent, rfl, -, hmantissa, -⟩ := h
  simp [hmantissa.ne_nil]

end Number

end DottedLisp
