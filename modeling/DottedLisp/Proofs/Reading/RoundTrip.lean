import DottedLisp.Proofs.Reading.Grammar
import DottedLisp.Proofs.Reading.Numerals

/-!
# Writing and reading back

A form is written with its items between parentheses, one blank between two of them
(`Form.Written`). A symbol is written as its name. A number has no spelling of its own: any numeral
that is read as the number will do, so writing is a relation.

Not every symbol can be written, since not every name is **one token**: `Token.IsWord` says which
texts are. That a name may hold `(` and `;` behind its first character is part of it.

Tokens are found in written text piece by piece. `Token.Scans` says that a piece falls into tokens
whatever stands before it, and whatever stands behind it as long as that ends a word; it is kept by
parentheses around a piece and by a blank between two. Main statement: what is written is read back,
and nothing is left (`TokenStream.first_of_written`).
-/

namespace DottedLisp

namespace Token

/-! ### Words -/

/-- Texts that are one token, and no parenthesis. -/
structure IsWord (cs : List Char) : Prop where
  ne_nil : cs ≠ []
  /-- Every character can stand in a word. -/
  chars : ∀ c ∈ cs, Text.isPrintable c = true ∧ Text.isBlank c = false ∧ c ≠ ')'
  /-- The first one begins neither a list nor a comment. -/
  head : ∀ c ∈ cs.head?, c ≠ '(' ∧ c ≠ ';'

/-- The conditions on a word as a test that can be evaluated. -/
theorem isWord_iff {cs : List Char} :
    IsWord cs ↔ cs ≠ [] ∧
      cs.all (fun c ↦ Text.isPrintable c && !Text.isBlank c && c != ')') = true ∧
      cs.head?.all (fun c ↦ c != '(' && c != ';') = true := by
  have hhead : (∀ c ∈ cs.head?, c ≠ '(' ∧ c ≠ ';') ↔
      cs.head?.all (fun c ↦ c != '(' && c != ';') = true := by
    rcases cs.head? with - | c
    · simp
    · simp
  rw [← hhead]
  constructor
  · rintro ⟨hne, hchars, hhead⟩
    exact ⟨hne, by simpa [and_assoc] using hchars, hhead⟩
  · rintro ⟨hne, hchars, hhead⟩
    exact ⟨hne, by simpa [and_assoc] using hchars, hhead⟩

instance (cs : List Char) : Decidable (IsWord cs) := decidable_of_iff' _ isWord_iff

theorem endsWord_eq_false {c : Char} (hblank : Text.isBlank c = false) (hclose : c ≠ ')') :
    endsWord c = false := by
  simp [endsWord, hblank, hclose]

/-- Only blanks are skipped between tokens. -/
theorem isSkipped_eq_false {c : Char} (h : Text.isBlank c = false) : isSkipped c = false := by
  rw [Bool.eq_false_iff]
  intro hskipped
  simp only [isSkipped, Bool.or_eq_true, decide_eq_true_eq] at hskipped
  rcases hskipped with ((rfl | rfl) | rfl) | rfl <;> exact absurd h (by decide)

/-- Numerals are words. -/
theorem isWord_of_isNumeral {cs : List Char} (h : Number.IsNumeral cs) : IsWord cs := by
  have hmarks : ∀ c ∈ ['+', '-', '.', 'e', 'E'], Text.isPrintable c = true ∧
      Text.isBlank c = false ∧ c ≠ ')' ∧ c ≠ '(' ∧ c ≠ ';' := by
    intro c hc
    simp only [List.mem_cons, List.not_mem_nil, or_false] at hc
    rcases hc with rfl | rfl | rfl | rfl | rfl <;> decide
  -- The other way round: none of the three characters that matter here is a digit, in any script.
  have hdigits : ∀ c ∈ [')', '(', ';'], (Text.digitValue? c).isSome = false := by
    intro c hc
    simp only [List.mem_cons, List.not_mem_nil, or_false] at hc
    rcases hc with rfl | rfl | rfl <;> decide
  have hchars : ∀ c ∈ cs, Text.isPrintable c = true ∧ Text.isBlank c = false ∧
      c ≠ ')' ∧ c ≠ '(' ∧ c ≠ ';' := by
    intro c hc
    rcases h.chars c hc with hdigit | hmark
    · have hne : c ∉ [')', '(', ';'] := by
        intro hmem
        rw [Text.IsDigit, hdigits c hmem] at hdigit
        cases hdigit
      simp only [List.mem_cons, List.not_mem_nil, or_false, not_or] at hne
      exact ⟨hdigit.isPrintable, hdigit.isBlank, hne⟩
    · exact hmarks c hmark
  refine ⟨h.ne_nil, fun c hc ↦ ?_, fun c hc ↦ ?_⟩
  · obtain ⟨hprintable, hblank, hclose, -⟩ := hchars c hc
    exact ⟨hprintable, hblank, hclose⟩
  · exact (hchars c (List.mem_of_head? hc)).2.2.2

/-! ### Pieces of text -/

/-- The text falls into the tokens, wherever it stands between others: before it may stand anything
that is complete, behind it anything that ends a word. -/
def Scans (cs : List Char) (tokens : List String) : Prop :=
  ∀ position complete rest, (∀ c ∈ rest.head?, endsWord c = true) →
    scan .gap position complete (cs ++ rest) =
      scan .gap (position + cs.length) (tokens.reverse ++ complete) rest

theorem scans_nil : Scans [] [] := fun _ _ _ _ ↦ rfl

/-- The characters of a word are collected. -/
theorem scan_chars {cs : List Char}
    (h : ∀ c ∈ cs, Text.isPrintable c = true ∧ Text.isBlank c = false ∧ c ≠ ')')
    (reversed : List Char) (position : Nat) (complete : List String) (rest : List Char) :
    scan (.word reversed) position complete (cs ++ rest) =
      scan (.word (cs.reverse ++ reversed)) (position + cs.length) complete rest := by
  induction cs generalizing reversed position with
  | nil => rfl
  | cons c cs ih =>
    obtain ⟨hprintable, hblank, hclose⟩ := h c (List.mem_cons_self ..)
    have hstep : step (.word reversed) complete c = .go (.word (c :: reversed)) complete := by
      simp [step, endsWord_eq_false hblank hclose, hprintable]
    rw [List.cons_append, scan, hstep]
    simp only
    rw [ih fun other hother ↦ h other (List.mem_cons_of_mem _ hother)]
    simp [Nat.add_assoc, Nat.add_comm 1]

/-- A word is complete where something ends it, or the text does. -/
theorem scan_end (reversed : List Char) (position : Nat) (complete : List String)
    {rest : List Char} (hrest : ∀ c ∈ rest.head?, endsWord c = true) :
    scan (.word reversed) position complete rest =
      scan .gap position (wordText reversed :: complete) rest := by
  cases rest with
  | nil => rfl
  | cons c rest =>
    have hstep : step (.word reversed) complete c =
        step .gap (wordText reversed :: complete) c := by
      simp only [step, hrest c rfl, if_true]
    rw [scan, scan, hstep]

/-- A word is one token. -/
theorem scans_word {cs : List Char} (h : IsWord cs) : Scans cs [String.ofList cs] := by
  intro position complete rest hrest
  rcases cs with - | ⟨c, cs⟩
  · exact absurd rfl h.ne_nil
  · obtain ⟨hprintable, hblank, hclose⟩ := h.chars c (List.mem_cons_self ..)
    obtain ⟨hopen, hcomment⟩ := h.head c rfl
    have hstart : step .gap complete c = .go (.word [c]) complete := by
      simp [step, start, isSkipped_eq_false hblank, hcomment, hopen, hclose, hblank, hprintable]
    rw [List.cons_append, scan, hstart]
    simp only
    rw [scan_chars fun other hother ↦ h.chars other (List.mem_cons_of_mem _ hother),
      scan_end _ _ _ hrest]
    simp [wordText, Nat.add_assoc, Nat.add_comm 1]

/-- Parentheses around a piece are tokens of their own. -/
theorem Scans.parentheses {cs : List Char} {tokens : List String} (h : Scans cs tokens) :
    Scans ('(' :: (cs ++ [')'])) ("(" :: tokens ++ [")"]) := by
  intro position complete rest _
  have hclose : ∀ c ∈ (')' :: rest).head?, endsWord c = true := by
    rintro c ⟨⟩
    rfl
  calc scan .gap position complete ('(' :: (cs ++ [')']) ++ rest)
      = scan .gap (position + 1) ("(" :: complete) (cs ++ ')' :: rest) := by
        rw [List.cons_append, List.append_assoc]
        rfl
    _ = scan .gap (position + 1 + cs.length) (tokens.reverse ++ "(" :: complete) (')' :: rest) :=
        h _ _ _ hclose
    _ = scan .gap (position + 1 + cs.length + 1) (")" :: (tokens.reverse ++ "(" :: complete))
          rest := rfl
    _ = _ := by simp [Nat.add_assoc, Nat.add_comm 1]

/-- A blank divides two pieces. -/
theorem Scans.blank {cs cs' : List Char} {tokens tokens' : List String} (h : Scans cs tokens)
    (h' : Scans cs' tokens') : Scans (cs ++ ' ' :: cs') (tokens ++ tokens') := by
  intro position complete rest hrest
  have hblank : ∀ c ∈ (' ' :: (cs' ++ rest)).head?, endsWord c = true := by
    rintro c ⟨⟩
    rfl
  calc scan .gap position complete (cs ++ ' ' :: cs' ++ rest)
      = scan .gap (position + cs.length) (tokens.reverse ++ complete) (' ' :: (cs' ++ rest)) := by
        rw [List.append_assoc]
        exact h _ _ _ hblank
    _ = scan .gap (position + cs.length + 1) (tokens.reverse ++ complete) (cs' ++ rest) := rfl
    _ = scan .gap (position + cs.length + 1 + cs'.length)
          (tokens'.reverse ++ (tokens.reverse ++ complete)) rest := h' _ _ _ hrest
    _ = _ := by simp [Nat.add_assoc, Nat.add_comm 1]

end Token

namespace Form

open Token

/-! ### Written forms -/

/-- The text is a way to write the form. -/
inductive Written : Form → String → Prop
  /-- A number is written as a numeral that is read as the number. -/
  | number {value : Float} {token : String} (h : Number.ofText? token = some value) :
    Written (.number value) token
  /-- A symbol is written as its name, which has to be a word and no numeral. -/
  | symbol {name : String} (hword : IsWord name.toList)
    (hnumeral : ¬ Number.IsNumeral name.toList) : Written (.symbol name) name
  /-- A list is written as its items, blanks between them and parentheses around. -/
  | list {parts : List (Form × String)} (hparts : ∀ part ∈ parts, Written part.1 part.2) :
    Written (.list (parts.map Prod.fst)) ("(" ++ " ".intercalate (parts.map Prod.snd) ++ ")")

/-- A word is no parenthesis. -/
theorem derives_of_isWord {token : String} (h : IsWord token.toList) :
    Derives [token] (ofToken token) := by
  refine .atom ?_ ?_
  · rintro rfl
    exact (h.head '(' rfl).1 rfl
  · rintro rfl
    exact (h.chars ')' (by simp)).2.2 rfl

/-- The items of a list fall into the tokens of all of them. -/
theorem scans_items {parts : List (Form × String)}
    (h : ∀ part ∈ parts, ∃ tokens, Scans part.2.toList tokens ∧ Derives tokens part.1) :
    ∃ tokens, Scans (" ".intercalate (parts.map Prod.snd)).toList tokens ∧
      DerivesAll tokens (parts.map Prod.fst) := by
  induction parts with
  | nil => exact ⟨[], scans_nil, derivesAll_nil⟩
  | cons part parts ih =>
    obtain ⟨tokens, hscans, hderives⟩ := h part (List.mem_cons_self ..)
    obtain ⟨others, hothers, hall⟩ := ih fun other hother ↦ h other (List.mem_cons_of_mem _ hother)
    -- Between two items stands a space, behind the last one nothing.
    rcases parts with - | ⟨next, parts⟩
    · refine ⟨tokens, ?_, ?_⟩
      · simpa using hscans
      · simpa using DerivesAll.cons hderives derivesAll_nil
    · refine ⟨tokens ++ others, ?_, hall.cons hderives⟩
      have htext : (" ".intercalate ((part :: next :: parts).map Prod.snd)).toList =
          part.2.toList ++ ' ' :: (" ".intercalate ((next :: parts).map Prod.snd)).toList := by
        simp [String.toList_intercalate, List.intercalate]
      rw [htext]
      exact hscans.blank hothers

/-- **Written text falls into tokens that stand for the form.** -/
theorem Written.scans {form : Form} {text : String} (h : Written form text) :
    ∃ tokens, Scans text.toList tokens ∧ Derives tokens form := by
  induction h with
  | @number value token h =>
    have hword : IsWord token.toList :=
      isWord_of_isNumeral (Number.isSome_ofText_iff.1 (by rw [h]; rfl))
    have htoken : ofToken token = .number value := by rw [ofToken, h]
    refine ⟨[token], ?_, htoken ▸ derives_of_isWord hword⟩
    simpa using scans_word hword
  | @symbol name hword hnumeral =>
    have hnone : Number.ofText? name = none := by
      rw [← Number.isSome_ofText_iff] at hnumeral
      simpa using hnumeral
    have htoken : ofToken name = .symbol name := by rw [ofToken, hnone]
    refine ⟨[name], ?_, htoken ▸ derives_of_isWord hword⟩
    simpa using scans_word hword
  | list _ ih =>
    obtain ⟨tokens, hscans, hall⟩ := scans_items ih
    refine ⟨_, ?_, hall.list⟩
    simpa using hscans.parentheses

end Form

namespace TokenStream

open Form

/-- The text of a form falls into tokens, and nothing in it is at fault. -/
theorem ofText_of_scans {text : String} {tokens : List String}
    (h : Token.Scans text.toList tokens) : ofText text = ofTokens tokens := by
  have hlex : lex text = ⟨tokens, none⟩ := by
    have hscan := h 0 [] [] (by simp)
    rw [List.append_nil, List.append_nil] at hscan
    rw [lex, hscan]
    simp [Token.scan, Token.finish]
  rw [ofText, hlex]
  rfl

/-- **What is written is read back**, and nothing is left. -/
theorem first_of_written {form : Form} {text : String} (h : Written form text) :
    (ofText text).first = .ok (form, []) := by
  obtain ⟨tokens, hscans, hderives⟩ := h.scans
  rw [ofText_of_scans hscans]
  exact first_eq_ok_iff.2 ⟨tokens, (List.append_nil _).symm, hderives⟩

/-- A list with a symbol that holds a parenthesis and a semicolon, a number that is not written the
shortest way, and lists inside. -/
theorem first_of_written_nested :
    Written (.list [.symbol "f(;", .number 1.5, .list [], .list [.symbol "."]])
        "(f(; +15.e-1 () (.))" ∧
      (ofText "(f(; +15.e-1 () (.))").first =
        .ok (.list [.symbol "f(;", .number 1.5, .list [], .list [.symbol "."]], []) := by
  have hword : ∀ name ∈ ["f(;", "."], Written (.symbol name) name := by
    intro name hname
    simp only [List.mem_cons, List.not_mem_nil, or_false] at hname
    rcases hname with rfl | rfl
    · exact .symbol (by decide) (by rw [← Number.isSome_ofText_iff]; decide)
    · exact .symbol (by decide) (by rw [← Number.isSome_ofText_iff]; decide)
  have hnumber : Written (.number 1.5) "+15.e-1" := .number (by decide +kernel)
  have hempty : Written (.list []) "()" := @Written.list [] (by simp)
  have hinner : Written (.list [.symbol "."]) "(.)" :=
    @Written.list [(.symbol ".", ".")] (by simpa using hword "." (by simp))
  have hwritten := @Written.list [(.symbol "f(;", "f(;"), (.number 1.5, "+15.e-1"),
    (.list [], "()"), (.list [.symbol "."], "(.)")]
    (by simpa using ⟨hword "f(;" (by simp), hnumber, hempty, hinner⟩)
  exact ⟨hwritten, first_of_written hwritten⟩

end TokenStream

end DottedLisp
