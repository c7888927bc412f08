import DottedLisp.Proofs.Reading.RoundTrip

/-!
# How a text falls into tokens

A text is gaps and tokens in turn. A **gap** is blanks of the four kinds that are skipped, and
comments; a comment goes on to the end of its line. A **token** is a parenthesis, or a run of
characters that are neither blank nor `)`, which begins with neither `(` nor `;` and cannot be made
longer. These are `IsGap` and `IsLexeme`; both look at what stands behind, and neither knows of the
automaton that scans. `Cut` puts them in a row.

Every text is cut in one way only, since a gap ends where no gap can go on and a token where none
can. Two things stop the row: a blank that is not skipped, where a token should begin, and a
character in a token that cannot be printed (`AtFault`). Several characters of a text can be at
fault.

Main statement: scanning succeeds exactly on the texts that are cut to their end into printable
tokens, and otherwise stops at the **first** character at fault, with the tokens that lie wholly
before (`lex_exactly_segments`).
-/

namespace DottedLisp

/-- A boundary between characters of a kind and others can be in one place only. -/
theorem append_inj_of_boundary {α : Type} {p : α → Bool} {a a' b b' : List α}
    (h : a ++ b = a' ++ b') (ha : ∀ x ∈ a, p x = true) (ha' : ∀ x ∈ a', p x = true)
    (hb : ∀ x ∈ b.head?, p x = false) (hb' : ∀ x ∈ b'.head?, p x = false) : a = a' ∧ b = b' := by
  have hstop : ∀ {c : List α}, (∀ x ∈ c.head?, p x = false) → c.takeWhile p = [] := by
    intro c hc
    cases c with
    | nil => rfl
    | cons x c => rw [List.takeWhile_cons, hc x rfl, if_neg Bool.false_ne_true]
  have htake := congrArg (List.takeWhile p) h
  rw [List.takeWhile_append_of_pos ha, List.takeWhile_append_of_pos ha', hstop hb, hstop hb',
    List.append_nil, List.append_nil] at htake
  exact ⟨htake, List.append_cancel_left (htake ▸ h)⟩

namespace Token

/-! ### Gaps and tokens -/

/-- Blanks and comments, in front of the rest of a text. -/
inductive IsGap : (gap rest : List Char) → Prop
  | nil {rest : List Char} : IsGap [] rest
  | blank {c : Char} {gap rest : List Char} (hc : isSkipped c = true) (hgap : IsGap gap rest) :
    IsGap (c :: gap) rest
  /-- A comment ends before the next line end, or with the text. -/
  | comment {body gap rest : List Char} (hbody : '\n' ∉ body)
    (hend : ∀ c ∈ (gap ++ rest).head?, c = '\n') (hgap : IsGap gap rest) :
    IsGap (';' :: (body ++ gap)) rest

/-- The rest of a text does not go on with a gap. -/
def NoGap (rest : List Char) : Prop :=
  ∀ c ∈ rest.head?, isSkipped c = false ∧ c ≠ ';'

/-- Characters that may follow one another in a word, beginning with one that may begin it. They
need not be printable. -/
structure IsRun (cs : List Char) : Prop where
  ne_nil : cs ≠ []
  /-- No character ends a word. -/
  chars : ∀ c ∈ cs, Text.isBlank c = false ∧ c ≠ ')'
  /-- The first one begins neither a list nor a comment. -/
  head : ∀ c ∈ cs.head?, c ≠ '(' ∧ c ≠ ';'

/-- A token, printable or not, in front of the rest of a text. -/
inductive IsLexeme : (token rest : List Char) → Prop
  | opening {rest : List Char} : IsLexeme ['('] rest
  | closing {rest : List Char} : IsLexeme [')'] rest
  /-- A run that cannot be made longer. -/
  | run {token rest : List Char} (hrun : IsRun token)
    (hend : ∀ c ∈ rest.head?, Text.isBlank c = true ∨ c = ')') : IsLexeme token rest

variable {gap gap' token token' rest rest' text : List Char}

/-- No token is empty. -/
theorem IsLexeme.ne_nil (h : IsLexeme token rest) : token ≠ [] := by
  cases h with
  | opening => simp
  | closing => simp
  | run hrun _ => exact hrun.ne_nil

/-- A blank that is not skipped begins no gap. -/
theorem noGap_blank {c : Char} (hblank : Text.isBlank c = true) (hskipped : isSkipped c = false) :
    NoGap (c :: rest) := by
  rintro _ ⟨⟩
  refine ⟨hskipped, ?_⟩
  rintro rfl
  exact absurd hblank (by decide)

/-- Parentheses can be printed. -/
theorem IsLexeme.isRun (h : IsLexeme token rest) {c : Char} (hmem : c ∈ token)
    (hc : Text.isPrintable c = false) : IsRun token := by
  cases h with
  | run hrun _ => exact hrun
  | opening =>
    rw [List.mem_singleton.1 hmem] at hc
    exact absurd hc (by decide)
  | closing =>
    rw [List.mem_singleton.1 hmem] at hc
    exact absurd hc (by decide)

/-- A token begins no gap, and with no blank. -/
theorem IsLexeme.head (h : IsLexeme token rest) :
    ∃ c more, token = c :: more ∧ Text.isBlank c = false ∧ isSkipped c = false ∧ c ≠ ';' := by
  cases h with
  | opening => exact ⟨_, [], rfl, by decide⟩
  | closing => exact ⟨_, [], rfl, by decide⟩
  | run hrun _ =>
    rcases token with - | ⟨c, more⟩
    · exact absurd rfl hrun.ne_nil
    · have hblank := (hrun.chars c (List.mem_cons_self ..)).1
      exact ⟨c, more, rfl, hblank, isSkipped_eq_false hblank, (hrun.head c rfl).2⟩

theorem IsLexeme.noGap (h : IsLexeme token rest) : NoGap (token ++ text) := by
  obtain ⟨c, more, rfl, -, hc⟩ := h.head
  rintro _ ⟨⟩
  exact hc

/-! ### A text is cut in one way -/

/-- **Gaps end where they can only end.** -/
theorem IsGap.unique (h : IsGap gap rest) (h' : IsGap gap' rest') (hrest : NoGap rest)
    (hrest' : NoGap rest') (heq : gap ++ rest = gap' ++ rest') : gap = gap' ∧ rest = rest' := by
  induction h generalizing gap' with
  | nil =>
    cases h' with
    | nil => exact ⟨rfl, heq⟩
    | blank hc _ =>
      rw [List.nil_append] at heq
      rw [heq] at hrest
      exact absurd hc (by simp [(hrest _ rfl).1])
    | comment _ _ _ =>
      rw [List.nil_append] at heq
      rw [heq] at hrest
      exact absurd rfl (hrest ';' rfl).2
  | @blank c gap rest hc _ ih =>
    cases h' with
    | nil =>
      rw [List.nil_append] at heq
      rw [← heq] at hrest'
      exact absurd hc (by simp [(hrest' c rfl).1])
    | blank _ hgap' =>
      obtain ⟨rfl, htail⟩ := List.cons.inj heq
      obtain ⟨rfl, rfl⟩ := ih hgap' hrest htail
      exact ⟨rfl, rfl⟩
    | comment _ _ _ =>
      obtain ⟨rfl, -⟩ := List.cons.inj heq
      exact absurd hc (by decide)
  | @comment body gap rest hbody hend _ ih =>
    cases h' with
    | nil =>
      rw [List.nil_append] at heq
      rw [← heq] at hrest'
      exact absurd rfl (hrest' _ rfl).2
    | blank hc _ =>
      obtain ⟨rfl, -⟩ := List.cons.inj heq
      exact absurd hc (by decide)
    | @comment body' gap' _ hbody' hend' hgap' =>
      -- the bodies end at the same line end, or both with the text
      have htail : body ++ (gap ++ rest) = body' ++ (gap' ++ rest') := by
        simpa using (List.cons.inj heq).2
      have hnot : ∀ {cs : List Char}, '\n' ∉ cs → ∀ c ∈ cs, (c != '\n') = true := by
        intro cs hcs c hc
        rw [bne_iff_ne]
        rintro rfl
        exact hcs hc
      obtain ⟨rfl, hmore⟩ := append_inj_of_boundary (p := fun c ↦ c != '\n') htail (hnot hbody)
        (hnot hbody') (fun c hc ↦ by simp [hend c hc]) (fun c hc ↦ by simp [hend' c hc])
      obtain ⟨rfl, rfl⟩ := ih hgap' hrest hmore
      exact ⟨rfl, rfl⟩

theorem endsWord_iff {c : Char} : endsWord c = true ↔ Text.isBlank c = true ∨ c = ')' := by
  simp [endsWord]

/-- **Tokens end where they can only end.** -/
theorem IsLexeme.unique (h : IsLexeme token rest) (h' : IsLexeme token' rest')
    (heq : token ++ rest = token' ++ rest') : token = token' ∧ rest = rest' := by
  -- a run begins with no parenthesis
  have hfirst : ∀ {c : Char} {cs x y : List Char}, IsRun cs → c :: x = cs ++ y →
      c ≠ '(' ∧ c ≠ ')' := by
    intro c cs x y hrun hcs
    rcases cs with - | ⟨d, cs⟩
    · exact absurd rfl hrun.ne_nil
    · obtain ⟨rfl, -⟩ := List.cons.inj hcs
      exact ⟨(hrun.head c rfl).1, (hrun.chars c (List.mem_cons_self ..)).2⟩
  cases h with
  | opening =>
    cases h' with
    | opening => exact ⟨rfl, (List.cons.inj heq).2⟩
    | closing => exact absurd (List.cons.inj heq).1 (by decide)
    | run hrun _ => exact absurd rfl (hfirst hrun heq).1
  | closing =>
    cases h' with
    | opening => exact absurd (List.cons.inj heq).1 (by decide)
    | closing => exact ⟨rfl, (List.cons.inj heq).2⟩
    | run hrun _ => exact absurd rfl (hfirst hrun heq).2
  | run hrun hend =>
    cases h' with
    | opening => exact absurd rfl (hfirst hrun heq.symm).1
    | closing => exact absurd rfl (hfirst hrun heq.symm).2
    | run hrun' hend' =>
      have hgoes : ∀ {cs : List Char}, IsRun cs → ∀ c ∈ cs, (!endsWord c) = true := by
        intro cs hcs c hc
        rw [endsWord_eq_false (hcs.chars c hc).1 (hcs.chars c hc).2]
        rfl
      exact append_inj_of_boundary (p := fun c ↦ !endsWord c) heq (hgoes hrun) (hgoes hrun')
        (fun c hc ↦ by rw [endsWord_iff.2 (hend c hc)]; rfl)
        (fun c hc ↦ by rw [endsWord_iff.2 (hend' c hc)]; rfl)

/-- `Cut text parts rest`: the text is the parts, each a gap and the token behind it, and then the
rest. -/
inductive Cut : List Char → List (List Char × List Char) → List Char → Prop
  | nil {rest : List Char} : Cut rest [] rest
  | cons {gap token text rest : List Char} {parts : List (List Char × List Char)}
    (hgap : IsGap gap (token ++ text)) (htoken : IsLexeme token text)
    (hcut : Cut text parts rest) : Cut (gap ++ (token ++ text)) ((gap, token) :: parts) rest

/-- The characters of the parts. -/
def joined (parts : List (List Char × List Char)) : List Char :=
  parts.flatMap fun part ↦ part.1 ++ part.2

/-- The tokens of the parts. -/
def texts (parts : List (List Char × List Char)) : List String :=
  parts.map fun part ↦ String.ofList part.2

/-- Every token of the parts can be printed. -/
def AllPrintable (parts : List (List Char × List Char)) : Prop :=
  ∀ part ∈ parts, ∀ c ∈ part.2, Text.isPrintable c = true

/-- The text is cut to its end, into tokens that can be printed: before each token stands its gap,
and the last gap stands behind all of them. -/
structure Segments (text : List Char) (parts : List (List Char × List Char)) (last : List Char) :
    Prop where
  cut : Cut text parts last
  last_gap : IsGap last []
  printable : AllPrintable parts

/-- The character at a position is at fault before the first token of the text is complete. -/
inductive AtFaultFirst : List Char → Nat → Char → Prop
  /-- A blank that is not skipped stands where a token should begin. -/
  | blank {c : Char} {gap rest : List Char} (hgap : IsGap gap (c :: rest))
    (hblank : Text.isBlank c = true) (hskipped : isSkipped c = false) :
    AtFaultFirst (gap ++ c :: rest) gap.length c
  /-- A character that cannot be printed stands in the token. -/
  | char {c : Char} {gap before after rest : List Char}
    (hgap : IsGap gap (before ++ c :: after ++ rest))
    (htoken : IsLexeme (before ++ c :: after) rest) (hc : Text.isPrintable c = false) :
    AtFaultFirst (gap ++ (before ++ c :: after ++ rest)) (gap.length + before.length) c

/-- The character at a position is at fault; the tokens of the parts lie wholly before the token, or
the position, where it is. -/
def AtFault (text : List Char) (parts : List (List Char × List Char)) (position : Nat) (c : Char) :
    Prop :=
  ∃ rest offset, Cut text parts rest ∧ AtFaultFirst rest offset c ∧
    position = (joined parts).length + offset

/-! ### Comparing two ways to cut a text -/

variable {parts parts' : List (List Char × List Char)} {c c' : Char} {position position' : Nat}

/-- The first gap and the first token are determined. -/
theorem first_unique {text' : List Char} (hgap : IsGap gap (token ++ text))
    (htoken : IsLexeme token text) (hgap' : IsGap gap' (token' ++ text'))
    (htoken' : IsLexeme token' text')
    (heq : gap ++ (token ++ text) = gap' ++ (token' ++ text')) :
    gap = gap' ∧ token = token' ∧ text = text' := by
  obtain ⟨rfl, hmore⟩ := hgap.unique hgap' htoken.noGap htoken'.noGap heq
  exact ⟨rfl, htoken.unique htoken' hmore⟩

/-- What is gap throughout holds no token. -/
theorem IsGap.ne_of_lexeme (h : IsGap gap []) (hgap' : IsGap gap' (token ++ text))
    (htoken : IsLexeme token text) : gap ≠ gap' ++ (token ++ text) := by
  intro heq
  have hnone : NoGap [] := by simp [NoGap]
  obtain ⟨-, hnil⟩ := h.unique hgap' hnone htoken.noGap ((List.append_nil gap).trans heq)
  exact htoken.ne_nil (List.append_eq_nil_iff.1 hnil.symm).1

/-- **A text is segmented in one way only.** -/
theorem Segments.unique {last last' : List Char} (h : Segments text parts last)
    (h' : Segments text parts' last') : parts = parts' ∧ last = last' := by
  obtain ⟨hcut, hlast, -⟩ := h
  obtain ⟨hcut', hlast', -⟩ := h'
  induction hcut generalizing parts' with
  | nil =>
    cases hcut' with
    | nil => exact ⟨rfl, rfl⟩
    | cons hgap htoken _ => exact absurd rfl (hlast.ne_of_lexeme hgap htoken)
  | @cons gap token text rest parts hgap htoken _ ih =>
    generalize htext : gap ++ (token ++ text) = whole at hcut'
    cases hcut' with
    | nil => exact absurd htext.symm (hlast'.ne_of_lexeme hgap htoken)
    | cons hgap' htoken' hcut' =>
      obtain ⟨rfl, rfl, rfl⟩ := first_unique hgap htoken hgap' htoken' htext
      obtain ⟨rfl, rfl⟩ := ih hlast hcut'
      exact ⟨rfl, rfl⟩

/-- The character at fault stands at the position. -/
theorem AtFaultFirst.getElem? (h : AtFaultFirst text position c) : text[position]? = some c := by
  cases h with
  | blank => simp
  | char => simp

/-- A character that is at fault before the first token is complete stands before all that
follows the token, and the token cannot be printed. -/
theorem AtFaultFirst.lt_of_lexeme (h : AtFaultFirst rest position c)
    (hrest : rest = gap ++ (token ++ text)) (hgap : IsGap gap (token ++ text))
    (htoken : IsLexeme token text) :
    position < gap.length + token.length ∧ ∃ d ∈ token, Text.isPrintable d = false := by
  cases h with
  | blank hgap' hblank hskipped =>
    -- the token would begin with the blank
    obtain ⟨-, hmore⟩ := hgap'.unique hgap (noGap_blank hblank hskipped) htoken.noGap hrest
    obtain ⟨d, more, rfl, hd, -⟩ := htoken.head
    obtain ⟨rfl, -⟩ := List.cons.inj hmore
    rw [hd] at hblank
    cases hblank
  | @char _ _ before after _ hgap' htoken' hc =>
    obtain ⟨rfl, rfl, -⟩ := first_unique hgap' htoken' hgap htoken hrest
    refine ⟨?_, c, by simp, hc⟩
    rw [List.length_append, List.length_cons]
    omega

/-- A text with a fault in front of its first complete token is not one gap. -/
theorem AtFaultFirst.not_isGap (h : AtFaultFirst text position c) : ¬ IsGap text [] := by
  intro hgap
  have hnone : NoGap [] := by simp [NoGap]
  cases h with
  | blank hgap' hblank hskipped =>
    obtain ⟨-, hnil⟩ := hgap.unique hgap' hnone (noGap_blank hblank hskipped) (List.append_nil _)
    cases hnil
  | char hgap' htoken' _ => exact hgap.ne_of_lexeme hgap' htoken' rfl

/-- No character of a text that is segmented is at fault. -/
theorem Segments.not_atFault {last : List Char} (h : Segments text parts last) :
    ¬ AtFault text parts' position c := by
  rintro ⟨rest, offset, hcut', hfirst, -⟩
  obtain ⟨hcut, hlast, hprintable⟩ := h
  induction hcut generalizing parts' with
  | nil =>
    cases hcut' with
    | nil => exact hfirst.not_isGap hlast
    | cons hgap htoken _ => exact hlast.ne_of_lexeme hgap htoken rfl
  | @cons gap token text rest parts hgap htoken _ ih =>
    generalize htext : gap ++ (token ++ text) = whole at hcut'
    cases hcut' with
    | nil =>
      obtain ⟨-, d, hd, hnot⟩ := hfirst.lt_of_lexeme htext.symm hgap htoken
      rw [hprintable _ (List.mem_cons_self ..) d hd] at hnot
      cases hnot
    | cons hgap' htoken' hcut' =>
      obtain ⟨rfl, rfl, rfl⟩ := first_unique hgap htoken hgap' htoken' htext
      exact ih hcut' hlast fun part hpart ↦ hprintable part (List.mem_cons_of_mem _ hpart)

/-- The first character at fault: the tokens before can be printed, and so can what stands before it
in its own token. -/
def FirstAtFault (text : List Char) (parts : List (List Char × List Char)) (position : Nat)
    (c : Char) : Prop :=
  ∃ rest offset, Cut text parts rest ∧ AllPrintable parts ∧ AtFaultFirst rest offset c ∧
    (∀ offset' c', AtFaultFirst rest offset' c' → offset ≤ offset') ∧
    position = (joined parts).length + offset

theorem FirstAtFault.atFault (h : FirstAtFault text parts position c) :
    AtFault text parts position c := by
  obtain ⟨rest, offset, hcut, -, hfirst, -, hposition⟩ := h
  exact ⟨rest, offset, hcut, hfirst, hposition⟩

theorem joined_cons : joined ((gap, token) :: parts) = gap ++ token ++ joined parts := by
  simp [joined]

/-- **The first character at fault stands before all others**, and those at its place have the same
tokens before them. -/
theorem FirstAtFault.eq_or_lt (h : FirstAtFault text parts position c)
    (h' : AtFault text parts' position' c') :
    (parts' = parts ∧ position' = position ∧ c' = c) ∨ position < position' := by
  obtain ⟨rest, offset, hcut, hprintable, hfirst, hleast, rfl⟩ := h
  obtain ⟨rest', offset', hcut', hfirst', rfl⟩ := h'
  induction hcut generalizing parts' with
  | nil =>
    cases hcut' with
    | nil =>
      rcases Nat.eq_or_lt_of_le (hleast _ _ hfirst') with heq | hlt
      · have hchar := hfirst'.getElem?
        rw [← heq, hfirst.getElem?] at hchar
        exact Or.inl ⟨rfl, by rw [heq], (Option.some.inj hchar).symm⟩
      · exact Or.inr (by omega)
    | cons hgap htoken _ =>
      -- the other one is behind the token in which this one is
      have hlt := (hfirst.lt_of_lexeme rfl hgap htoken).1
      refine Or.inr ?_
      rw [joined_cons, List.length_append, List.length_append]
      simp only [joined, List.flatMap_nil, List.length_nil]
      omega
  | @cons gap token text rest parts hgap htoken _ ih =>
    generalize htext : gap ++ (token ++ text) = whole at hcut'
    cases hcut' with
    | nil =>
      obtain ⟨-, d, hd, hnot⟩ := hfirst'.lt_of_lexeme htext.symm hgap htoken
      rw [hprintable _ (List.mem_cons_self ..) d hd] at hnot
      cases hnot
    | cons hgap' htoken' hcut' =>
      obtain ⟨rfl, rfl, rfl⟩ := first_unique hgap htoken hgap' htoken' htext
      have hrest := ih (fun part hpart ↦ hprintable part (List.mem_cons_of_mem _ hpart)) hfirst
        hleast hcut'
      simp only [joined_cons, List.length_append]
      rcases hrest with ⟨rfl, heq, rfl⟩ | hlt
      · exact Or.inl ⟨rfl, by omega, rfl⟩
      · exact Or.inr (by omega)

/-! ### Every text is cut -/

/-- Every text begins with a gap that cannot be made longer. -/
theorem exists_gap (text : List Char) :
    ∃ gap rest, text = gap ++ rest ∧ IsGap gap rest ∧ NoGap rest := by
  induction hlength : text.length using Nat.strongRecOn generalizing text with
  | ind length ih =>
    rcases text with - | ⟨c, text⟩
    · exact ⟨[], [], rfl, .nil, by simp [NoGap]⟩
    rw [List.length_cons] at hlength
    rcases hskipped : isSkipped c with - | -
    · by_cases hcomment : c = ';'
      · -- the comment goes on to the line end, and the gap behind it
        subst hcomment
        have hsplit := List.takeWhile_append_dropWhile (p := fun c ↦ c != '\n') (l := text)
        have hle := (List.dropWhile_suffix (fun c ↦ c != '\n') (l := text)).length_le
        obtain ⟨gap, rest, heq, hgap, hrest⟩ :=
          ih _ (by omega) (text.dropWhile fun c ↦ c != '\n') rfl
        refine ⟨(';' :: (text.takeWhile (fun c ↦ c != '\n') ++ gap)), rest, ?_,
          .comment ?_ ?_ hgap, hrest⟩
        · rw [List.cons_append, List.append_assoc, ← heq, hsplit]
        · intro hmem
          simpa using List.all_eq_true.1 List.all_takeWhile _ hmem
        · rw [← heq]
          intro d hd
          have hnot := List.head?_dropWhile_not (fun c ↦ c != '\n') text
          rw [hd] at hnot
          simpa using hnot
      · refine ⟨[], c :: text, rfl, .nil, ?_⟩
        rintro _ ⟨⟩
        exact ⟨hskipped, hcomment⟩
    · obtain ⟨gap, rest, rfl, hgap, hrest⟩ := ih _ (by omega) text rfl
      exact ⟨c :: gap, rest, rfl, .blank hskipped hgap, hrest⟩

/-- Where neither a gap nor a blank begins, a token does. -/
theorem exists_lexeme (hcomment : c ≠ ';') (hblank : Text.isBlank c = false) (text : List Char) :
    ∃ token rest, c :: text = token ++ rest ∧ IsLexeme token rest := by
  by_cases hopen : c = '('
  · exact ⟨['('], text, by rw [hopen]; rfl, .opening⟩
  by_cases hclose : c = ')'
  · exact ⟨[')'], text, by rw [hclose]; rfl, .closing⟩
  refine ⟨c :: text.takeWhile fun d ↦ !endsWord d, text.dropWhile fun d ↦ !endsWord d, ?_,
    .run ?_ ?_⟩
  · rw [List.cons_append, List.takeWhile_append_dropWhile]
  · refine ⟨List.cons_ne_nil _ _, fun d hd ↦ ?_, ?_⟩
    · rcases List.mem_cons.1 hd with rfl | hd
      · exact ⟨hblank, hclose⟩
      · have hgoes := List.all_eq_true.1 List.all_takeWhile d hd
        simpa [endsWord] using hgoes
    · rintro _ ⟨⟩
      exact ⟨hopen, hcomment⟩
  · intro d hd
    have hnot := List.head?_dropWhile_not (fun d ↦ !endsWord d) text
    rw [hd] at hnot
    exact endsWord_iff.1 (by simpa using hnot)

/-- What is at fault first stands behind the gap. -/
theorem AtFaultFirst.le_gap (h : AtFaultFirst text position c) (htext : text = gap ++ rest)
    (hgap : IsGap gap rest) (hrest : NoGap rest) : gap.length ≤ position := by
  cases h with
  | blank hgap' hblank hskipped =>
    obtain ⟨rfl, -⟩ := hgap'.unique hgap (noGap_blank hblank hskipped) hrest htext
    exact Nat.le_refl _
  | char hgap' htoken' _ =>
    obtain ⟨rfl, -⟩ := hgap'.unique hgap htoken'.noGap hrest htext
    exact Nat.le_add_right ..

/-- What is at fault first in a token stands behind what can be printed of it. -/
theorem AtFaultFirst.le_printable {before after : List Char}
    (h : AtFaultFirst text position c) (htext : text = gap ++ (before ++ c' :: after ++ rest))
    (hgap : IsGap gap (before ++ c' :: after ++ rest))
    (htoken : IsLexeme (before ++ c' :: after) rest)
    (hbefore : ∀ d ∈ before, Text.isPrintable d = true) :
    gap.length + before.length ≤ position := by
  cases h with
  | blank hgap' hblank hskipped =>
    obtain ⟨-, hmore⟩ := hgap'.unique hgap (noGap_blank hblank hskipped) htoken.noGap htext
    obtain ⟨d, more, hd, hnot, -⟩ := htoken.head
    rw [hd] at hmore
    obtain ⟨rfl, -⟩ := List.cons.inj hmore
    rw [hnot] at hblank
    cases hblank
  | @char _ _ before' after' _ hgap' htoken' hc =>
    obtain ⟨rfl, htoken, -⟩ := first_unique hgap' htoken' hgap htoken htext
    refine Nat.add_le_add_left (Nat.le_of_not_lt fun hlt ↦ ?_) _
    -- otherwise it is one of those that can be printed
    have hchar : (before' ++ c :: after')[before'.length]? = some c := by simp
    rw [htoken, List.getElem?_append_left hlt] at hchar
    rw [hbefore c (List.mem_of_getElem? hchar)] at hc
    cases hc

/-- **Every text is segmented, or has a first character at fault.** -/
theorem segments_or_firstAtFault (text : List Char) :
    (∃ parts last, Segments text parts last) ∨ ∃ parts position c,
      FirstAtFault text parts position c := by
  induction hlength : text.length using Nat.strongRecOn generalizing text with
  | ind length ih =>
    obtain ⟨gap, rest, rfl, hgap, hrest⟩ := exists_gap text
    rcases rest with - | ⟨c, rest⟩
    · refine Or.inl ⟨[], gap, ?_, hgap, by simp [AllPrintable]⟩
      rw [List.append_nil]
      exact .nil
    rcases hblank : Text.isBlank c with - | -
    · obtain ⟨token, rest, heq, htoken⟩ := exists_lexeme (hrest c rfl).2 hblank rest
      rw [heq] at hgap hrest hlength ⊢
      rcases hfind : token.find? fun d ↦ !Text.isPrintable d with - | d
      · -- a token that can be printed: go on behind it
        have htokenPrintable : ∀ d ∈ token, Text.isPrintable d = true := by simpa using hfind
        have hpositive := List.length_pos_iff.2 htoken.ne_nil
        rw [List.length_append, List.length_append] at hlength
        have hprintable : ∀ {parts}, AllPrintable parts → AllPrintable ((gap, token) :: parts) := by
          intro parts hparts part hpart
          rcases List.mem_cons.1 hpart with rfl | hpart
          · exact htokenPrintable
          · exact hparts part hpart
        rcases ih _ (by omega) rest rfl with ⟨parts, last, hcut, hlast, hparts⟩ |
          ⟨parts, _, c, rest', offset, hcut, hparts, hfirst, hleast, rfl⟩
        · exact Or.inl ⟨(gap, token) :: parts, last, .cons hgap htoken hcut, hlast,
            hprintable hparts⟩
        · exact Or.inr ⟨(gap, token) :: parts, _, c, rest', offset, .cons hgap htoken hcut,
            hprintable hparts, hfirst, hleast, rfl⟩
      · obtain ⟨hd, before, after, rfl, hbefore⟩ := List.find?_eq_some_iff_append.1 hfind
        have hbeforePrintable : ∀ d ∈ before, Text.isPrintable d = true := by simpa using hbefore
        refine Or.inr ⟨[], _, d, _, gap.length + before.length, .nil, by simp [AllPrintable],
          .char hgap htoken (by simpa using hd), fun _ _ h ↦ ?_, rfl⟩
        exact h.le_printable rfl hgap htoken hbeforePrintable
    · refine Or.inr ⟨[], _, c, _, gap.length, .nil, by simp [AllPrintable],
        .blank hgap hblank (hrest c rfl).1, fun _ _ h ↦ ?_, rfl⟩
      exact h.le_gap rfl hgap hrest

/-! ### Scanning a text that is cut -/

variable {complete : List String}

/-- A comment is passed over up to the end of the line. -/
theorem scan_comment {body : List Char} (hbody : '\n' ∉ body)
    (hend : ∀ c ∈ rest.head?, c = '\n') :
    scan .comment position complete (body ++ rest) =
      scan .gap (position + body.length) complete rest := by
  induction body generalizing position with
  | nil =>
    cases rest with
    | nil => rfl
    | cons c rest =>
      obtain rfl : c = '\n' := hend c rfl
      rfl
  | cons c body ih =>
    have hc : c ≠ '\n' := by
      rintro rfl
      exact hbody (List.mem_cons_self ..)
    have hstep : step .comment complete c = .go .comment complete := by simp [step, hc]
    rw [List.cons_append, scan, hstep]
    simp only
    rw [ih fun hmem ↦ hbody (List.mem_cons_of_mem _ hmem), List.length_cons]
    congr 1
    omega

/-- A gap is passed over. -/
theorem scan_gap (h : IsGap gap rest) :
    scan .gap position complete (gap ++ rest) =
      scan .gap (position + gap.length) complete rest := by
  induction h generalizing position with
  | nil => rfl
  | blank hc _ ih =>
    have hstep : ∀ c, isSkipped c = true → step .gap complete c = .go .gap complete := by
      intro c hc
      simp [step, start, hc]
    rw [List.cons_append, scan, hstep _ hc]
    simp only
    rw [ih, List.length_cons]
    congr 1
    omega
  | @comment body gap rest hbody hend _ ih =>
    have hstep : step .gap complete ';' = .go .comment complete := rfl
    rw [List.cons_append, List.append_assoc, scan, hstep]
    simp only
    rw [scan_comment hbody hend, ih, List.length_cons, List.length_append]
    congr 1
    omega

theorem IsWord.isRun (h : IsWord token) : IsRun token :=
  ⟨h.ne_nil, fun c hc ↦ (h.chars c hc).2, h.head⟩

theorem IsRun.isWord (h : IsRun token) (hprintable : ∀ c ∈ token, Text.isPrintable c = true) :
    IsWord token :=
  ⟨h.ne_nil, fun c hc ↦ ⟨hprintable c hc, h.chars c hc⟩, h.head⟩

/-- A token that can be printed is completed. -/
theorem scan_lexeme (h : IsLexeme token rest)
    (hprintable : ∀ c ∈ token, Text.isPrintable c = true) :
    scan .gap position complete (token ++ rest) =
      scan .gap (position + token.length) (String.ofList token :: complete) rest := by
  cases h with
  | opening => rfl
  | closing => rfl
  | run hrun hend =>
    exact scans_word (hrun.isWord hprintable) position complete rest
      fun c hc ↦ endsWord_iff.2 (hend c hc)

/-- The parts that can be printed are completed one after the other. -/
theorem scan_cut (h : Cut text parts rest) (hprintable : AllPrintable parts) :
    scan .gap position complete text =
      scan .gap (position + (joined parts).length) ((texts parts).reverse ++ complete) rest := by
  induction h generalizing position complete with
  | nil => rfl
  | @cons gap token text rest parts hgap htoken _ ih =>
    rw [scan_gap hgap, scan_lexeme htoken (hprintable _ (List.mem_cons_self ..)),
      ih fun part hpart ↦ hprintable part (List.mem_cons_of_mem _ hpart), joined_cons]
    simp [texts, Nat.add_assoc]

/-- A run stops at the first character that cannot be printed, and is not completed. -/
theorem scan_run {before after : List Char} (h : IsRun (before ++ c :: after))
    (hbefore : ∀ d ∈ before, Text.isPrintable d = true) (hc : Text.isPrintable c = false) :
    scan .gap position complete (before ++ c :: after ++ rest) =
      ⟨complete.reverse, some ⟨c, position + before.length⟩⟩ := by
  have hchars : ∀ d ∈ before ++ c :: after, Text.isBlank d = false ∧ d ≠ ')' := h.chars
  obtain ⟨hblank, hclose⟩ := hchars c (by simp)
  -- where a run begins, no gap and no parenthesis does
  have hstart : ∀ d, (before ++ c :: after).head? = some d → step .gap complete d =
      if Text.isPrintable d then .go (.word [d]) complete else .stop complete := by
    intro d hd
    obtain ⟨hopen, hcomment⟩ := h.head d hd
    obtain ⟨hdblank, hdclose⟩ := hchars d (List.mem_of_head? hd)
    cases hprintable : Text.isPrintable d <;>
      simp [step, start, isSkipped_eq_false hdblank, hcomment, hopen, hdclose, hdblank, hprintable]
  rcases before with - | ⟨d, before⟩
  · have hstop : step .gap complete c = .stop complete := by rw [hstart c rfl, hc]; rfl
    rw [List.nil_append, List.cons_append, scan, hstop]
    rfl
  · have hgo : step .gap complete d = .go (.word [d]) complete := by
      rw [hstart d rfl, hbefore d (List.mem_cons_self ..)]
      rfl
    have hword : ∀ x ∈ before, Text.isPrintable x = true ∧ Text.isBlank x = false ∧ x ≠ ')' :=
      fun x hx ↦ ⟨hbefore x (List.mem_cons_of_mem _ hx), hchars x (by simp [hx])⟩
    have hstop : ∀ reversed, step (.word reversed) complete c = .stop complete := by
      intro reversed
      simp [step, endsWord_eq_false hblank hclose, hc]
    rw [List.cons_append, List.cons_append, scan, hgo]
    simp only
    rw [List.append_assoc, scan_chars hword, List.cons_append, scan, hstop]
    simp [Nat.add_assoc, Nat.add_comm 1]

/-- What is at fault first stops the scan. -/
theorem scan_atFaultFirst (h : AtFaultFirst text position c)
    (hleast : ∀ position' c', AtFaultFirst text position' c' → position ≤ position')
    (start : Nat) :
    scan .gap start complete text = ⟨complete.reverse, some ⟨c, start + position⟩⟩ := by
  cases h with
  | @blank _ gap rest hgap hblank hskipped =>
    have hne : ∀ d ∈ [';', '(', ')'], c ≠ d := by
      rintro d hd rfl
      simp only [List.mem_cons, List.not_mem_nil, or_false] at hd
      rcases hd with rfl | rfl | rfl <;> exact absurd hblank (by decide)
    have hstop : step .gap complete c = .stop complete := by
      simp [step, Token.start, hskipped, hblank, hne ';' (by simp), hne '(' (by simp),
        hne ')' (by simp)]
    rw [scan_gap hgap, scan, hstop]
  | @char _ gap before after rest hgap htoken hc =>
    have hbefore : ∀ d ∈ before, Text.isPrintable d = true := by
      intro d hd
      rw [← Bool.not_eq_false]
      intro hnot
      -- an earlier one would be at fault too
      obtain ⟨x, y, rfl⟩ := List.append_of_mem hd
      have hshape : x ++ d :: y ++ c :: after = x ++ d :: (y ++ c :: after) := by simp
      rw [hshape] at hgap htoken hleast
      have hle := hleast _ _ (.char hgap htoken hnot)
      rw [List.length_append, List.length_cons] at hle
      omega
    have hrun := htoken.isRun (List.mem_append_right _ (List.mem_cons_self ..)) hc
    rw [scan_gap hgap, scan_run hrun hbefore hc, Nat.add_assoc]

end Token

open Token

variable {source : String} {parts : List (List Char × List Char)}

/-- **A text that is cut to its end** scans to its tokens. -/
theorem lex_of_segments {last : List Char} (h : Segments source.toList parts last) :
    lex source = ⟨texts parts, none⟩ := by
  rw [lex, scan_cut h.cut h.printable]
  have hlast := fun position complete ↦ @scan_gap last [] position complete h.last_gap
  simp only [List.append_nil] at hlast
  rw [hlast]
  simp [scan, finish]

/-- **A text with a fault** scans to the tokens before it, and the fault. -/
theorem lex_of_firstAtFault {position : Nat} {c : Char}
    (h : FirstAtFault source.toList parts position c) :
    lex source = ⟨texts parts, some ⟨c, position⟩⟩ := by
  obtain ⟨rest, offset, hcut, hprintable, hfirst, hleast, rfl⟩ := h
  rw [lex, scan_cut hcut hprintable, scan_atFaultFirst hfirst hleast]
  simp

/-- **Scanning accepts exactly the texts that fall into gaps and printable tokens**, in the one way
in which they do, and gives the tokens. Every other text it refuses at the first character at fault:
a blank that is not skipped where a token should begin, or a character in a token that cannot be
printed. It then gives the tokens that lie wholly before the token, or the position, at fault. -/
theorem lex_exactly_segments (source : String) :
    (∀ tokens, lex source = ⟨tokens, none⟩ ↔
      ∃ parts last, Segments source.toList parts last ∧ tokens = texts parts) ∧
    (∀ parts last parts' last', Segments source.toList parts last →
      Segments source.toList parts' last' → parts = parts' ∧ last = last') ∧
    (∀ tokens position c, lex source = ⟨tokens, some ⟨c, position⟩⟩ ↔
      ∃ parts, AtFault source.toList parts position c ∧ tokens = texts parts ∧
        ∀ parts' position' c', AtFault source.toList parts' position' c' →
          position ≤ position') := by
  refine ⟨fun tokens ↦ ⟨fun hlex ↦ ?_, ?_⟩, fun _ _ _ _ h h' ↦ h.unique h',
    fun tokens position c ↦ ⟨fun hlex ↦ ?_, ?_⟩⟩
  · rcases segments_or_firstAtFault source.toList with ⟨parts, last, hsegments⟩ |
      ⟨parts, position, c, hfault⟩
    · rw [lex_of_segments hsegments, Lexed.mk.injEq] at hlex
      exact ⟨parts, last, hsegments, hlex.1.symm⟩
    · rw [lex_of_firstAtFault hfault, Lexed.mk.injEq] at hlex
      cases hlex.2
  · rintro ⟨parts, last, hsegments, rfl⟩
    exact lex_of_segments hsegments
  · rcases segments_or_firstAtFault source.toList with ⟨parts, last, hsegments⟩ |
      ⟨parts, position', c', hfault⟩
    · rw [lex_of_segments hsegments, Lexed.mk.injEq] at hlex
      cases hlex.2
    · rw [lex_of_firstAtFault hfault, Lexed.mk.injEq] at hlex
      obtain ⟨rfl, hsame⟩ := hlex
      cases hsame
      refine ⟨parts, hfault.atFault, rfl, fun _ _ _ hother ↦ ?_⟩
      rcases hfault.eq_or_lt hother with ⟨-, heq, -⟩ | hlt
      · exact Nat.le_of_eq heq.symm
      · exact Nat.le_of_lt hlt
  · rintro ⟨parts, hfault, rfl, hleast⟩
    rcases segments_or_firstAtFault source.toList with ⟨_, _, hsegments⟩ | ⟨_, _, _, hfirst⟩
    · exact absurd hfault hsegments.not_atFault
    · rcases hfirst.eq_or_lt hfault with ⟨rfl, rfl, rfl⟩ | hlt
      · exact lex_of_firstAtFault hfirst
      · exact absurd (hleast _ _ _ hfirst.atFault) (Nat.not_le_of_lt hlt)

/-- A comment between two tokens, the first of which holds what begins a list and a comment; and a
text with two characters at fault. -/
theorem lex_exactly_segments_faults :
    Segments "a(; ;(\n)".toList [([], "a(;".toList), (" ;(\n".toList, [')'])] [] ∧
      lex "a(; ;(\n)" = ⟨["a(;", ")"], none⟩ ∧
      ∃ parts, AtFault "a b\x00\x01".toList parts 3 '\x00' ∧ ["a"] = texts parts ∧
        ∀ parts' position' c', AtFault "a b\x00\x01".toList parts' position' c' →
          3 ≤ position' := by
  have hword : IsWord "a(;".toList := by decide
  have hgap : IsGap " ;(\n".toList ")".toList :=
    .blank rfl (@IsGap.comment ['('] ['\n'] _ (by decide)
      (fun c hc ↦ (Option.some.inj hc).symm) (.blank rfl .nil))
  have hrun : IsLexeme "a(;".toList " ;(\n)".toList := by
    refine .run hword.isRun fun c hc ↦ Or.inl ?_
    rw [show " ;(\n)".toList.head? = some ' ' by decide] at hc
    cases hc
    rfl
  have hprintable : AllPrintable [([], "a(;".toList), (" ;(\n".toList, [')'])] := by
    intro part hpart c hc
    rcases List.mem_cons.1 hpart with rfl | hpart
    · exact (hword.chars c hc).1
    · rw [List.mem_singleton.1 hpart] at hc
      rw [List.mem_singleton.1 hc]
      rfl
  have hsegments : Segments "a(; ;(\n)".toList [([], "a(;".toList), (" ;(\n".toList, [')'])] [] :=
    ⟨.cons .nil hrun (.cons hgap .closing .nil), .nil, hprintable⟩
  exact ⟨hsegments, ((lex_exactly_segments _).1 _).2 ⟨_, _, hsegments, by decide⟩,
    ((lex_exactly_segments _).2.2 _ _ _).1 (by decide)⟩

end DottedLisp
