import DottedLisp.Proofs.Reading.Segmentation

/-!
# Tokens put together again

The tokens of a text, written one after the other with a single space between any two, are a text
again. It falls into the same tokens, whatever stood between them before: comments, line ends,
several blanks or nothing at all.

A token is a token wherever it stands alone (`IsLexeme.alone`), because a space ends every run and
parentheses end by themselves. What a token *holds* is no matter: a `(` or a `;` behind its first
character begins nothing there, and does not in the new text either.

Main statement: `lex_rejoined`.
-/

namespace DottedLisp

namespace Token

variable {token rest : List Char} {tokens : List (List Char)}

/-- The rest of a text, where a token has to end: nothing, or a space. -/
def AtSpace (rest : List Char) : Prop :=
  ∀ c ∈ rest.head?, c = ' '

/-- **A token is a token in front of a space**, and at the end of a text, wherever it was found. -/
theorem IsLexeme.alone (h : IsLexeme token rest) {rest' : List Char} (hrest' : AtSpace rest') :
    IsLexeme token rest' := by
  rcases h with - | - | ⟨hrun, -⟩
  · exact .opening
  · exact .closing
  · refine .run hrun fun c hc ↦ Or.inl ?_
    rw [hrest' c hc]
    rfl

/-- The tokens, each with a space in front of it. -/
def spaced (tokens : List (List Char)) : List Char :=
  tokens.flatMap (' ' :: ·)

theorem atSpace_spaced (tokens : List (List Char)) : AtSpace (spaced tokens) := by
  rcases tokens with - | ⟨token, tokens⟩
  · simp [AtSpace, spaced]
  · rintro c ⟨⟩
    rfl

/-- Joined tokens are the first of them and the others, each behind its space. -/
theorem intercalate_eq (token : List Char) (tokens : List (List Char)) :
    [' '].intercalate (token :: tokens) = token ++ spaced tokens := by
  induction tokens generalizing token with
  | nil => simp [spaced]
  | cons next tokens ih =>
    rw [List.intercalate_cons_cons, ih]
    simp [spaced]

/-- A text of tokens with spaces in front of them is cut at the spaces. -/
theorem cut_spaced (h : ∀ token ∈ tokens, ∃ rest, IsLexeme token rest) :
    Cut (spaced tokens) (tokens.map ([' '], ·)) [] := by
  induction tokens with
  | nil => exact .nil
  | cons token tokens ih =>
    obtain ⟨rest, htoken⟩ := h token (List.mem_cons_self ..)
    exact .cons (.blank rfl .nil) (htoken.alone (atSpace_spaced tokens))
      (ih fun t ht ↦ h t (List.mem_cons_of_mem _ ht))

/-- The parts into which tokens fall when they are put together. -/
def spacedParts : List (List Char) → List (List Char × List Char)
  | [] => []
  | token :: tokens => ([], token) :: tokens.map ([' '], ·)

/-- The parts, with a space for every gap, have the same tokens. -/
theorem texts_spacedParts (tokens : List (List Char)) :
    texts (spacedParts tokens) = tokens.map String.ofList := by
  rcases tokens with - | ⟨token, tokens⟩
  · rfl
  · simp [texts, spacedParts]

theorem mem_of_mem_spacedParts {part : List Char × List Char} (h : part ∈ spacedParts tokens) :
    part.2 ∈ tokens := by
  rcases tokens with - | ⟨token, tokens⟩
  · exact absurd h List.not_mem_nil
  · rcases List.mem_cons.1 h with rfl | h
    · exact List.mem_cons_self ..
    · obtain ⟨t, ht, rfl⟩ := List.mem_map.1 h
      exact List.mem_cons_of_mem _ ht

/-- **Printable tokens put together fall apart at the spaces** and nowhere else. -/
theorem segments_intercalate (h : ∀ token ∈ tokens, ∃ rest, IsLexeme token rest)
    (hprintable : ∀ token ∈ tokens, ∀ c ∈ token, Text.isPrintable c = true) :
    Segments ([' '].intercalate tokens) (spacedParts tokens) [] := by
  refine ⟨?_, .nil, fun part hpart ↦ hprintable _ (mem_of_mem_spacedParts hpart)⟩
  rcases tokens with - | ⟨token, tokens⟩
  · exact .nil
  · obtain ⟨rest, htoken⟩ := h token (List.mem_cons_self ..)
    rw [intercalate_eq]
    exact .cons .nil (htoken.alone (atSpace_spaced tokens))
      (cut_spaced fun t ht ↦ h t (List.mem_cons_of_mem _ ht))

/-- What a text is cut into are tokens. -/
theorem Cut.isLexeme {text : List Char} {parts : List (List Char × List Char)}
    (h : Cut text parts rest) : ∀ part ∈ parts, ∃ behind, IsLexeme part.2 behind := by
  induction h with
  | nil => simp
  | cons _ htoken _ ih =>
    intro part hpart
    rcases List.mem_cons.1 hpart with rfl | hpart
    · exact ⟨_, htoken⟩
    · exact ih part hpart

end Token

open Token

variable {source : String}

/-- The tokens of a text that is scanned to its end. -/
theorem exists_segments (h : (lex source).fault = none) :
    ∃ parts last, Segments source.toList parts last ∧ (lex source).tokens = texts parts := by
  rcases segments_or_firstAtFault source.toList with ⟨parts, last, hsegments⟩ |
    ⟨parts, position, c, hfault⟩
  · exact ⟨parts, last, hsegments, by rw [lex_of_segments hsegments]⟩
  · rw [lex_of_firstAtFault hfault] at h
    exact absurd h (Option.some_ne_none _)

/-- **Scanning the tokens again gives the tokens.** Let a text be scanned to its end. Its tokens,
joined by single spaces, are scanned to the same tokens. So both texts are read as the same forms,
up to the end or up to the same fault. -/
theorem lex_rejoined (h : (lex source).fault = none) :
    lex (" ".intercalate (lex source).tokens) = lex source ∧
      (TokenStream.ofText (" ".intercalate (lex source).tokens)).readAll =
        (TokenStream.ofText source).readAll := by
  obtain ⟨parts, last, hsegments, htokens⟩ := exists_segments h
  have hlexemes : ∀ token ∈ parts.map Prod.snd, ∃ rest, IsLexeme token rest := by
    intro token htoken
    obtain ⟨part, hpart, rfl⟩ := List.mem_map.1 htoken
    exact hsegments.cut.isLexeme part hpart
  have hprintable : ∀ token ∈ parts.map Prod.snd, ∀ c ∈ token, Text.isPrintable c = true := by
    intro token htoken
    obtain ⟨part, hpart, rfl⟩ := List.mem_map.1 htoken
    exact hsegments.printable part hpart
  have htext : (" ".intercalate (lex source).tokens).toList =
      [' '].intercalate (parts.map Prod.snd) := by
    rw [String.toList_intercalate, htokens, texts, List.map_map]
    simp [Function.comp_def]
  -- The joined tokens are cut again, now with spaces for gaps, and a text is cut in one way only.
  have hagain : lex (" ".intercalate (lex source).tokens) = lex source := by
    have hrejoined := segments_intercalate hlexemes hprintable
    rw [← htext] at hrejoined
    rw [lex_of_segments hrejoined, lex_of_segments hsegments, texts_spacedParts, texts,
      List.map_map]
    rfl
  refine ⟨hagain, ?_⟩
  rw [TokenStream.ofText, hagain, TokenStream.ofText]

/-- Words that hold `(` and `;`, parentheses without a blank between them, a comment, and a list
that is not closed. -/
theorem lex_rejoined_unclosed :
    (lex "(a(;b)(;c)\n\t((x").fault = none ∧
      lex "( a(;b ) ( ( ( x" = ⟨["(", "a(;b", ")", "(", "(", "(", "x"], none⟩ ∧
      (TokenStream.ofText "( a(;b ) ( ( ( x").readAll =
        (TokenStream.ofText "(a(;b)(;c)\n\t((x").readAll ∧
      (TokenStream.ofText "( a(;b ) ( ( ( x").readAll.2.1 = some .unmatchedOpen := by
  have hlex : lex "(a(;b)(;c)\n\t((x" = ⟨["(", "a(;b", ")", "(", "(", "(", "x"], none⟩ := by decide
  have hfault : (lex "(a(;b)(;c)\n\t((x").fault = none := by rw [hlex]
  obtain ⟨hagain, hread⟩ := lex_rejoined hfault
  rw [hlex] at hagain hread
  exact ⟨hfault, hagain, hread, by decide +kernel⟩

end DottedLisp
