import DottedLisp.Reader

/-!
# The grammar of forms

A form is an atom, or any number of forms between parentheses. `Form.Derives` is that grammar, as a
relation between tokens and the form that they stand for; it knows nothing of how reading is done.

Reading keeps a stack of open lists. What the stack stands for is a **partial derivation**, `Opens`:
the tokens read so far are the beginnings of the open lists, one inside the other, and each of these
beginnings derives the items that the stack holds for it. A token turns one partial derivation into
another, and the parenthesis that closes the outermost list turns it into a derivation.

Main statement: reading accepts exactly what the grammar derives, takes exactly the tokens of the
derivation, and fails for one of three reasons that can be seen from the tokens alone
(`TokenStream.reads_exactly_grammar`).
-/

namespace DottedLisp

namespace Form

/-- The tokens stand for the form. -/
inductive Derives : List String → Form → Prop
  /-- A token that is no parenthesis. -/
  | atom {token : String} (hopen : token ≠ "(") (hclose : token ≠ ")") :
    Derives [token] (ofToken token)
  /-- Forms in a row between parentheses; each part is the tokens of an item and the item. -/
  | list {parts : List (List String × Form)} (hparts : ∀ part ∈ parts, Derives part.1 part.2) :
    Derives ("(" :: (parts.map Prod.fst).flatten ++ [")"]) (.list (parts.map Prod.snd))

/-- The tokens stand for several forms in a row. -/
def DerivesAll (tokens : List String) (forms : List Form) : Prop :=
  ∃ parts : List (List String × Form), (∀ part ∈ parts, Derives part.1 part.2) ∧
    tokens = (parts.map Prod.fst).flatten ∧ forms = parts.map Prod.snd

theorem derivesAll_nil : DerivesAll [] [] :=
  ⟨[], by simp, rfl, rfl⟩

/-- A form in front of derived forms. -/
theorem DerivesAll.cons {tokens more : List String} {forms : List Form} {form : Form}
    (hform : Derives tokens form) (h : DerivesAll more forms) :
    DerivesAll (tokens ++ more) (form :: forms) := by
  obtain ⟨parts, hparts, rfl, rfl⟩ := h
  refine ⟨(tokens, form) :: parts, fun part hpart ↦ ?_, by simp, by simp⟩
  rcases List.mem_cons.1 hpart with rfl | hpart
  · exact hform
  · exact hparts part hpart

/-- A form behind derived forms, which is where a form is put while a list is being read. -/
theorem DerivesAll.concat {tokens more : List String} {forms : List Form} {form : Form}
    (h : DerivesAll tokens forms) (hform : Derives more form) :
    DerivesAll (tokens ++ more) (forms ++ [form]) := by
  obtain ⟨parts, hparts, rfl, rfl⟩ := h
  refine ⟨parts ++ [(more, form)], fun part hpart ↦ ?_, by simp, by simp⟩
  rcases List.mem_append.1 hpart with hold | hnew
  · exact hparts part hold
  · rw [List.mem_singleton.1 hnew]
    exact hform

theorem DerivesAll.list {tokens : List String} {items : List Form} (h : DerivesAll tokens items) :
    Derives ("(" :: tokens ++ [")"]) (.list items) := by
  obtain ⟨parts, hparts, rfl, rfl⟩ := h
  exact .list hparts

/-! ### Parentheses -/

/-- Tokens that open and close equally many lists; no tokens at all do not count. -/
def Balanced (tokens : List String) : Prop :=
  tokens ≠ [] ∧ tokens.count "(" = tokens.count ")"

/-- Parts that are balanced each are balanced in a row. -/
theorem count_of_parts {parts : List (List String × Form)}
    (h : ∀ part ∈ parts, part.1.count "(" = part.1.count ")") :
    (parts.map Prod.fst).flatten.count "(" = (parts.map Prod.fst).flatten.count ")" := by
  induction parts with
  | nil => rfl
  | cons part parts ih =>
    rw [List.map_cons, List.flatten_cons, List.count_append, List.count_append,
      h part (List.mem_cons_self ..), ih fun other hother ↦ h other (List.mem_cons_of_mem _ hother)]

/-- What stands for a form is balanced. -/
theorem Derives.balanced {tokens : List String} {form : Form} (h : Derives tokens form) :
    Balanced tokens := by
  induction h with
  | atom hopen hclose =>
    refine ⟨by simp, ?_⟩
    rw [List.count_singleton, List.count_singleton, if_neg (by simpa using hopen),
      if_neg (by simpa using hclose)]
  | list _ ih =>
    refine ⟨by simp, ?_⟩
    simp [count_of_parts fun part hpart ↦ (ih part hpart).2]

end Form

namespace TokenStream

open Form

variable {outer : List (List Form)} {items : List Form} {ts rest : List String} {form : Form}

/-! ### One token -/

theorem readList_open :
    readList outer items ("(" :: ts) = readList (items :: outer) [] ts := rfl

theorem readList_close_outermost :
    readList [] items (")" :: ts) = some (.list items.reverse, ts) := rfl

theorem readList_close {around : List Form} :
    readList (around :: outer) items (")" :: ts) =
      readList outer (.list items.reverse :: around) ts := rfl

theorem readList_atom {token : String} (hopen : token ≠ "(") (hclose : token ≠ ")") :
    readList outer items (token :: ts) = readList outer (ofToken token :: items) ts := by
  rw [readList, if_neg hopen, if_neg hclose]

/-! ### What is derived is read -/

/-- Forms in a row become items of the innermost open list, if each of them does. -/
theorem readList_parts {parts : List (List String × Form)}
    (h : ∀ part ∈ parts, ∀ outer items rest,
      readList outer items (part.1 ++ rest) = readList outer (part.2 :: items) rest) :
    readList outer items ((parts.map Prod.fst).flatten ++ rest) =
      readList outer ((parts.map Prod.snd).reverse ++ items) rest := by
  induction parts generalizing items with
  | nil => rfl
  | cons part parts ih =>
    rw [List.map_cons, List.flatten_cons, List.append_assoc, h part (List.mem_cons_self ..),
      ih fun other hother ↦ h other (List.mem_cons_of_mem _ hother)]
    simp

/-- **Tokens that stand for a form make it an item** of the innermost open list. -/
theorem readList_derives {tokens : List String} (h : Derives tokens form) :
    ∀ outer items rest,
      readList outer items (tokens ++ rest) = readList outer (form :: items) rest := by
  induction h with
  | atom hopen hclose => exact fun outer items rest ↦ readList_atom hopen hclose
  | list _ ih =>
    intro outer items rest
    rw [List.append_assoc, List.cons_append, readList_open, readList_parts ih, List.append_nil,
      List.singleton_append, readList_close, List.reverse_reverse]

/-! ### What is read is derived -/

/-- The tokens that were read open the lists of a stack: `items` are those of the innermost one,
`outer` those of the lists around it, and all of them come last one first. -/
inductive Opens : List String → List (List Form) → List Form → Prop
  | outermost {tokens : List String} {items : List Form} (h : DerivesAll tokens items.reverse) :
    Opens ("(" :: tokens) [] items
  | inside {before tokens : List String} {outer : List (List Form)} {around items : List Form}
    (hbefore : Opens before outer around) (h : DerivesAll tokens items.reverse) :
    Opens (before ++ "(" :: tokens) (around :: outer) items

/-- Another item of the innermost open list. -/
theorem Opens.push {tokens more : List String} (h : Opens tokens outer items)
    (hform : Derives more form) : Opens (tokens ++ more) outer (form :: items) := by
  cases h with
  | outermost h =>
    refine .outermost ?_
    rw [List.reverse_cons]
    exact h.concat hform
  | inside hbefore h =>
    rw [List.append_assoc, List.cons_append]
    refine .inside hbefore ?_
    rw [List.reverse_cons]
    exact h.concat hform

/-- The innermost open list is closed and becomes an item of the one around it. -/
theorem Opens.close {tokens : List String} {around : List Form}
    (h : Opens tokens (around :: outer) items) :
    Opens (tokens ++ [")"]) outer (.list items.reverse :: around) := by
  cases h with
  | inside hbefore h =>
    rw [List.append_assoc]
    exact hbefore.push h.list

/-- **A list that is read completes the partial derivation** that its stack stands for, with the
tokens that were taken for it. By induction on the tokens: each of them is one step from a partial
derivation to another. -/
theorem derives_of_readList {before : List String} (hopens : Opens before outer items)
    (h : readList outer items ts = some (form, rest)) :
    ∃ taken, ts = taken ++ rest ∧ Derives (before ++ taken) form := by
  induction ts generalizing before outer items with
  | nil => cases h
  | cons token ts ih =>
    -- Whatever the token is, it goes over to the tokens that were read; the cases differ in what is
    -- open.
    have hnext : ∀ {outer' items'}, Opens (before ++ [token]) outer' items' →
        readList outer' items' ts = some (form, rest) →
        ∃ taken, token :: ts = taken ++ rest ∧ Derives (before ++ taken) form := by
      intro outer' items' hopens' h'
      obtain ⟨taken, rfl, hderives⟩ := ih hopens' h'
      refine ⟨token :: taken, rfl, ?_⟩
      rwa [List.append_assoc] at hderives
    by_cases hopen : token = "("
    · subst hopen
      have hinner : Opens (before ++ ["("]) (items :: outer) [] := .inside hopens derivesAll_nil
      exact hnext hinner h
    · by_cases hclose : token = ")"
      · subst hclose
        cases outer with
        | nil =>
          rw [readList_close_outermost] at h
          cases h
          cases hopens with
          | outermost hitems => exact ⟨[")"], rfl, hitems.list⟩
        | cons around outer =>
          rw [readList_close] at h
          exact hnext hopens.close h
      · rw [readList_atom hopen hclose] at h
        exact hnext (hopens.push (.atom hopen hclose)) h

/-- If the tokens end before the outermost list does, **no beginning of them closes all** the lists
that are open. -/
theorem count_lt_of_readList (h : readList outer items ts = none) {taken : List String}
    (htaken : taken <+: ts) :
    taken.count ")" < taken.count "(" + (outer.length + 1) := by
  induction ts generalizing outer items taken with
  | nil =>
    rw [List.prefix_nil.1 htaken]
    simp
  | cons token ts ih =>
    rcases List.prefix_cons_iff.1 htaken with rfl | ⟨taken, rfl, hrest⟩
    · simp
    · by_cases hopen : token = "("
      · subst hopen
        rw [readList_open] at h
        have hcount := ih h hrest
        simp only [List.length_cons] at hcount
        simp
        omega
      · by_cases hclose : token = ")"
        · subst hclose
          cases outer with
          | nil =>
            rw [readList_close_outermost] at h
            cases h
          | cons around outer =>
            rw [readList_close] at h
            have hcount := ih h hrest
            simp
            omega
        · rw [readList_atom hopen hclose] at h
          have hcount := ih h hrest
          simp [hopen, hclose]
          omega

/-! ### The first form of given tokens -/

/-- A form begins with its first token. What stands behind the last token matters only if a list is
not closed. -/
theorem readForm_cons (token : String) (ts : List String) (behind : Option Fault) :
    readForm ⟨none, token :: ts, behind⟩ =
      if token = ")" then .error .unexpectedClose ⟨none, ts, behind⟩
      else if token = "(" then
        match readList [] [] ts with
        | some (form, rest) => .ok (some form) ⟨none, rest, behind⟩
        | none => .error (behind.getD .unmatchedOpen) exhausted
      else .ok (some (ofToken token)) ⟨none, ts, behind⟩ := by
  by_cases hclose : token = ")"
  · subst hclose
    rfl
  · rw [if_neg hclose]
    refine (congrFun (if_neg hclose) _).trans ?_
    by_cases hopen : token = "("
    · rw [if_pos hopen]
      refine (congrFun (if_pos hopen) _).trans ?_
      dsimp only
      rcases readList [] [] ts with - | ⟨form, rest⟩
      · rcases behind with - | fault
        · rfl
        · rfl
      · rfl
    · rw [if_neg hopen]
      exact congrFun (if_neg hopen) _

variable {behind : Option Fault}

theorem readForm_atom {token : String} (hopen : token ≠ "(") (hclose : token ≠ ")") :
    readForm ⟨none, token :: ts, behind⟩ = .ok (some (ofToken token)) ⟨none, ts, behind⟩ := by
  rw [readForm_cons, if_neg hclose, if_neg hopen]

theorem readForm_open (h : readList [] [] ts = some (form, rest)) :
    readForm ⟨none, "(" :: ts, behind⟩ = .ok (some form) ⟨none, rest, behind⟩ := by
  rw [readForm_cons, if_neg (by decide), if_pos rfl, h]

/-- If the list does not end, all tokens are used up: what stands behind the last token is met, and
if nothing does the parenthesis has no partner. -/
theorem readForm_unmatched (h : readList [] [] ts = none) :
    readForm ⟨none, "(" :: ts, behind⟩ = .error (behind.getD .unmatchedOpen) exhausted := by
  rw [readForm_cons, if_neg (by decide), if_pos rfl, h]

/-- Tokens that stand for a form are taken, and those behind them are left. -/
theorem readForm_of_derives {taken : List String} (h : Derives taken form) :
    readForm ⟨none, taken ++ rest, behind⟩ = .ok (some form) ⟨none, rest, behind⟩ := by
  cases h with
  | atom hopen hclose => exact readForm_atom hopen hclose
  | list hparts =>
    rw [List.append_assoc, List.cons_append]
    refine readForm_open ?_
    rw [readList_parts fun part hpart ↦ readList_derives (hparts part hpart), List.append_nil,
      List.singleton_append, readList_close_outermost, List.reverse_reverse]

/-- **What reading a form comes to**: there is no token, a parenthesis closes nothing, one is not
closed, or a beginning of the tokens stands for a form. -/
theorem readForm_cases (ts : List String) :
    ts = [] ∨
      (∃ rest, ts = ")" :: rest ∧
        readForm (ofTokens ts) = .error .unexpectedClose (ofTokens rest)) ∨
      (∃ rest, ts = "(" :: rest ∧ readList [] [] rest = none ∧
        readForm (ofTokens ts) = .error .unmatchedOpen exhausted) ∨
      ∃ taken rest form, ts = taken ++ rest ∧ Derives taken form ∧
        readForm (ofTokens ts) = .ok (some form) (ofTokens rest) := by
  rcases ts with - | ⟨token, ts⟩
  · exact Or.inl rfl
  -- The first token decides: a list, a close that nothing opens, or an atom.
  · refine Or.inr ?_
    by_cases hopen : token = "("
    · subst hopen
      rcases h : readList [] [] ts with - | ⟨form, rest⟩
      · exact Or.inr (Or.inl ⟨ts, rfl, h, readForm_unmatched h⟩)
      · obtain ⟨taken, htaken, hderives⟩ := derives_of_readList (.outermost derivesAll_nil) h
        exact Or.inr (Or.inr ⟨"(" :: taken, rest, form, by rw [htaken]; rfl, hderives,
          readForm_open h⟩)
    · by_cases hclose : token = ")"
      · subst hclose
        exact Or.inl ⟨ts, rfl, rfl⟩
      · exact Or.inr (Or.inr ⟨[token], ts, _, rfl, .atom hopen hclose,
          readForm_atom hopen hclose⟩)

theorem first_of_ok (h : readForm (ofTokens ts) = .ok (some form) (ofTokens rest)) :
    (ofTokens ts).first = .ok (form, rest) := by
  have hfirst : readFirst (ofTokens ts) = .ok (form, rest) exhausted := by
    show EStateM.bind readForm _ _ = _
    unfold EStateM.bind
    rw [h]
    rfl
  rw [first, hfirst]

theorem first_of_error {fault : Fault} {s : TokenStream}
    (h : readForm (ofTokens ts) = .error fault s) : (ofTokens ts).first = .error fault := by
  have hfirst : readFirst (ofTokens ts) = .error fault s := by
    show EStateM.bind readForm _ _ = _
    unfold EStateM.bind
    rw [h]
  rw [first, hfirst]

/-- The first form is what a beginning of the tokens stands for. -/
theorem first_eq_ok_iff :
    (ofTokens ts).first = .ok (form, rest) ↔ ∃ taken, ts = taken ++ rest ∧ Derives taken form := by
  constructor
  · intro h
    rcases readForm_cases ts with rfl | ⟨rest', rfl, hread⟩ | ⟨rest', rfl, -, hread⟩ |
      ⟨taken, rest', form', rfl, hderives, hread⟩
    · cases h
    · rw [first_of_error hread] at h
      cases h
    · rw [first_of_error hread] at h
      cases h
    · rw [first_of_ok hread] at h
      cases h
      exact ⟨taken, rfl, hderives⟩
  · rintro ⟨taken, rfl, hderives⟩
    exact first_of_ok (readForm_of_derives hderives)

/-- Only one beginning of the tokens stands for a form, and for one form only. -/
theorem eq_of_derives {taken taken' rest' : List String} {form' : Form}
    (h : taken ++ rest = taken' ++ rest') (hderives : Derives taken form)
    (hderives' : Derives taken' form') : taken = taken' ∧ rest = rest' ∧ form = form' := by
  have hfirst : (ofTokens (taken ++ rest)).first = .ok (form, rest) :=
    first_eq_ok_iff.2 ⟨taken, rfl, hderives⟩
  have hfirst' : (ofTokens (taken ++ rest)).first = .ok (form', rest') :=
    first_eq_ok_iff.2 ⟨taken', h, hderives'⟩
  rw [hfirst] at hfirst'
  cases hfirst'
  exact ⟨List.append_cancel_right h, rfl, rfl⟩

/-! ### Tokens without a first form -/

/-- Where a list is not closed, no beginning is balanced. -/
theorem not_balanced_of_readList (h : readList [] [] ts = none) {tokens : List String}
    (htokens : tokens <+: "(" :: ts) : ¬ Balanced tokens := by
  rintro ⟨hne, hcount⟩
  rcases List.prefix_cons_iff.1 htokens with rfl | ⟨taken, rfl, htaken⟩
  · exact hne rfl
  · have hlt := count_lt_of_readList h htaken
    simp only [List.length_nil, List.count_cons] at hlt hcount
    simp at hcount
    omega

/-- **Why there is no first form.** -/
theorem first_eq_error_iff {fault : Fault} :
    (ofTokens ts).first = .error fault ↔
      ts = [] ∧ fault = .emptyInput ∨
      ts.head? = some ")" ∧ fault = .unexpectedClose ∨
      (ts.head? = some "(" ∧ ∀ tokens, tokens <+: ts → ¬ Balanced tokens) ∧
        fault = .unmatchedOpen := by
  rcases readForm_cases ts with rfl | ⟨rest, rfl, hread⟩ | ⟨rest, rfl, hlist, hread⟩ |
    ⟨taken, rest, form, rfl, hderives, hread⟩
  · have hfirst : (ofTokens []).first = .error .emptyInput := rfl
    rw [hfirst]
    simp [eq_comm]
  · rw [first_of_error hread]
    simp [eq_comm]
  · have hbalanced : ∀ tokens, tokens <+: "(" :: rest → ¬ Balanced tokens :=
      fun tokens htokens ↦ not_balanced_of_readList hlist htokens
    rw [first_of_error hread]
    simpa [eq_comm] using fun _ ↦ hbalanced
  · rw [first_of_ok hread]
    -- the tokens of the form are a balanced beginning, and begin with no closing parenthesis
    have hne : taken ++ rest ≠ [] := by simp [hderives.balanced.1]
    have hhead : (taken ++ rest).head? ≠ some ")" := by
      cases hderives with
      | atom _ hclose => simpa using hclose
      | list => simp
    have hbalanced : ¬ ∀ tokens, tokens <+: taken ++ rest → ¬ Balanced tokens :=
      fun h ↦ h taken (List.prefix_append ..) hderives.balanced
    constructor
    · intro h
      cases h
    · rintro (⟨h, -⟩ | ⟨h, -⟩ | ⟨⟨-, h⟩, -⟩)
      · exact absurd h hne
      · exact absurd h hhead
      · exact absurd h hbalanced

/-- The tokens are refused as an invalid expression, with the given text as what is wrong. -/
def Rejects (ts : List String) (text : String) : Prop :=
  ∃ fault : Fault, (ofTokens ts).first = .error fault ∧ fault.code = "INVALID_EXPRESSION" ∧
    fault.data = [("exp", .text text)]

/-- The three rejections by the text of the error that they come with. -/
theorem rejects_iff {text : String} :
    Rejects ts text ↔
      ts = [] ∧ text = "" ∨
      ts.head? = some ")" ∧ text = ")" ∨
      (ts.head? = some "(" ∧ ∀ tokens, tokens <+: ts → ¬ Balanced tokens) ∧ text = "(" := by
  constructor
  · rintro ⟨fault, hfirst, -, hdata⟩
    rcases first_eq_error_iff.1 hfirst with ⟨h, rfl⟩ | ⟨h, rfl⟩ | ⟨h, rfl⟩
    · cases hdata
      exact Or.inl ⟨h, rfl⟩
    · cases hdata
      exact Or.inr (Or.inl ⟨h, rfl⟩)
    · cases hdata
      exact Or.inr (Or.inr ⟨h, rfl⟩)
  · rintro (⟨h, rfl⟩ | ⟨h, rfl⟩ | ⟨h, rfl⟩)
    · exact ⟨_, first_eq_error_iff.2 (Or.inl ⟨h, rfl⟩), rfl, rfl⟩
    · exact ⟨_, first_eq_error_iff.2 (Or.inr (Or.inl ⟨h, rfl⟩)), rfl, rfl⟩
    · exact ⟨_, first_eq_error_iff.2 (Or.inr (Or.inr ⟨h, rfl⟩)), rfl, rfl⟩

/-! ### All forms of given tokens -/

/-- Taking the first form off what is left, again and again, gives these forms, and ends because
nothing is left or in this fault. -/
inductive Repeats : List String → List Form → Option Fault → Prop
  | done : Repeats [] [] none
  | fails {ts : List String} {fault : Fault} (hne : ts ≠ [])
    (h : (ofTokens ts).first = .error fault) : Repeats ts [] (some fault)
  | more {ts rest : List String} {form : Form} {forms : List Form} {fault : Option Fault}
    (h : (ofTokens ts).first = .ok (form, rest)) (hrest : Repeats rest forms fault) :
    Repeats ts (form :: forms) fault

theorem readForm_of_first (h : (ofTokens ts).first = .ok (form, rest)) :
    readForm (ofTokens ts) = .ok (some form) (ofTokens rest) := by
  obtain ⟨taken, rfl, hderives⟩ := first_eq_ok_iff.1 h
  exact readForm_of_derives hderives

/-- Conversely, where there are tokens but no first form, reading one form fails with the same
fault. -/
theorem readForm_of_first_error {fault : Fault} (hne : ts ≠ [])
    (h : (ofTokens ts).first = .error fault) : ∃ s, readForm (ofTokens ts) = .error fault s := by
  rcases readForm_cases ts with rfl | ⟨rest, rfl, hread⟩ | ⟨rest, rfl, -, hread⟩ |
    ⟨taken, rest, form, rfl, -, hread⟩
  · exact absurd rfl hne
  · rw [first_of_error hread] at h
    cases h
    exact ⟨_, hread⟩
  · rw [first_of_error hread] at h
    cases h
    exact ⟨_, hread⟩
  · rw [first_of_ok hread] at h
    cases h

/-- A form takes at least one token. -/
theorem length_lt_of_first (h : (ofTokens ts).first = .ok (form, rest)) :
    rest.length < ts.length := by
  obtain ⟨taken, rfl, hderives⟩ := first_eq_ok_iff.1 h
  have hpos : 0 < taken.length := List.length_pos_iff.2 hderives.balanced.1
  rw [List.length_append]
  omega

/-- Every sequence of tokens comes to an end. -/
theorem exists_repeats (ts : List String) : ∃ forms fault, Repeats ts forms fault := by
  by_cases hne : ts = []
  · exact ⟨[], none, hne ▸ .done⟩
  · rcases hfirst : (ofTokens ts).first with fault | ⟨form, rest⟩
    · exact ⟨[], some fault, .fails hne hfirst⟩
    · have hshorter := length_lt_of_first hfirst
      obtain ⟨forms, fault, hrest⟩ := exists_repeats rest
      exact ⟨form :: forms, fault, .more hfirst hrest⟩
termination_by ts.length

/-- Reading with a bound that exceeds the number of tokens reads all forms. -/
theorem readUpTo_of_repeats {forms : List Form} {fault : Option Fault}
    (h : Repeats ts forms fault) {bound : Nat} (hbound : ts.length < bound) :
    ∃ s, readUpTo bound (ofTokens ts) = (forms, fault, s) := by
  induction h generalizing bound with
  | done =>
    obtain ⟨bound, rfl⟩ := Nat.exists_eq_succ_of_ne_zero (Nat.ne_zero_of_lt hbound)
    exact ⟨_, rfl⟩
  | fails hne hfirst =>
    obtain ⟨bound, rfl⟩ := Nat.exists_eq_succ_of_ne_zero (Nat.ne_zero_of_lt hbound)
    obtain ⟨s, hread⟩ := readForm_of_first_error hne hfirst
    exact ⟨s, by rw [readUpTo, hread]⟩
  | more hfirst hrest ih =>
    obtain ⟨bound, rfl⟩ := Nat.exists_eq_succ_of_ne_zero (Nat.ne_zero_of_lt hbound)
    have hshorter := length_lt_of_first hfirst
    obtain ⟨s, hread⟩ := ih (show _ < bound by omega)
    exact ⟨s, by simp only [readUpTo, readForm_of_first hfirst, hread]⟩

/-- **Reading all forms** is reading the first form again and again. -/
theorem readAll_of_repeats {forms : List Form} {fault : Option Fault}
    (h : Repeats ts forms fault) : ∃ s, (ofTokens ts).readAll = (forms, fault, s) := by
  refine readUpTo_of_repeats h (Nat.lt_succ_of_le ?_)
  simp [size, ofTokens]

/-- All forms are those that come from repeating. -/
theorem readAll_iff_repeats {forms : List Form} {fault : Option Fault} :
    (ofTokens ts).readAll.1 = forms ∧ (ofTokens ts).readAll.2.1 = fault ↔
      Repeats ts forms fault := by
  constructor
  · rintro ⟨rfl, rfl⟩
    obtain ⟨forms, fault, h⟩ := exists_repeats ts
    obtain ⟨s, hread⟩ := readAll_of_repeats h
    rwa [hread]
  · intro h
    obtain ⟨s, hread⟩ := readAll_of_repeats h
    rw [hread]
    exact ⟨rfl, rfl⟩

/-! ### Reading is the grammar -/

/-- **Reading accepts exactly the grammar.** The first form of tokens is what a beginning of them
stands for, and the tokens behind it are given back; only one beginning stands for a form. Tokens
without such a beginning are refused, for one of three reasons: there is none, the first of them
closes a list, or it opens one and no beginning is balanced. All forms of tokens are found by taking
the first one off what is left, until nothing is left or that fails. -/
theorem reads_exactly_grammar (ts : List String) :
    (∀ form rest, (ofTokens ts).first = .ok (form, rest) ↔
      ∃ taken, ts = taken ++ rest ∧ Derives taken form) ∧
    (∀ taken rest form taken' rest' form', ts = taken ++ rest ∧ Derives taken form →
      ts = taken' ++ rest' ∧ Derives taken' form' →
        taken = taken' ∧ rest = rest' ∧ form = form') ∧
    ((∃ form rest, (ofTokens ts).first = .ok (form, rest)) ∨
      Rejects ts "" ∨ Rejects ts ")" ∨ Rejects ts "(") ∧
    (Rejects ts "" ↔ ts = []) ∧
    (Rejects ts ")" ↔ ts.head? = some ")") ∧
    (Rejects ts "(" ↔
      ts.head? = some "(" ∧ ∀ tokens, tokens <+: ts → ¬ Balanced tokens) ∧
    ∀ forms fault, (ofTokens ts).readAll.1 = forms ∧ (ofTokens ts).readAll.2.1 = fault ↔
      Repeats ts forms fault := by
  refine ⟨fun _ _ ↦ first_eq_ok_iff, ?_, ?_, by simp [rejects_iff], by simp [rejects_iff],
    by simp [rejects_iff], fun _ _ ↦ readAll_iff_repeats⟩
  · rintro taken rest form taken' rest' form' ⟨rfl, hderives⟩ ⟨h, hderives'⟩
    exact eq_of_derives h hderives hderives'
  · rcases hfirst : (ofTokens ts).first with fault | ⟨form, rest⟩
    · rcases first_eq_error_iff.1 hfirst with h | h | h
      · exact Or.inr (Or.inl (rejects_iff.2 (Or.inl ⟨h.1, rfl⟩)))
      · exact Or.inr (Or.inr (Or.inl (rejects_iff.2 (Or.inr (Or.inl ⟨h.1, rfl⟩)))))
      · exact Or.inr (Or.inr (Or.inr (rejects_iff.2 (Or.inr (Or.inr ⟨h.1, rfl⟩)))))
    · exact Or.inl ⟨form, rest, rfl⟩

end TokenStream

end DottedLisp
