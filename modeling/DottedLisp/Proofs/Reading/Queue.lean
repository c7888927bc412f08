import DottedLisp.Proofs.Reading.Grammar

/-!
# A stream is a queue

A stream keeps a token that was looked at apart from the tokens behind it, and a fault apart from
both. What a user of the stream can see is simpler: a **queue** of unread tokens, with the end or a
fault behind the last of them. `Queue.Serves` says what a queue answers when it is asked, in terms
of its tokens and of the grammar only; nothing in it knows of a lookahead or of how forms are read.

Main statement: the answers of a stream to any number of asks are those of its queue, and no others
(`TokenStream.refines_queue`). So looking at a token changes no later answer, the tokens that are
taken are those in front, in their order, and a fault behind the last token is met once, by the
first ask that needs one more token than there are.
-/

namespace DottedLisp

open Form

/-- What is unread: tokens, and what stands behind the last of them, if not the end. -/
structure Queue where
  /-- The tokens, in order. -/
  tokens : List String
  /-- The fault behind them. -/
  behind : Option Fault
  deriving DecidableEq

/-- A queue without tokens, at its end. -/
def Queue.ended : Queue := ⟨[], none⟩

namespace TokenStream

/-- What is unread of a stream. -/
def unread (s : TokenStream) : Queue :=
  ⟨s.lookahead.toList ++ s.tokens, s.fault⟩

/-- What a stream can be asked for. Reading all forms one at a time is asking for `peek` and `form`
in turn. -/
inductive Ask where
  /-- The next token, which stays. -/
  | peek
  /-- The next token. -/
  | advance
  /-- All tokens. -/
  | rest
  /-- One form. -/
  | form
  /-- All forms. -/
  | forms
  deriving Repr, DecidableEq

/-- What a stream can answer. -/
inductive Reply where
  /-- A token, or none at the end. -/
  | token (token : Option String)
  /-- Tokens. -/
  | tokens (tokens : List String)
  /-- A form, or none at the end. -/
  | form (form : Option Form)
  /-- Forms, and the fault that was met behind them. -/
  | forms (forms : List Form) (fault : Option Fault)
  /-- A fault. -/
  | fault (fault : Fault)
  deriving DecidableEq

/-- The fault that a reply tells of. -/
def Reply.fault? : Reply → Option Fault
  | .fault f => some f
  | .forms _ f => f
  | _ => none

/-- The reply that an action comes to, and the stream that it leaves. -/
def reply {α : Type} (make : α → Reply) :
    EStateM.Result Fault TokenStream α → Reply × TokenStream
  | .ok answer s => (make answer, s)
  | .error fault s => (.fault fault, s)

/-- Ask a stream. -/
def perform (s : TokenStream) : Ask → Reply × TokenStream
  | .peek => reply .token (peek s)
  | .advance => reply .token (advance s)
  | .rest => reply .tokens (rest s)
  | .form => reply .form (readForm s)
  | .forms => (.forms s.readAll.1 s.readAll.2.1, s.readAll.2.2)

/-- Ask a stream for one thing after the other. -/
def run (s : TokenStream) : List Ask → List Reply × TokenStream
  | [] => ([], s)
  | ask :: asks =>
    ((s.perform ask).1 :: ((s.perform ask).2.run asks).1, ((s.perform ask).2.run asks).2)

end TokenStream

/-! ### What a queue answers -/

namespace Queue

open TokenStream (Ask Reply)

/-- No beginning of the tokens is a form, but with more tokens behind them one might be. -/
def Unfinished (tokens : List String) : Prop :=
  tokens.head? ≠ some ")" ∧ ∀ taken, taken <+: tokens → ¬ Balanced taken

/-- `q.Reads reply q'`: asked for a form, `q` gives the reply and becomes `q'`. -/
inductive Reads : Queue → Reply → Queue → Prop
  | form {taken left : List String} {form : Form} {behind : Option Fault} (h : Derives taken form) :
    Reads ⟨taken ++ left, behind⟩ (.form (some form)) ⟨left, behind⟩
  | done : Reads ended (.form none) ended
  | closes {left : List String} {behind : Option Fault} :
    Reads ⟨")" :: left, behind⟩ (.fault .unexpectedClose) ⟨left, behind⟩
  | unclosed {tokens : List String} (hopen : tokens.head? = some "(") (h : Unfinished tokens) :
    Reads ⟨tokens, none⟩ (.fault .unmatchedOpen) ended
  | starves {tokens : List String} {fault : Fault} (h : Unfinished tokens) :
    Reads ⟨tokens, some fault⟩ (.fault fault) ended

/-- `q.ReadsAll forms fault q'`: asked for forms again and again, `q` gives these and becomes `q'`,
when there is no other form or the fault is met. -/
inductive ReadsAll : Queue → List Form → Option Fault → Queue → Prop
  | done {q q' : Queue} (h : Reads q (.form none) q') : ReadsAll q [] none q'
  | fails {q q' : Queue} {fault : Fault} (h : Reads q (.fault fault) q') :
    ReadsAll q [] (some fault) q'
  | more {q q₁ q' : Queue} {form : Form} {forms : List Form} {fault : Option Fault}
    (h : Reads q (.form (some form)) q₁) (hrest : ReadsAll q₁ forms fault q') :
    ReadsAll q (form :: forms) fault q'

/-- `q.Serves ask reply q'`: asked, `q` gives the reply and becomes `q'`. -/
inductive Serves : Queue → Ask → Reply → Queue → Prop
  | peek {q : Queue} (h : q.tokens = [] → q.behind = none) :
    Serves q .peek (.token q.tokens.head?) q
  | advance {q : Queue} (h : q.tokens = [] → q.behind = none) :
    Serves q .advance (.token q.tokens.head?) ⟨q.tokens.tail, q.behind⟩
  | rest {tokens : List String} : Serves ⟨tokens, none⟩ .rest (.tokens tokens) ended
  | form {q q' : Queue} {reply : Reply} (h : Reads q reply q') : Serves q .form reply q'
  | forms {q q' : Queue} {forms : List Form} {fault : Option Fault}
    (h : ReadsAll q forms fault q') : Serves q .forms (.forms forms fault) q'
  | peekStarves {fault : Fault} : Serves ⟨[], some fault⟩ .peek (.fault fault) ended
  | advanceStarves {fault : Fault} : Serves ⟨[], some fault⟩ .advance (.fault fault) ended
  | restStarves {tokens : List String} {fault : Fault} :
    Serves ⟨tokens, some fault⟩ .rest (.fault fault) ended

/-- `q.Runs asks replies q'`: asked for one thing after the other, `q` gives the replies and becomes
`q'`. -/
inductive Runs : Queue → List Ask → List Reply → Queue → Prop
  | nil {q : Queue} : Runs q [] [] q
  | cons {q q₁ q' : Queue} {ask : Ask} {asks : List Ask} {reply : Reply} {replies : List Reply}
    (h : Serves q ask reply q₁) (hrest : Runs q₁ asks replies q') :
    Runs q (ask :: asks) (reply :: replies) q'

/-! ### There is always an answer -/

variable {q q' : Queue} {reply : Reply} {ask : Ask}

theorem unfinished_of_readList {ts : List String} (h : TokenStream.readList [] [] ts = none) :
    Unfinished ("(" :: ts) :=
  ⟨by simp, fun _ htaken ↦ TokenStream.not_balanced_of_readList h htaken⟩

theorem unfinished_nil : Unfinished [] := by
  refine ⟨by simp, fun taken htaken hbalanced ↦ hbalanced.1 ?_⟩
  exact List.prefix_nil.1 htaken

/-- A queue that is asked for a form has an answer: it is at its end, begins with a form, is closed
too early, or ends too early. -/
theorem exists_reads (q : Queue) : ∃ reply q', q.Reads reply q' := by
  obtain ⟨ts, behind⟩ := q
  rcases TokenStream.readForm_cases ts with rfl | ⟨left, rfl, -⟩ | ⟨left, rfl, hlist, -⟩ |
    ⟨taken, left, form, rfl, hderives, -⟩
  · rcases behind with - | fault
    · exact ⟨_, _, .done⟩
    · exact ⟨_, _, .starves unfinished_nil⟩
  · exact ⟨_, _, .closes⟩
  · rcases behind with - | fault
    · exact ⟨_, _, .unclosed rfl (unfinished_of_readList hlist)⟩
    · exact ⟨_, _, .starves (unfinished_of_readList hlist)⟩
  · exact ⟨_, _, .form hderives⟩

/-- A form takes at least one token. -/
theorem Reads.length_lt {form : Form} (h : q.Reads (.form (some form)) q') :
    q'.tokens.length < q.tokens.length := by
  rcases h with ⟨hderives⟩
  have hpos := List.length_pos_iff.2 hderives.balanced.1
  simpa using hpos

/-- Asked for all forms it has one too, since every form takes a token at least. -/
theorem exists_readsAll (q : Queue) : ∃ forms fault q', q.ReadsAll forms fault q' := by
  obtain ⟨reply, q₁, h⟩ := exists_reads q
  rcases h with ⟨hderives⟩ | _ | _ | ⟨hopen, h⟩ | h
  case form taken left form behind =>
    have hread : Reads ⟨taken ++ left, behind⟩ (.form (some form)) ⟨left, behind⟩ := .form hderives
    have hshorter := hread.length_lt
    obtain ⟨forms, fault, q', hrest⟩ := exists_readsAll ⟨left, behind⟩
    exact ⟨form :: forms, fault, q', .more hread hrest⟩
  case done => exact ⟨_, _, _, .done .done⟩
  case closes => exact ⟨_, _, _, .fails .closes⟩
  case unclosed => exact ⟨_, _, _, .fails (.unclosed hopen h)⟩
  case starves => exact ⟨_, _, _, .fails (.starves h)⟩
termination_by q.tokens.length
decreasing_by exact hshorter

/-- Either there is no token, or a list is opened and not closed. -/
theorem Unfinished.cases {ts : List String} (h : Unfinished ts) :
    ts = [] ∨ ∃ left, ts = "(" :: left ∧ TokenStream.readList [] [] left = none := by
  rcases TokenStream.readForm_cases ts with rfl | ⟨left, rfl, -⟩ | ⟨left, rfl, hlist, -⟩ |
    ⟨taken, left, form, rfl, hderives, -⟩
  · exact Or.inl rfl
  · exact absurd rfl h.1
  · exact Or.inr ⟨left, rfl, hlist⟩
  · exact absurd hderives.balanced (h.2 taken (List.prefix_append ..))

/-- **Every ask is answered.** -/
theorem exists_serves (q : Queue) (ask : Ask) : ∃ reply q', q.Serves ask reply q' := by
  -- Only forms have to be read; the other asks look no further than the first token, or at the
  -- fault.
  match ask, q with
  | .peek, ⟨[], some _⟩ => exact ⟨_, _, .peekStarves⟩
  | .peek, ⟨[], none⟩ => exact ⟨_, _, .peek fun _ ↦ rfl⟩
  | .peek, ⟨_ :: _, _⟩ => exact ⟨_, _, .peek nofun⟩
  | .advance, ⟨[], some _⟩ => exact ⟨_, _, .advanceStarves⟩
  | .advance, ⟨[], none⟩ => exact ⟨_, _, .advance fun _ ↦ rfl⟩
  | .advance, ⟨_ :: _, _⟩ => exact ⟨_, _, .advance nofun⟩
  | .rest, ⟨_, none⟩ => exact ⟨_, _, .rest⟩
  | .rest, ⟨_, some _⟩ => exact ⟨_, _, .restStarves⟩
  | .form, q =>
    obtain ⟨reply, q', h⟩ := exists_reads q
    exact ⟨reply, q', .form h⟩
  | .forms, q =>
    obtain ⟨forms, fault, q', h⟩ := exists_readsAll q
    exact ⟨_, q', .forms h⟩

end Queue

namespace TokenStream

variable {q q' : Queue} {answer : Reply} {ask : Ask} {asks : List Ask} {s t : TokenStream}

/-! ### A stream answers as its queue does -/

/-- Reading a form does not tell a token that was looked at from one that was not. -/
theorem readForm_eq_unread (s : TokenStream) :
    readForm s = readForm ⟨none, s.unread.tokens, s.unread.behind⟩ := by
  rcases s with ⟨- | token, tokens, fault⟩
  · rfl
  · rfl

/-- Tokens that are not a form yet, with a fault behind them: the stream meets the fault. -/
theorem readForm_of_unfinished {ts : List String} {fault : Fault} (h : Queue.Unfinished ts) :
    readForm ⟨none, ts, some fault⟩ = .error fault exhausted := by
  rcases h.cases with rfl | ⟨left, rfl, hlist⟩
  · rfl
  · exact readForm_unmatched hlist

/-- The same with the end behind them: the first parenthesis has no partner. -/
theorem readForm_of_unclosed {ts : List String} (hopen : ts.head? = some "(")
    (h : Queue.Unfinished ts) :
    readForm ⟨none, ts, none⟩ = .error .unmatchedOpen exhausted := by
  rcases h.cases with rfl | ⟨left, rfl, hlist⟩
  · cases hopen
  · exact readForm_unmatched hlist

/-- Asked for a form, the stream answers as its queue does. -/
theorem perform_form_of_reads (h : q.Reads answer q') (hs : s.unread = q) :
    (s.perform .form).1 = answer ∧ (s.perform .form).2.unread = q' := by
  have hperform : s.perform .form = reply .form (readForm ⟨none, q.tokens, q.behind⟩) := by
    rw [perform, readForm_eq_unread, hs]
  rw [hperform]
  rcases h with hderives | _ | _ | ⟨hopen, h⟩ | h
  case form =>
    rw [readForm_of_derives hderives]
    exact ⟨rfl, rfl⟩
  case done => exact ⟨rfl, rfl⟩
  case closes => exact ⟨rfl, rfl⟩
  case unclosed =>
    rw [readForm_of_unclosed hopen h]
    exact ⟨rfl, rfl⟩
  case starves =>
    rw [readForm_of_unfinished h]
    exact ⟨rfl, rfl⟩

theorem readForm_eq_ok {form : Option Form} (h : (s.perform .form).1 = .form form) :
    readForm s = .ok form (s.perform .form).2 := by
  rw [perform] at h ⊢
  rcases hread : readForm s with ⟨form', t⟩ | ⟨fault, t⟩
  · rw [hread] at h
    cases h
    rfl
  · rw [hread] at h
    cases h

theorem readForm_eq_error {fault : Fault} (h : (s.perform .form).1 = .fault fault) :
    readForm s = .error fault (s.perform .form).2 := by
  rw [perform] at h ⊢
  rcases hread : readForm s with ⟨form, t⟩ | ⟨fault', t⟩
  · rw [hread] at h
    cases h
  · rw [hread] at h
    cases h
    rfl

/-- Reading with a bound that exceeds the number of tokens reads all forms. -/
theorem readUpTo_of_readsAll {forms : List Form} {fault : Option Fault}
    (h : q.ReadsAll forms fault q') {bound : Nat} (hs : s.unread = q)
    (hbound : q.tokens.length < bound) :
    ∃ t, readUpTo bound s = (forms, fault, t) ∧ t.unread = q' := by
  induction h generalizing s bound with
  | done h =>
    obtain ⟨bound, rfl⟩ := Nat.exists_eq_succ_of_ne_zero (Nat.ne_zero_of_lt hbound)
    obtain ⟨hreply, hunread⟩ := perform_form_of_reads h hs
    exact ⟨_, by rw [readUpTo, readForm_eq_ok hreply], hunread⟩
  | fails h =>
    obtain ⟨bound, rfl⟩ := Nat.exists_eq_succ_of_ne_zero (Nat.ne_zero_of_lt hbound)
    obtain ⟨hreply, hunread⟩ := perform_form_of_reads h hs
    exact ⟨_, by rw [readUpTo, readForm_eq_error hreply], hunread⟩
  | more h hrest ih =>
    obtain ⟨bound, rfl⟩ := Nat.exists_eq_succ_of_ne_zero (Nat.ne_zero_of_lt hbound)
    obtain ⟨hreply, hunread⟩ := perform_form_of_reads h hs
    -- A form takes a token, so the bound is large enough for the rest.
    have hshorter := h.length_lt
    obtain ⟨t, hread, ht⟩ := ih hunread (show _ < bound by omega)
    exact ⟨t, by simp only [readUpTo, readForm_eq_ok hreply, hread], ht⟩

/-- Asked for all forms likewise, one form after the other. -/
theorem readAll_of_readsAll {forms : List Form} {fault : Option Fault}
    (h : q.ReadsAll forms fault q') (hs : s.unread = q) :
    ∃ t, s.readAll = (forms, fault, t) ∧ t.unread = q' := by
  refine readUpTo_of_readsAll h hs (Nat.lt_succ_of_le (Nat.le_of_eq ?_))
  rw [← hs, size, unread, List.length_append]

theorem readsAll_readAll (s : TokenStream) :
    s.unread.ReadsAll s.readAll.1 s.readAll.2.1 s.readAll.2.2.unread := by
  obtain ⟨forms, fault, q', h⟩ := Queue.exists_readsAll s.unread
  obtain ⟨t, hread, rfl⟩ := readAll_of_readsAll h rfl
  rwa [hread]

/-- **One ask**: what the queue answers is what the stream answers, and the stream becomes a stream
of what the queue becomes. -/
theorem perform_of_serves (h : q.Serves ask answer q') (hs : s.unread = q) :
    (s.perform ask).1 = answer ∧ (s.perform ask).2.unread = q' := by
  rcases h with h | h | _ | h | h | _ | _ | _
  case form => exact perform_form_of_reads h hs
  case forms =>
    obtain ⟨t, hread, ht⟩ := readAll_of_readsAll h hs
    rw [perform, hread]
    exact ⟨rfl, ht⟩
  case peek =>
    subst hs
    match s, h with
    | ⟨some _, _, _⟩, _ => exact ⟨rfl, rfl⟩
    | ⟨none, _ :: _, _⟩, _ => exact ⟨rfl, rfl⟩
    | ⟨none, [], none⟩, _ => exact ⟨rfl, rfl⟩
    | ⟨none, [], some _⟩, h => cases h rfl
  case advance =>
    subst hs
    match s, h with
    | ⟨some _, _, _⟩, _ => exact ⟨rfl, rfl⟩
    | ⟨none, _ :: _, _⟩, _ => exact ⟨rfl, rfl⟩
    | ⟨none, [], none⟩, _ => exact ⟨rfl, rfl⟩
    | ⟨none, [], some _⟩, h => cases h rfl
  case rest =>
    match s, hs with
    | ⟨_, _, none⟩, rfl => exact ⟨rfl, rfl⟩
  case peekStarves =>
    match s, hs with
    | ⟨none, [], some _⟩, rfl => exact ⟨rfl, rfl⟩
  case advanceStarves =>
    match s, hs with
    | ⟨none, [], some _⟩, rfl => exact ⟨rfl, rfl⟩
  case restStarves =>
    match s, hs with
    | ⟨_, _, some _⟩, rfl => exact ⟨rfl, rfl⟩

/-- **One ask.** The answer of the queue is that of the stream, and there is no other one. -/
theorem serves_iff :
    s.unread.Serves ask answer q ↔ (s.perform ask).1 = answer ∧ (s.perform ask).2.unread = q := by
  refine ⟨fun h ↦ perform_of_serves h rfl, ?_⟩
  rintro ⟨rfl, rfl⟩
  obtain ⟨answer, q', h⟩ := Queue.exists_serves s.unread ask
  obtain ⟨hanswer, hunread⟩ := perform_of_serves h rfl
  rwa [hanswer, hunread]

/-- **Any number of asks.** -/
theorem runs_iff {replies : List Reply} :
    s.unread.Runs asks replies q ↔ (s.run asks).1 = replies ∧ (s.run asks).2.unread = q := by
  induction asks generalizing s replies with
  | nil =>
    constructor
    · rintro ⟨⟩
      exact ⟨rfl, rfl⟩
    · rintro ⟨rfl, rfl⟩
      exact .nil
  | cons ask asks ih =>
    constructor
    · rintro ⟨⟩
      rename_i h hrest
      obtain ⟨rfl, rfl⟩ := perform_of_serves h rfl
      obtain ⟨rfl, rfl⟩ := ih.1 hrest
      exact ⟨rfl, rfl⟩
    · rintro ⟨rfl, rfl⟩
      exact .cons (serves_iff.2 ⟨rfl, rfl⟩) (ih.2 ⟨rfl, rfl⟩)

/-- The answers depend on what is unread only. -/
theorem run_congr (h : s.unread = t.unread) (asks : List Ask) :
    (s.run asks).1 = (t.run asks).1 ∧ (s.run asks).2.unread = (t.run asks).2.unread := by
  refine runs_iff.1 ?_
  rw [h]
  exact runs_iff.2 ⟨rfl, rfl⟩

/-! ### No token is lost -/

/-- The tokens of which the reply to an ask tells. What a failing ask has taken for nothing is gone,
and its reply does not tell of it. -/
def Reply.Tells : Reply → Ask → List String → Prop
  | .token next, .advance, taken => taken = next.toList
  | .token _, _, taken => taken = []
  | .tokens all, _, taken => taken = all
  | .form none, _, taken => taken = []
  | .form (some first), _, taken => Derives taken first
  | .forms all none, _, taken => DerivesAll taken all
  | .forms all (some _), _, taken => ∃ read lost, taken = read ++ lost ∧ DerivesAll read all
  | .fault _, _, _ => True

end TokenStream

namespace Queue

open TokenStream (Ask Reply)

variable {q q' : Queue} {reply : Reply} {ask : Ask} {asks : List Ask} {replies : List Reply}

/-- Reading a form takes tokens off the front. -/
theorem Reads.conserves (h : q.Reads reply q') :
    ∃ taken, q.tokens = taken ++ q'.tokens ∧ reply.Tells .form taken := by
  rcases h with hderives | _ | _ | _ | _
  case form => exact ⟨_, rfl, hderives⟩
  case done => exact ⟨[], rfl, rfl⟩
  case closes => exact ⟨[")"], rfl, trivial⟩
  case unclosed => exact ⟨_, (List.append_nil _).symm, trivial⟩
  case starves => exact ⟨_, (List.append_nil _).symm, trivial⟩

/-- So does reading all forms. -/
theorem ReadsAll.conserves {forms : List Form} {fault : Option Fault}
    (h : q.ReadsAll forms fault q') :
    ∃ taken, q.tokens = taken ++ q'.tokens ∧ (Reply.forms forms fault).Tells .forms taken := by
  induction h with
  | done h =>
    obtain ⟨taken, htokens, rfl⟩ := h.conserves
    exact ⟨[], htokens, derivesAll_nil⟩
  | fails h =>
    obtain ⟨taken, htokens, -⟩ := h.conserves
    exact ⟨taken, htokens, [], taken, rfl, derivesAll_nil⟩
  -- What is taken in all is what the form takes, and then the others.
  | @more _ _ _ _ _ fault h _ ih =>
    obtain ⟨taken, htokens, hform⟩ := h.conserves
    obtain ⟨others, hothers, htold⟩ := ih
    refine ⟨taken ++ others, by rw [htokens, hothers, List.append_assoc], ?_⟩
    rcases fault with - | fault
    · exact DerivesAll.cons hform htold
    · obtain ⟨read, lost, rfl, hread⟩ := htold
      exact ⟨taken ++ read, lost, (List.append_assoc ..).symm, hread.cons hform⟩

/-- **No ask loses or reorders tokens**: those that it takes and those that stay are all that there
were, in their order. -/
theorem Serves.conserves (h : q.Serves ask reply q') :
    ∃ taken, q.tokens = taken ++ q'.tokens ∧ reply.Tells ask taken := by
  rcases h with _ | _ | _ | h | h | _ | _ | _
  case peek => exact ⟨[], rfl, rfl⟩
  case advance =>
    refine ⟨q.tokens.head?.toList, ?_, rfl⟩
    rcases q.tokens with - | ⟨token, tokens⟩
    · rfl
    · rfl
  case rest => exact ⟨_, (List.append_nil _).symm, rfl⟩
  case form => exact h.conserves
  case forms => exact h.conserves
  case peekStarves => exact ⟨[], rfl, trivial⟩
  case advanceStarves => exact ⟨[], rfl, trivial⟩
  case restStarves => exact ⟨_, (List.append_nil _).symm, trivial⟩

/-- **No token is lost, given twice or out of turn**: the tokens that were unread are what the
replies tell of, in the order of the asks, and then what is still unread. -/
theorem Runs.conserves (h : q.Runs asks replies q') :
    ∃ parts : List (Ask × Reply × List String),
      parts.map (·.1) = asks ∧ parts.map (·.2.1) = replies ∧
        (∀ part ∈ parts, part.2.1.Tells part.1 part.2.2) ∧
        q.tokens = (parts.map (·.2.2)).flatten ++ q'.tokens := by
  induction h with
  | nil => exact ⟨[], rfl, rfl, by simp, rfl⟩
  | @cons _ _ _ ask _ reply _ h _ ih =>
    obtain ⟨taken, htokens, htold⟩ := h.conserves
    obtain ⟨parts, rfl, rfl, hparts, hothers⟩ := ih
    refine ⟨(ask, reply, taken) :: parts, rfl, rfl, fun part hpart ↦ ?_, ?_⟩
    · rcases List.mem_cons.1 hpart with rfl | hpart
      · exact htold
      · exact hparts part hpart
    · rw [htokens, hothers, List.map_cons, List.flatten_cons, List.append_assoc]

/-! ### A fault behind the last token -/

/-- Complete forms in front are read, whatever stands behind them. -/
theorem ReadsAll.append {read left : List String} {forms more : List Form} {behind : Option Fault}
    {fault : Option Fault} (hread : DerivesAll read forms)
    (h : ReadsAll ⟨left, behind⟩ more fault q') :
    ReadsAll ⟨read ++ left, behind⟩ (forms ++ more) fault q' := by
  obtain ⟨parts, hparts, rfl, rfl⟩ := hread
  induction parts with
  | nil => exact h
  | cons part parts ih =>
    rw [List.map_cons, List.flatten_cons, List.append_assoc]
    exact .more (.form (hparts part (List.mem_cons_self ..)))
      (ih fun other hother ↦ hparts other (List.mem_cons_of_mem _ hother))

/-- The ask needs a token behind the given ones. -/
def Needs (tokens : List String) : Ask → Prop
  | .peek | .advance => tokens = []
  | .rest => True
  | .form => Unfinished tokens
  | .forms => ∃ read left forms, tokens = read ++ left ∧ DerivesAll read forms ∧ Unfinished left

variable {tokens : List String} {f : Fault}

/-- An ask that needs one more token meets the fault, and takes all there is. -/
theorem serves_of_needs (h : Needs tokens ask) (f : Fault) :
    ∃ reply, Serves ⟨tokens, some f⟩ ask reply ended ∧ reply.fault? = some f := by
  cases ask with
  | peek =>
    obtain rfl : tokens = [] := h
    exact ⟨_, .peekStarves, rfl⟩
  | advance =>
    obtain rfl : tokens = [] := h
    exact ⟨_, .advanceStarves, rfl⟩
  | rest => exact ⟨_, .restStarves, rfl⟩
  | form => exact ⟨_, .form (.starves h), rfl⟩
  | forms =>
    obtain ⟨read, left, forms, rfl, hread, hleft⟩ := h
    exact ⟨_, .forms (.append hread (.fails (.starves hleft))), rfl⟩

/-- Unless it needs another token, reading a form leaves the fault where it is. -/
theorem Reads.keeps (h : Reads ⟨tokens, some f⟩ reply q') (hf : f ≠ .unexpectedClose)
    (hneeds : ¬ Unfinished tokens) : reply.fault? ≠ some f ∧ q'.behind = some f := by
  rcases h with _ | _ | _ | _ | h
  case form => exact ⟨nofun, rfl⟩
  case closes => exact ⟨fun h ↦ hf (Option.some.inj h).symm, rfl⟩
  case starves => exact absurd h hneeds

theorem needs_forms_of_unfinished (h : Unfinished tokens) : Needs tokens .forms :=
  ⟨[], tokens, [], rfl, derivesAll_nil, h⟩

/-- A fault behind the tokens is not met by an ask that can do without it. -/
theorem ReadsAll.keeps {forms : List Form} {fault : Option Fault} (h : q.ReadsAll forms fault q')
    (hq : q = ⟨tokens, some f⟩) (hf : f ≠ .unexpectedClose) (hneeds : ¬ Needs tokens .forms) :
    fault ≠ some f ∧ q'.behind = some f := by
  induction h generalizing tokens with
  | done h =>
    subst hq
    have hkeeps := h.keeps hf fun hunfinished ↦ hneeds (needs_forms_of_unfinished hunfinished)
    exact ⟨nofun, hkeeps.2⟩
  | fails h =>
    subst hq
    exact h.keeps hf fun hunfinished ↦ hneeds (needs_forms_of_unfinished hunfinished)
  -- The tokens behind the form need no more either: in front of them it would be one of the forms.
  | more h _ ih =>
    rcases h with ⟨hderives⟩
    cases hq
    refine ih rfl ?_
    rintro ⟨read, left, forms, rfl, hread, hleft⟩
    exact hneeds ⟨_, left, _, (List.append_assoc ..).symm, hread.cons hderives, hleft⟩

/-- **An ask that does not need another token leaves the fault where it is.** -/
theorem Serves.keeps (h : Serves ⟨tokens, some f⟩ ask reply q') (hf : f ≠ .unexpectedClose)
    (hneeds : ¬ Needs tokens ask) : reply.fault? ≠ some f ∧ q'.behind = some f := by
  rcases h with _ | _ | _ | h | h | _ | _ | _
  case peek => exact ⟨nofun, rfl⟩
  case advance => exact ⟨nofun, rfl⟩
  case form => exact h.keeps hf hneeds
  case forms => exact h.keeps rfl hf hneeds
  case peekStarves => exact absurd rfl hneeds
  case advanceStarves => exact absurd rfl hneeds
  case restStarves => exact absurd trivial hneeds

end Queue

namespace TokenStream

/-- What a stream answers at its end. -/
def Ask.atEnd : Ask → Reply
  | .peek | .advance => .token none
  | .rest => .tokens []
  | .form => .form none
  | .forms => .forms [] none

variable {f : Fault} {s : TokenStream} {ask : Ask} {asks : List Ask}

/-- At the end every ask is answered by an end, and the queue stays there. -/
theorem serves_atEnd (ask : Ask) : Queue.ended.Serves ask ask.atEnd Queue.ended := by
  cases ask with
  | peek => exact .peek fun _ ↦ rfl
  | advance => exact .advance fun _ ↦ rfl
  | rest => exact .rest
  | form => exact .form .done
  | forms => exact .forms (.done .done)

/-- The end is the end, whatever is asked for. -/
theorem run_of_ended (h : s.unread = Queue.ended) (asks : List Ask) :
    (s.run asks).1 = asks.map Ask.atEnd ∧ (s.run asks).2.unread = Queue.ended := by
  refine runs_iff.1 ?_
  rw [h]
  induction asks with
  | nil => exact .nil
  | cons ask asks ih => exact .cons (serves_atEnd ask) ih

theorem fault?_atEnd (ask : Ask) : ask.atEnd.fault? = none := by
  cases ask <;> rfl

/-- An ask that needs more tokens than there are meets the fault, and the stream is at its end. -/
theorem perform_of_needs (hs : s.unread.behind = some f) (h : Queue.Needs s.unread.tokens ask) :
    (s.perform ask).1.fault? = some f ∧ (s.perform ask).2.unread = Queue.ended := by
  obtain ⟨answer, hserves, hfault⟩ := Queue.serves_of_needs h f
  have hqueue : s.unread = ⟨s.unread.tokens, some f⟩ := by rw [← hs]
  obtain ⟨rfl, hunread⟩ := perform_of_serves hserves hqueue
  exact ⟨hfault, hunread⟩

/-- Every other ask leaves the fault where it is. -/
theorem perform_of_not_needs (hs : s.unread.behind = some f) (hf : f ≠ .unexpectedClose)
    (h : ¬ Queue.Needs s.unread.tokens ask) :
    (s.perform ask).1.fault? ≠ some f ∧ (s.perform ask).2.unread.behind = some f := by
  have hserves : s.unread.Serves ask (s.perform ask).1 (s.perform ask).2.unread :=
    serves_iff.2 ⟨rfl, rfl⟩
  have hqueue : s.unread = ⟨s.unread.tokens, some f⟩ := by rw [← hs]
  rw [hqueue] at hserves
  exact hserves.keeps hf h

/-- How often a fault was met. -/
def meetings (f : Fault) (replies : List Reply) : Nat :=
  replies.countP fun reply ↦ reply.fault? = some f

theorem meetings_map_atEnd (f : Fault) (asks : List Ask) : meetings f (asks.map Ask.atEnd) = 0 := by
  simp [meetings, fault?_atEnd]

/-- By induction on the asks: as long as none of them needs another token the fault waits, and the
first that does meets it and leaves nothing to the others. -/
theorem meetings_run (hs : s.unread.behind = some f) (hf : f ≠ .unexpectedClose)
    (asks : List Ask) :
    (s.run asks).2.unread.behind = some f ∧ meetings f (s.run asks).1 = 0 ∨
      (s.run asks).2.unread = Queue.ended ∧ meetings f (s.run asks).1 = 1 := by
  induction asks generalizing s with
  | nil => exact Or.inl ⟨hs, rfl⟩
  | cons ask asks ih =>
    show _ ∧ meetings f ((s.perform ask).1 :: _) = 0 ∨ _ ∧ meetings f ((s.perform ask).1 :: _) = 1
    by_cases hneeds : Queue.Needs s.unread.tokens ask
    · obtain ⟨hmet, hended⟩ := perform_of_needs hs hneeds
      obtain ⟨hreplies, hunread⟩ := run_of_ended hended asks
      refine Or.inr ⟨hunread, ?_⟩
      rw [hreplies, meetings, List.countP_cons_of_pos (by simpa using hmet)]
      exact congrArg (· + 1) (meetings_map_atEnd f asks)
    · obtain ⟨hnot, hbehind⟩ := perform_of_not_needs hs hf hneeds
      rw [meetings, List.countP_cons_of_neg (by simpa using hnot)]
      exact ih hbehind

/-- How a fault that stood behind the last token was met by the time that some asks were answered,
and how it will be. -/
structure MeetsOnce (s : TokenStream) (f : Fault) (asks : List Ask) : Prop where
  /-- The fault still stands behind the tokens and was not met, or the stream is at its end and it
  was met once. -/
  waits_or_met : (s.run asks).2.unread.behind = some f ∧ meetings f (s.run asks).1 = 0 ∨
    (s.run asks).2.unread = Queue.ended ∧ meetings f (s.run asks).1 = 1
  /-- While it waits, it is met by the asks that need one more token. -/
  meets_iff : (s.run asks).2.unread.behind = some f → ∀ ask,
    ((s.run asks).2.perform ask).1.fault? = some f ↔
      Queue.Needs (s.run asks).2.unread.tokens ask
  /-- At its end the stream has nothing to give. -/
  nothing_left : (s.run asks).2.unread = Queue.ended → ∀ more,
    ((s.run asks).2.run more).1 = more.map Ask.atEnd

/-- **The fault is met once**, by the first ask that needs it. The induction is on the asks: before
that one the fault stays behind the tokens, and after it the stream is at its end. -/
theorem meetsOnce (hs : s.unread.behind = some f) (hf : f ≠ .unexpectedClose) (asks : List Ask) :
    s.MeetsOnce f asks := by
  refine ⟨meetings_run hs hf asks, fun hbehind ask ↦ ⟨fun hmet ↦ ?_, fun hneeds ↦ ?_⟩,
    fun hended more ↦ (run_of_ended hended more).1⟩
  · refine Classical.byContradiction fun hneeds ↦ ?_
    exact (perform_of_not_needs hbehind hf hneeds).1 hmet
  · exact (perform_of_needs hbehind hneeds).1

/-- Looking at a token leaves the queue as it is. -/
theorem unread_of_peek {token : Option String} {t : TokenStream} (h : peek s = .ok token t) :
    token = s.unread.tokens.head? ∧ t.unread = s.unread := by
  match s, h with
  | ⟨some _, _, _⟩, rfl => exact ⟨rfl, rfl⟩
  | ⟨none, _ :: _, _⟩, rfl => exact ⟨rfl, rfl⟩
  | ⟨none, [], none⟩, rfl => exact ⟨rfl, rfl⟩

/-- **A stream is a queue of its unread tokens.** Whatever it is asked for, one thing after the
other, it answers as the queue does and as nothing else would, and what is unread then is what the
queue has become. Looking at the next token changes no later answer. The tokens that were unread are
those of which the replies tell, in order, and those that are unread still: none is lost, given
twice or out of turn, but for what a failing ask has taken. A lexical fault behind the last token is
met exactly once, by the first ask that needs one more token, and leaves the stream at its end. -/
theorem refines_queue (s : TokenStream) (asks : List Ask) :
    (∀ replies q, s.unread.Runs asks replies q ↔
      (s.run asks).1 = replies ∧ (s.run asks).2.unread = q) ∧
    (∀ token t, peek s = .ok token t →
      token = s.unread.tokens.head? ∧ (t.run asks).1 = (s.run asks).1 ∧
        (t.run asks).2.unread = (s.run asks).2.unread) ∧
    (∃ parts : List (Ask × Reply × List String),
      parts.map (·.1) = asks ∧ parts.map (·.2.1) = (s.run asks).1 ∧
        (∀ part ∈ parts, part.2.1.Tells part.1 part.2.2) ∧
        s.unread.tokens = (parts.map (·.2.2)).flatten ++ (s.run asks).2.unread.tokens) ∧
    ∀ f, s.fault = some (.lexical f) → s.MeetsOnce (.lexical f) asks := by
  refine ⟨fun replies q ↦ runs_iff, fun token t h ↦ ?_, ?_, fun f hf ↦ meetsOnce hf nofun asks⟩
  · obtain ⟨htoken, hunread⟩ := unread_of_peek h
    exact ⟨htoken, run_congr hunread asks⟩
  · exact (runs_iff.2 ⟨rfl, rfl⟩ : s.unread.Runs asks _ _).conserves

/-- Six asks of a stream with a character behind its tokens that cannot stand there: the fifth meets
the fault, when it has read one form and opened a list, and the sixth finds the end. -/
theorem refines_queue_unclosed :
    let s := ofText "(a b) c d (\x0b"
    let asks : List Ask := [.peek, .form, .peek, .advance, .forms, .rest]
    (s.run asks).1 = [.token (some "("), .form (some (.list [.symbol "a", .symbol "b"])),
        .token (some "c"), .token (some "c"), .forms [.symbol "d"] (some (.lexical ⟨'\x0b', 11⟩)),
        .tokens []] ∧
      meetings (.lexical ⟨'\x0b', 11⟩) (s.run asks).1 = 1 ∧
      ∃ t, peek s = .ok (some "(") t ∧ (t.run asks).1 = (s.run asks).1 := by
  intro s asks
  have hrefines := refines_queue s asks
  have hreplies : (s.run asks).1 = [.token (some "("),
      .form (some (.list [.symbol "a", .symbol "b"])), .token (some "c"), .token (some "c"),
      .forms [.symbol "d"] (some (.lexical ⟨'\x0b', 11⟩)), .tokens []] := by
    decide +kernel
  refine ⟨hreplies, ?_, ?_⟩
  · have hmeets := hrefines.2.2.2 ⟨'\x0b', 11⟩ (by decide +kernel)
    rcases hmeets.waits_or_met with ⟨hwaits, -⟩ | ⟨-, hmet⟩
    · exact absurd hwaits (by decide +kernel)
    · exact hmet
  · have hpeek : peek s = .ok (some "(") ⟨some "(", ["a", "b", ")", "c", "d", "("],
        some (.lexical ⟨'\x0b', 11⟩)⟩ := by
      have hs : s = ⟨none, ["(", "a", "b", ")", "c", "d", "("],
          some (.lexical ⟨'\x0b', 11⟩)⟩ := by
        decide +kernel
      rw [hs]
      rfl
    exact ⟨_, hpeek, (hrefines.2.1 _ _ hpeek).2.1⟩

end TokenStream

end DottedLisp
