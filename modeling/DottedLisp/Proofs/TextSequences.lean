import DottedLisp.Proofs.Reading.Queue
import DottedLisp.Proofs.Session

/-!
# One text after the other

A text may be evaluated as a whole or cut at the end of a line: it makes no difference, if nothing
is open where it is cut. Three things have to fit together. A line end completes whatever token or
comment stands before it, so the tokens of the whole are those of the parts. Complete forms are read
whatever stands behind them, so its forms are those of the parts as well. And a form is evaluated
before anything is read behind it, so that what is wrong with the second part does not show until
the first one is done.

If only the first form of a text is asked for, nothing behind it is evaluated, and it need not even
be balanced; but all of it is cut into tokens before the evaluation starts.

Only positions tell the whole from its parts: a character at fault stands as much further on as the
first part and the line end are long (`Fault.shifted`).

Main statements: `Interpreter.evalAll_in_sequence` and `Interpreter.evalText_ignores_rest`.
-/

namespace DottedLisp

/-! ### Tokens -/

/-- The same character at fault, `n` characters further on. -/
def LexicalFault.shifted (n : Nat) (f : LexicalFault) : LexicalFault :=
  { f with position := f.position + n }

/-- The fault in a text that stands `n` characters further on. -/
def Fault.shifted (n : Nat) : Fault → Fault
  | .lexical f => .lexical (f.shifted n)
  | f => f

/-- The tokens of a text that stands `n` characters further on, behind other tokens. -/
def Lexed.placed (n : Nat) (before : List String) (lexed : Lexed) : Lexed :=
  ⟨before ++ lexed.tokens, lexed.fault.map (LexicalFault.shifted n)⟩

namespace Token

/-- A step only adds to the tokens that are complete. -/
def Move.behind (complete : List String) : Move → Move
  | .go place new => .go place (new ++ complete)
  | .stop new => .stop (new ++ complete)

theorem Move.behind_go {place : Place} {complete new : List String} :
    (Move.go place new).behind complete = .go place (new ++ complete) := rfl

theorem Move.behind_stop {complete new : List String} :
    (Move.stop new).behind complete = .stop (new ++ complete) := rfl

/-- What begins at a character does not depend on the tokens before it … -/
theorem start_behind (complete new : List String) (c : Char) :
    start (new ++ complete) c = (start new c).behind complete := by
  simp only [start, apply_ite (Move.behind complete), Move.behind_go, Move.behind_stop,
    List.cons_append]

/-- … and neither does any other step. -/
theorem step_behind (place : Place) (complete : List String) (c : Char) :
    step place complete c = (step place [] c).behind complete := by
  rcases place with - | - | reversed
  · exact start_behind complete [] c
  · rfl
  · have hstart : start (wordText reversed :: complete) c =
        (start [wordText reversed] c).behind complete :=
      start_behind complete [wordText reversed] c
    simp only [step, apply_ite (Move.behind complete), hstart, Move.behind_go, Move.behind_stop,
      List.nil_append]

/-- Where a text stands and what stands before it shows in the positions of faults only. -/
theorem scan_placed (place : Place) (position n : Nat) (complete before : List String)
    (cs : List Char) :
    scan place (position + n) (complete ++ before) cs =
      (scan place position complete cs).placed n before.reverse := by
  induction cs generalizing place position complete with
  | nil =>
    rcases place with - | - | reversed
    · simp [scan, finish, Lexed.placed]
    · simp [scan, finish, Lexed.placed]
    · simp [scan, finish, Lexed.placed]
  | cons c cs ih =>
    rw [scan, scan, step_behind place (complete ++ before), step_behind place complete]
    rcases step place [] c with ⟨next, new⟩ | new
    · simp only [Move.behind_go]
      rw [← List.append_assoc, Nat.add_right_comm, ih]
    · simp [Move.behind_stop, Lexed.placed, LexicalFault.shifted]

/-- A line end completes whatever stands before it. -/
theorem step_newline (place : Place) (complete : List String) :
    step place complete '\n' = .go .gap (finish place complete) := by
  rcases place with - | - | reversed
  · rfl
  · rfl
  · rfl

/-- Behind a line end the scan starts anew. -/
theorem scan_newline {place : Place} {position : Nat} {complete : List String} {cs : List Char}
    (h : (scan place position complete cs).fault = none) (more : List Char) :
    scan place position complete (cs ++ '\n' :: more) =
      scan .gap (position + (cs.length + 1)) (scan place position complete cs).tokens.reverse
        more := by
  induction cs generalizing place position complete with
  | nil =>
    have hscan : scan place position complete ('\n' :: more) =
        scan .gap (position + 1) (finish place complete) more := by
      rw [scan, step_newline]
    rw [List.nil_append, hscan, scan, List.reverse_reverse]
    rfl
  | cons c cs ih =>
    rw [List.cons_append, scan]
    rw [scan] at h ⊢
    rcases hstep : step place complete c with ⟨next, complete'⟩ | complete'
    · rw [hstep] at h
      simp only at h ⊢
      rw [ih h, List.length_cons, Nat.add_assoc, Nat.add_comm 1]
    · rw [hstep] at h
      cases h

end Token

/-- **The tokens of two texts**, one line after the other. -/
theorem lex_in_sequence {a : String} (h : (lex a).fault = none) (b : String) :
    lex (a ++ "\n" ++ b) = (lex b).placed (a.length + 1) (lex a).tokens := by
  have htext : (a ++ "\n" ++ b).toList = a.toList ++ '\n' :: b.toList := by
    simp
  have hplaced := Token.scan_placed .gap 0 (a.length + 1) [] (lex a).tokens.reverse b.toList
  rw [List.reverse_reverse] at hplaced
  rw [lex, htext, Token.scan_newline h]
  exact hplaced

/-! ### Forms -/

namespace Queue

variable {q q' : Queue} {forms : List Form} {fault : Option Fault}

/-- What is unread of a text that stands `n` characters further on. -/
def shifted (n : Nat) (q : Queue) : Queue :=
  ⟨q.tokens, q.behind.map (Fault.shifted n)⟩

/-- Where a text stands shows in the fault only that is met. -/
theorem ReadsAll.shifted (h : q.ReadsAll forms fault q') (n : Nat) :
    (q.shifted n).ReadsAll forms (fault.map (Fault.shifted n)) (q'.shifted n) := by
  induction h with
  | done h =>
    rcases h with ⟨⟩
    exact .done .done
  | fails h =>
    rcases h with _ | _ | _ | ⟨hopen, h⟩ | h
    case closes => exact .fails .closes
    case unclosed => exact .fails (.unclosed hopen h)
    case starves => exact .fails (.starves h)
  | more h _ ih =>
    rcases h with ⟨hderives⟩
    exact .more (.form hderives) ih

/-- All forms were read, so no token is left. -/
theorem ReadsAll.ended (h : q.ReadsAll forms fault q') (hfault : fault = none) :
    q' = Queue.ended := by
  induction h with
  | done h =>
    rcases h with ⟨⟩
    rfl
  | fails => cases hfault
  | more _ _ ih => exact ih hfault

/-- Tokens that are read without a fault are those of the forms. -/
theorem ReadsAll.derivesAll (h : q.ReadsAll forms none q') : Form.DerivesAll q.tokens forms := by
  obtain ⟨taken, htokens, htold⟩ := h.conserves
  rw [htokens, h.ended rfl]
  exact (List.append_nil taken).symm ▸ htold

end Queue

theorem TokenStream.ofText_of_lex {a : String} (h : (lex a).fault = none) :
    TokenStream.ofText a = TokenStream.ofTokens (lex a).tokens := by
  simp only [TokenStream.ofText, h]
  rfl

/-- **The forms of two texts**, one line after the other. -/
theorem readAll_in_sequence {a : String} (hlex : (lex a).fault = none)
    (hread : (TokenStream.ofTokens (lex a).tokens).readAll.2.1 = none) (b : String) :
    (TokenStream.ofText (a ++ "\n" ++ b)).readAll.1 =
        (TokenStream.ofText a).readAll.1 ++ (TokenStream.ofText b).readAll.1 ∧
      (TokenStream.ofText (a ++ "\n" ++ b)).readAll.2.1 =
        (TokenStream.ofText b).readAll.2.1.map (Fault.shifted (a.length + 1)) := by
  rw [TokenStream.ofText_of_lex hlex]
  have hfirst := (TokenStream.ofTokens (lex a).tokens).readsAll_readAll
  rw [hread] at hfirst
  have hsecond := ((TokenStream.ofText b).readsAll_readAll).shifted (a.length + 1)
  have hboth := hsecond.append hfirst.derivesAll
  -- The queue of the whole text is that of the parts, one behind the other.
  have hunread : (TokenStream.ofText (a ++ "\n" ++ b)).unread =
      ⟨(lex a).tokens ++ (lex b).tokens,
        ((lex b).fault.map Fault.lexical).map (Fault.shifted (a.length + 1))⟩ := by
    simp only [TokenStream.ofText, lex_in_sequence hlex, Lexed.placed, TokenStream.unread,
      Option.map_map]
    rfl
  obtain ⟨t, hall, -⟩ := TokenStream.readAll_of_readsAll hboth hunread
  rw [hall]
  exact ⟨rfl, rfl⟩

/-- The first form is given only if all that stands behind it falls into tokens. -/
theorem TokenStream.first_of_derives {taken : List String} {form : Form}
    (h : Form.Derives taken form) (rest : List String) (behind : Option Fault) :
    (TokenStream.mk none (taken ++ rest) behind).first =
      match behind with
      | none => .ok (form, rest)
      | some fault => .error fault := by
  have hread : readFirst ⟨none, taken ++ rest, behind⟩ =
      match behind with
      | none => .ok (form, rest) exhausted
      | some fault => .error fault exhausted := by
    show EStateM.bind readForm _ _ = _
    unfold EStateM.bind
    rw [readForm_of_derives h]
    rcases behind with - | fault
    · rfl
    · rfl
  rw [first, hread]
  rcases behind with - | fault
  · rfl
  · rfl

/-- **The first form of two texts**, one line after the other, if the first of them is one form. -/
theorem readText_in_sequence {a : String} {form : Form} (hlex : (lex a).fault = none)
    (hform : Form.Derives (lex a).tokens form) (b : String) :
    readText (a ++ "\n" ++ b) =
      match (lex b).fault with
      | none => .ok form
      | some f => .error (.lexical (f.shifted (a.length + 1))) := by
  have hstream : TokenStream.ofText (a ++ "\n" ++ b) =
      ⟨none, (lex a).tokens ++ (lex b).tokens,
        ((lex b).fault.map (LexicalFault.shifted (a.length + 1))).map Fault.lexical⟩ := by
    simp only [TokenStream.ofText, lex_in_sequence hlex, Lexed.placed]
  rw [readText, hstream, TokenStream.first_of_derives hform]
  rcases (lex b).fault with - | f
  · rfl
  · rfl

/-- The first text alone is that one form. -/
theorem readText_of_derives {a : String} {form : Form} (hlex : (lex a).fault = none)
    (hform : Form.Derives (lex a).tokens form) : readText a = .ok form := by
  have hfirst := TokenStream.first_of_derives hform [] none
  rw [List.append_nil] at hfirst
  rw [readText, TokenStream.ofText_of_lex hlex, TokenStream.ofTokens, hfirst]
  rfl

/-! ### Evaluations -/

namespace Interpreter

open Evaluation

variable {i : Interpreter} {setting : Setting} {text : String} {v : Value} {w u : World}
  {f : Failure}

/-- **Forms in two parts**: the value of the first part is the value before the second. -/
theorem evalForms_append (setting : Setting) (id : NamespaceId) (value : Value)
    (forms more : List Form) (w : World) :
    evalForms setting id value (forms ++ more) w =
      (evalForms setting id value forms >>= fun v ↦ evalForms setting id v more) w := by
  induction forms generalizing value w with
  | nil => rfl
  | cons form forms ih =>
    show (evalForm setting id form >>= fun v ↦ evalForms setting id v (forms ++ more)) w =
      ((evalForm setting id form >>= fun v ↦ evalForms setting id v forms) >>= fun v ↦
        evalForms setting id v more) w
    rcases hform : evalForm setting id form w with ⟨v, u⟩ | ⟨f, u⟩
    · have hrest : (evalForm setting id form >>= fun v ↦ evalForms setting id v forms) w =
          evalForms setting id v forms u := bind_of_ok hform
      rw [bind_of_ok hform, ih]
      exact bind_of_eq hrest.symm
    · rw [bind_of_error hform, bind_of_error (bind_of_error hform)]

/-- The value before the forms matters only if there is none. -/
theorem evalForms_congr {forms : List Form} (h : forms ≠ []) (id : NamespaceId)
    (value value' : Value) :
    evalForms setting id value forms = evalForms setting id value' forms := by
  rcases forms with - | ⟨form, forms⟩
  · exact absurd rfl h
  · rfl

/-- `i.Continues setting b v n u outcome`: the outcome is that of evaluating the text `b` in the
world `u`, where the value before it is `v` and it stands `n` characters further on. -/
structure Continues (i : Interpreter) (setting : Setting) (b : String) (v : Value) (n : Nat)
    (u : World) (outcome : EStateM.Result Failure World Value) : Prop where
  /-- If all goes well, the value is that of the text, or that before it if it has no form. -/
  answers : ∀ v' x, i.evalAll setting b u = .ok v' x →
    outcome = .ok (if (TokenStream.ofText b).readAll.1 = [] then v else v') x
  /-- If a form fails, the failure is the same. -/
  form_fails : ∀ f x,
    evalForms setting i.home .nothing (TokenStream.ofText b).readAll.1 u = .error f x →
      i.evalAll setting b u = .error f x ∧ outcome = .error f x
  /-- If the text is at fault behind its forms, only the position of the fault differs. -/
  text_fails : ∀ fault v' x, (TokenStream.ofText b).readAll.2.1 = some fault →
    evalForms setting i.home .nothing (TokenStream.ofText b).readAll.1 u = .ok v' x →
      i.evalAll setting b u = .error (.fault fault) x ∧
        outcome = .error (.fault (fault.shifted n)) x

/-- What becomes of a value when the text ends, or at its fault. -/
def settle (fault : Option Fault) (value : Value) : Evaluation Value :=
  match fault with
  | some fault => Evaluation.fail fault
  | none => return value

theorem evalAll_eq (i : Interpreter) (setting : Setting) (text : String) :
    i.evalAll setting text =
      (evalForms setting i.home .nothing (TokenStream.ofText text).readAll.1 >>=
        settle (TokenStream.ofText text).readAll.2.1) := rfl

/-- The value before the forms is the last value only if there is no form. -/
theorem evalForms_of_ok {id : NamespaceId} {forms : List Form} {v' : Value}
    (h : evalForms setting id .nothing forms w = .ok v' u) (v : Value) :
    evalForms setting id v forms w = .ok (if forms = [] then v else v') u := by
  by_cases hnil : forms = []
  · rw [if_pos hnil]
    subst hnil
    cases h
    rfl
  · rw [if_neg hnil, evalForms_congr hnil id v .nothing, h]

/-- If there is a form, the value before the forms does not matter; and a failure needs one. -/
theorem evalForms_of_error {id : NamespaceId} {forms : List Form}
    (h : evalForms setting id .nothing forms w = .error f u) (v : Value) :
    evalForms setting id v forms w = .error f u := by
  have hne : forms ≠ [] := by
    rintro rfl
    cases h
  rw [evalForms_congr hne id v .nothing, h]

/-- The forms of a text and then its end, after another value and at another place. -/
theorem continues_settle (i : Interpreter) (setting : Setting) (b : String) (v : Value) (n : Nat)
    (u : World) :
    i.Continues setting b v n u
      ((evalForms setting i.home v (TokenStream.ofText b).readAll.1 >>=
        settle ((TokenStream.ofText b).readAll.2.1.map (Fault.shifted n))) u) := by
  have heval := congrFun (evalAll_eq i setting b) u
  rcases hrun : evalForms setting i.home .nothing (TokenStream.ofText b).readAll.1 u with
    ⟨v', x⟩ | ⟨f, x⟩
  · rw [bind_of_ok hrun] at heval
    rw [bind_of_ok (evalForms_of_ok hrun v)]
    -- All forms went well, so only the fault can still make a difference.
    rcases hfault : (TokenStream.ofText b).readAll.2.1 with - | fault
    · rw [hfault] at heval
      refine ⟨fun _ _ h ↦ ?_, fun _ _ h ↦ ?_, fun _ _ _ hf _ ↦ ?_⟩
      · cases heval.symm.trans h
        rfl
      · cases hrun.symm.trans h
      · cases hfault.symm.trans hf
    · rw [hfault] at heval
      refine ⟨fun _ _ h ↦ ?_, fun _ _ h ↦ ?_, fun _ _ _ hf h ↦ ?_⟩
      · cases heval.symm.trans h
      · cases hrun.symm.trans h
      · cases hfault.symm.trans hf
        cases hrun.symm.trans h
        exact ⟨heval, rfl⟩
  · rw [bind_of_error hrun] at heval
    rw [bind_of_error (evalForms_of_error hrun v)]
    refine ⟨fun _ _ h ↦ ?_, fun _ _ h ↦ ?_, fun _ _ _ _ h ↦ ?_⟩
    · cases heval.symm.trans h
    · cases hrun.symm.trans h
      exact ⟨heval, rfl⟩
    · cases hrun.symm.trans h

/-- **Texts are evaluated one after the other as they are evaluated at once**, with a line end
between them, if the first of them falls into complete forms. If it fails, this is all that happens,
whatever the second one may be. If it does not, the second one is evaluated from there. -/
theorem evalAll_in_sequence (i : Interpreter) (setting : Setting) (w : World) {a : String}
    (hlex : (lex a).fault = none)
    (hread : (TokenStream.ofTokens (lex a).tokens).readAll.2.1 = none) (b : String) :
    (∀ f u, i.evalAll setting a w = .error f u →
      i.evalAll setting (a ++ "\n" ++ b) w = .error f u) ∧
    ∀ v u, i.evalAll setting a w = .ok v u →
      i.Continues setting b v (a.length + 1) u (i.evalAll setting (a ++ "\n" ++ b) w) := by
  obtain ⟨hforms, hfault⟩ := readAll_in_sequence hlex hread b
  have hfirst := congrFun (evalAll_eq i setting a) w
  have hboth := congrFun (evalAll_eq i setting (a ++ "\n" ++ b)) w
  have hofText := TokenStream.ofText_of_lex hlex
  rw [hofText, hread] at hfirst
  rw [hforms, hfault, hofText] at hboth
  -- So the forms of `a` come first, and those of `b` in the world that they leave.
  have happend := evalForms_append setting i.home .nothing
    (TokenStream.ofTokens (lex a).tokens).readAll.1 (TokenStream.ofText b).readAll.1 w
  rcases hrun : evalForms setting i.home .nothing
    (TokenStream.ofTokens (lex a).tokens).readAll.1 w with ⟨v, u⟩ | ⟨f, u⟩
  · rw [bind_of_ok hrun] at hfirst happend
    rw [bind_of_eq happend] at hboth
    refine ⟨fun _ _ h ↦ ?_, fun _ _ h ↦ ?_⟩
    · cases hfirst.symm.trans h
    · cases hfirst.symm.trans h
      rw [hboth]
      exact continues_settle ..
  · rw [bind_of_error hrun] at hfirst happend
    rw [bind_of_error happend] at hboth
    refine ⟨fun _ _ h ↦ ?_, fun _ _ h ↦ ?_⟩
    · cases hfirst.symm.trans h
      exact hboth
    · cases hfirst.symm.trans h

/-- A definition and a comment, and on the next line a use of what is defined, behind which the text
is at fault: evaluated at once, the fault stands eighteen characters further on. -/
theorem evalAll_in_sequence_fault :
    let i := (create Host.empty none none 0).1
    let w := (create Host.empty none none 0).2
    let setting : Setting := ⟨⟨9, 9, 9⟩, fun _ ↦ .ok none⟩
    ∃ u x, i.evalAll setting "(const x 1) ; one" w = .ok (.number 1) u ∧
      i.evalAll setting "x \x0b" u = .error (.fault (.lexical ⟨'\x0b', 2⟩)) x ∧
      i.evalAll setting ("(const x 1) ; one" ++ "\n" ++ "x \x0b") w =
        .error (.fault (.lexical ⟨'\x0b', 20⟩)) x := by
  intro i w setting
  have hlex : (lex "(const x 1) ; one").fault = none := by decide +kernel
  have hread : (TokenStream.ofTokens (lex "(const x 1) ; one").tokens).readAll.2.1 = none := by
    decide +kernel
  have hfirst : answer? (i.evalAll setting "(const x 1) ; one" w) = some (.number 1) := by
    decide +kernel
  have hsecond : answer? ((i.evalAll setting "(const x 1) ; one" >>= fun _ ↦
      evalForms setting i.home .nothing (TokenStream.ofText "x \x0b").readAll.1) w) =
        some (.number 1) := by
    decide +kernel
  have hfault : (TokenStream.ofText "x \x0b").readAll.2.1 = some (.lexical ⟨'\x0b', 2⟩) := by
    decide +kernel
  obtain ⟨u, hu⟩ := ok_of_answer _ hfirst
  rw [bind_of_ok hu] at hsecond
  obtain ⟨x, hx⟩ := ok_of_answer _ hsecond
  have hcontinues := (evalAll_in_sequence i setting w hlex hread "x \x0b").2 _ _ hu
  exact ⟨u, x, hu, hcontinues.text_fails _ _ _ hfault hx⟩

/-- **What stands behind the first form is not evaluated**, but it has to fall into tokens. -/
theorem evalText_ignores_rest (i : Interpreter) (setting : Setting) (w : World) {a : String}
    {form : Form} (hlex : (lex a).fault = none) (hform : Form.Derives (lex a).tokens form)
    (b : String) :
    i.evalText setting a w = evalForm setting i.home form w ∧
      ((lex b).fault = none →
        i.evalText setting (a ++ "\n" ++ b) w = i.evalText setting a w) ∧
      ∀ f, (lex b).fault = some f →
        i.evalText setting (a ++ "\n" ++ b) w =
          .error (.fault (.lexical (f.shifted (a.length + 1)))) w := by
  have hfirst := readText_of_derives hlex hform
  have hboth := readText_in_sequence hlex hform b
  refine ⟨?_, fun hb ↦ ?_, fun f hb ↦ ?_⟩
  · rw [evalText, hfirst]
    rfl
  · rw [hb] at hboth
    rw [evalText, evalText, hboth, hfirst]
  · rw [hb] at hboth
    rw [evalText, hboth]
    rfl

/-- A definition and a comment, which are one form, and behind them a line that is no form, or one
that does not fall into tokens. -/
theorem evalText_ignores_rest_unbalanced :
    let i := (create Host.empty none none 0).1
    let w := (create Host.empty none none 0).2
    let setting : Setting := ⟨⟨9, 9, 9⟩, fun _ ↦ .ok none⟩
    (lex "(const x 1) ; one").fault = none ∧
      (∃ form, Form.Derives (lex "(const x 1) ; one").tokens form) ∧
      (lex "))( ;\x0b").fault = none ∧ (lex "x \x0b").fault = some ⟨'\x0b', 2⟩ ∧
      answer? (i.evalText setting ("(const x 1) ; one" ++ "\n" ++ "))( ;\x0b") w) =
        some (.number 1) ∧
      i.evalText setting ("(const x 1) ; one" ++ "\n" ++ "x \x0b") w =
        .error (.fault (.lexical ⟨'\x0b', 20⟩)) w := by
  intro i w setting
  have hlex : (lex "(const x 1) ; one").fault = none := by decide +kernel
  have htokens : (lex "(const x 1) ; one").tokens =
      "(" :: ["const", "x", "1"] ++ [")"] := by
    decide +kernel
  have hitems : Form.DerivesAll ["const", "x", "1"] (["const", "x", "1"].map Form.ofToken) :=
    .cons (.atom (by decide) (by decide)) <| .cons (.atom (by decide) (by decide)) <|
      .cons (.atom (by decide) (by decide)) Form.derivesAll_nil
  have hform := htokens ▸ hitems.list
  have hrest : (lex "))( ;\x0b").fault = none := by decide +kernel
  have hfault : (lex "x \x0b").fault = some ⟨'\x0b', 2⟩ := by decide +kernel
  have hfirst : answer? (i.evalText setting "(const x 1) ; one" w) = some (.number 1) := by
    decide +kernel
  refine ⟨hlex, ⟨_, hform⟩, hrest, hfault, ?_, ?_⟩
  · rw [(evalText_ignores_rest i setting w hlex hform _).2.1 hrest, hfirst]
  · exact (evalText_ignores_rest i setting w hlex hform _).2.2 _ hfault

end Interpreter

end DottedLisp
