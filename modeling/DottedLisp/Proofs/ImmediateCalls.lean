import DottedLisp.Proofs.DepthLimits
import DottedLisp.Proofs.LoopIterations
import DottedLisp.Proofs.ProperWorlds
import DottedLisp.Proofs.ShiftedWorlds
import DottedLisp.Proofs.SignalConfinement
import DottedLisp.Proofs.TailCalls.Equivalence

/-!
# Functions that are called where they are made

To call a function where it is made is to bind its parameters to the values of the operands in a
new scope and to evaluate its body there. A loop that is left with the value of that body before it
goes on does the same. The two come to it in different ways: the call makes a function object, which
captures the context, and applies it; the loop makes its first scope itself, takes a signal from its
body and hands the value in it out through the guard of special forms.

`Evaluation.letting` is what both do. It remains to compare how they do it in three respects. The
call has made **one function object more**, so that all that are made from then on have other
stamps. The loop needs the guard to let the value pass, which is no signal if none is bound. And the
body of the loop is nested **one deeper**.

Main statement: `Evaluation.immediate_call_is_loop`.
-/

namespace DottedLisp

namespace Form

/-- `((fn (names…) body) operands…)`. -/
def immediateCall (names : List String) (operands : List Form) (body : Form) : Form :=
  .list (.list [.symbol "fn", .list (names.map .symbol), body] :: operands)

/-- `(loop (names…) (operands…) (break body))`. -/
def singleStep (names : List String) (operands : List Form) (body : Form) : Form :=
  .list [.symbol "loop", .list (names.map .symbol), .list operands, body.leaving]

end Form

namespace Evaluation

/-- Bind names to the values of operands in a new scope and evaluate a body there. The operands and
the body may be evaluated by different evaluators. -/
def letting (e e' : Evaluator) (c : Context) (names : List String) (operands : List Form)
    (body : Form) : Evaluation Value := do
  let arguments ← values e c operands
  e' body (← openScope c names arguments) .value

variable {setting : Setting} {e : Evaluator} {c : Context} {position : Position}
  {names : List String} {operands : List Form} {body : Form} {w u : World}

/-! ### What the call and the loop do -/

/-- Distinct plain names are taken over as they stand. By induction on the names. -/
theorem parametersFrom_of_plain {seen : List String} (hplain : ∀ n ∈ names, Name.isFull n = false)
    (hdistinct : names.Nodup) (hseen : ∀ n ∈ names, n ∉ seen) :
    parametersFrom seen (names.map .symbol) = .ok (seen.reverse ++ names) := by
  induction names generalizing seen with
  | nil => simp [parametersFrom]
  | cons n names ih =>
    obtain ⟨hn, hdistinct⟩ := List.nodup_cons.1 hdistinct
    have hfull : Name.isFull n = false := hplain n (List.mem_cons_self ..)
    have hnew : n ∉ seen := hseen n (List.mem_cons_self ..)
    have hrest : ∀ m ∈ names, m ∉ n :: seen := by
      intro m hm hmem
      rcases List.mem_cons.1 hmem with rfl | hmem
      · exact hn hm
      · exact hseen m (List.mem_cons_of_mem _ hm) hmem
    have hmore := ih (fun m hm ↦ hplain m (List.mem_cons_of_mem _ hm)) hdistinct hrest
    simp [parametersFrom, hfull, hnew, hmore]

/-- Distinct plain identifiers are parameters. -/
theorem parameters_of_plain (hplain : ∀ n ∈ names, Name.isFull n = false)
    (hdistinct : names.Nodup) : parameters (.list (names.map .symbol)) = .ok names :=
  parametersFrom_of_plain hplain hdistinct fun _ _ ↦ List.not_mem_nil

/-- There are as many values as operands. By induction on the operands. -/
theorem length_of_values {results : List Value} (h : values e c operands w = .ok results u) :
    results.length = operands.length := by
  induction operands generalizing results w with
  | nil =>
    cases h
    rfl
  | cons form rest ih =>
    rcases hform : e form c .value w with ⟨v, x⟩ | ⟨f, x⟩
    · have hrest : (values e c rest >>= fun results ↦ pure (v :: results)) x = .ok results u :=
        (bind_of_ok hform).symm.trans h
      rcases hvalues : values e c rest x with ⟨more, y⟩ | ⟨f, y⟩
      · rw [bind_of_ok hvalues] at hrest
        cases hrest
        rw [List.length_cons, ih hvalues, List.length_cons]
      · rw [bind_of_error hvalues] at hrest
        cases hrest
    · cases (bind_of_error hform).symm.trans h

/-- Making a function takes a stamp and changes nothing else. -/
theorem closure_of_ok {parameterList : Form} (hnames : parameters parameterList = .ok names) :
    closure c [parameterList, body] w =
      .ok (.function ⟨.anonymous, Function.anonymousName, names, body, c, w.stamps⟩)
        w.addStamp.2 := by
  rw [closure, hnames]
  rfl

/-- The call, after the function is made. -/
theorem evaluate_immediateCall (hnames : parameters (.list (names.map .symbol)) = .ok names)
    (hcount : operands.length = names.length) (depth : Nat) :
    evaluate setting (depth + 2) (.immediateCall names operands body) c position w =
      letting (evaluate setting (depth + 1)) (evaluate setting (depth + 1)) c names operands body
        w.addStamp.2 := by
  -- The head makes the function. It is the stamp of this function that the loop does not take.
  have hmake : evaluate setting (depth + 1)
      (.list [.symbol "fn", .list (names.map .symbol), body]) c .value w =
        .ok (.function ⟨.anonymous, Function.anonymousName, names, body, c, w.stamps⟩)
          w.addStamp.2 := by
    rw [evaluate_succ, Simulation.step_special (show _ = some .closure from rfl)]
    exact bind_of_ok (closure_of_ok hnames)
  rw [evaluate_succ, Form.immediateCall, Simulation.step_call rfl, bind_of_ok hmake, letting]
  rcases hvalues : values (evaluate setting (depth + 1)) c operands w.addStamp.2 with
    ⟨arguments, u⟩ | ⟨f, u⟩
  · have hlength : arguments.length = names.length := (length_of_values hvalues).trans hcount
    rw [bind_of_ok hvalues, bind_of_ok hvalues]
    show (expectCount Function.anonymousName arguments.length names.length >>= fun _ ↦
      openScope c names arguments >>= fun scope ↦
        evaluate setting (depth + 1) body scope .value) u = _
    rw [expectCount, if_pos hlength]
    rfl
  · rw [bind_of_error hvalues, bind_of_error hvalues]

/-- The loop, before the guard. -/
theorem loop_singleStep (hsteps : 0 < setting.limits.steps)
    (hnames : parameters (.list (names.map .symbol)) = .ok names)
    (hcount : operands.length = names.length) (depth : Nat) :
    loop setting (evaluate setting (depth + 1)) c
        [.list (names.map .symbol), .list operands, body.leaving] w =
      letting (evaluate setting (depth + 1)) (evaluate setting depth) c names operands body w := by
  obtain ⟨steps, hsucc⟩ : ∃ steps, setting.limits.steps = steps + 1 :=
    Nat.exists_eq_succ_of_ne_zero (by omega)
  rw [letting]
  rcases hvalues : values (evaluate setting (depth + 1)) c operands w with
    ⟨arguments, u⟩ | ⟨f, u⟩
  · have hlength : arguments.length = names.length := (length_of_values hvalues).trans hcount
    rw [loop_of_ok hnames hvalues, bind_of_ok hvalues, hsucc]
    -- The body ends in one `break`, so the loop is over after one step.
    show ((if arguments.length = names.length then pure () else _) >>= fun _ ↦
      (openScope c names arguments >>= fun scope ↦
        step setting (evaluate setting depth) body.leaving scope .tail) >>=
          Loop.conclude _ steps) u = _
    rw [if_pos hlength, pure_bind, bind_assoc]
    simp only [step_leaving]
  · exact (bind_of_error hvalues).trans (bind_of_error hvalues).symm

/-! ### One run beside the other -/

/-- Both parts are followed, so the whole is, if all forms are admitted. -/
theorem follows_letting {setting' : Setting} {S : Simulation setting setting'}
    {e₁ e₂ e₁' e₂' : Evaluator} {w' : World} (he₁ : S.Evaluates e₁ e₁')
    (he₂ : S.Evaluates e₂ e₂') (hform : ∀ c position form, S.form c position form)
    (h : S.related w w') (hc : S.context w c) :
    S.Follows w w' (letting e₁ e₂ c names operands body)
      (letting e₁' e₂' (S.move c) names operands body) S.translate S.value := by
  refine (Simulation.follows_values he₁ h hc fun _ _ ↦ hform ..).bind
    fun arguments u u' hlater hu harguments ↦ ?_
  have houter : S.outer u c := S.outer_of_context (S.context_later hlater hc)
  exact (Simulation.follows_openScope hu houter harguments).bind fun scope x x' _ hx hscope ↦
    he₂ hx hscope.2 (hform ..)

/-- No signal comes out where none is bound. -/
theorem isSignal_of_letting (hw : w.SignalFree) {depth depth' : Nat} {v : Value}
    (h : letting (evaluate setting depth) (evaluate setting depth') c names operands body w =
      .ok v u) : v.isSignal = false := by
  have hends : (Discipline.confining setting).Ends w (fun _ v ↦ v.isSignal = false)
      (letting (evaluate setting depth) (evaluate setting depth') c names operands body w) :=
    Discipline.ends_of_follows (follows_letting ((Discipline.confining setting).evaluates depth)
      ((Discipline.confining setting).evaluates depth') (fun _ _ _ ↦ trivial) ⟨rfl, hw⟩ trivial)
  rw [h] at hends
  exact hends.2.2

/-- The loop, with one evaluation more around the body. -/
theorem evaluate_singleStep (hsteps : 0 < setting.limits.steps)
    (hnames : parameters (.list (names.map .symbol)) = .ok names)
    (hcount : operands.length = names.length) (hw : w.SignalFree) (depth : Nat) :
    evaluate setting (depth + 2) (.singleStep names operands body) c position w =
      letting (evaluate setting (depth + 1)) (evaluate setting depth) c names operands body w := by
  have hloop : loop setting (evaluate setting (depth + 1)) c
      [.list (names.map .symbol), .list operands, body.leaving] w =
        letting (evaluate setting (depth + 1)) (evaluate setting depth) c names operands body w :=
    loop_singleStep hsteps hnames hcount depth
  rw [evaluate_succ, Form.singleStep, Simulation.step_special (show _ = some .loop from rfl)]
  show (loop setting (evaluate setting (depth + 1)) c
    [.list (names.map .symbol), .list operands, body.leaving] >>= expectValue .loop position) w = _
  rcases hletting : letting (evaluate setting (depth + 1)) (evaluate setting depth) c names operands
    body w with ⟨v, u⟩ | ⟨f, u⟩
  · rw [hletting] at hloop
    rw [bind_of_ok hloop, expectValue, isSignal_of_letting hw hletting, Bool.and_false,
      if_neg Bool.false_ne_true]
    rfl
  · rw [hletting] at hloop
    exact bind_of_error hloop

/-- More depth makes no difference, unless it was exceeded. -/
theorem letting_of_le (setting : Setting) (c : Context) (names : List String)
    (operands : List Form) (body : Form) (w : World) {depth₁ depth₂ depth₁' depth₂' : Nat}
    (h₁ : depth₁ ≤ depth₁') (h₂ : depth₂ ≤ depth₂') :
    failure? (letting (evaluate setting depth₁) (evaluate setting depth₂) c names operands body w) =
        some .depthExceeded ∨
      letting (evaluate setting depth₁') (evaluate setting depth₂') c names operands body w =
        letting (evaluate setting depth₁) (evaluate setting depth₂) c names operands body w := by
  obtain ⟨limits, find⟩ := setting
  have hwithin := Limits.Within.refl limits
  have hcuts : Cuts limits limits
      (letting (evaluate ⟨limits, find⟩ depth₁) (evaluate ⟨limits, find⟩ depth₂) c names operands
        body)
      (letting (evaluate ⟨limits, find⟩ depth₁') (evaluate ⟨limits, find⟩ depth₂') c names
        operands body) :=
    (cuts_values (fun form ↦ cuts_evaluate_of_le hwithin h₁ form c .value) operands).bind
      fun _ ↦ (Cuts.refl _).bind fun scope ↦ cuts_evaluate_of_le hwithin h₂ body scope .value
  rcases hcuts w with ⟨f, u, hcut, rfl | ⟨-, hne⟩⟩ | hsame
  · exact Or.inl (by rw [hcut]; rfl)
  · exact absurd rfl hne
  · exact Or.inr hsame

/-- What exceeds the depth exceeds a smaller one. -/
theorem letting_exceeds_of_le {depth₁ depth₂ depth₁' depth₂' : Nat} (h₁ : depth₁ ≤ depth₁')
    (h₂ : depth₂ ≤ depth₂')
    (h : failure? (letting (evaluate setting depth₁') (evaluate setting depth₂') c names operands
      body w) = some .depthExceeded) :
    failure? (letting (evaluate setting depth₁) (evaluate setting depth₂) c names operands body w) =
      some .depthExceeded := by
  rcases letting_of_le setting c names operands body w h₁ h₂ with hcut | hsame
  · exact hcut
  · rw [← hsame]
    exact h

end Evaluation

/-! ### One function object more -/

/-- The functions from the `n`-th on have moved by one; namespaces and scopes have not. -/
def Shift.stampsFrom (n : Nat) : Shift :=
  ⟨⟨0, 0⟩, ⟨0, 0⟩, ⟨n, 1⟩⟩

namespace Shift

variable {n : Nat}

theorem space_stampsFrom (id : NamespaceId) : (stampsFrom n).space id = id := rfl

theorem scope_stampsFrom (id : ScopeId) : (stampsFrom n).scope id = id := rfl

/-- Contexts do not move where only functions do. -/
theorem move_stampsFrom (c : Context) : (stampsFrom n).move c = c := by
  induction c with
  | top id => rw [move, space_stampsFrom]
  | scope id outer ih => rw [move, ih, scope_stampsFrom]

/-- What was made before is the same. -/
theorem stampsFrom_value {v : Value} (h : v.Made n) : (stampsFrom n).value v = v := by
  cases v with
  | function f =>
    have hstamp : (stampsFrom n).stamps.shift f.stamp = f.stamp := Gap.shift_of_lt h
    rw [value, Value.translate_function, function, move_stampsFrom, hstamp]
  | signal => exact h.elim
  | _ => simp

end Shift

/-- A proper world in which one function object more was made. -/
theorem World.Proper.matches_addStamp {w : World} (hw : w.Proper) :
    w.Matches (.stampsFrom w.stamps) w.addStamp.2 where
  spaces := ⟨Nat.zero_le _, rfl⟩
  scopes := ⟨Nat.zero_le _, rfl⟩
  stamps := ⟨Nat.le_refl _, rfl⟩
  path_eq _ := rfl
  bindings_eq id := (Bindings.map_eq_self fun entry hentry ↦
    Shift.stampsFrom_value (hw.namespaces id entry hentry)).symm
  scope_eq id := (Bindings.map_eq_self fun entry hentry ↦
    Shift.stampsFrom_value (hw.scopes id entry hentry)).symm
  registry_eq := (List.map_id _).symm
  loaded_eq := rfl

namespace Evaluation

/-- The outcomes of a run and of one before which one function object more was made, when there were
`n`: the same answer or the same failure, in worlds that are the same but for the stamps of the
functions that were made since. -/
inductive SameFrom (n : Nat) :
    EStateM.Result Failure World Value → EStateM.Result Failure World Value → Prop
  | ok {v : Value} {u u' : World} : u.Matches (.stampsFrom n) u' →
    SameFrom n (.ok v u) (.ok ((Shift.stampsFrom n).value v) u')
  | error {f : Failure} {u u' : World} : u.Matches (.stampsFrom n) u' →
    SameFrom n (.error f u) (.error f u')

variable {setting : Setting} {c : Context} {position : Position} {names : List String}
  {operands : List Form} {body : Form} {w : World}

/-- Outcomes that are the same up to stamps fail alike. -/
theorem SameFrom.failure?_eq {n : Nat} {r r' : EStateM.Result Failure World Value}
    (h : SameFrom n r r') : failure? r' = failure? r := by
  rcases h with - | -
  · rfl
  · rfl

/-- An answer has its counterpart, in a world that matches. -/
theorem SameFrom.of_ok {n : Nat} {v : Value} {u : World}
    {r : EStateM.Result Failure World Value} (h : SameFrom n (.ok v u) r) :
    ∃ u', r = .ok ((Shift.stampsFrom n).value v) u' ∧ u.Matches (.stampsFrom n) u' := by
  rcases h with ⟨hmatches⟩
  exact ⟨_, rfl, hmatches⟩

/-- What comes after the function is made cannot tell that it was made. -/
theorem sameFrom_letting (hw : w.Proper) (depth : Nat) :
    SameFrom w.stamps
      (letting (evaluate setting depth) (evaluate setting depth) c names operands body w)
      (letting (evaluate setting depth) (evaluate setting depth) c names operands body
        w.addStamp.2) := by
  let S := shifting (.stampsFrom w.stamps) setting
  have hfollows : S.Follows w w.addStamp.2
      (letting (evaluate setting depth) (evaluate setting depth) c names operands body)
      (letting (evaluate setting depth) (evaluate setting depth) (S.move c) names operands body)
      S.translate S.value :=
    follows_letting (evaluates_shifting _ setting depth) (evaluates_shifting _ setting depth)
      (fun _ _ _ ↦ trivial) hw.matches_addStamp trivial
  rw [show S.move c = c from Shift.move_stampsFrom c] at hfollows
  rcases outcomes_of_shifting hfollows with
    ⟨v, u, u', hm, hm', hmatches⟩ | ⟨f, u, u', hm, hm', hmatches⟩
  · rw [hm, hm']
    exact .ok hmatches
  · rw [hm, hm']
    exact .error hmatches

/-- If neither run exceeds its depth, it does not matter what the depths are. -/
theorem sameFrom_letting_of_depths (hw : w.Proper) (depth₁ depth₂ depth : Nat) :
    failure? (letting (evaluate setting depth) (evaluate setting depth) c names operands body
        w.addStamp.2) = some .depthExceeded ∨
      failure? (letting (evaluate setting depth₁) (evaluate setting depth₂) c names operands body
        w) = some .depthExceeded ∨
      SameFrom w.stamps
        (letting (evaluate setting depth₁) (evaluate setting depth₂) c names operands body w)
        (letting (evaluate setting depth) (evaluate setting depth) c names operands body
          w.addStamp.2) := by
  -- both are what they are at a depth that is enough for all
  obtain ⟨enough, h₁, h₂, h⟩ : ∃ enough, depth₁ ≤ enough ∧ depth₂ ≤ enough ∧ depth ≤ enough :=
    ⟨depth₁ + depth₂ + depth, by omega, by omega, by omega⟩
  rcases letting_of_le setting c names operands body w.addStamp.2 h h with hcut | hsecond
  · exact Or.inl hcut
  rcases letting_of_le setting c names operands body w h₁ h₂ with hcut | hfirst
  · exact Or.inr (Or.inl hcut)
  · rw [← hfirst, ← hsecond]
    exact Or.inr (Or.inr (sameFrom_letting hw enough))

/-! ### The two forms -/

/-- With depth for fewer than two evaluations the call does not come to its body. -/
theorem immediateCall_exceeds {depth : Nat} (h : depth < 2) :
    failure? (evaluate setting depth (.immediateCall names operands body) c position w) =
      some .depthExceeded := by
  obtain rfl | rfl : depth = 0 ∨ depth = 1 := by omega
  · rfl
  · rfl

/-- Neither does the loop. -/
theorem singleStep_exceeds (hsteps : 0 < setting.limits.steps)
    (hnames : parameters (.list (names.map .symbol)) = .ok names)
    (hcount : operands.length = names.length) {depth : Nat} (h : depth < 2) :
    failure? (evaluate setting depth (.singleStep names operands body) c position w) =
      some .depthExceeded := by
  obtain ⟨steps, hsucc⟩ : ∃ steps, setting.limits.steps = steps + 1 :=
    Nat.exists_eq_succ_of_ne_zero (by omega)
  obtain rfl | rfl : depth = 0 ∨ depth = 1 := by omega
  · rfl
  · rcases operands with - | ⟨form, rest⟩
    · -- without operands the loop comes to its body, which is the second evaluation
      obtain rfl : names = [] := List.eq_nil_of_length_eq_zero hcount.symm
      have hrun : loop setting (evaluate setting 0) c [.list [], .list [], body.leaving] w =
          (Loop.ofForm (evaluate setting 0) c [] body.leaving).run setting.limits.steps [] w :=
        loop_of_ok rfl rfl
      have hcut : loop setting (evaluate setting 0) c [.list [], .list [], body.leaving] w =
          .error .depthExceeded (w.addScope c).2 := by
        rw [hrun, hsucc]
        rfl
      rw [evaluate_succ, Form.singleStep, Simulation.step_special (show _ = some .loop from rfl)]
      exact congrArg failure? (bind_of_error hcut)
    · rfl

/-- **A function that is called where it is made is a loop of a single step.** Let the names be
distinct plain identifiers and the operands be as many, and let loops be allowed to take a step.
The world is proper, as are all that interpreters get into (`Interpreter.proper_of_reachable`).

In every context and whatever the body, the call and the loop have the same outcome, unless one of
them exceeds the depth: the same answer or the same failure, and all namespaces and scopes bind the
same. Only the stamps of functions that are made on the way differ, since the call makes one more.
The loop nests one deeper at most, and never less deep than the call. -/
theorem immediate_call_is_loop (setting : Setting) (hsteps : 0 < setting.limits.steps)
    {names : List String} (hplain : ∀ n ∈ names, Name.isFull n = false)
    (hdistinct : names.Nodup) {operands : List Form} (hcount : operands.length = names.length)
    (body : Form) (c : Context) (position : Position) {w : World} (hw : w.Proper) :
    let call (depth : Nat) :=
      evaluate setting depth (.immediateCall names operands body) c position w
    let loop (depth : Nat) :=
      evaluate setting depth (.singleStep names operands body) c position w
    (∀ depth depth', failure? (call depth) = some .depthExceeded ∨
      failure? (loop depth') = some .depthExceeded ∨
        SameFrom w.stamps (loop depth') (call depth)) ∧
    (∀ depth, failure? (call depth) = some .depthExceeded →
      failure? (loop depth) = some .depthExceeded) ∧
    ∀ depth, failure? (loop (depth + 1)) = some .depthExceeded →
      failure? (call depth) = some .depthExceeded := by
  intro call loop
  have hnames := parameters_of_plain hplain hdistinct
  -- Both forms come to the same binding of operands, one function earlier or later.
  have hfree : w.SignalFree := World.All.mono hw fun _ hv ↦ hv.isSignal
  have hcall (depth : Nat) : call (depth + 2) = letting (evaluate setting (depth + 1))
      (evaluate setting (depth + 1)) c names operands body w.addStamp.2 :=
    evaluate_immediateCall hnames hcount depth
  have hloop (depth : Nat) : loop (depth + 2) = letting (evaluate setting (depth + 1))
      (evaluate setting depth) c names operands body w :=
    evaluate_singleStep hsteps hnames hcount hfree depth
  refine ⟨fun depth depth' ↦ ?_, fun depth h ↦ ?_, fun depth h ↦ ?_⟩
  · rcases Nat.lt_or_ge depth 2 with hlt | hge
    · exact Or.inl (immediateCall_exceeds hlt)
    rcases Nat.lt_or_ge depth' 2 with hlt' | hge'
    · exact Or.inr (Or.inl (singleStep_exceeds hsteps hnames hcount hlt'))
    obtain ⟨depth, rfl⟩ := Nat.exists_eq_add_of_le' hge
    obtain ⟨depth', rfl⟩ := Nat.exists_eq_add_of_le' hge'
    rw [hcall, hloop]
    exact sameFrom_letting_of_depths hw ..
  · rcases Nat.lt_or_ge depth 2 with hlt | hge
    · exact singleStep_exceeds hsteps hnames hcount hlt
    obtain ⟨depth, rfl⟩ := Nat.exists_eq_add_of_le' hge
    rw [hcall, (sameFrom_letting hw _).failure?_eq] at h
    rw [hloop]
    exact letting_exceeds_of_le (Nat.le_refl _) (Nat.le_succ _) h
  · rcases Nat.lt_or_ge depth 2 with hlt | hge
    · exact immediateCall_exceeds hlt
    obtain ⟨depth, rfl⟩ := Nat.exists_eq_add_of_le' hge
    rw [hloop] at h
    rw [hcall, (sameFrom_letting hw _).failure?_eq]
    exact letting_exceeds_of_le (Nat.le_succ _) (Nat.le_refl _) h

/-- A body that makes a function itself, `(fn () x)`, in a fresh interpreter: what comes out of the
loop is the first function that is made there, and what comes out of the call is the second. -/
theorem immediate_call_is_loop_closure :
    let setting : Setting := ⟨⟨9, 9, 9⟩, fun _ ↦ .ok none⟩
    let w := (Interpreter.create Host.empty none none 0).2
    let body : Form := .list [.symbol "fn", .list [], .symbol "x"]
    let loop := evaluate setting 9 (.singleStep ["x", "y"] [.number 1, .number 2] body) (.top ⟨5⟩)
      .value w
    let call := evaluate setting 9 (.immediateCall ["x", "y"] [.number 1, .number 2] body)
      (.top ⟨5⟩) .value w
    let made (stamp : Nat) : Value :=
      .function ⟨.anonymous, "lambda", [], .symbol "x", .scope ⟨0⟩ (.top ⟨5⟩), stamp⟩
    ∃ u u', loop = .ok (made 105) u ∧ call = .ok (made 106) u' ∧
      u.Matches (.stampsFrom 105) u' := by
  intro setting w body loop call made
  have hw : w.Proper :=
    Interpreter.proper_of_reachable ⟨Host.empty, none, none, 0, rfl, .refl _⟩
  have hstamps : w.stamps = 105 := by decide +kernel
  have hloop : answer? loop = some (made 105) := by decide +kernel
  have hcall : failure? call = none := by decide +kernel
  obtain ⟨u, hu⟩ := ok_of_answer _ hloop
  have hsteps : 0 < setting.limits.steps := by decide
  have hplain : ∀ n ∈ ["x", "y"], Name.isFull n = false := by decide
  have hdistinct : ["x", "y"].Nodup := by decide
  have hcount : [Form.number 1, Form.number 2].length = ["x", "y"].length := rfl
  obtain ⟨hsame, -⟩ :=
    immediate_call_is_loop setting hsteps hplain hdistinct hcount body (.top ⟨5⟩) .value hw
  rcases hsame 9 9 with hcut | hcut | hagree
  · cases hcall.symm.trans hcut
  · cases (congrArg failure? hu).symm.trans hcut
  · have hok : SameFrom 105 (.ok (made 105) u) call := by
      rw [← hu, ← hstamps]
      exact hagree
    obtain ⟨u', hu', hmatches⟩ := hok.of_ok
    exact ⟨u, u', hu, hu', hmatches⟩

end Evaluation

end DottedLisp
