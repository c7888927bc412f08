import DottedLisp.Interpreter
import DottedLisp.Proofs.Simulation.Evaluator

/-!
# Iterations of a loop

Each run of a loop's body returns to the loop before the next one begins, so what an iteration needs
of the depth is given back at its end. The module says this of single iterations. `Loop.iteration`
is one of them **on its own**: the test of its values, and then the body in a scope of its own, by
the evaluator that is nested in the loop. `Loop.Passes` strings them together, the values with which
one asks for another handed on, together with the world it leaves.

Main statement: what becomes of a `loop` form or of a call of a recursive function is settled by the
iterations it comes to (`iterations_cost_no_depth`). How many there are matters only for the limit
on steps, which is a limit of its own; a loop that never ends is one that exceeds every such limit.
-/

namespace DottedLisp.Evaluation

namespace Loop

variable {l : Loop} {values next last : List Value} {w x u : World} {steps n : Nat}

/-- One iteration: the values are tested, then the body is run with them. -/
def iteration (l : Loop) (values : List Value) : Evaluation Value := do
  l.check values
  l.body values

/-- `l.Passes n w values u last`: from `w` and `values`, `n` iterations that each ask for another
one lead to `u` and `last`, each begun in the world and with the values that the one before it left.
-/
inductive Passes (l : Loop) : Nat → World → List Value → World → List Value → Prop
  | refl (w : World) (values : List Value) : Passes l 0 w values w values
  | again {n : Nat} {w x u : World} {values next last : List Value}
    (h : l.iteration values w = .ok (.signal .again next) x) (hrest : Passes l n x next u last) :
    Passes l (n + 1) w values u last

/-- What the loop ends in, if an iteration of it has the given outcome; `none` if it goes on. -/
def verdict (l : Loop) :
    EStateM.Result Failure World Value → Option (EStateM.Result Failure World Value)
  | .ok (.signal .again _) _ => none
  | .ok (.signal .leave [v]) u => some (.ok v u)
  | .ok (.signal .leave values) u => some (.error (.fault (l.wrongResult values.length)) u)
  | .ok _ u => some (.error (.fault (.unended l.owner)) u)
  | .error f u => some (.error f u)

/-! ### One iteration after the other -/

/-- A run is an iteration, and what the loop makes of its outcome. -/
theorem run_eq_iteration (l : Loop) (steps : Nat) (values : List Value) (w : World) :
    l.run (steps + 1) values w = (l.iteration values >>= l.conclude steps) w := by
  show (l.check values >>= fun _ ↦ l.body values >>= l.conclude steps) w =
    ((l.check values >>= fun _ ↦ l.body values) >>= l.conclude steps) w
  rcases hcheck : l.check values w with ⟨⟨⟩, x⟩ | ⟨f, x⟩
  · have hbody : (l.check values >>= fun _ ↦ l.body values) w = l.body values x :=
      bind_of_ok hcheck
    rw [bind_of_ok hcheck]
    exact bind_of_eq hbody.symm
  · rw [bind_of_error hcheck, bind_of_error (bind_of_error hcheck)]

/-- An iteration that asks for another one is followed by the rest of the run. -/
theorem run_of_again (h : l.iteration values w = .ok (.signal .again next) x) :
    l.run (steps + 1) values w = l.run steps next x := by
  rw [run_eq_iteration, bind_of_ok h]
  rfl

/-- An iteration that does not ask for another one ends the loop. -/
theorem run_of_verdict {r : EStateM.Result Failure World Value}
    (h : l.verdict (l.iteration values w) = some r) : l.run (steps + 1) values w = r := by
  rw [run_eq_iteration]
  rcases hlast : l.iteration values w with ⟨v, x⟩ | ⟨f, x⟩
  · rw [bind_of_ok hlast]
    rw [hlast] at h
    match v, h with
    | .signal .leave [v], h => exact Option.some.inj h
    | .signal .leave [], h => exact Option.some.inj h
    | .signal .leave (_ :: _ :: _), h => exact Option.some.inj h
    | .nothing, h => exact Option.some.inj h
    | .number _, h => exact Option.some.inj h
    | .native .., h => exact Option.some.inj h
    | .function _, h => exact Option.some.inj h
  · rw [bind_of_error hlast]
    rw [hlast] at h
    exact Option.some.inj h

/-- An iteration asks for another one, or there is a verdict. -/
theorem again_of_verdict {r : EStateM.Result Failure World Value} (h : l.verdict r = none) :
    ∃ next x, r = .ok (.signal .again next) x := by
  match r, h with
  | .ok (.signal .again next) x, _ => exact ⟨next, x, rfl⟩
  | .ok (.signal .leave [_]) _, h => cases h
  | .ok (.signal .leave []) _, h => cases h
  | .ok (.signal .leave (_ :: _ :: _)) _, h => cases h
  | .ok .nothing _, h => cases h
  | .ok (.number _) _, h => cases h
  | .ok (.native ..) _, h => cases h
  | .ok (.function _) _, h => cases h
  | .error _ _, h => cases h

/-- **Iterations that were made are no matter**, but for the steps that they took. -/
theorem run_of_passes (h : l.Passes n w values u last) (steps : Nat) :
    l.run (n + steps) values w = l.run steps last u := by
  induction h with
  | refl => rw [Nat.zero_add]
  | again h _ ih => rw [Nat.add_right_comm, run_of_again h, ih]

/-- A loop either makes all the steps it is given, or comes to an iteration that ends it. -/
theorem passes_or_verdict (l : Loop) (steps : Nat) (values : List Value) (w : World) :
    (∃ u last, l.Passes steps w values u last) ∨
      ∃ n u last r, n < steps ∧ l.Passes n w values u last ∧
        l.verdict (l.iteration last u) = some r := by
  induction steps generalizing values w with
  | zero => exact Or.inl ⟨w, values, .refl w values⟩
  | succ steps ih =>
    rcases hverdict : l.verdict (l.iteration values w) with - | r
    · obtain ⟨next, x, hagain⟩ := again_of_verdict hverdict
      rcases ih next x with ⟨u, last, hpasses⟩ | ⟨n, u, last, r, hlt, hpasses, hr⟩
      · exact Or.inl ⟨u, last, .again hagain hpasses⟩
      · exact Or.inr ⟨n + 1, u, last, r, Nat.succ_lt_succ hlt, .again hagain hpasses, hr⟩
    · exact Or.inr ⟨0, w, values, r, Nat.succ_pos steps, .refl w values, hverdict⟩

/-- **What a loop ends in**: the verdict on the first iteration that does not ask for another one,
or exceeded steps if it comes to none. -/
theorem run_eq_iff {r : EStateM.Result Failure World Value} :
    l.run steps values w = r ↔
      (∃ n u last, n < steps ∧ l.Passes n w values u last ∧
        l.verdict (l.iteration last u) = some r) ∨
      ∃ u last, l.Passes steps w values u last ∧ r = .error .stepsExceeded u := by
  -- There are two ways to end, by a verdict or for want of steps; one of them is always met, so it
  -- is enough to show that each is an end.
  have hends {n : Nat} {u : World} {last : List Value} {r : EStateM.Result Failure World Value}
      (hlt : n < steps) (hpasses : l.Passes n w values u last)
      (hr : l.verdict (l.iteration last u) = some r) : l.run steps values w = r := by
    obtain ⟨k, rfl⟩ := Nat.exists_eq_add_of_lt hlt
    rw [Nat.add_assoc, run_of_passes hpasses, run_of_verdict hr]
  have hexceeds {u : World} {last : List Value} (hpasses : l.Passes steps w values u last) :
      l.run steps values w = .error .stepsExceeded u := run_of_passes hpasses 0
  constructor
  · rintro rfl
    rcases passes_or_verdict l steps values w with ⟨u, last, hpasses⟩ |
      ⟨n, u, last, r, hlt, hpasses, hr⟩
    · exact Or.inr ⟨u, last, hpasses, hexceeds hpasses⟩
    · exact Or.inl ⟨n, u, last, hlt, hpasses, by rw [hr, hends hlt hpasses hr]⟩
  · rintro (⟨n, u, last, hlt, hpasses, hr⟩ | ⟨u, last, hpasses, rfl⟩)
    · exact hends hlt hpasses hr
    · exact hexceeds hpasses

/-! ### How a loop ends -/

/-- What a loop comes to, said of its iterations; `admits` says which values may be its answer. -/
structure Settles (l : Loop) (steps : Nat) (w : World) (values : List Value) (admits : Value → Prop)
    (outcome : EStateM.Result Failure World Value) : Prop where
  /-- It exceeds the depth exactly if one of its iterations does. -/
  depth_iff : ∀ u, outcome = .error .depthExceeded u ↔
    ∃ n x last, n < steps ∧ l.Passes n w values x last ∧
      l.iteration last x = .error .depthExceeded u
  /-- It answers exactly with the one value that its last iteration leaves with. -/
  answer_iff : ∀ v u, outcome = .ok v u ↔
    (∃ n x last, n < steps ∧ l.Passes n w values x last ∧
      l.iteration last x = .ok (.signal .leave [v]) u) ∧ admits v
  /-- Any other failure of an iteration is its failure, too. -/
  fails : ∀ n x last f u, n < steps → l.Passes n w values x last →
    l.iteration last x = .error f u → outcome = .error f u

/-- A loop runs out of depth exactly where an iteration does. -/
theorem verdict_eq_depthExceeded {r : EStateM.Result Failure World Value} :
    l.verdict r = some (.error .depthExceeded u) ↔ r = .error .depthExceeded u := by
  constructor
  · intro h
    match r, h with
    | .error _ _, h => exact Option.some.inj h
    | .ok (.signal .leave [_]) _, h => cases h
  · rintro rfl
    rfl

/-- A loop is answered exactly where an iteration leaves it with one value. -/
theorem verdict_eq_ok {r : EStateM.Result Failure World Value} {v : Value} :
    l.verdict r = some (.ok v u) ↔ r = .ok (.signal .leave [v]) u := by
  constructor
  · intro h
    match r, h with
    | .ok (.signal .leave [_]) _, h =>
      cases h
      rfl
  · rintro rfl
    rfl

/-- Every run settles as its iterations say, without a condition on the answer. -/
theorem settles_run (l : Loop) (steps : Nat) (values : List Value) (w : World) :
    l.Settles steps w values (fun _ ↦ True) (l.run steps values w) := by
  refine ⟨fun u ↦ ?_, fun v u ↦ ?_, fun n x last f u hlt hpasses hlast ↦ ?_⟩
  · simp [run_eq_iff, verdict_eq_depthExceeded]
  · simp [run_eq_iff, verdict_eq_ok]
  · exact run_eq_iff.2 (Or.inl ⟨n, x, last, hlt, hpasses, by rw [hlast]; rfl⟩)

end Loop

/-- The guard of a special form adds only a fault, where a value is needed and a signal stands. -/
theorem expectValue_eq_iff {m : Evaluation Value} {keyword : SpecialForm} {position : Position}
    {w : World} :
    (∀ u, (m >>= expectValue keyword position) w = .error .depthExceeded u ↔
        m w = .error .depthExceeded u) ∧
      ∀ v u, (m >>= expectValue keyword position) w = .ok v u ↔
        m w = .ok v u ∧ ¬(position = .value ∧ v.isSignal = true) := by
  rcases hm : m w with ⟨a, x⟩ | ⟨f, x⟩
  · rw [bind_of_ok hm]
    simp only [expectValue]
    by_cases hguard : position = .value ∧ a.isSignal = true
    · rw [if_pos (by simpa using hguard)]
      refine ⟨fun u ↦ ⟨nofun, nofun⟩, fun v u ↦ ⟨nofun, ?_⟩⟩
      rintro ⟨⟨⟩, hv⟩
      exact absurd hguard hv
    · rw [if_neg (by simpa using hguard)]
      refine ⟨fun u ↦ ⟨nofun, nofun⟩, fun v u ↦ ⟨?_, And.left⟩⟩
      rintro ⟨⟩
      exact ⟨rfl, hguard⟩
  · rw [bind_of_error hm]
    exact ⟨fun u ↦ Iff.rfl, fun v u ↦ ⟨nofun, nofun⟩⟩

/-- The guard behind a loop form refuses signals and nothing else. -/
theorem settles_expectValue {l : Loop} {steps : Nat} {w u : World} {values : List Value}
    {m : Evaluation Value} (h : l.Settles steps u values (fun _ ↦ True) (m w))
    (keyword : SpecialForm) (position : Position) :
    l.Settles steps u values (fun v ↦ ¬(position = .value ∧ v.isSignal = true))
      ((m >>= expectValue keyword position) w) := by
  refine ⟨fun x ↦ ?_, fun v x ↦ ?_, fun n x last f y hlt hpasses hlast ↦ ?_⟩
  · rw [expectValue_eq_iff.1, h.depth_iff]
  · rw [expectValue_eq_iff.2, h.answer_iff, and_true]
  · exact bind_of_error (h.fails n x last f y hlt hpasses hlast)

/-- A loop form whose parts are in order is a run of its loop, from the values of its initials. -/
theorem loop_of_ok {setting : Setting} {e : Evaluator} {c : Context} {parameterList body : Form}
    {initials : List Form} {names : List String} {arguments : List Value} {w u : World}
    (hnames : parameters parameterList = .ok names)
    (harguments : values e c initials w = .ok arguments u) :
    loop setting e c [parameterList, .list initials, body] w =
      (Loop.ofForm e c names body).run setting.limits.steps arguments u := by
  show (values e c initials >>= fun initials ↦ ofFault (parameters parameterList) >>= fun names ↦
    (Loop.ofForm e c names body).run setting.limits.steps initials) w = _
  rw [bind_of_ok harguments, hnames]
  rfl

/-- **Iterations cost no depth.** Every iteration of a loop is run by the evaluator that the first
one is run by, and what the loop comes to is settled by its iterations one by one: the depth is
exceeded only if it is exceeded within one of them, however many there are, and the answer is what
the last of them leaves with. This holds of every `loop` form whose parameters and initial values
are in order, and of every call of a recursive function. -/
theorem iterations_cost_no_depth (setting : Setting) (depth : Nat) :
    (∀ (parameterList body : Form) (initials : List Form) (c : Context) (position : Position)
        (w u : World) (names : List String) (arguments : List Value),
      parameters parameterList = .ok names →
      values (evaluate setting depth) c initials w = .ok arguments u →
      (Loop.ofForm (evaluate setting depth) c names body).Settles setting.limits.steps u arguments
        (fun v ↦ ¬(position = .value ∧ v.isSignal = true))
        (evaluate setting (depth + 1)
          (.list [.symbol "loop", parameterList, .list initials, body]) c position w)) ∧
      ∀ (operator : Form) (f : Function) (arguments : List Value) (w : World),
        f.kind = .recursive →
        (Loop.ofFunction (evaluate setting depth) f).Settles setting.limits.steps w arguments
          (fun _ ↦ True)
          (apply setting (evaluate setting depth) operator (.function f) arguments w) := by
  constructor
  · intro parameterList body initials c position w u names arguments hnames harguments
    have hhead : (Form.symbol "loop").special? = some .loop := rfl
    have hrun : special setting (evaluate setting depth) .loop
        [parameterList, .list initials, body] c position w =
        (Loop.ofForm (evaluate setting depth) c names body).run setting.limits.steps arguments u :=
      loop_of_ok hnames harguments
    rw [evaluate_succ, Simulation.step_special hhead]
    refine settles_expectValue ?_ .loop position
    rw [hrun]
    exact Loop.settles_run ..
  · intro operator f arguments w hkind
    have hrun : apply setting (evaluate setting depth) operator (.function f) arguments =
        (Loop.ofFunction (evaluate setting depth) f).run setting.limits.steps arguments :=
      if_pos hkind
    rw [hrun]
    exact Loop.settles_run ..

/-- A loop body that counts `x` down to zero:
`(if (native.i64.eq x 0) (break x) (recur (native.i64.sub x 1)))`. -/
def descent : Form :=
  .list [.symbol "if", .list [.symbol "native.i64.eq", .symbol "x", .number 0],
    .list [.symbol "break", .symbol "x"],
    .list [.symbol "recur", .list [.symbol "native.i64.sub", .symbol "x", .number 1]]]

/-- A loop and a recursive function that count down from twenty where five evaluations nest at most:
each of the iterations needs four. -/
theorem iterations_cost_no_depth_descent :
    let setting : Setting := ⟨⟨5, 5, 100⟩, fun _ ↦ .ok none⟩
    let w := (Interpreter.create Host.empty none none 0).2
    let l := Loop.ofForm (evaluate setting 4) (.top ⟨5⟩) ["x"] descent
    let f : Function := ⟨.recursive, "f", ["x"], descent, .top ⟨5⟩, 0⟩
    (∃ u, evaluate setting 5
          (.list [.symbol "loop", .list [.symbol "x"], .list [.number 20], descent]) (.top ⟨5⟩)
          .value w = .ok (.number 0) u ∧
        ∃ n x last, n < 100 ∧ l.Passes n w [.number 20] x last ∧
          l.iteration last x = .ok (.signal .leave [.number 0]) u) ∧
      ∃ u, apply setting (evaluate setting 4) (.symbol "f") (.function f) [.number 20] w =
          .ok (.number 0) u ∧
        ∃ n x last, n < 100 ∧
          (Loop.ofFunction (evaluate setting 4) f).Passes n w [.number 20] x last ∧
          (Loop.ofFunction (evaluate setting 4) f).iteration last x =
            .ok (.signal .leave [.number 0]) u := by
  intro setting w l f
  have hloop : answer? (evaluate setting 5
      (.list [.symbol "loop", .list [.symbol "x"], .list [.number 20], descent]) (.top ⟨5⟩)
      .value w) = some (.number 0) := by
    decide +kernel
  have hcall : answer? (apply setting (evaluate setting 4) (.symbol "f") (.function f)
      [.number 20] w) = some (.number 0) := by
    decide +kernel
  obtain ⟨u, hu⟩ := ok_of_answer _ hloop
  obtain ⟨v, hv⟩ := ok_of_answer _ hcall
  have hsettles := iterations_cost_no_depth setting 4
  have hform := hsettles.1 (.list [.symbol "x"]) descent [.number 20] (.top ⟨5⟩) .value w w ["x"]
    [.number 20] rfl rfl
  have hcalls := hsettles.2 (.symbol "f") f [.number 20] w rfl
  exact ⟨⟨u, hu, ((hform.answer_iff _ _).1 hu).1⟩, v, hv, ((hcalls.answer_iff _ _).1 hv).1⟩

end DottedLisp.Evaluation
