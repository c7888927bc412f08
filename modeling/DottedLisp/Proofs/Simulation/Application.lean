import DottedLisp.Proofs.Simulation.Operations

/-!
# Lists of forms, loops and calls under a simulation

Everything that evaluates forms nested in others, given that these are followed (`Evaluates`).

Calls of functions stand apart in `Calls`, because a simulation may put a function of another shape
in a function's place; where it does not, `follows_apply_function` gives them.
-/

namespace DottedLisp

namespace Form

/-- A form that ends a control path begins with one of four keywords. -/
theorem EndsPath.special {head : Form} {operands : List Form}
    (h : EndsPath (.list (head :: operands))) :
    head.special? = some .leave ∨ head.special? = some .again ∨
      head.special? = some .conditional ∨ head.special? = some .block := by
  cases h with
  | leave h => exact Or.inl h
  | again h => exact Or.inr (Or.inl h)
  | conditional h => exact Or.inr (Or.inr (Or.inl h))
  | block h => exact Or.inr (Or.inr (Or.inr h))

end Form

namespace Evaluation

/-- What a loop does with the result of a run of its body. -/
def Loop.conclude (l : Loop) (steps : Nat) : Value → Evaluation Value
  | .signal .again values => l.run steps values
  | .signal .leave [value] => return value
  | .signal .leave values => fail (l.wrongResult values.length)
  | _ => fail (.unended l.owner)

/-- One step of a loop: the count of the values, the body, and what it concludes from that. -/
theorem Loop.run_succ (l : Loop) (steps : Nat) (values : List Value) :
    l.run (steps + 1) values =
      (l.check values >>= fun _ ↦ l.body values >>= l.conclude steps) :=
  rfl

theorem Loop.conclude_of_isSignal {l : Loop} {steps : Nat} {v : Value}
    (h : v.isSignal = false) : l.conclude steps v = fail (.unended l.owner) := by
  cases v with
  | signal => cases h
  | _ => rfl

end Evaluation

namespace Simulation

open Evaluation

variable {setting setting' : Setting} (S : Simulation setting setting')

/-- Nested evaluations are followed. -/
def Evaluates (e e' : Evaluator) : Prop :=
  ∀ {form : Form} {c : Context} {position : Position} {w w' : World}, S.related w w' →
    S.context w c → S.form c position form →
    S.Follows w w' (e form c position) (e' form (S.move c) position) S.translate
      (S.result position)

/-- Calls of functions are followed. -/
def Calls (e e' : Evaluator) : Prop :=
  ∀ {operator : Form} {f : Function} {arguments : List Value} {w w' : World}, S.related w w' →
    S.value w (.function f) → (∀ a ∈ arguments, S.value w a) →
    S.Follows w w' (apply setting e operator (.function f) arguments)
      (apply setting' e' operator (.function (S.function f)) (arguments.map S.translate))
      S.translate S.value

variable {S} {e e' : Evaluator} {w w' : World} {c : Context} {position : Position}

/-! ### Results in a position -/

/-- A value is a result in every position in which a form may have one. -/
theorem result_of_value {form : Form} {v : Value} (hform : S.form c position form)
    (hends : ¬ form.EndsPath) (hv : S.value w v) : S.result position w v := by
  cases position with
  | value => exact hv
  | tail => exact Or.inr ⟨S.failure_of_not_endsPath hform hends, hv⟩

/-- The value of a special form that ends no control path, as a result. -/
theorem result_of_value_special {head : Form} {operands : List Form} {keyword : SpecialForm}
    {v : Value} (hform : S.form c position (.list (head :: operands)))
    (hhead : head.special? = some keyword)
    (hkeyword : keyword ≠ .leave ∧ keyword ≠ .again ∧ keyword ≠ .conditional ∧ keyword ≠ .block)
    (hv : S.value w v) : S.result position w v := by
  refine result_of_value hform (fun hends ↦ ?_) hv
  have hspecial := hends.special
  rw [hhead] at hspecial
  simp only [Option.some.injEq] at hspecial
  obtain ⟨hleave, hagain, hconditional, hblock⟩ := hkeyword
  rcases hspecial with h | h | h | h
  · exact hleave h
  · exact hagain h
  · exact hconditional h
  · exact hblock h

/-- In tail position there is a signal with values, or something that is no signal. -/
theorem signal_of_result_tail {v : Value} (h : S.result .tail w v) :
    (∃ s values, v = .signal s values ∧ ∀ x ∈ values, S.value w x) ∨
      (∀ f, S.failure f) ∧ v.isSignal = false := by
  rcases h with hsignal | ⟨hfailure, hv⟩
  · exact Or.inl hsignal
  · cases v with
    | signal s values => exact Or.inl ⟨s, values, rfl, fun x hx ↦ S.value_signal hv hx⟩
    | _ => exact Or.inr ⟨hfailure, rfl⟩

/-! ### Lists of forms -/

/-- **Forms evaluated from the left**, until one fails. By induction on the forms. -/
theorem follows_values (he : S.Evaluates e e') :
    ∀ {forms : List Form} {w w' : World}, S.related w w' → S.context w c →
      (∀ form ∈ forms, S.form c .value form) →
      S.Follows w w' (values e c forms) (values e' (S.move c) forms) (List.map S.translate)
        fun u results ↦ ∀ v ∈ results, S.value u v := by
  intro forms
  induction forms with
  | nil =>
    intro w w' h _ _
    exact follows_pure (t := List.map S.translate) (a := []) h (by simp)
  | cons form rest ih =>
    intro w w' h hc hforms
    refine (he h hc (hforms form (List.mem_cons_self ..))).bind fun v u u' hlater hu hv ↦ ?_
    have hrest := ih hu (S.context_later hlater hc)
      fun x hx ↦ hforms x (List.mem_cons_of_mem _ hx)
    refine hrest.bind fun results y y' hlater' hy hresults ↦ ?_
    refine follows_pure (t := List.map S.translate) (a := v :: results) hy ?_
    intro x hx
    rcases List.mem_cons.1 hx with rfl | hx
    · exact S.value_later hlater' hv
    · exact hresults x hx

/-- Evaluating forms one after the other, for what they change. -/
theorem follows_each (he : S.Evaluates e e') :
    ∀ {forms : List Form} {w w' : World}, S.related w w' → S.context w c →
      (∀ form ∈ forms, S.form c .value form) →
      S.Follows w w' (forms.forM fun form ↦ discard (e form c .value))
        (forms.forM fun form ↦ discard (e' form (S.move c) .value)) (fun a ↦ a)
        fun u _ ↦ S.context u c := by
  intro forms
  induction forms with
  | nil =>
    intro w w' h hc _
    exact follows_pure (t := fun a ↦ a) (a := ()) h hc
  | cons form rest ih =>
    intro w w' h hc hforms
    have hfirst := he h hc (hforms form (List.mem_cons_self ..))
    refine hfirst.discard.bind fun _ u u' hlater hu _ ↦ ?_
    exact ih hu (S.context_later hlater hc) fun x hx ↦ hforms x (List.mem_cons_of_mem _ hx)

/-- A sequence has the result of its last form; an empty one has none of its own. -/
theorem follows_sequence (he : S.Evaluates e e') :
    ∀ {forms : List Form} {w w' : World}, S.related w w' → S.context w c →
      (∀ form ∈ forms.dropLast, S.form c .value form) →
      (∀ form, forms.getLast? = some form → S.form c position form) →
      (forms = [] → S.result position w .nothing) →
      S.Follows w w' (sequence e c position forms) (sequence e' (S.move c) position forms)
        S.translate (S.result position) := by
  intro forms
  induction forms with
  | nil =>
    intro w w' h _ _ _ hnothing
    exact follows_pure (t := S.translate) (a := .nothing) h (hnothing rfl)
  | cons form rest ih =>
    intro w w' h hc hinit hlast _
    cases rest with
    | nil => exact he h hc (hlast form rfl)
    | cons next rest =>
      have hfirst := he h hc (hinit form (List.mem_cons_self ..))
      refine hfirst.discard.bind fun _ u u' hlater hu _ ↦ ?_
      -- the last form of the rest is the last form
      refine ih hu (S.context_later hlater hc) (fun x hx ↦ hinit x ?_) (fun x hx ↦ hlast x ?_)
        (fun hnil ↦ by cases hnil)
      · rw [List.dropLast_cons_of_ne_nil (List.cons_ne_nil _ _)]
        exact List.mem_cons_of_mem _ hx
      · rw [List.getLast?_cons_cons]
        exact hx

/-! ### Loops -/

/-- **Loops.** The body is followed at every world that comes later than the one the loop was
entered in, so by induction on the steps all runs of it are. -/
theorem follows_run (l l' : Loop) (howner : l'.owner = l.owner)
    (hwrong : l'.wrongResult = l.wrongResult)
    (hplacing : ∀ n, (Failure.fault (l.wrongResult n)).isPlacing = false)
    (hcheck : ∀ {u u' : World} {values : List Value}, S.related u u' →
      S.Follows u u' (l.check values) (l'.check (values.map S.translate)) id fun _ _ ↦ True)
    (hbody : ∀ {u u' : World} {values : List Value}, S.later w u → S.related u u' →
      (∀ v ∈ values, S.value u v) →
      S.Follows u u' (l.body values) (l'.body (values.map S.translate)) S.translate
        (S.result .tail)) :
    ∀ {steps steps' : Nat} {u u' : World} {values : List Value}, steps ≤ steps' →
      S.excused .stepsExceeded ∨ steps' = steps → S.later w u → S.related u u' →
      (∀ v ∈ values, S.value u v) →
      S.Follows u u' (l.run steps values) (l'.run steps' (values.map S.translate)) S.translate
        S.value := by
  intro steps
  induction steps with
  | zero =>
    -- no step is left: this is excused, or the second run has none left either
    intro steps' u u' values _ heq _ hu _
    have hfailure : S.failure .stepsExceeded := S.failure_of_not_placing rfl
    rcases heq with hexcused | rfl
    · exact Follows.of_excused (f := .stepsExceeded) rfl hfailure hexcused hu
    · exact follows_throw hu hfailure
  | succ steps ih =>
    intro steps' u u' values hsteps heq hlater hu hvalues
    obtain ⟨steps', rfl⟩ : ∃ n, steps' = n + 1 := ⟨steps' - 1, by omega⟩
    rw [Loop.run_succ, Loop.run_succ]
    refine (hcheck hu).bind fun _ x x' hux hx _ ↦ ?_
    have hlaterx := S.later_trans hlater hux
    refine (hbody hlaterx hx fun v hv ↦ S.value_later hux (hvalues v hv)).bind
      fun result y y' hxy hy hresult ↦ ?_
    rcases signal_of_result_tail hresult with ⟨s, values, rfl, hvalues⟩ | ⟨hfailure, hsignal⟩
    · rw [translate, Value.translate_signal]
      cases s with
      | again =>
        exact ih (by omega) (heq.imp_right (by omega)) (S.later_trans hlaterx hxy) hy hvalues
      | leave =>
        match values, hvalues with
        | [v], hvalues => exact follows_pure (t := S.translate) hy (hvalues v (by simp))
        | [], _ =>
          show S.Follows y y' (fail (l.wrongResult 0)) (fail (l'.wrongResult 0)) S.translate
            S.value
          rw [hwrong]
          exact follows_fail hy (hplacing 0)
        | _ :: _ :: rest, _ =>
          show S.Follows y y' (fail (l.wrongResult (rest.length + 2)))
            (fail (l'.wrongResult ((rest.map S.translate).length + 2))) S.translate S.value
          rw [hwrong, List.length_map]
          exact follows_fail hy (hplacing _)
    · -- the loop's own guard; both runs meet it, where failures are not restricted
      have hsignal' : (S.translate result).isSignal = false := by
        rw [Value.isSignal_translate]
        exact hsignal
      rw [Loop.conclude_of_isSignal hsignal, Loop.conclude_of_isSignal hsignal', howner]
      exact follows_throw hy (hfailure _)

/-- **Loops that evaluate their body in a scope of its own for each run.** -/
theorem follows_run_scopes (he : S.Evaluates e e') (h : S.related w w') (l l' : Loop)
    {names : List String} {body : Form} (howner : l'.owner = l.owner)
    (hwrong : l'.wrongResult = l.wrongResult)
    (hplacing : ∀ n, (Failure.fault (l.wrongResult n)).isPlacing = false)
    (hcheck : ∀ {u u' : World} {values : List Value}, S.related u u' →
      S.Follows u u' (l.check values) (l'.check (values.map S.translate)) id fun _ _ ↦ True)
    (hbody : l.body = fun values ↦ openScope c names values >>= fun scope ↦ e body scope .tail)
    (hbody' : l'.body = fun values ↦
      openScope (S.move c) names values >>= fun scope ↦ e' body scope .tail)
    (houter : S.outer w c)
    (hform : ∀ {u : World}, S.later w u → S.world u → S.form (u.addScope c).1 .tail body)
    {steps steps' : Nat} {values : List Value} (hsteps : steps ≤ steps')
    (heq : S.excused .stepsExceeded ∨ steps' = steps) (hvalues : ∀ v ∈ values, S.value w v) :
    S.Follows w w' (l.run steps values) (l'.run steps' (values.map S.translate)) S.translate
      S.value := by
  refine follows_run (w := w) l l' howner hwrong hplacing hcheck ?_ hsteps heq (S.later_refl w) h
    hvalues
  intro u u' values hlater hu hvalues
  rw [hbody, hbody']
  refine (follows_openScope hu (S.outer_later hlater houter) hvalues).bind
    fun scope x x' _ hx ⟨hscope, hc⟩ ↦ ?_
  rw [hscope] at hc ⊢
  exact he hx hc (hform hlater (S.world_of_related hu))

/-- The loop of a function, and of one of the same shape. -/
theorem follows_run_function (he : S.Evaluates e e') (h : S.related w w') {f : Function}
    (stamp : Nat) (houter : S.outer w f.context)
    (hform : ∀ {u : World}, S.later w u → S.world u →
      S.form (u.addScope f.context).1 .tail f.body)
    {steps steps' : Nat} {values : List Value} (hsteps : steps ≤ steps')
    (heq : S.excused .stepsExceeded ∨ steps' = steps) (hvalues : ∀ v ∈ values, S.value w v) :
    S.Follows w w' ((Loop.ofFunction e f).run steps values)
      ((Loop.ofFunction e' { f with context := S.move f.context, stamp := stamp }).run steps'
        (values.map S.translate)) S.translate S.value := by
  refine follows_run_scopes he h (Loop.ofFunction e f)
    (Loop.ofFunction e' { f with context := S.move f.context, stamp := stamp }) rfl rfl
    (fun _ ↦ rfl) ?_ rfl rfl houter hform hsteps heq hvalues
  intro u u' values hu
  have hcheck := follows_expectCount hu f.name values.length f.parameters.length
  show S.Follows u u' (expectCount f.name values.length f.parameters.length)
    (expectCount f.name (values.map S.translate).length f.parameters.length) id _
  rw [List.length_map]
  exact hcheck.mono fun _ _ _ _ ↦ trivial

/-- The loop of a `loop` form. -/
theorem follows_run_form (he : S.Evaluates e e') (h : S.related w w') {names : List String}
    {body : Form} (houter : S.outer w c)
    (hform : ∀ {u : World}, S.later w u → S.world u → S.form (u.addScope c).1 .tail body)
    {steps steps' : Nat} {values : List Value} (hsteps : steps ≤ steps')
    (heq : S.excused .stepsExceeded ∨ steps' = steps) (hvalues : ∀ v ∈ values, S.value w v) :
    S.Follows w w' ((Loop.ofForm e c names body).run steps values)
      ((Loop.ofForm e' (S.move c) names body).run steps' (values.map S.translate)) S.translate
      S.value := by
  refine follows_run_scopes he h (Loop.ofForm e c names body)
    (Loop.ofForm e' (S.move c) names body) rfl rfl (fun _ ↦ rfl) ?_ rfl rfl houter hform hsteps heq
    hvalues
  intro u u' values hu
  show S.Follows u u'
    (if values.length = names.length then pure ()
      else fail (.loopArguments values.length names.length))
    (if (values.map S.translate).length = names.length then pure ()
      else fail (.loopArguments (values.map S.translate).length names.length)) id _
  rw [List.length_map]
  split
  · exact follows_pure (t := id) (a := ()) hu trivial
  · exact follows_fail hu rfl

/-! ### Calls -/

/-- Evaluating the body of a function in a scope of its own. -/
theorem follows_activation (he : S.Evaluates e e') (h : S.related w w') {f : Function}
    {arguments : List Value} (hf : S.value w (.function f))
    (harguments : ∀ a ∈ arguments, S.value w a) :
    S.Follows w w'
      (openScope f.context f.parameters arguments >>= fun c ↦ e f.body c f.kind.bodyPosition)
      (openScope (S.move f.context) f.parameters (arguments.map S.translate) >>= fun c ↦
        e' f.body c f.kind.bodyPosition)
      S.translate (S.result f.kind.bodyPosition) := by
  have hworld := S.world_of_related h
  refine (follows_openScope h (S.outer_function hworld hf) harguments).bind
    fun c u u' _ hu ⟨heq, hc⟩ ↦ ?_
  exact he hu hc (heq ▸ S.form_body hworld hf)

/-- Calls of a function are followed where the second run has a function of the same shape. -/
theorem follows_apply_function (he : S.Evaluates e e') (h : S.related w w') {operator : Form}
    {f : Function} {arguments : List Value} (stamp : Nat)
    (hshape : S.function f = { f with context := S.move f.context, stamp := stamp })
    (hf : S.value w (.function f))
    (harguments : ∀ a ∈ arguments, S.value w a) :
    S.Follows w w' (apply setting e operator (.function f) arguments)
      (apply setting' e' operator (.function (S.function f)) (arguments.map S.translate))
      S.translate S.value := by
  rw [hshape]
  unfold apply
  by_cases hkind : f.kind = .recursive
  · simp only [hkind, if_true]
    have houter := S.outer_function (S.world_of_related h) hf
    refine follows_run_function he h stamp houter (fun hlater hu ↦ ?_) S.steps_le S.steps_eq
      harguments
    have hbody := S.form_body hu (S.value_later hlater hf)
    rwa [hkind] at hbody
  · simp only [hkind, if_false, List.length_map]
    refine (follows_expectCount h f.name arguments.length f.parameters.length).bind
      fun _ u u' hlater hu _ ↦ ?_
    have hbody := follows_activation he hu (S.value_later hlater hf)
      fun a ha ↦ S.value_later hlater (harguments a ha)
    have hposition : f.kind.bodyPosition = .value := by
      rcases hk : f.kind with - | - | -
      · rfl
      · rfl
      · exact absurd hk hkind
    rw [hposition] at hbody
    exact hbody

/-- A call of a function, of a native function, or of what is neither. -/
theorem follows_apply (hcalls : S.Calls e e') (h : S.related w w') {operator : Form}
    {function : Value} {arguments : List Value} (hf : S.value w function)
    (harguments : ∀ a ∈ arguments, S.value w a) :
    S.Follows w w' (apply setting e operator function arguments)
      (apply setting' e' operator (S.translate function) (arguments.map S.translate)) S.translate
      S.value := by
  cases function with
  | native n stamp =>
    rw [translate, Value.translate_native]
    unfold apply
    rw [List.length_map]
    refine (follows_expectCount h n.name arguments.length n.arity).bind
      fun _ u u' hlater hu _ ↦ ?_
    exact follows_call hu n fun a ha ↦ S.value_later hlater (harguments a ha)
  | function f =>
    rw [translate, Value.translate_function]
    exact hcalls h hf harguments
  | nothing =>
    rw [translate, Value.translate_nothing]
    exact follows_fail h rfl
  | number x =>
    rw [translate, Value.translate_number]
    exact follows_fail h rfl
  | signal s values =>
    rw [translate, Value.translate_signal]
    exact follows_fail h rfl

end Simulation

end DottedLisp
