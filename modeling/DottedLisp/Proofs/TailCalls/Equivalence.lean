import DottedLisp.Proofs.TailCalls.Exchange

/-!
# Recursion and loops agree

A function that calls itself nests one evaluation in another for each call. The function with the
rewritten body runs them one after the other, as steps of a loop. **Calls of the two end alike**:
with the same value or the same failure, and with the same changes to all namespaces and scopes,
where the one function object stands for the other.

Two statements are proved together, by induction on the depth of the first run.

* Every form, in every context, is followed by **itself**. This covers calls of the function among
  operands, or by other functions.
* A form in tail position of the body is followed by the **rewritten** form together with what the
  loop does with its signal. Here the context matters: the scopes around the form leave the name of
  the function free, so a call under that name is a call of the function.

A level of the first run takes at most two of the second, as `(break e)` puts one more around `e`.
That is all that is said about limits: the second run needs twice the depth and a step for each
level.
-/

namespace DottedLisp

/-! ### Forms in tail position, with what a loop does next -/

namespace Evaluation

variable {setting : Setting} {e : Evaluator} {c : Context} {head : Form} {operands : List Form}
  {l : Loop} {steps : Nat}

/-- In tail position the guard lets everything through. -/
theorem step_tail {keyword : SpecialForm} (hhead : head.special? = some keyword) :
    step setting e (.list (head :: operands)) c .tail =
      special setting e keyword operands c .tail := by
  rw [Simulation.step_special hhead]
  show (special setting e keyword operands c .tail >>= pure) = _
  rw [bind_pure]

/-- A loop that is left by `(break e)` answers with the value of `e`. -/
theorem step_leaving (form : Form) :
    (step setting e form.leaving c .tail >>= l.conclude steps) = e form c .value := by
  rw [Form.leaving, step_tail (show (Form.symbol _).special? = some .leave from rfl)]
  show ((values e c [form] >>= fun results ↦ pure (.signal .leave results)) >>=
    l.conclude steps) = _
  simp only [values, bind_assoc, pure_bind, Loop.conclude, bind_pure]

/-- A loop that goes on by `recur` runs again with the values of the operands. -/
theorem step_again :
    (step setting e (.list (.symbol SpecialForm.again.keyword :: operands)) c .tail >>=
      l.conclude steps) = (values e c operands >>= l.run steps) := by
  rw [step_tail (show (Form.symbol _).special? = some .again from rfl)]
  show ((values e c operands >>= fun results ↦ pure (.signal .again results)) >>=
    l.conclude steps) = _
  simp only [bind_assoc, pure_bind, Loop.conclude]

/-- A sequence, its last form apart. -/
theorem sequence_concat (position : Position) (init : List Form) (last : Form) :
    sequence e c position (init ++ [last]) =
      ((init.forM fun form ↦ discard (e form c .value)) >>= fun _ ↦ e last c position) := by
  induction init with
  | nil => rfl
  | cons form rest ih =>
    have hsequence : sequence e c position (form :: (rest ++ [last])) =
        (discard (e form c .value) >>= fun _ ↦ sequence e c position (rest ++ [last])) := by
      cases rest with
      | nil => rfl
      | cons next rest => rfl
    rw [List.cons_append, hsequence, ih]
    show _ = ((discard (e form c .value) >>= fun _ ↦
      rest.forM fun form ↦ discard (e form c .value)) >>= _)
    rw [bind_assoc]

end Evaluation

namespace Simulation

open Evaluation

variable {setting setting' : Setting} {S : Simulation setting setting'} {α : Type} {w w' : World}

/-- How the first run came to its answer may be kept. -/
theorem Follows.traced {m m' : Evaluation α} {t : α → α} {P : World → α → Prop}
    (hm : S.Follows w w' m m' t P) :
    S.Follows w w' m m' t fun u a ↦ P u a ∧ m w = .ok a u := by
  unfold Follows at *
  split at hm
  · rename_i a u heq
    obtain ⟨hworld, hlater, ha, hrest⟩ := hm
    exact ⟨hworld, hlater, ⟨ha, heq⟩, hrest⟩
  · exact hm

/-- Where values are no signals, the guard of the first run lets them through. -/
theorem Follows.guarded {m m' : Evaluation Value} (keyword : SpecialForm)
    (hS : ∀ u v, S.value u v → v.isSignal = false)
    (hm : S.Follows w w' m m' S.translate S.value) :
    S.Follows w w' (m >>= expectValue keyword .value) m' S.translate S.value := by
  have hguard : S.Follows w w' (m >>= expectValue keyword .value) (m' >>= pure) S.translate
      S.value := by
    refine hm.bind fun v u u' _ hu hv ↦ ?_
    have hpass : expectValue keyword .value v = pure v := by
      simp [expectValue, hS u v hv]
    rw [hpass]
    exact follows_pure (t := S.translate) hu hv
  rwa [bind_pure] at hguard

end Simulation

/-! ### The two runs -/

section Recursion

open Evaluation

variable {f : Function} {home : NamespaceId} {setting setting' : Setting}
  (hwider : setting.Wider setting')

/-- The loop of the rewritten function. -/
abbrev loopOf (setting : Setting) (depth : Nat) (f : Function) : Loop :=
  Loop.ofFunction (evaluate setting depth) f.recurring

/-- Forms are followed by themselves, up to a depth of the first run. -/
def FollowedBySelf (f : Function) (home : NamespaceId) (depth : Nat) : Prop :=
  ∀ depth', 2 * depth ≤ depth' →
    (exchanging f home hwider).Evaluates (evaluate setting depth) (evaluate setting' depth')

/-- Forms in tail position are followed by what they are rewritten into and the loop around it. -/
def FollowedByLoop (f : Function) (home : NamespaceId) (depth : Nat) : Prop :=
  ∀ {depth' loopDepth steps : Nat} {form : Form} {c : Context} {w w' : World},
    2 * depth + 1 ≤ depth' → 2 * depth + 1 ≤ loopDepth → depth ≤ steps →
    (exchanging f home hwider).related w w' → c.home = home → w.Free f.name c.scopes →
    form.lets f.name = false →
    (exchanging f home hwider).Follows w w' (evaluate setting depth form c .value)
      (evaluate setting' depth' (form.recurring f.name) c .tail >>=
        (loopOf setting' loopDepth f).conclude steps)
      (exchanging f home hwider).translate (exchanging f home hwider).value

variable {hwider}

/-- Nothing bound is a signal. -/
theorem isSignal_of_value {u : World} {v : Value} (h : (exchanging f home hwider).value u v) :
    v.isSignal = false :=
  h.isSignal

/-- **A call of the function is followed by a run of the loop.** -/
theorem follows_call_loop (hf : f.Rewritable home) {depth loopDepth steps : Nat}
    (htail : FollowedByLoop hwider f home depth) (hdepth : 2 * depth + 1 ≤ loopDepth)
    (hsteps : depth ≤ steps) (operator : Form) {arguments : List Value} {w w' : World}
    (h : (exchanging f home hwider).related w w')
    (harguments : ∀ a ∈ arguments, (exchanging f home hwider).value w a) :
    (exchanging f home hwider).Follows w w'
      (apply setting (evaluate setting depth) operator (.function f) arguments)
      ((loopOf setting' loopDepth f).run (steps + 1)
        (arguments.map (exchanging f home hwider).translate))
      (exchanging f home hwider).translate (exchanging f home hwider).value := by
  have hcall : apply setting (evaluate setting depth) operator (.function f) arguments =
      (expectCount f.name arguments.length f.parameters.length >>= fun _ ↦
        openScope f.context f.parameters arguments >>= fun c ↦
          evaluate setting depth f.body c .value) := by
    unfold apply
    simp only [hf.kind_eq, reduceCtorEq, if_false]
  rw [hcall, Loop.run_succ]
  show (exchanging f home hwider).Follows w w' _
    (expectCount f.name (arguments.map (exchanging f home hwider).translate).length
        f.parameters.length >>= fun _ ↦
      (openScope f.context f.parameters
          (arguments.map (exchanging f home hwider).translate) >>= fun c ↦
        evaluate setting' loopDepth (f.body.recurring f.name) c .tail) >>=
        (loopOf setting' loopDepth f).conclude steps) _ _
  rw [List.length_map]
  refine (Simulation.follows_expectCount h f.name arguments.length f.parameters.length).bind
    fun _ u u' hlater hu _ ↦ ?_
  rw [bind_assoc, hf.context_eq]
  have hvalues : ∀ a ∈ arguments, (exchanging f home hwider).value u a :=
    fun a ha ↦ (exchanging f home hwider).value_later hlater (harguments a ha)
  refine (Simulation.follows_openScope hu trivial hvalues).traced.bind
    fun c x x' _ hx ⟨⟨hc, _⟩, hopen⟩ ↦ ?_
  have hhome : c.home = home := by
    rw [hc]
    rfl
  have hfree : x.Free f.name c.scopes :=
    free_of_openScope setting hopen (fun id hid ↦ by cases hid) hf.not_mem
  exact htail hdepth hdepth hsteps hx hhome hfree hf.lets_eq

/-- Calls are followed, of the function itself by the loop. -/
theorem calls_exchanging (hf : f.Rewritable home) {depth depth' : Nat}
    (hself : FollowedBySelf hwider f home depth) (htail : FollowedByLoop hwider f home depth)
    (hdepth : 2 * depth + 1 ≤ depth') (hsteps : depth + 1 ≤ setting'.limits.steps) :
    (exchanging f home hwider).Calls (evaluate setting depth) (evaluate setting' depth') := by
  intro operator g arguments w w' h hg harguments
  by_cases hgf : g = f
  · -- the function itself: its call is compared with a run of the loop
    subst hgf
    obtain ⟨steps, hsteps'⟩ : ∃ n, setting'.limits.steps = n + 1 :=
      ⟨setting'.limits.steps - 1, by omega⟩
    have hloop := follows_call_loop hf htail hdepth (show depth ≤ steps by omega) operator h
      harguments
    rw [← hsteps'] at hloop
    have hrun : apply setting' (evaluate setting' depth') operator
        (.function ((exchanging g home hwider).function g))
        (arguments.map (exchanging g home hwider).translate) =
        (loopOf setting' depth' g).run setting'.limits.steps
          (arguments.map (exchanging g home hwider).translate) := by
      show apply setting' (evaluate setting' depth') operator (.function (g.exchange g)) _ = _
      rw [g.exchange_self]
      rfl
    rw [hrun]
    exact hloop
  · -- every other function has the same body in both runs
    have hsame : (exchanging f home hwider).function g = { g with stamp := g.stamp } :=
      Function.exchange_of_ne hgf
    exact Simulation.follows_apply_function (hself depth' (by omega)) h g.stamp hsame hg harguments

/-! ### Forms in tail position, one level up -/

section Tail

variable {depth depth' loopDepth steps : Nat} {c : Context} {w w' : World} {head : Form}
  (htail : FollowedByLoop hwider f home depth) (hdepth : 2 * depth + 1 ≤ depth')
  (hloop : 2 * depth + 1 ≤ loopDepth) (hsteps : depth ≤ steps)
  (h : (exchanging f home hwider).related w w') (hfree : w.Free f.name c.scopes)

include htail hdepth hloop hsteps h hfree

/-- The original evaluates the condition and a branch; the rewritten function does the same and
concludes the step of its loop from what the branch gives. -/
theorem follows_tail_conditional (hself : FollowedBySelf hwider f home depth)
    (hhome : c.home = home) {condition yes no : Form} (hhead : head.special? = some .conditional)
    (hlets : (Form.list [head, condition, yes, no]).lets f.name = false) :
    (exchanging f home hwider).Follows w w'
      (evaluate setting (depth + 1) (.list [head, condition, yes, no]) c .value)
      (evaluate setting' (depth' + 1)
          (.list [head, condition, yes.recurring f.name, no.recurring f.name]) c .tail >>=
        (loopOf setting' loopDepth f).conclude steps)
      (exchanging f home hwider).translate (exchanging f home hwider).value := by
  have hparts := Form.lets_of_mem hlets
  rw [evaluate_succ, evaluate_succ, Simulation.step_special hhead, step_tail hhead]
  refine Simulation.Follows.guarded .conditional (fun _ _ ↦ isSignal_of_value) ?_
  show (exchanging f home hwider).Follows w w'
    (evaluate setting depth condition c .value >>= fun v ↦
      if v.isTrue = true then evaluate setting depth yes c .value
      else evaluate setting depth no c .value)
    ((evaluate setting' depth' condition c .value >>= fun v ↦
      if v.isTrue = true then evaluate setting' depth' (yes.recurring f.name) c .tail
      else evaluate setting' depth' (no.recurring f.name) c .tail) >>= _) _ _
  rw [bind_assoc]
  refine (hself depth' (by omega) h trivial trivial).traced.bind
    fun v u u' _ hu ⟨hv, hrun⟩ ↦ ?_
  have hfree' := free_of_evaluate hrun hfree (hparts condition (by simp))
  rw [Value.isTrue_translate]
  split
  · exact htail hdepth hloop hsteps hu hhome hfree' (hparts yes (by simp))
  · exact htail hdepth hloop hsteps hu hhome hfree' (hparts no (by simp))

/-- The scope and the forms before the last one are those of the original; only the last one is
rewritten. -/
theorem follows_tail_block (hself : FollowedBySelf hwider f home depth) (hhome : c.home = home)
    {init : List Form} {last : Form} (hhead : head.special? = some .block)
    (hlets : (Form.list (head :: (init ++ [last]))).lets f.name = false) :
    (exchanging f home hwider).Follows w w'
      (evaluate setting (depth + 1) (.list (head :: (init ++ [last]))) c .value)
      (evaluate setting' (depth' + 1) (.list (head :: (init ++ [last.recurring f.name]))) c
          .tail >>=
        (loopOf setting' loopDepth f).conclude steps)
      (exchanging f home hwider).translate (exchanging f home hwider).value := by
  have hparts := Form.lets_of_mem hlets
  rw [evaluate_succ, evaluate_succ, Simulation.step_special hhead, step_tail hhead]
  refine Simulation.Follows.guarded .block (fun _ _ ↦ isSignal_of_value) ?_
  show (exchanging f home hwider).Follows w w'
    (openScope c [] [] >>= fun scope ↦
      sequence (evaluate setting depth) scope .value (init ++ [last]))
    ((openScope c [] [] >>= fun scope ↦
      sequence (evaluate setting' depth') scope .tail (init ++ [last.recurring f.name])) >>= _) _ _
  rw [bind_assoc]
  have hnone : ∀ v ∈ ([] : List Value), (exchanging f home hwider).value w v := by simp
  refine (Simulation.follows_openScope h trivial hnone).traced.bind
    fun scope u u' _ hu ⟨⟨hscope, _⟩, hopen⟩ ↦ ?_
  have hfree' := free_of_openScope setting hopen hfree (List.not_mem_nil)
  have hhome' : scope.home = home := by
    rw [hscope]
    exact hhome
  rw [sequence_concat, sequence_concat, bind_assoc]
  refine (Simulation.follows_each (hself depth' (by omega)) hu trivial
    fun _ _ ↦ trivial).traced.bind fun _ x x' _ hx ⟨_, hinit⟩ ↦ ?_
  have hfree'' := free_of_each hinit hfree' fun form hform ↦ hparts form (by simp [hform])
  exact htail hdepth hloop hsteps hx hhome' hfree'' (hparts last (by simp))

/-- A call under the function's name, in a context where it means the function. -/
theorem follows_tail_call (hf : f.Rewritable home) (hself : FollowedBySelf hwider f home depth)
    (hhome : c.home = home) (operands : List Form) :
    (exchanging f home hwider).Follows w w'
      (evaluate setting (depth + 1) (.list (.symbol f.name :: operands)) c .value)
      (evaluate setting' (depth' + 1)
          (.list (.symbol SpecialForm.again.keyword :: operands)) c .tail >>=
        (loopOf setting' loopDepth f).conclude (steps + 1))
      (exchanging f home hwider).translate (exchanging f home hwider).value := by
  rw [evaluate_succ, evaluate_succ, Simulation.step_call hf.special_eq, step_again]
  obtain - | depth := depth
  · -- too shallow even to look the name up
    exact Simulation.Follows.of_excused (f := .depthExceeded) rfl trivial rfl h
  have hoperator : evaluate setting (depth + 1) (.symbol f.name) c .value w =
      .ok (.function f) w := by
    have hlookup : w.lookup? c f.name = some (.function f) := by
      rw [World.lookup_of_free hfree, hhome, h.1.bound]
    show lookup c f.name w = _
    simp [lookup, hf.isFull_eq, Evaluation.get, hlookup]
  have hcall : (exchanging f home hwider).Follows w w'
      (values (evaluate setting (depth + 1)) c operands >>= fun arguments ↦
        apply setting (evaluate setting (depth + 1)) (.symbol f.name) (.function f) arguments)
      (values (evaluate setting' depth') c operands >>=
        (loopOf setting' loopDepth f).run (steps + 1))
      (exchanging f home hwider).translate (exchanging f home hwider).value := by
    refine (Simulation.follows_values (hself depth' (by omega)) h trivial
      fun _ _ ↦ trivial).bind fun arguments u u' _ hu harguments ↦ ?_
    exact follows_call_loop hf htail hloop hsteps _ hu harguments
  exact hcall.congr (bind_of_ok hoperator) rfl

end Tail

/-! ### All forms -/

/-- **Both statements at every depth**, as long as the loops of the second run have a step for each
level. -/
theorem followed (hf : f.Rewritable home) (depth : Nat) (hsteps : depth ≤ setting'.limits.steps) :
    FollowedBySelf hwider f home depth ∧ FollowedByLoop hwider f home depth := by
  induction depth with
  | zero =>
    refine ⟨?_, ?_⟩
    · intro depth' _ form c position w w' h _ _
      exact Simulation.Follows.of_excused (f := .depthExceeded) rfl trivial rfl h
    · intro depth' loopDepth steps form c w w' _ _ _ h _ _ _
      exact Simulation.Follows.of_excused (f := .depthExceeded) rfl trivial rfl h
  | succ depth ih =>
    obtain ⟨hself, htail⟩ := ih (by omega)
    have hself' : FollowedBySelf hwider f home (depth + 1) := by
      intro depth' hdepth
      obtain ⟨depth', rfl⟩ : ∃ n, depth' = n + 1 := ⟨depth' - 1, by omega⟩
      exact Simulation.evaluates_step (hself depth' (by omega))
        (calls_exchanging hf hself htail (by omega) hsteps)
    refine ⟨hself', ?_⟩
    intro depth' loopDepth steps form c w w' hdepth hloop hsteps h hhome hfree hlets
    obtain ⟨depth', rfl⟩ : ∃ n, depth' = n + 1 := ⟨depth' - 1, by omega⟩
    have hrewrites := form.rewrites_recurring f.name
    generalize form.recurring f.name = target at hrewrites
    cases hrewrites with
    | conditional hhead =>
      exact follows_tail_conditional htail (by omega) (by omega) (by omega) h hfree hself hhome
        hhead hlets
    | block hhead =>
      exact follows_tail_block htail (by omega) (by omega) (by omega) h hfree hself hhome
        hhead hlets
    | again =>
      -- the call starts one level deeper in the first run, and one step later in the second
      obtain ⟨steps, rfl⟩ : ∃ n, steps = n + 1 := ⟨steps - 1, by omega⟩
      exact follows_tail_call htail (by omega) (by omega) (by omega) h hfree hf hself hhome _
    | leave =>
      -- `break` takes a level of the second run, so the form itself is left with one less
      rw [evaluate_succ setting', step_leaving]
      exact hself' depth' (by omega) h trivial trivial

end Recursion

/-! ### Definitions -/

/-- A form that defines a function under a name. -/
def Form.defining (form : SpecialForm) (name : String) (parameterList body : Form) : Form :=
  .list [.symbol form.keyword, .symbol name, parameterList, body]

namespace Evaluation

variable {setting : Setting} {form : SpecialForm} {kind : FunctionKind} {place name : String}
  {parameterList body : Form} {home : NamespaceId} {w : World}

/-- A definition in a namespace, where the parameter list can be read and the name is free. -/
theorem definition_of_free {parameters : List String}
    (hparameters : Evaluation.parameters parameterList = .ok parameters)
    (hfull : Name.isFull name = false)
    (hfree : (w.namespaceAt home).bindings.binds name = false) :
    definition form kind place (.top home) [.symbol name, parameterList, body] w =
      .ok (.function ⟨kind, name, parameters, body, .top home, w.stamps⟩)
        (w.addStamp.2.modifyBindings (.top home) fun b ↦
          b.insert name (.function ⟨kind, name, parameters, body, .top home, w.stamps⟩)) := by
  show (ofFault (Evaluation.parameters parameterList) >>= fun parameters ↦
    makeFunction kind name parameters body (.top home) >>= fun f ↦
      define (.top home) (.symbol name) (.function f)) w = _
  rw [hparameters]
  exact Simulation.define_of_free (w := w.addStamp.2) (by simp [hfull]) hfree

/-- What a definition that succeeds has found. -/
theorem free_of_definition {v : Value} {u : World}
    (h : definition form kind place (.top home) [.symbol name, parameterList, body] w = .ok v u) :
    ∃ parameters, Evaluation.parameters parameterList = .ok parameters ∧
      Name.isFull name = false ∧ (w.namespaceAt home).bindings.binds name = false := by
  have hbind : (ofFault (Evaluation.parameters parameterList) >>= fun parameters ↦
    makeFunction kind name parameters body (.top home) >>= fun f ↦
      define (.top home) (.symbol name) (.function f)) w = .ok v u := h
  rcases hparameters : Evaluation.parameters parameterList with fault | parameters
  · rw [hparameters] at hbind
    cases hbind
  · rw [hparameters] at hbind
    have hdefine : define (.top home) (.symbol name)
        (.function ⟨kind, name, parameters, body, .top home, w.stamps⟩) w.addStamp.2 = .ok v u :=
      hbind
    obtain ⟨hfull, hbinds, -, -⟩ := Simulation.define_eq_ok hdefine
    exact ⟨parameters, rfl, hfull, hbinds⟩

/-- The guard lets a definition through, since it gives a function. -/
theorem definition_guarded :
    (definition form kind place (.top home) [.symbol name, parameterList, body] >>=
      expectValue form .value) w =
        definition form kind place (.top home) [.symbol name, parameterList, body] w := by
  rcases h : definition form kind place (.top home) [.symbol name, parameterList, body] w with
    ⟨v, u⟩ | ⟨f, u⟩
  · obtain ⟨parameters, hparameters, hfull, hfree⟩ := free_of_definition h
    rw [bind_of_ok h]
    rw [definition_of_free hparameters hfull hfree] at h
    cases h
    rfl
  · rw [bind_of_error h]

/-- Evaluating a definition at the top level of a namespace, for both kinds of functions. -/
theorem evaluate_defining (setting : Setting) (depth : Nat) (name : String)
    (parameterList body : Form) (home : NamespaceId) (w : World) :
    evaluate setting (depth + 1) (.defining .function name parameterList body) (.top home)
          .value w =
        definition .function .named "Defn" (.top home) [.symbol name, parameterList, body] w ∧
      evaluate setting (depth + 1) (.defining .recursiveFunction name parameterList body)
          (.top home) .value w =
        definition .recursiveFunction .recursive "Defnr" (.top home)
          [.symbol name, parameterList, body] w := by
  refine ⟨?_, ?_⟩
  · rw [evaluate_succ, Form.defining,
      Simulation.step_special (show (Form.symbol _).special? = some .function from rfl)]
    exact definition_guarded
  · rw [evaluate_succ, Form.defining,
      Simulation.step_special (show (Form.symbol _).special? = some .recursiveFunction from rfl)]
    exact definition_guarded

end Evaluation

/-- The outcomes of the two runs: the same, up to the exchanged function, unless the first one
exceeded a limit. -/
def Agrees (f : Function) : (first second : EStateM.Result Failure World Value) → Prop
  | .ok v u, second => second = .ok (v.translate f.exchange) (u.exchange f)
  | .error failure u, second =>
    failure.isLimit = true ∨ second = .error failure (u.exchange f)

/-- A call of the function, and a call of the rewritten one with the exchanged arguments in the
exchanged world. -/
theorem agrees_apply {f : Function} {home : NamespaceId} {setting setting' : Setting}
    (hf : f.Rewritable home) (hwider : setting.Wider setting') {depth depth' : Nat}
    (hdepth : 2 * depth + 1 ≤ depth') (hsteps : depth + 1 ≤ setting'.limits.steps) {w : World}
    (hw : w.Holds f home) (operator : Form) {arguments : List Value}
    (harguments : ∀ a ∈ arguments, a.Made w.stamps) :
    Agrees f
      (Evaluation.apply setting (Evaluation.evaluate setting depth) operator (.function f)
        arguments w)
      (Evaluation.apply setting' (Evaluation.evaluate setting' depth') operator
        (.function f.recurring) (arguments.map (Value.translate f.exchange)) (w.exchange f)) := by
  obtain ⟨hself, htail⟩ : FollowedBySelf hwider f home depth ∧ FollowedByLoop hwider f home depth :=
    followed hf depth (by omega)
  have hcall : (exchanging f home hwider).Follows w (w.exchange f)
      (Evaluation.apply setting (Evaluation.evaluate setting depth) operator (.function f)
        arguments)
      (Evaluation.apply setting' (Evaluation.evaluate setting' depth') operator
        (.function ((exchanging f home hwider).function f))
        (arguments.map (exchanging f home hwider).translate))
      (exchanging f home hwider).translate (exchanging f home hwider).value :=
    calls_exchanging hf hself htail hdepth hsteps ⟨hw, rfl⟩ hw.stamp_lt harguments
  have hfunction : (exchanging f home hwider).function f = f.recurring := f.exchange_self
  rw [hfunction] at hcall
  unfold Simulation.Follows at hcall
  split at hcall
  · rename_i v u hrun
    obtain ⟨-, -, -, u', hrun', -, rfl⟩ := hcall
    rw [hrun, Agrees]
    exact hrun'
  · rename_i failure u hrun
    obtain ⟨-, -, -, hrest⟩ := hcall
    rw [hrun, Agrees]
    refine hrest.imp_right ?_
    rintro ⟨u', hrun', -, rfl⟩
    exact hrun'

/-- What was made before does not contain a function that is made now. -/
theorem exchange_of_proper {f : Function} {w : World} (hw : w.Proper) (hf : f.stamp = w.stamps) :
    w.exchange f = w := by
  refine World.map_eq_self (World.All.mono hw fun v hv ↦ ?_)
  cases v with
  | signal => exact hv.elim
  | function g =>
    have hne : g ≠ f := by
      rintro rfl
      exact absurd hf (Nat.ne_of_lt hv)
    rw [Value.translate_function, Function.exchange_of_ne hne]
  | nothing => rw [Value.translate_nothing]
  | number x => rw [Value.translate_number]
  | native n stamp => rw [Value.translate_native]

/-- Binding the function where it is made, seen from the other run. -/
theorem exchange_define {f : Function} {w : World} (hw : w.Proper) (hf : f.stamp = w.stamps)
    (c : Context) (n : String) :
    (w.addStamp.2.modifyBindings c fun b ↦ b.insert n (.function f)).exchange f =
      w.addStamp.2.modifyBindings c fun b ↦ b.insert n (.function f.recurring) := by
  have hstamp : w.addStamp.2.map (Value.translate f.exchange) = w.addStamp.2 := by
    show (w.exchange f).addStamp.2 = w.addStamp.2
    rw [exchange_of_proper hw hf]
  have hinsert : ∀ b : Bindings, (b.insert n (.function f)).map (Value.translate f.exchange) =
      (b.map (Value.translate f.exchange)).insert n (.function f.recurring) := by
    intro b
    rw [Bindings.map_insert, Value.translate_function, f.exchange_self]
  calc (w.addStamp.2.modifyBindings c fun b ↦ b.insert n (.function f)).exchange f
      = (w.addStamp.2.map (Value.translate f.exchange)).modifyBindings c
          fun b ↦ b.insert n (.function f.recurring) := World.map_modify _ _ _ hinsert
    _ = w.addStamp.2.modifyBindings c fun b ↦ b.insert n (.function f.recurring) := by rw [hstamp]

/-- **Tail calls can be turned into steps of a loop.** Let a function be defined in a namespace,
under a name that is no keyword and that neither its parameters nor a `let` in its body bind. The
world is proper, as are all that interpreters get into (`Interpreter.proper_of_reachable`).

If the definition passes the check, so does the definition of a recursive function with the
rewritten body; and that definition, made in the same world, makes the same world with the other
function in it. In that world, and in every other one that holds the function, whatever the
arguments, a call of the function that does not exceed its limits ends as a call of the recursive
one does in the world with the other function in it, if that call has twice the depth. -/
theorem tail_calls_agree {name : String} {parameterList body : Form} {home : NamespaceId}
    {setting : Setting} {depth : Nat} {w u : World} {f : Function}
    (hkeyword : (Form.symbol name).special? = none) (hparameter : name ∉ f.parameters)
    (hlets : body.lets name = false) (hw : w.Proper)
    (hdefine : Evaluation.evaluate setting depth (.defining .function name parameterList body)
      (.top home) .value w = .ok (.function f) u) :
    (∀ checkDepth,
        Placement.check checkDepth (.defining .function name parameterList body) = .ok () →
        Placement.check (checkDepth + 1)
          (.defining .recursiveFunction name parameterList (body.recurring name)) = .ok ()) ∧
      Evaluation.evaluate setting depth
          (.defining .recursiveFunction name parameterList (body.recurring name)) (.top home)
          .value w =
        .ok (.function f.recurring) (u.exchange f) ∧
      (home.index < w.namespaces.size → u.Holds f home) ∧
      ∀ {setting₁ setting₂ : Setting} {depth₁ depth₂ : Nat} {x : World} {arguments : List Value}
          (operator : Form),
        setting₁.Wider setting₂ → 2 * depth₁ + 1 ≤ depth₂ → depth₁ + 1 ≤ setting₂.limits.steps →
        x.Holds f home → (∀ a ∈ arguments, a.Made x.stamps) →
        Agrees f
          (Evaluation.apply setting₁ (Evaluation.evaluate setting₁ depth₁) operator (.function f)
            arguments x)
          (Evaluation.apply setting₂ (Evaluation.evaluate setting₂ depth₂) operator
            (.function f.recurring) (arguments.map (Value.translate f.exchange))
            (x.exchange f)) := by
  obtain - | depth := depth
  · cases hdefine
  rw [(Evaluation.evaluate_defining ..).1] at hdefine
  obtain ⟨parameters, hparameters, hfull, hfree⟩ := Evaluation.free_of_definition hdefine
  rw [Evaluation.definition_of_free hparameters hfull hfree] at hdefine
  cases hdefine
  refine ⟨?_, ?_, ?_, ?_⟩
  · intro checkDepth hcheck
    obtain - | checkDepth := checkDepth
    · cases hcheck
    have hfunction : (Form.symbol SpecialForm.function.keyword).special? = some .function := rfl
    have hrecursive : (Form.symbol SpecialForm.recursiveFunction.keyword).special? =
        some .recursiveFunction := rfl
    simp only [Placement.check, Form.defining, Placement.checkValue, hfunction] at hcheck
    simp only [Placement.check, Form.defining, Placement.checkValue, hrecursive]
    exact Form.checkTail_recurring hkeyword _ checkDepth hcheck
  · rw [(Evaluation.evaluate_defining ..).2,
      Evaluation.definition_of_free hparameters hfull hfree, exchange_define hw rfl]
    rfl
  · intro hhome
    refine ⟨hw.stamp.insert (Nat.lt_succ_self w.stamps), ?_⟩
    rw [World.namespaceAt_modify_top, if_pos ⟨rfl, hhome⟩]
    exact Bindings.get?_insert_self (by simpa [Bindings.binds] using hfree)
  · intro setting₁ setting₂ depth₁ depth₂ x arguments operator hwider hdepth hsteps hx harguments
    have hf : Function.Rewritable ⟨.named, name, parameters, body, .top home, w.stamps⟩ home :=
      ⟨rfl, rfl, hkeyword, hfull, hparameter, hlets⟩
    exact agrees_apply hf hwider hdepth hsteps hx operator harguments

/-- A body that counts `x` down to zero: `(if (native.i64.eq x 0) x (f (native.i64.sub x 1)))`. -/
def Form.countdown : Form :=
  .list [.symbol "if", .list [.symbol "native.i64.eq", .symbol "x", .number 0], .symbol "x",
    .list [.symbol "f", .list [.symbol "native.i64.sub", .symbol "x", .number 1]]]

/-- A function that counts down to zero, defined in a fresh interpreter and called with three. -/
theorem tail_calls_agree_countdown :
    ∃ f u x,
      Evaluation.evaluate ⟨⟨20, 20, 20⟩, fun _ ↦ .ok none⟩ 20
          (.defining .function "f" (.list [.symbol "x"]) .countdown) (.top ⟨5⟩) .value
          (Interpreter.create Host.empty none none 0).2 = .ok (.function f) u ∧
        Evaluation.apply ⟨⟨20, 20, 20⟩, fun _ ↦ .ok none⟩
            (Evaluation.evaluate ⟨⟨20, 20, 20⟩, fun _ ↦ .ok none⟩ 19) (.symbol "f") (.function f)
            [.number 3] u = .ok (.number 0) x ∧
        Evaluation.apply ⟨⟨40, 20, 20⟩, fun _ ↦ .ok none⟩
            (Evaluation.evaluate ⟨⟨40, 20, 20⟩, fun _ ↦ .ok none⟩ 39) (.symbol "f")
            (.function f.recurring) [.number 3] (u.exchange f) =
          .ok (.number 0) (x.exchange f) := by
  have hproper : (Interpreter.create Host.empty none none 0).2.Proper :=
    Interpreter.proper_of_reachable ⟨Host.empty, none, none, 0, rfl, .refl _⟩
  have hmade : Evaluation.answer? (Evaluation.evaluate ⟨⟨20, 20, 20⟩, fun _ ↦ .ok none⟩ 20
      (.defining .function "f" (.list [.symbol "x"]) .countdown) (.top ⟨5⟩) .value
      (Interpreter.create Host.empty none none 0).2) =
        some (.function ⟨.named, "f", ["x"], .countdown, .top ⟨5⟩, 105⟩) := by
    decide +kernel
  have hcalled : Evaluation.answer? ((Evaluation.evaluate ⟨⟨20, 20, 20⟩, fun _ ↦ .ok none⟩ 20
      (.defining .function "f" (.list [.symbol "x"]) .countdown) (.top ⟨5⟩) .value >>= fun f ↦
        Evaluation.apply ⟨⟨20, 20, 20⟩, fun _ ↦ .ok none⟩
          (Evaluation.evaluate ⟨⟨20, 20, 20⟩, fun _ ↦ .ok none⟩ 19) (.symbol "f") f [.number 3])
      (Interpreter.create Host.empty none none 0).2) = some (.number 0) := by
    decide +kernel
  obtain ⟨u, hdefine⟩ := Evaluation.ok_of_answer _ hmade
  rw [Evaluation.bind_of_ok hdefine] at hcalled
  obtain ⟨x, hx⟩ := Evaluation.ok_of_answer _ hcalled
  obtain ⟨-, -, hholds, hcalls⟩ :=
    tail_calls_agree (by decide) (by decide) (by decide) hproper hdefine
  have hwider : Setting.Wider ⟨⟨20, 20, 20⟩, fun _ ↦ .ok none⟩
      ⟨⟨40, 20, 20⟩, fun _ ↦ .ok none⟩ := ⟨rfl, Nat.le_refl _, Nat.le_refl _⟩
  have hthree : ∀ a ∈ [Value.number 3], a.Made u.stamps := by simp [Value.Made]
  have hagrees := hcalls (.symbol "f") hwider (show 2 * 19 + 1 ≤ 39 by decide) (by decide)
    (hholds (by decide +kernel)) hthree
  rw [hx] at hagrees
  exact ⟨_, u, x, hdefine, hx, hagrees⟩

end DottedLisp
