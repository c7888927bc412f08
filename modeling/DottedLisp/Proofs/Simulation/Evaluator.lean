import DottedLisp.Proofs.Simulation.Loading

/-!
# The evaluator under a simulation

The one pass over evaluation: **if nested evaluations and calls of functions are followed, so is a
step**. Each special form has a lemma of its own, `follows_special` puts them together, and
`evaluates_step` adds the guard, symbols and calls.

Where the second run has a function of the same shape in every function's place, calls are followed
as well, and by induction on the depth so is every evaluation (`evaluates_of_shape`). For a
discipline alone the second run is the first one, and every evaluation keeps the discipline
(`Discipline.evaluates`).
-/

namespace DottedLisp

namespace Evaluation

/-! ### Forms that have a place

What a form that is bound to a place comes to, by the kind of its context. -/

section Places

variable {e : Evaluator} {c : Context} {name value target parameterList body : Form}

/-- `const` stands at the top level … -/
theorem constant_of_top (h : c.isTop = true) :
    constant e c [name, value] = (e value c .value >>= define c name) := by
  simp [constant, h]

/-- … and nowhere else. -/
theorem constant_of_scope (h : c.isTop = false) :
    constant e c [name, value] = fail .constPlace := by
  simp [constant, h]

/-- `let` stands in a scope. -/
theorem localVariable_of_scope (h : c.isTop = false) :
    localVariable e c [name, value] = (e value c .value >>= define c name) := by
  simp [localVariable, h]

theorem localVariable_of_top (h : c.isTop = true) :
    localVariable e c [name, value] = fail .letPlace := by
  simp [localVariable, h]

/-- `set` stands in a scope too, and assigns to a symbol. -/
theorem assignment_of_scope (h : c.isTop = false) (n : String) :
    assignment e c [.symbol n, value] = (e value c .value >>= assign c n) := by
  simp [assignment, h]

theorem assignment_of_top (h : c.isTop = true) :
    assignment e c [target, value] = fail .setPlace := by
  simp [assignment, h]

theorem assignment_of_target (h : c.isTop = false) (htarget : target.name? = none) :
    assignment e c [target, value] = fail (.assignmentTarget target) := by
  cases target with
  | symbol n => cases htarget
  | _ => simp [assignment, h]

/-- Named functions are made at the top level: the parameters are read, the function is made, and
the name is bound to it. -/
theorem definition_of_top {form : SpecialForm} {kind : FunctionKind} {place : String}
    (h : c.isTop = true) :
    definition form kind place c [name, parameterList, body] =
      (ofFault (parameters parameterList) >>= fun names ↦
        makeFunction kind name.text names body c >>= fun f ↦ define c name (.function f)) := by
  simp [definition, h]

theorem definition_of_scope {form : SpecialForm} {kind : FunctionKind} {place : String}
    (h : c.isTop = false) :
    definition form kind place c [name, parameterList, body] = fail (.definitionPlace place) := by
  simp [definition, h]

/-- `use` stands at the top level. -/
theorem useAs_of_scope {setting : Setting} {alias? : Option Form} (h : c.isTop = false) :
    useAs setting e c target alias? = fail .usePlace := by
  simp [useAs, h]

end Places

end Evaluation

namespace Simulation

open Evaluation

variable {setting setting' : Setting} {S : Simulation setting setting'} {e e' : Evaluator}
  {w w' : World} {c : Context} {position : Position} {head : Form} {operands : List Form}

/-! ### Binding forms -/

/-- The value is evaluated and then bound, at the top level of corresponding namespaces. -/
theorem follows_constant (he : S.Evaluates e e') (h : S.related w w') (hc : S.context w c)
    (hform : S.form c position (.list (head :: operands)))
    (hhead : head.special? = some .constant) :
    S.Follows w w' (constant e c operands) (constant e' (S.move c) operands) S.translate
      (S.result position) := by
  match operands, c, hform with
  | [name, value], .scope id outer, _ =>
    rw [constant_of_scope (S.isTop_move (.scope id outer))]
    exact follows_fail h rfl
  | [name, value], .top id, hform =>
    rw [constant_of_top (c := .top id) rfl, constant_of_top (S.isTop_move (.top id))]
    refine (he h hc (S.form_here hform (.constant hhead))).bind fun v u u' hlater hu hv ↦ ?_
    refine (follows_define hu (S.context_later hlater hc) (fun _ _ ↦ S.name_top) hv).mono ?_
    exact fun v u _ hv ↦ result_of_value_special hform hhead (by decide) hv
  | [], _, _ => exact follows_fail h rfl
  | [_], _, _ => exact follows_fail h rfl
  | _ :: _ :: _ :: _, _, _ => exact follows_fail h rfl

/-- The same in a scope. Only here may the discipline restrict the names that are bound. -/
theorem follows_localVariable (he : S.Evaluates e e') (h : S.related w w') (hc : S.context w c)
    (hform : S.form c position (.list (head :: operands)))
    (hhead : head.special? = some .localVariable) :
    S.Follows w w' (localVariable e c operands) (localVariable e' (S.move c) operands) S.translate
      (S.result position) := by
  match operands, c, hform with
  | [name, value], .top id, _ =>
    rw [localVariable_of_top (S.isTop_move (.top id))]
    exact follows_fail h rfl
  | [name, value], .scope id outer, hform =>
    rw [localVariable_of_scope (c := .scope id outer) rfl,
      localVariable_of_scope (S.isTop_move (.scope id outer))]
    refine (he h hc (S.form_here hform (.localVariable hhead))).bind
      fun v u u' hlater hu hv ↦ ?_
    have hname : ∀ n, name = .symbol n → S.name (.scope id outer) n := by
      rintro n rfl
      exact S.name_let hform hhead
    refine (follows_define hu (S.context_later hlater hc) hname hv).mono ?_
    exact fun v u _ hv ↦ result_of_value_special hform hhead (by decide) hv
  | [], _, _ => exact follows_fail h rfl
  | [_], _, _ => exact follows_fail h rfl
  | _ :: _ :: _ :: _, _, _ => exact follows_fail h rfl

/-- A value is assigned to the name where that is bound, which need not be in this scope. -/
theorem follows_assignment (he : S.Evaluates e e') (h : S.related w w') (hc : S.context w c)
    (hform : S.form c position (.list (head :: operands)))
    (hhead : head.special? = some .assignment) :
    S.Follows w w' (assignment e c operands) (assignment e' (S.move c) operands) S.translate
      (S.result position) := by
  match operands, c, hform with
  | [_, _], .top id, _ =>
    rw [assignment_of_top (S.isTop_move (.top id))]
    exact follows_fail h rfl
  | [.number _, _], .scope id outer, _ =>
    rw [assignment_of_target (S.isTop_move (.scope id outer)) rfl]
    exact follows_fail h rfl
  | [.list _, _], .scope id outer, _ =>
    rw [assignment_of_target (S.isTop_move (.scope id outer)) rfl]
    exact follows_fail h rfl
  | [.symbol n, value], .scope id outer, hform =>
    rw [assignment_of_scope (c := .scope id outer) rfl,
      assignment_of_scope (S.isTop_move (.scope id outer))]
    refine (he h hc (S.form_here hform (.assignment hhead))).bind fun v u u' hlater hu hv ↦ ?_
    refine (follows_assign hu (S.context_later hlater hc) hform hhead hv).mono ?_
    exact fun v u _ hv ↦ result_of_value_special hform hhead (by decide) hv
  | [], _, _ => exact follows_fail h rfl
  | [_], _, _ => exact follows_fail h rfl
  | _ :: _ :: _ :: _, _, _ => exact follows_fail h rfl

/-- Definitions of both kinds: `part` is the body of the function that is made. -/
theorem follows_definition (h : S.related w w') (hc : S.context w c)
    {form : SpecialForm} (kind : FunctionKind) (place : String)
    (hform : S.form c position (.list (head :: operands))) (hhead : head.special? = some form)
    (hkeyword : form ≠ .leave ∧ form ≠ .again ∧ form ≠ .conditional ∧ form ≠ .block)
    (hpart : ∀ name parameterList body, operands = [name, parameterList, body] →
      (Form.list (head :: operands)).Part position (.body kind) kind.bodyPosition body) :
    S.Follows w w' (definition form kind place c operands)
      (definition form kind place (S.move c) operands) S.translate (S.result position) := by
  match operands, c, hform, hpart with
  | [_, _, _], .scope id outer, _, _ =>
    rw [definition_of_scope (S.isTop_move (.scope id outer))]
    exact follows_fail h rfl
  | [name, parameterList, body], .top id, hform, hpart =>
    rw [definition_of_top (c := .top id) rfl, definition_of_top (S.isTop_move (.top id))]
    refine (follows_parameters h parameterList).bind fun names u u' hlater hu hnames ↦ ?_
    have hc' := S.context_later hlater hc
    refine (follows_makeFunction hu name.text hc' hform (hpart _ _ _ rfl) hnames).bind
      fun f x x' hlater' hx hf ↦ ?_
    refine (follows_define hx (S.context_later hlater' hc') (fun _ _ ↦ S.name_top) hf).mono ?_
    exact fun v u _ hv ↦ result_of_value_special hform hhead hkeyword hv
  | [], _, _, _ => exact follows_fail h rfl
  | [_], _, _, _ => exact follows_fail h rfl
  | [_, _], _, _, _ => exact follows_fail h rfl
  | _ :: _ :: _ :: _ :: _, _, _, _ => exact follows_fail h rfl

/-- Both runs make a function, each of its own context. -/
theorem follows_closure (h : S.related w w') (hc : S.context w c)
    (hform : S.form c position (.list (head :: operands)))
    (hhead : head.special? = some .closure) :
    S.Follows w w' (closure c operands) (closure (S.move c) operands) S.translate
      (S.result position) := by
  match operands, hform with
  | [parameterList, body], hform =>
    refine (follows_parameters h parameterList).bind fun names u u' hlater hu hnames ↦ ?_
    refine (follows_makeFunction hu Function.anonymousName (S.context_later hlater hc) hform
      (.closure hhead) hnames).bind fun f x x' _ hx hf ↦ ?_
    have hpure := follows_pure (t := S.translate) (P := S.result position) hx
      (result_of_value_special hform hhead (by decide) hf)
    rwa [translate, Value.translate_function] at hpure
  | [], _ => exact follows_fail h rfl
  | [_], _ => exact follows_fail h rfl
  | _ :: _ :: _ :: _, _ => exact follows_fail h rfl

/-! ### Control -/

/-- A block opens a scope in both runs. Its last form has the position of the block, and an empty
one gives nothing, which is no result in tail position. -/
theorem follows_block (he : S.Evaluates e e') (h : S.related w w') (hc : S.context w c)
    (hform : S.form c position (.list (head :: operands))) (hhead : head.special? = some .block) :
    S.Follows w w' (block e c position operands) (block e' (S.move c) position operands)
      S.translate (S.result position) := by
  have hworld := S.world_of_related h
  have hnone : ∀ v ∈ ([] : List Value), S.value w v := by simp
  refine (follows_openScope h (S.outer_of_context hc) hnone).bind
    fun scope u u' _ hu ⟨heq, hscope⟩ ↦ ?_
  rw [heq]
  rw [heq] at hscope
  refine follows_sequence he hu hscope
    (fun x hx ↦ S.form_inside hworld hform (.blockInit hhead hx))
    (fun x hx ↦ S.form_inside hworld hform (.blockLast hhead hx)) ?_
  rintro rfl
  refine result_of_value hform (fun hends ↦ ?_) (S.value_nothing u)
  -- an empty block ends no control path
  cases hends with
  | leave h | again h | conditional h =>
    rw [hhead] at h
    cases h

/-- The two runs choose the same branch, as translating a value does not make it true or false. -/
theorem follows_conditional (he : S.Evaluates e e') (h : S.related w w') (hc : S.context w c)
    (hform : S.form c position (.list (head :: operands)))
    (hhead : head.special? = some .conditional) :
    S.Follows w w' (conditional e c position operands)
      (conditional e' (S.move c) position operands) S.translate (S.result position) := by
  match operands, hform with
  | [condition, yes, no], hform =>
    refine (he h hc (S.form_here hform (.condition hhead))).bind fun v u u' hlater hu _ ↦ ?_
    have hc' := S.context_later hlater hc
    rw [Value.isTrue_translate]
    split
    · exact he hu hc' (S.form_here hform (.yes hhead))
    · exact he hu hc' (S.form_here hform (.no hhead))
  | [], _ => exact follows_fail h rfl
  | [_], _ => exact follows_fail h rfl
  | [_, _], _ => exact follows_fail h rfl
  | _ :: _ :: _ :: _ :: _, _ => exact follows_fail h rfl

/-- The initial values, then the parameters, then the loop itself: in this order both runs fail. -/
theorem follows_loop (he : S.Evaluates e e') (h : S.related w w') (hc : S.context w c)
    (hform : S.form c position (.list (head :: operands))) (hhead : head.special? = some .loop) :
    S.Follows w w' (loop setting e c operands) (loop setting' e' (S.move c) operands) S.translate
      (S.result position) := by
  match operands, hform with
  | [parameterList, .list initials, body], hform =>
    refine (follows_values he h hc fun x hx ↦ S.form_here hform (.initial hhead hx)).bind
      fun values u u' hlater hu hvalues ↦ ?_
    refine (follows_parameters hu parameterList).bind fun names x x' hlater' hx _ ↦ ?_
    have hcx := S.context_later (S.later_trans hlater hlater') hc
    refine (follows_run_form he hx (S.outer_of_context hcx)
      (fun _ hu ↦ S.form_inside hu hform (.loopBody hhead)) S.steps_le S.steps_eq
      fun v hv ↦ S.value_later hlater' (hvalues v hv)).mono fun v y _ hv ↦ ?_
    exact result_of_value_special hform hhead (by decide) hv
  | [_, .number _, _], _ => exact follows_fail h rfl
  | [_, .symbol _, _], _ => exact follows_fail h rfl
  | [], _ => exact follows_fail h rfl
  | [_], _ => exact follows_fail h rfl
  | [_, _], _ => exact follows_fail h rfl
  | _ :: _ :: _ :: _ :: _, _ => exact follows_fail h rfl

/-- What a special form gives **before** the guard: a result, or a signal where a value is
needed. -/
def unguarded (S : Simulation setting setting') (position : Position) (w : World) (v : Value) :
    Prop :=
  S.result position w v ∨ position = .value ∧ (∀ f, S.failure f) ∧ v.isSignal = true

/-- `break` and `recur` make a signal of their values. In tail position it is the result; where a
value is needed it is left to the guard. -/
theorem follows_signal (he : S.Evaluates e e') (h : S.related w w') (hc : S.context w c)
    {s : Signal} (hoperands : ∀ x ∈ operands, S.form c .value x)
    (hvalue : position = .value → ∀ f, S.failure f) :
    S.Follows w w' (signal e c s operands) (signal e' (S.move c) s operands) S.translate
      (S.unguarded position) := by
  refine (follows_values he h hc hoperands).bind fun values u u' _ hu hvalues ↦ ?_
  have hresult : S.unguarded position u (.signal s values) := by
    cases position with
    | value => exact Or.inr ⟨rfl, hvalue rfl, rfl⟩
    | tail => exact Or.inl (Or.inl ⟨s, values, rfl, hvalues⟩)
  have hpure := follows_pure (t := S.translate) (P := S.unguarded position) hu hresult
  rwa [translate, Value.translate_signal] at hpure

/-! ### Namespaces -/

/-- The body of a `namespace` form is evaluated at the top level of the namespace, made before if
need be. -/
theorem follows_enterNamespace (he : S.Evaluates e e') (h : S.related w w')
    (hform : S.form c position (.list (head :: operands)))
    (hhead : head.special? = some .enterNamespace) :
    S.Follows w w' (enterNamespace e c operands) (enterNamespace e' (S.move c) operands) S.translate
      (S.result position) := by
  match operands, hform with
  | [], _ => exact follows_fail h rfl
  | path :: body, hform =>
    refine (follows_nameOf h path).bind fun n u u' _ hu _ ↦ ?_
    refine (follows_normalize hu c n).bind fun n x x' _ hx _ ↦ ?_
    have hworld := S.world_of_related hx
    have hcreate : S.Follows x x' (change fun w ↦ w.createNamespace n)
        (change fun w ↦ w.createNamespace n) S.space fun y id ↦ S.context y (.top id) :=
      follows_change (S.later_namespace n hworld) (S.related_namespace n hx) (S.namespace_eq n hx)
        (S.context_namespace n hworld)
    refine hcreate.bind fun id y y' _ hy hid ↦ ?_
    have hbody : ∀ part ∈ body, S.form (.top id) .value part :=
      fun part hpart ↦ S.form_top hform (.enterNamespace hhead hpart)
    have hsequence : S.Follows y y' (sequence e (.top id) .value body)
        (sequence e' (S.move (.top id)) .value body) S.translate (S.result .value) :=
      follows_sequence he hy hid (fun part hpart ↦ hbody part (List.dropLast_subset _ hpart))
        (fun part hpart ↦ hbody part (List.mem_of_getLast? hpart)) (fun _ ↦ S.value_nothing y)
    rw [S.move_top] at hsequence
    exact hsequence.mono fun v z _ hv ↦ result_of_value_special hform hhead (by decide) hv

/-- Binding what another namespace binds. -/
theorem follows_bindUsed (h : S.related w w') {id : NamespaceId} (hc : S.context w (.top id))
    (path identifier n : String) :
    S.Follows w w'
      (getNamespace path >>= fun source ↦ get (.top source) identifier >>= fun v ↦
        define (.top id) (.symbol n) v)
      (getNamespace path >>= fun source ↦ get (.top source) identifier >>= fun v ↦
        define (.top (S.space id)) (.symbol n) v) S.translate S.value := by
  refine (follows_getNamespace h path).bind fun source u u' hlater hu hsource ↦ ?_
  refine (follows_get_top hu hsource).bind fun v x x' hlater' hx hv ↦ ?_
  have hdefine : S.Follows x x' (define (.top id) (.symbol n) v)
      (define (S.move (.top id)) (.symbol n) (S.translate v)) S.translate S.value :=
    follows_define hx (S.context_later hlater' (S.context_later hlater hc))
      (fun _ _ ↦ S.name_top) hv
  rwa [S.move_top] at hdefine

/-- Using an identifier under a name, once both are known. -/
theorem follows_useNamed (he : S.Evaluates e e') (h : S.related w w') {id : NamespaceId}
    (hc : S.context w (.top id)) (path identifier n : String) :
    S.Follows w w'
      (change (fun w ↦ (w.isRegistered path, w)) >>= fun known ↦
        if known = true then
          getNamespace path >>= fun source ↦ get (.top source) identifier >>= fun v ↦
            define (.top id) (.symbol n) v
        else
          loadNeeded setting e (Name.moduleOf path) >>= fun _ ↦
            getNamespace path >>= fun source ↦ get (.top source) identifier >>= fun v ↦
              define (.top id) (.symbol n) v)
      (change (fun w ↦ (w.isRegistered path, w)) >>= fun known ↦
        if known = true then
          getNamespace path >>= fun source ↦ get (.top source) identifier >>= fun v ↦
            define (.top (S.space id)) (.symbol n) v
        else
          loadNeeded setting' e' (Name.moduleOf path) >>= fun _ ↦
            getNamespace path >>= fun source ↦ get (.top source) identifier >>= fun v ↦
              define (.top (S.space id)) (.symbol n) v) S.translate S.value := by
  have hknown : w'.isRegistered path = w.isRegistered path := by
    rw [World.isRegistered, S.registered_eq path h, Option.isSome_map, World.isRegistered]
  refine (follows_ask (P := fun _ _ ↦ True) h hknown trivial).bind
    fun known u u' hlater hu _ ↦ ?_
  have hcu := S.context_later hlater hc
  cases known with
  | true => exact follows_bindUsed hu hcu path identifier n
  | false =>
    refine (follows_loadNeeded he hu path).bind fun _ x x' hlater' hx _ ↦ ?_
    exact follows_bindUsed hx (S.context_later hlater' hcu) path identifier n

/-- `use` under an alias or under its own identifier: the target is made absolute and cut, and then
both are known. -/
theorem follows_useAs (he : S.Evaluates e e') (h : S.related w w') (hc : S.context w c)
    (target : Form) (alias? : Option Form) :
    S.Follows w w' (useAs setting e c target alias?) (useAs setting' e' (S.move c) target alias?)
      S.translate S.value := by
  cases c with
  | scope id outer =>
    rw [useAs_of_scope (S.isTop_move (.scope id outer))]
    exact follows_fail h rfl
  | top id =>
    rw [S.move_top]
    refine (follows_nameOf h target).bind fun n u u' hlateru hu _ ↦ ?_
    have hnormalize := follows_normalize hu (.top id) n
    rw [S.move_top] at hnormalize
    refine hnormalize.bind fun n x x' hlaterx hx _ ↦ ?_
    refine (follows_splitName hx n).bind fun parts y y' hlatery hy _ ↦ ?_
    have hcy := S.context_later hlatery (S.context_later hlaterx (S.context_later hlateru hc))
    obtain ⟨path, identifier⟩ := parts
    cases alias? with
    | none => exact follows_useNamed he hy hcy path identifier identifier
    | some form =>
      refine (follows_nameOf hy form).bind fun n z z' hlaterz hz _ ↦ ?_
      exact follows_useNamed he hz (S.context_later hlaterz hcy) path identifier n

theorem follows_use (he : S.Evaluates e e') (h : S.related w w') (hc : S.context w c)
    (hform : S.form c position (.list (head :: operands))) (hhead : head.special? = some .use) :
    S.Follows w w' (use setting e c operands) (use setting' e' (S.move c) operands) S.translate
      (S.result position) := by
  have hresult : ∀ v u, S.world u → S.value u v → S.result position u v :=
    fun v u _ hv ↦ result_of_value_special hform hhead (by decide) hv
  match operands with
  | [target] => exact (follows_useAs he h hc target none).mono hresult
  | [target, n] => exact (follows_useAs he h hc target (some n)).mono hresult
  | [] => exact follows_fail h rfl
  | _ :: _ :: _ :: _ => exact follows_fail h rfl

/-! ### All special forms, and a step -/

/-- **Every special form**, before the guard. -/
theorem follows_special (he : S.Evaluates e e') (h : S.related w w') (hc : S.context w c)
    {keyword : SpecialForm} (hform : S.form c position (.list (head :: operands)))
    (hhead : head.special? = some keyword) :
    S.Follows w w' (special setting e keyword operands c position)
      (special setting' e' keyword operands (S.move c) position) S.translate
      (S.unguarded position) := by
  have hresult : ∀ v u, S.world u → S.result position u v → S.unguarded position u v :=
    fun _ _ _ hv ↦ Or.inl hv
  cases keyword with
  | constant => exact (follows_constant he h hc hform hhead).mono hresult
  | localVariable => exact (follows_localVariable he h hc hform hhead).mono hresult
  | assignment => exact (follows_assignment he h hc hform hhead).mono hresult
  | enterNamespace => exact (follows_enterNamespace he h hform hhead).mono hresult
  | use => exact (follows_use he h hc hform hhead).mono hresult
  | block => exact (follows_block he h hc hform hhead).mono hresult
  | conditional => exact (follows_conditional he h hc hform hhead).mono hresult
  | loop => exact (follows_loop he h hc hform hhead).mono hresult
  | leave =>
    refine follows_signal he h hc (fun x hx ↦ S.form_here hform (.leave hhead hx)) ?_
    -- Where a value is needed the guard will refuse the signal, so all failures are admitted there.
    rintro rfl
    exact S.failure_of_leave hform hhead
  | again =>
    refine follows_signal he h hc (fun x hx ↦ S.form_here hform (.again hhead hx)) ?_
    rintro rfl
    exact S.failure_of_again hform hhead
  | function =>
    refine (follows_definition h hc .named "Defn" hform hhead (by decide) ?_).mono
      hresult
    rintro name parameterList body rfl
    exact .function hhead
  | recursiveFunction =>
    refine (follows_definition h hc .recursive "Defnr" hform hhead (by decide) ?_).mono
      hresult
    rintro name parameterList body rfl
    exact .recursiveFunction hhead
  | closure => exact (follows_closure h hc hform hhead).mono hresult

/-- The guard lets results through, and refuses signals where a value is needed. -/
theorem follows_expectValue (h : S.related w w') {keyword : SpecialForm} {v : Value}
    (hv : S.unguarded position w v) :
    S.Follows w w' (expectValue keyword position v) (expectValue keyword position (S.translate v))
      S.translate (S.result position) := by
  unfold expectValue
  rw [Value.isSignal_translate]
  by_cases hguard : (decide (position = .value) && v.isSignal) = true
  · rw [if_pos hguard, if_pos hguard]
    simp only [Bool.and_eq_true, decide_eq_true_eq] at hguard
    obtain ⟨rfl, hsignal⟩ := hguard
    refine follows_throw h ?_
    rcases hv with hv | ⟨-, hfailure, -⟩
    · cases v with
      | signal s values => exact S.failure_of_signal hv _
      | _ => cases hsignal
    · exact hfailure _
  · rw [if_neg hguard, if_neg hguard]
    rcases hv with hv | ⟨rfl, -, hsignal⟩
    · exact follows_pure (t := S.translate) h hv
    · exact absurd (by simp [hsignal]) hguard

theorem step_special {setting : Setting} {e : Evaluator} {keyword : SpecialForm}
    (hhead : head.special? = some keyword) :
    step setting e (.list (head :: operands)) c position =
      (special setting e keyword operands c position >>= expectValue keyword position) := by
  simp only [step, hhead]

/-- A call evaluates the head, then the operands from the left, and then applies. -/
theorem step_call {setting : Setting} {e : Evaluator} (hhead : head.special? = none) :
    step setting e (.list (head :: operands)) c position =
      (e head c .value >>= fun function ↦ values e c operands >>= fun arguments ↦
        apply setting e head function arguments) := by
  simp only [step, hhead]

/-- **One step.** If nested evaluations and calls of functions are followed, so is evaluation. -/
theorem evaluates_step (he : S.Evaluates e e') (hcalls : S.Calls e e') :
    S.Evaluates (step setting e) (step setting' e') := by
  intro form c position w w' h hc hform
  match form, hform with
  | .number x, hform =>
    have hresult : S.result position w (.number x) :=
      result_of_value hform (fun hends ↦ by cases hends) (S.value_number w x)
    exact follows_pure (t := S.translate) (a := .number x) h hresult
  | .symbol n, hform =>
    refine (follows_lookup h hc hform).mono fun v u _ hv ↦ ?_
    exact result_of_value hform (fun hends ↦ by cases hends) hv
  | .list [], _ => exact follows_fail h rfl
  | .list (head :: operands), hform =>
    rcases hhead : head.special? with - | keyword
    · rw [step_call hhead, step_call hhead]
      refine (he h hc (S.form_here hform (.operator hhead))).bind fun f u u' hlater hu hf ↦ ?_
      have hoperands : ∀ x ∈ operands, S.form c .value x :=
        fun x hx ↦ S.form_here hform (.operand hhead hx)
      refine (follows_values he hu (S.context_later hlater hc) hoperands).bind
        fun arguments x x' hlater' hx harguments ↦ ?_
      refine (follows_apply hcalls hx (S.value_later hlater' hf) harguments).mono
        fun v y _ hv ↦ result_of_value hform (fun hends ↦ ?_) hv
      -- a call ends no control path: its head is no keyword
      have hspecial := hends.special
      rw [hhead] at hspecial
      simp at hspecial
    · -- a signal that a special form gives where a value is needed stops at the guard
      rw [step_special hhead, step_special hhead]
      exact (follows_special he h hc hform hhead).bind fun v u u' _ hu hv ↦
        follows_expectValue hu hv

/-- **Every evaluation is followed by itself**, if functions are followed by functions of the same
shape. By induction on the depth; both runs exceed it together. -/
theorem evaluates_of_shape
    (hshape : ∀ f, ∃ stamp, S.function f = { f with context := S.move f.context, stamp := stamp })
    (depth : Nat) : S.Evaluates (evaluate setting depth) (evaluate setting' depth) := by
  induction depth with
  | zero =>
    intro form c position w w' h _ _
    exact follows_throw h (S.failure_of_not_placing rfl)
  | succ depth ih =>
    refine evaluates_step ih ?_
    intro operator f arguments w w' h hf harguments
    obtain ⟨stamp, hstamp⟩ := hshape f
    exact follows_apply_function ih h stamp hstamp hf harguments

/-- **Every evaluation is followed by a deeper one**, where exceeding the depth is excused. By
induction on the smaller depth: at depth zero nothing is claimed of the second run. -/
theorem evaluates_deeper (hexcused : S.excused .depthExceeded)
    (hshape : ∀ f, ∃ stamp, S.function f = { f with context := S.move f.context, stamp := stamp })
    (depth : Nat) :
    ∀ {depth' : Nat}, depth ≤ depth' →
      S.Evaluates (evaluate setting depth) (evaluate setting' depth') := by
  induction depth with
  | zero =>
    intro depth' _ form c position w w' h _ _
    exact Follows.of_excused (f := .depthExceeded) rfl (S.failure_of_not_placing rfl) hexcused h
  | succ depth ih =>
    intro depth' hle
    obtain ⟨depth', rfl⟩ : ∃ n, depth' = n + 1 := ⟨depth' - 1, by omega⟩
    have hnested : S.Evaluates (evaluate setting depth) (evaluate setting' depth') :=
      ih (Nat.le_of_succ_le_succ hle)
    have hcalls : S.Calls (evaluate setting depth) (evaluate setting' depth') := by
      intro operator f arguments w w' h hf harguments
      obtain ⟨stamp, hstamp⟩ := hshape f
      exact follows_apply_function hnested h stamp hstamp hf harguments
    intro form c position w w' h hc hform
    exact evaluates_step hnested hcalls h hc hform

end Simulation

/-! ### Disciplines -/

namespace Discipline

open Evaluation

variable {setting : Setting} (D : Discipline setting)

/-- A run goes along with itself, and exceeds limits together with itself. -/
def self : Simulation setting setting where
  toDiscipline := D
  toAllowance := .same setting
  related w w' := w' = w ∧ D.world w
  parted w w' := w' = w
  world_of_related h := h.2
  parted_of_related h := h.1
  path_eq _ h := by rw [h.1, id]
  registered_eq _ h := by rw [h.1, Option.map_id_fun, id]
  loaded_eq _ h := Or.inl (by rw [h.1])
  lookup_eq h _ _ := by rw [h.1, Value.translate_id_eq, Option.map_id_fun, id, id]
  lookup_top_eq h _ := by rw [h.1, Value.translate_id_eq, Option.map_id_fun, id, id]
  binds_eq h _ _ := by rw [h.1, id]
  findScope_eq h _ _ _ := by rw [h.1, Option.map_id_fun, id, id]
  scope_eq h := by rw [h.1, id, id]
  related_scope h houter := ⟨by rw [h.1, id], D.world_scope h.2 houter⟩
  function_eq h := by rw [h.1, id, id]
  related_stamp h := ⟨by rw [h.1], D.world_stamp h.2⟩
  namespace_eq _ h := by rw [h.1, id]
  related_namespace path h := ⟨by rw [h.1], D.world_namespace path h.2⟩
  related_insert h hc hn hv hbinds :=
    ⟨by rw [h.1, Value.translate_id, id], D.world_insert h.2 hc hn hv hbinds⟩
  related_replace h hc hv hscope :=
    ⟨by rw [h.1, Value.translate_id, id], D.world_replace h.2 hc hv hscope⟩
  related_mark h hloaded := ⟨by rw [h.1], D.world_mark h.2 hloaded⟩
  parted_rollback h₁ h₂ _ _ := by rw [h₁.1, h₂]

/-- **Every evaluation keeps the discipline.** -/
theorem evaluates (depth : Nat) :
    D.self.Evaluates (evaluate setting depth) (evaluate setting depth) :=
  Simulation.evaluates_of_shape (fun f ↦ ⟨f.stamp, rfl⟩) depth

/-- What an outcome of an evaluation from a world has to be. -/
def Ends {α : Type} (w : World) (P : World → α → Prop) :
    EStateM.Result Failure World α → Prop
  | .ok a u => D.world u ∧ D.later w u ∧ P u a
  | .error f u => D.failed u ∧ D.later w u ∧ D.failure f

variable {D} {α : Type} {w : World}

/-- What is left of a simulation when only the first run is asked about. -/
theorem ends_of_follows {m m' : Evaluation α} {t : α → α} {P : World → α → Prop}
    {w' : World} (h : D.self.Follows w w' m m' t P) : D.Ends w P (m w) := by
  unfold Simulation.Follows at h
  split at h
  · rename_i a u hm
    obtain ⟨hworld, hlater, ha, -⟩ := h
    rw [hm]
    exact ⟨hworld, hlater, ha⟩
  · rename_i f u hm
    obtain ⟨hfailed, hlater, hf, -⟩ := h
    rw [hm]
    exact ⟨hfailed, hlater, hf⟩

/-- Results are admitted values, if signals are admitted that carry such values. -/
theorem value_of_result {position : Position} {v : Value}
    (hsignal : ∀ s values, (∀ x ∈ values, D.value w x) → D.value w (.signal s values))
    (h : D.result position w v) : D.value w v := by
  cases position with
  | value => exact h
  | tail =>
    rcases h with ⟨s, values, rfl, hvalues⟩ | ⟨-, hv⟩
    · exact hsignal s values hvalues
    · exact hv

end Discipline

end DottedLisp
