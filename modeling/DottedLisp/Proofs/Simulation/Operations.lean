import DottedLisp.Proofs.Simulation.Basic

/-!
# Operations on names and contexts under a simulation

Each operation of `Evaluation` that does not evaluate forms itself, run in related worlds. The
evaluator is made of these and of nested evaluations, so what follows them is all that
`Simulation/Evaluator` uses of the laws.
-/

namespace DottedLisp.Simulation

open Evaluation

variable {setting setting' : Setting} {S : Simulation setting setting'} {α : Type} {w w' : World}

/-! ### Changing the world -/

/-- A change of the world that corresponds to a change of the other one. -/
theorem follows_change {f f' : World → α × World} {t : α → α} {P : World → α → Prop}
    (hlater : S.later w (f w).2) (hrelated : S.related (f w).2 (f' w').2)
    (heq : (f' w').1 = t (f w).1) (ha : P (f w).2 (f w).1) :
    S.Follows w w' (change f) (change f') t P := by
  refine Follows.of_ok (u := (f w).2) rfl ?_ hlater hrelated ha
  rw [← heq]
  rfl

/-- Asking the world something. -/
theorem follows_ask (h : S.related w w') {q q' : World → α} {P : World → α → Prop}
    (heq : q' w' = q w) (ha : P w (q w)) :
    S.Follows w w' (change fun w ↦ (q w, w)) (change fun w ↦ (q' w, w)) id P :=
  follows_change (S.later_refl w) h heq ha

/-! ### Results from outside -/

/-- What is computed without the world is the same in both runs, if it is no fault of placement. -/
theorem follows_ofFault (h : S.related w w') {e : Except Fault α} {t : α → α}
    {P : World → α → Prop} (hok : ∀ a, e = .ok a → P w a)
    (herror : ∀ fault, e = .error fault → (Failure.fault fault).isPlacing = false) :
    S.Follows w w' (ofFault e) (ofFault (e.map t)) t P := by
  cases e with
  | ok a => exact follows_pure h (hok a rfl)
  | error fault => exact follows_fail h (herror fault rfl)

theorem isPlacing_of_parametersFrom {seen : List String} {items : List Form} {fault : Fault}
    (h : parametersFrom seen items = .error fault) :
    (Failure.fault fault).isPlacing = false := by
  fun_induction parametersFrom seen items with
  | case1 => cases h
  | case2 | case3 | case5 =>
    cases h
    rfl
  | case4 _ _ _ _ _ ih => exact ih h

/-- Faults of parameter lists are not about placement … -/
theorem isPlacing_of_parameters {form : Form} {fault : Fault}
    (h : parameters form = .error fault) : (Failure.fault fault).isPlacing = false := by
  unfold parameters at h
  split at h
  · exact isPlacing_of_parametersFrom h
  · cases h
    rfl

/-- Reading a parameter list does not involve the world. -/
theorem follows_parameters (h : S.related w w') (form : Form) :
    S.Follows w w' (ofFault (parameters form)) (ofFault (parameters form)) id
      fun _ names ↦ parameters form = .ok names := by
  have hmap : (parameters form).map id = parameters form := by
    cases parameters form <;> rfl
  have hfollows := follows_ofFault (t := id) (P := fun _ names ↦ parameters form = .ok names) h
    (fun names hnames ↦ hnames) fun _ ↦ isPlacing_of_parameters
  rwa [hmap] at hfollows

/-- … and neither are those of native functions. -/
theorem isPlacing_of_call {n : Native} {arguments : List Value} {fault : Fault}
    (h : n.call arguments = .error fault) : (Failure.fault fault).isPlacing = false := by
  unfold Native.call at h
  split at h
  · cases h
    rfl
  · split at h
    · cases h
    · cases h
      rfl

/-- A native gives a value if its arguments are values. -/
theorem value_of_call {n : Native} {arguments : List Value} {v : Value}
    (hvalues : ∀ a ∈ arguments, S.value w a) (h : n.call arguments = .ok v) : S.value w v := by
  unfold Native.call at h
  split at h
  · cases h
  · split at h
    · rename_i value hrun
      cases h
      rcases Operation.mem_or_number_of_run hrun with hmem | ⟨x, rfl⟩
      · exact hvalues v hmem
      · exact S.value_number w x
    · cases h

/-- Calling a native. -/
theorem follows_call (h : S.related w w') (n : Native) {arguments : List Value}
    (hvalues : ∀ a ∈ arguments, S.value w a) :
    S.Follows w w' (ofFault (n.call arguments)) (ofFault (n.call (arguments.map S.translate)))
      S.translate S.value := by
  rw [Native.call_translate S.stamp_function]
  exact follows_ofFault h (fun v hv ↦ value_of_call hvalues hv) fun _ ↦ isPlacing_of_call

theorem follows_expectCount (h : S.related w w') (n : String) (actual expected : Nat) :
    S.Follows w w' (expectCount n actual expected) (expectCount n actual expected) id
      fun _ _ ↦ actual = expected := by
  unfold expectCount
  split
  · rename_i hcount
    exact follows_pure (t := id) (a := ()) h hcount
  · exact follows_fail h rfl

/-! ### Looking up names -/

theorem follows_nameOf (h : S.related w w') (form : Form) :
    S.Follows w w' (nameOf form) (nameOf form) id fun _ n ↦ form = .symbol n := by
  unfold nameOf
  split
  · exact follows_pure (t := id) h rfl
  · exact follows_fail h rfl

theorem follows_splitName (h : S.related w w') (n : String) :
    S.Follows w w' (splitName n) (splitName n) id fun _ _ ↦ True := by
  unfold splitName
  split
  · exact follows_pure (t := id) h trivial
  · exact follows_fail h rfl

/-- Relative names mean the same in related worlds, since namespaces have the same paths. -/
theorem follows_normalize (h : S.related w w') (c : Context) (n : String) :
    S.Follows w w' (normalize c n) (normalize (S.move c) n) id fun _ _ ↦ True := by
  have hpath := S.path_eq c h
  rcases hn : Name.normalize n (Name.moduleOf (w.namespaceAt c.home).path)
      (w.namespaceAt c.home).path with rest | name
  · have hw : normalize c n w = .error (.fault (.beyondModule rest)) w := by
      simp only [Evaluation.normalize, hn]
    have hw' : normalize (S.move c) n w' = .error (.fault (.beyondModule rest)) w' := by
      simp only [Evaluation.normalize, hpath, hn]
    exact Follows.of_fault hw hw' h rfl
  · have hw : normalize c n w = .ok name w := by
      simp only [Evaluation.normalize, hn]
    have hw' : normalize (S.move c) n w' = .ok name w' := by
      simp only [Evaluation.normalize, hpath, hn]
    exact Follows.of_ok (t := id) hw hw' (S.later_refl w) h trivial

theorem follows_getNamespace (h : S.related w w') (path : String) :
    S.Follows w w' (getNamespace path) (getNamespace path) S.space
      fun u id ↦ S.context u (.top id) := by
  have hregistered := S.registered_eq path h
  rcases hpath : w.registered? path with - | id
  · have hw : getNamespace path w = .error (.fault (.unknownNamespace path)) w := by
      simp only [getNamespace, hpath]
    have hw' : getNamespace path w' = .error (.fault (.unknownNamespace path)) w' := by
      simp only [getNamespace, hregistered, hpath, Option.map_none]
    exact Follows.of_fault hw hw' h rfl
  · refine Follows.of_ok (a := id) ?_ ?_ (S.later_refl w) h
      (S.context_registered (S.world_of_related h) hpath)
    · simp only [getNamespace, hpath]
    · simp only [getNamespace, hregistered, hpath, Option.map_some]

/-- Getting a value, where the second world has the translated one. -/
theorem follows_get_of_lookup (h : S.related w w') {c c' : Context} {n : String}
    (hc : S.context w c)
    (heq : w'.lookup? c' n = (w.lookup? c n).map S.translate) :
    S.Follows w w' (get c n) (get c' n) S.translate S.value := by
  rcases hlookup : w.lookup? c n with - | v
  · have hw : get c n w = .error (.fault (.unbound n)) w := by
      simp only [Evaluation.get, hlookup]
    have hw' : get c' n w' = .error (.fault (.unbound n)) w' := by
      simp only [Evaluation.get, heq, hlookup, Option.map_none]
    exact Follows.of_fault hw hw' h rfl
  · refine Follows.of_ok (a := v) ?_ ?_ (S.later_refl w) h
      (S.value_lookup (S.world_of_related h) hc hlookup)
    · simp only [Evaluation.get, hlookup]
    · simp only [Evaluation.get, heq, hlookup, Option.map_some]

theorem follows_get_top (h : S.related w w') {id : NamespaceId} {n : String}
    (hc : S.context w (.top id)) :
    S.Follows w w' (get (.top id) n) (get (.top (S.space id)) n) S.translate S.value :=
  follows_get_of_lookup h hc (S.lookup_top_eq h hc)

theorem follows_getFull (h : S.related w w') (n : String) :
    S.Follows w w' (getFull n) (getFull n) S.translate S.value := by
  unfold getFull
  refine (follows_splitName h n).bind fun parts u u' _ hu _ ↦ ?_
  exact (follows_getNamespace hu parts.1).bind fun id v v' _ hv hc ↦ follows_get_top hv hc

/-- The value of a symbol that is evaluated. -/
theorem follows_lookup (h : S.related w w') {c : Context} {position : Position} {n : String}
    (hc : S.context w c) (hform : S.form c position (.symbol n)) :
    S.Follows w w' (lookup c n) (lookup (S.move c) n) S.translate S.value := by
  unfold lookup
  split
  · exact (follows_normalize h c n).bind fun name u u' _ hu _ ↦ follows_getFull hu name
  · exact follows_get_of_lookup h hc (S.lookup_eq h hc hform)

/-! ### Binding and assigning -/

section Define

variable {c : Context} {n : String} {v : Value}

/-- Binding a plain name, as the three cases that follow: a full name, a bound one and a free one.
-/
theorem define_symbol :
    define c (.symbol n) v w =
      if Name.isFull n then .error (.fault (.undefinable (.symbol n))) w
      else if (w.bindingsOf c).binds n then .error (.fault (.alreadyBound n)) w
      else .ok v (w.modifyBindings c fun b ↦ b.insert n v) :=
  rfl

theorem define_of_full (hfull : Name.isFull n = true) :
    define c (.symbol n) v w = .error (.fault (.undefinable (.symbol n))) w := by
  rw [define_symbol, if_pos hfull]

theorem define_of_bound (hfull : ¬ Name.isFull n = true)
    (hbound : (w.bindingsOf c).binds n = true) :
    define c (.symbol n) v w = .error (.fault (.alreadyBound n)) w := by
  rw [define_symbol, if_neg hfull, if_pos hbound]

theorem define_of_free (hfull : ¬ Name.isFull n = true)
    (hfree : (w.bindingsOf c).binds n = false) :
    define c (.symbol n) v w = .ok v (w.modifyBindings c fun b ↦ b.insert n v) := by
  rw [define_symbol, if_neg hfull, if_neg (by simp [hfree])]

/-- What a binding that succeeds has found, and what it does. -/
theorem define_eq_ok {a : Value} {u : World} (h : define c (.symbol n) v w = .ok a u) :
    Name.isFull n = false ∧ (w.bindingsOf c).binds n = false ∧ a = v ∧
      u = w.modifyBindings c fun b ↦ b.insert n v := by
  rw [define_symbol] at h
  split at h
  · cases h
  · rename_i hfull
    split at h
    · cases h
    · rename_i hbound
      cases h
      exact ⟨eq_false_of_ne_true hfull, eq_false_of_ne_true hbound, rfl, rfl⟩

end Define

/-- **Binding.** The two runs refuse the same names, and bind the value under the others. -/
theorem follows_define (h : S.related w w') {c : Context} {form : Form} {v : Value}
    (hc : S.context w c) (hname : ∀ n, form = .symbol n → S.name c n) (hv : S.value w v) :
    S.Follows w w' (define c form v) (define (S.move c) form (S.translate v)) S.translate
      S.value := by
  cases form with
  | number x => exact follows_fail h rfl
  | list items => exact follows_fail h rfl
  | symbol n =>
    have hn := hname n rfl
    have hbinds := S.binds_eq h hc hn
    -- Both runs ask the same two questions, and get the same answers.
    by_cases hfull : Name.isFull n = true
    · exact Follows.of_fault (define_of_full hfull) (define_of_full hfull) h rfl
    · rcases hbound : (w.bindingsOf c).binds n with - | -
      · have hlater := S.later_insert (S.world_of_related h) hc hn hv hbound
        exact Follows.of_ok (define_of_free hfull hbound)
          (define_of_free hfull (hbinds.trans hbound)) hlater
          (S.related_insert h hc hn hv hbound) (S.value_later hlater hv)
      · exact Follows.of_fault (define_of_bound hfull hbound)
          (define_of_bound hfull (hbinds.trans hbound)) h rfl

/-- **Assigning.** The name is bound on corresponding levels, or on none. -/
theorem follows_assign (h : S.related w w') {c : Context} {position : Position} {head e : Form}
    {n : String} {v : Value} (hc : S.context w c)
    (hform : S.form c position (.list [head, .symbol n, e]))
    (hhead : head.special? = some .assignment) (hv : S.value w v) :
    S.Follows w w' (assign c n v) (assign (S.move c) n (S.translate v)) S.translate S.value := by
  have heq := S.findScope_eq h hc hform hhead
  rcases hscope : w.findScope? c n with - | scope
  · have hw : assign c n v w = .error (.fault (.unbound n)) w := by
      simp only [assign, hscope]
    have hw' : assign (S.move c) n (S.translate v) w' = .error (.fault (.unbound n)) w' := by
      simp only [assign, heq, hscope, Option.map_none]
    exact Follows.of_fault hw hw' h rfl
  · have hlater := S.later_replace (S.world_of_related h) hc hv hscope
    refine Follows.of_ok (a := v) ?_ ?_ hlater (S.related_replace h hc hv hscope)
      (S.value_later hlater hv)
    · simp only [assign, hscope]
    · simp only [assign, heq, hscope, Option.map_some]

/-- Binding names one after the other, in a context where all of them may be bound. -/
theorem follows_defineAll {c : Context} {names : List String} (hname : ∀ n ∈ names, S.name c n) :
    ∀ {values : List Value} {w w' : World}, S.related w w' → S.context w c →
      (∀ v ∈ values, S.value w v) →
      S.Follows w w' (defineAll c ((names.map Form.symbol).zip values))
        (defineAll (S.move c) ((names.map Form.symbol).zip (values.map S.translate))) id
        fun u _ ↦ S.context u c := by
  induction names with
  | nil =>
    intro values w w' h hc _
    exact follows_pure (t := id) (a := ()) h hc
  | cons n names ih =>
    intro values w w' h hc hvalues
    cases values with
    | nil => exact follows_pure (t := id) (a := ()) h hc
    | cons v values =>
      have hn : ∀ m, Form.symbol n = .symbol m → S.name c m := by
        rintro m ⟨⟩
        exact hname n (List.mem_cons_self ..)
      have hfirst : S.Follows w w' (define c (.symbol n) v)
          (define (S.move c) (.symbol n) (S.translate v)) S.translate S.value :=
        follows_define h hc hn (hvalues v (List.mem_cons_self ..))
      refine hfirst.discard.bind fun _ u u' hlater hu _ ↦ ?_
      refine ih (fun m hm ↦ hname m (List.mem_cons_of_mem _ hm)) hu (S.context_later hlater hc)
        fun x hx ↦ ?_
      exact S.value_later hlater (hvalues x (List.mem_cons_of_mem _ hx))

/-- Opening a scope gives corresponding contexts, those that are next to be made. -/
theorem follows_openScope (h : S.related w w') {outer : Context} {names : List String}
    {values : List Value} (houter : S.outer w outer) (hvalues : ∀ v ∈ values, S.value w v) :
    S.Follows w w' (openScope outer names values)
      (openScope (S.move outer) names (values.map S.translate)) S.move
      fun u c ↦ c = (w.addScope outer).1 ∧ S.context u c := by
  have hworld := S.world_of_related h
  unfold openScope
  have hscope : S.Follows w w' (change fun w ↦ w.addScope outer)
      (change fun w ↦ w.addScope (S.move outer)) S.move
      fun u c ↦ c = (w.addScope outer).1 ∧ S.context u c :=
    follows_change (S.later_scope hworld houter) (S.related_scope h houter) (S.scope_eq h)
      ⟨rfl, S.context_scope hworld houter⟩
  refine hscope.bind fun c u u' hlater hu ⟨heq, hc⟩ ↦ ?_
  have hname : ∀ n ∈ names, S.name c n := fun n _ ↦ heq ▸ S.name_scope hworld
  have hall := follows_defineAll hname hu hc
    fun v hv ↦ S.value_later hlater (hvalues v hv)
  exact hall.bind fun _ v v' _ hv hc' ↦ follows_pure (t := S.move) hv ⟨heq, hc'⟩

/-- Making a function that captures a context. -/
theorem follows_makeFunction (h : S.related w w') {c : Context} {position : Position}
    {e body parameterList : Form} {kind : FunctionKind} {names : List String} (n : String)
    (hc : S.context w c) (hform : S.form c position e)
    (hpart : e.Part position (.body kind) kind.bodyPosition body)
    (hnames : parameters parameterList = .ok names) :
    S.Follows w w' (makeFunction kind n names body c) (makeFunction kind n names body (S.move c))
      S.function fun u f ↦ S.value u (.function f) := by
  have hworld := S.world_of_related h
  refine Follows.of_ok (a := ⟨kind, n, names, body, c, w.stamps⟩) (u := w.addStamp.2) rfl ?_
    (S.later_stamp hworld) (S.related_stamp h)
    (S.value_function hworld hc hform hpart hnames)
  rw [S.function_eq h]
  rfl

end DottedLisp.Simulation
