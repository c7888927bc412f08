import DottedLisp.Proofs.ScopeFrames

/-!
# Isolation

An assignment goes to the nearest scope that binds the name, however far out in a chain, and chains
are entered through any closure that is at hand. So the reach of an evaluation is as wide as the
graph of what is bound: from the context it starts in and from the registered namespaces, along the
levels of contexts and through the functions that are bound there (`World.Reaches`).

It is also no wider. The discipline `isolating` is made from the world at the start and the contexts
that are known there. It calls a level **open** that is reached at the start or made since, and says
that only open levels are used: values bound in them refer to open levels only, and every other
level is as it was. Reachability is closed under what evaluation does, because what is bound in an
open level at the start is reached too, and what is bound later was at hand.

Main statement: `Evaluation.unreachable_untouched`.
-/

namespace DottedLisp

/-! ### Reaching -/

namespace World

/-- A level is reached from contexts: it is a level of one of them, or of a context that a function
captured that is bound in a level that is reached. -/
inductive Reaches (w : World) (start : Context → Prop) : Level → Prop
  | start {c : Context} {l : Level} (hc : start c) (hl : l ∈ c.levels) : Reaches w start l
  | captured {l l' : Level} {entry : String × Value} {f : Function} (h : Reaches w start l)
    (hentry : entry ∈ (w.bindingsAt l).entries) (hf : f ∈ entry.2.functions)
    (hl : l' ∈ f.context.levels) : Reaches w start l'

/-- Given contexts, and the registered namespaces. -/
def Known (w : World) (given : Context → Prop) (c : Context) : Prop :=
  given c ∨ ∃ entry ∈ w.registry, c = .top entry.2

variable {w : World} {c scope : Context} {l : Level} {n : String} {v : Value}

/-- What is found is bound in a level of the context. -/
theorem level_of_lookup (h : w.lookup? c n = some v) :
    ∃ l ∈ c.levels, (w.bindingsAt l).get? n = some v := by
  induction c with
  | top id => exact ⟨.space id, List.mem_cons_self .., h⟩
  | scope id outer ih =>
    rw [lookup?] at h
    split at h
    · rename_i value hvalue
      exact ⟨.scope id, List.mem_cons_self .., hvalue.trans h⟩
    · obtain ⟨l, hl, hget⟩ := ih h
      exact ⟨l, List.mem_cons_of_mem _ hl, hget⟩

/-- The scope that is found is a level of the context. -/
theorem level_of_findScope (h : w.findScope? c n = some scope) : scope.level ∈ c.levels := by
  induction c with
  | top id => cases h
  | scope id outer ih =>
    rw [findScope?] at h
    split at h
    · cases h
      exact List.mem_cons_self ..
    · exact List.mem_cons_of_mem _ (ih h)

/-- What does not exist binds nothing. -/
theorem bindingsAt_of_not_exists (h : ¬ l.ExistsIn w) : w.bindingsAt l = .empty := by
  cases l with
  | space id =>
    rw [bindingsAt, namespaceAt_of_le (Nat.le_of_not_lt h)]
    rfl
  | scope id => exact scopeAt_of_le (Nat.le_of_not_lt h)

/-! ### Open levels -/

/-- The levels that may be used after a start: those that were reached, and those made since. -/
def Opens (w₀ : World) (start : Context → Prop) (l : Level) : Prop :=
  w₀.Reaches start l ∨ ¬ l.ExistsIn w₀

end World

/-- All levels of the context are open. -/
def Context.OpenFrom (w₀ : World) (start : Context → Prop) (c : Context) : Prop :=
  ∀ l ∈ c.levels, w₀.Opens start l

/-- All functions in the value captured contexts whose levels are open. -/
def Value.OpenFrom (w₀ : World) (start : Context → Prop) (v : Value) : Prop :=
  v.Every fun f ↦ f.context.OpenFrom w₀ start

namespace World

/-- **Only open levels are used.** -/
structure Isolates (w₀ : World) (start : Context → Prop) (w : World) : Prop where
  /-- Nothing is given up. -/
  grows : w₀.Grows w
  /-- What is bound in open levels refers to open levels. -/
  values (l : Level) : w₀.Opens start l → (w.bindingsAt l).All (·.OpenFrom w₀ start)
  /-- Registered namespaces are open. -/
  registry : ∀ entry ∈ w.registry, w₀.Opens start (.space entry.2)
  /-- Other levels bind what they did. -/
  untouched (l : Level) : ¬ w₀.Opens start l → w.bindingsAt l = w₀.bindingsAt l

namespace Isolates

variable {w₀ w w' : World} {start given : Context → Prop} {c : Context} {n : String}

/-- Every world isolates what is not reached from the registered namespaces and other contexts. -/
theorem refl (w₀ : World) (given : Context → Prop) : w₀.Isolates (w₀.Known given) w₀ where
  grows := .refl w₀
  values l hl := by
    intro entry hentry f hf l' hl'
    rcases hl with hl | hl
    · exact Or.inl (hl.captured hentry hf hl')
    · rw [bindingsAt_of_not_exists hl] at hentry
      cases hentry
  registry entry hentry := Or.inl (.start (Or.inr ⟨entry, hentry, rfl⟩) (List.mem_cons_self ..))
  untouched _ _ := rfl

/-- A change of no bindings. -/
theorem of_eq (h : w₀.Isolates start w) (hgrows : w.Grows w')
    (hbindings : ∀ l, w'.bindingsAt l = w.bindingsAt l)
    (hregistry : ∀ entry ∈ w'.registry, w₀.Opens start (.space entry.2)) :
    w₀.Isolates start w' where
  grows := h.grows.trans hgrows
  values l hl := hbindings l ▸ h.values l hl
  registry := hregistry
  untouched l hl := (hbindings l).trans (h.untouched l hl)

/-- A change of the bindings of one open level. -/
theorem modify {f : Bindings → Bindings} (h : w₀.Isolates start w)
    (hc : w₀.Opens start c.level)
    (hf : ∀ b : Bindings, b.All (·.OpenFrom w₀ start) → (f b).All (·.OpenFrom w₀ start)) :
    w₀.Isolates start (w.modifyBindings c f) where
  grows := h.grows.trans (.modify ..)
  values l hl := by
    rcases w.bindingsAt_modify c l f with heq | ⟨-, heq⟩
    · exact heq ▸ h.values l hl
    · exact heq ▸ hf _ (h.values l hl)
  registry entry hentry := h.registry entry (by rwa [registry_modify] at hentry)
  untouched l hl := by
    rcases w.bindingsAt_modify c l f with heq | ⟨rfl, -⟩
    · exact heq.trans (h.untouched l hl)
    · exact absurd hc hl

/-- A scope that is made is open. -/
theorem openFrom_addScope (h : w₀.Isolates start w) (hc : c.OpenFrom w₀ start) :
    (w.addScope c).1.OpenFrom w₀ start := by
  intro l hl
  rcases List.mem_cons.1 hl with rfl | hl
  · exact Or.inr (Nat.not_lt_of_le h.grows.scopes_le)
  · exact hc l hl

/-- A created namespace is open: it was registered, or it did not exist before. -/
theorem opens_createNamespace (h : w₀.Isolates start w) (path : String) :
    w₀.Opens start (.space (w.createNamespace path).1) := by
  rcases hpath : w.registered? path with - | id
  · rw [createNamespace_of_unregistered w hpath]
    exact Or.inr (Nat.not_lt_of_le h.grows.namespaces_le)
  · rw [createNamespace_of_registered w hpath]
    exact h.registry (path, id) (mem_of_registered hpath)

/-- Creating a namespace changes no level, and the one that is registered is open. -/
theorem createNamespace (h : w₀.Isolates start w) (path : String) :
    w₀.Isolates start (w.createNamespace path).2 := by
  refine h.of_eq (.createNamespace w path) (fun l ↦ by simp) fun entry hentry ↦ ?_
  have hopens := h.opens_createNamespace path
  rcases hpath : w.registered? path with - | id
  · rw [createNamespace_of_unregistered w hpath] at hentry hopens
    rcases List.mem_append.1 hentry with hold | hnew
    · exact h.registry entry hold
    · rw [List.mem_singleton.1 hnew]
      exact hopens
  · rw [createNamespace_of_registered w hpath] at hentry
    exact h.registry entry hentry

/-- A rollback registers nothing. -/
theorem rollback (h : w₀.Isolates start w) (paths loaded : List String) :
    w₀.Isolates start (w.rollback paths loaded n) :=
  h.of_eq (.of_eq rfl rfl) (fun l ↦ by simp) fun entry hentry ↦
    h.registry entry (List.mem_filter.1 hentry).1

/-- **What is reached afterwards was open**, if it is reached from open contexts. -/
theorem opens_of_reaches (h : w₀.Isolates start w) (hgiven : ∀ c, given c → c.OpenFrom w₀ start)
    {l : Level} (hl : w.Reaches (w.Known given) l) : w₀.Opens start l := by
  induction hl with
  | start hc hl =>
    rcases hc with hc | ⟨entry, hentry, rfl⟩
    · exact hgiven _ hc _ hl
    · rw [List.mem_singleton.1 hl]
      exact h.registry entry hentry
  | captured _ hentry hf hl ih => exact h.values _ ih _ hentry _ hf _ hl

end Isolates

end World

namespace Discipline

/-- **Evaluations use open levels only.** -/
def isolating (setting : Setting) (w₀ : World) (start : Context → Prop) : Discipline setting where
  world := w₀.Isolates start
  value _ v := v.OpenFrom w₀ start
  context _ c := c.OpenFrom w₀ start
  outer _ c := c.OpenFrom w₀ start
  value_later _ hv := hv
  context_later _ hc := hc
  outer_later _ hc := hc
  outer_of_context hc := hc
  failed_of_world hworld := hworld
  value_nothing _ := Value.every_nothing
  value_number _ x := Value.every_number x
  value_lookup hworld hc hlookup := by
    obtain ⟨l, hl, hget⟩ := World.level_of_lookup hlookup
    exact (hworld.values l (hc l hl)).of_get? hget
  value_function _ hc _ _ _ := Value.every_function.2 hc
  value_signal hv hx := Value.every_signal.1 hv _ hx
  outer_function _ hv := Value.every_function.1 hv
  context_registered hworld hpath l hl := by
    rw [List.mem_singleton.1 hl]
    exact hworld.registry _ (World.mem_of_registered hpath)
  world_scope hworld _ :=
    hworld.of_eq (.addScope ..) (fun l ↦ by simp) fun entry hentry ↦ hworld.registry entry hentry
  context_scope hworld hc := hworld.openFrom_addScope hc
  world_stamp hworld := hworld.of_eq (.of_eq rfl rfl) (fun l ↦ by simp) hworld.registry
  world_namespace path hworld := hworld.createNamespace path
  context_namespace path hworld l hl := by
    rw [List.mem_singleton.1 hl]
    exact hworld.opens_createNamespace path
  world_insert hworld hc _ hv _ :=
    hworld.modify (hc _ (Context.level_mem _)) fun _ hb ↦ hb.insert hv
  world_replace hworld hc hv hscope :=
    hworld.modify (hc _ (World.level_of_findScope hscope)) fun _ hb ↦ hb.replace hv
  world_mark {_ n} hworld _ :=
    hworld.of_eq (.mark _ n) (fun l ↦ by simp) fun entry hentry ↦
      hworld.registry entry (by rwa [World.registry_markLoaded] at hentry)
  failed_rollback _ hworld _ _ := hworld.rollback _ _

end Discipline

namespace Evaluation

variable {setting : Setting} {depth : Nat} {w u : World}

/-! ### Calls of one function -/

/-- Calls of a function one after the other, from a world in which some values are at hand. A call
may be given what is at hand, and what it returns is at hand from then on. -/
inductive CallsLead (setting : Setting) (depth : Nat) (f : Function) (w : World)
    (given : List Value) : World → List Value → Prop
  | none : CallsLead setting depth f w given w given
  | answered {u x : World} {atHand arguments : List Value} {operator : Form} {v : Value}
    (hcalls : CallsLead setting depth f w given u atHand)
    (harguments : ∀ a ∈ arguments, a ∈ atHand)
    (hcall : apply setting (evaluate setting depth) operator (.function f) arguments u = .ok v x) :
    CallsLead setting depth f w given x (v :: atHand)
  | failed {u x : World} {atHand arguments : List Value} {operator : Form} {failure : Failure}
    (hcalls : CallsLead setting depth f w given u atHand)
    (harguments : ∀ a ∈ arguments, a ∈ atHand)
    (hcall : apply setting (evaluate setting depth) operator (.function f) arguments u =
      .error failure x) :
    CallsLead setting depth f w given x atHand

/-- The contexts that a function and other values bring with them. -/
def Captured (values : List Value) (c : Context) : Prop :=
  ∃ v ∈ values, ∃ f ∈ v.functions, c = f.context

/-- One call. -/
theorem isolates_apply (setting : Setting) (depth : Nat) (operator : Form) {w₀ : World}
    {start : Context → Prop} {f : Function} {arguments : List Value} (hw : w₀.Isolates start w)
    (hf : (Value.function f).OpenFrom w₀ start)
    (harguments : ∀ a ∈ arguments, a.OpenFrom w₀ start) :
    (Discipline.isolating setting w₀ start).Ends w
      (Discipline.isolating setting w₀ start).value
      (apply setting (evaluate setting depth) operator (.function f) arguments w) :=
  Discipline.ends_of_follows (Simulation.follows_apply_function
    ((Discipline.isolating setting w₀ start).evaluates depth) ⟨rfl, hw⟩ f.stamp rfl hf harguments)

/-- **Any number of calls**, by induction: what is at hand stays open. -/
theorem isolates_of_calls {f : Function} {given atHand : List Value}
    (h : CallsLead setting depth f w given u atHand) :
    w.Isolates (w.Known (Captured (.function f :: given))) u ∧
      ∀ a ∈ atHand, a.OpenFrom w (w.Known (Captured (.function f :: given))) := by
  -- The function and what it is given are what is reached at the start.
  have hopen : ∀ v ∈ Value.function f :: given,
      v.OpenFrom w (w.Known (Captured (.function f :: given))) :=
    fun v hv g hg l hl ↦ Or.inl (.start (Or.inl ⟨v, hv, g, hg, rfl⟩) hl)
  have hf := hopen _ (List.mem_cons_self ..)
  induction h with
  | none => exact ⟨.refl .., fun a ha ↦ hopen a (List.mem_cons_of_mem _ ha)⟩
  | @answered u x atHand arguments operator v _ harguments hcall ih =>
    have hends := isolates_apply setting depth operator ih.1 hf
      fun a ha ↦ ih.2 a (harguments a ha)
    rw [hcall] at hends
    refine ⟨hends.1, fun a ha ↦ ?_⟩
    rcases List.mem_cons.1 ha with rfl | ha
    · exact hends.2.2
    · exact ih.2 a ha
  | @failed u x atHand arguments operator failure _ harguments hcall ih =>
    have hends := isolates_apply setting depth operator ih.1 hf
      fun a ha ↦ ih.2 a (harguments a ha)
    rw [hcall] at hends
    exact ⟨hends.1, ih.2⟩

/-! ### Every evaluation -/

/-- **What cannot be reached is not touched.** Let a form be evaluated in a context. Call a level
reached that is reached from the context or from a registered namespace.

* Every scope that there was and that is not reached binds what it did, whether the evaluation
  succeeds or fails.
* Every scope that there was and that is reached afterwards, also from the value, was reached
  before.

And calls of a function, however many, do not touch the variables of another function, if none of
the scopes that the other one captured is reached from the first, from the values that it is given,
or from a registered namespace. -/
theorem unreachable_untouched :
    (∀ setting depth form c position w,
      let m : Moment := ⟨form, c, position, w⟩
      let u := m.after (evaluate setting depth)
      (∀ id, id.index < w.scopes.size → ¬ w.Reaches (w.Known (· = c)) (.scope id) →
        u.scopeAt id = w.scopeAt id) ∧
      ∀ v, m.outcome (evaluate setting depth) = .ok v u →
        ∀ id, id.index < w.scopes.size →
          u.Reaches (u.Known fun d ↦ d = c ∨ Captured [v] d) (.scope id) →
            w.Reaches (w.Known (· = c)) (.scope id)) ∧
    ∀ setting depth f w given u atHand, CallsLead setting depth f w given u atHand →
      ∀ g : Function, g.context.ExistsIn w →
        (∀ id ∈ g.context.scopes,
          ¬ w.Reaches (w.Known (Captured (.function f :: given))) (.scope id)) →
        ∀ id ∈ g.context.scopes, u.scopeAt id = w.scopeAt id := by
  -- A scope that there was at the start is open only if it was reached.
  have hclosed : ∀ {w : World} {start : Context → Prop} {id : ScopeId}, id.index < w.scopes.size →
      w.Opens start (.scope id) → w.Reaches start (.scope id) :=
    fun hid hopen ↦ hopen.resolve_right fun hnot ↦ hnot hid
  refine ⟨fun setting depth form c position w ↦ ?_, fun setting depth f w given u atHand hcalls g
    hg hapart id hid ↦ ?_⟩
  · intro m u
    have hc : c.OpenFrom w (w.Known (· = c)) := fun l hl ↦ Or.inl (.start (Or.inl rfl) hl)
    refine ⟨fun id hid hnot ↦ ?_, fun v hv id hid hreaches ↦ ?_⟩
    · have hafter : w.Isolates (w.Known (· = c)) u :=
        ((Discipline.isolating setting w (w.Known (· = c))).ends_after depth (m := m)
          (.refl ..) hc trivial).1
      exact hafter.untouched (.scope id) fun hopen ↦ hnot (hclosed hid hopen)
    · have hends := (Discipline.isolating setting w (w.Known (· = c))).ends_outcome depth (m := m)
        (.refl ..) hc trivial
      rw [hv] at hends
      have hvalue : v.OpenFrom w (w.Known (· = c)) :=
        Discipline.value_of_result (fun _ _ ↦ Value.every_signal.2) hends.2.2
      refine hclosed hid (hends.1.opens_of_reaches (fun d hd ↦ ?_) hreaches)
      rcases hd with rfl | ⟨x, hx, f, hf, rfl⟩
      · exact hc
      · rw [List.mem_singleton.1 hx] at hf
        exact hvalue f hf
  · exact (isolates_of_calls hcalls).1.untouched (.scope id) fun hopen ↦
      hapart id hid (hclosed (hg.scopes_lt id hid) hopen)

/-- Two closures with a variable each, under the same name and in the same namespace. -/
theorem unreachable_untouched_closures :
    let scope : Scope := ⟨.top ⟨0⟩, ⟨[("n", .number 1)]⟩⟩
    let w : World := ⟨#[⟨"m", .empty⟩], #[scope, scope], [("m", ⟨0⟩)], [], 2⟩
    let body : Form := .list [.symbol "set", .symbol "n", .number 5]
    let f : Function := ⟨.anonymous, "lambda", [], body, .scope ⟨0⟩ (.top ⟨0⟩), 0⟩
    let g : Function := ⟨.anonymous, "lambda", [], body, .scope ⟨1⟩ (.top ⟨0⟩), 1⟩
    let setting : Setting := ⟨⟨9, 9, 9⟩, fun _ ↦ .ok none⟩
    let u := (Moment.mk body f.context .value w).after (evaluate setting 9)
    u.scopeAt ⟨0⟩ = ⟨[("n", .number 5)]⟩ ∧ u.scopeAt ⟨1⟩ = w.scopeAt ⟨1⟩ ∧
      ∃ x, CallsLead setting 9 f w [] x [.number 5] ∧
        ∀ id ∈ g.context.scopes, x.scopeAt id = w.scopeAt id := by
  intro scope w body f g setting u
  -- nothing is bound that leads from the first scope or the namespace to the second scope
  have hapart : ∀ given : Context → Prop, (∀ c, given c → c = f.context) →
      ¬ w.Reaches (w.Known given) (.scope ⟨1⟩) := by
    intro given hgiven hreaches
    have hlevels : ∀ l, w.Reaches (w.Known given) l → l ∈ f.context.levels := by
      intro l hl
      induction hl with
      | start hc hl =>
        rcases hc with hc | ⟨entry, hentry, rfl⟩
        · exact hgiven _ hc ▸ hl
        · rw [List.mem_singleton.1 hentry] at hl
          exact List.mem_cons_of_mem _ hl
      | captured _ hentry hf _ ih =>
        simp only [f, Context.levels, List.mem_cons, List.not_mem_nil, or_false] at ih
        rcases ih with rfl | rfl
        · rw [List.mem_singleton.1 hentry] at hf
          cases hf
        · cases hentry
    exact absurd (hlevels _ hreaches) (by decide)
  obtain ⟨heval, hcalls⟩ := unreachable_untouched
  refine ⟨by decide +kernel, ?_, ?_⟩
  · exact (heval setting 9 body f.context .value w).1 ⟨1⟩ (by decide) (hapart _ fun _ hc ↦ hc)
  · obtain ⟨x, hcall⟩ := ok_of_answer
      (apply setting (evaluate setting 9) (.symbol "f") (.function f) [] w) (a := .number 5)
      (by decide +kernel)
    have hlead : CallsLead setting 9 f w [] x [.number 5] := .answered .none (by simp) hcall
    refine ⟨x, hlead, hcalls setting 9 f w [] x _ hlead g ⟨by decide, by decide⟩ fun id hid ↦ ?_⟩
    rw [List.mem_singleton.1 hid]
    refine hapart _ ?_
    rintro c ⟨v, hv, h, hh, rfl⟩
    rw [List.mem_singleton.1 hv] at hh
    rw [List.mem_singleton.1 hh]

end Evaluation

end DottedLisp
