import DottedLisp.Proofs.Session

/-!
# Linked worlds

A function refers to the scopes and to the namespace of the context that it captured. In a
**linked** world all of these exist, as do the registered namespaces: an identity that is given out
next is referred to by nothing that is there. Evaluation only makes more, so links never break, and
the worlds that interpreters get into are linked.
-/

namespace DottedLisp

/-! ### The functions in a value -/

namespace Value

mutual

/-- The functions in a value, those among the values of a signal included. -/
def functions : Value → List Function
  | .function f => [f]
  | .signal _ values => functionsOf values
  | _ => []

/-- The functions in several values. -/
def functionsOf : List Value → List Function
  | [] => []
  | value :: rest => functions value ++ functionsOf rest

end

/-- Every function in the value has a property. -/
def Every (p : Function → Prop) (v : Value) : Prop :=
  ∀ f ∈ v.functions, p f

variable {p q : Function → Prop} {v : Value}

/-- The functions in several values are those in each. -/
theorem functionsOf_eq_flatMap (values : List Value) :
    functionsOf values = values.flatMap functions := by
  induction values with
  | nil => rw [functionsOf, List.flatMap_nil]
  | cons value rest ih => rw [functionsOf, ih, List.flatMap_cons]

@[simp] theorem every_nothing : nothing.Every p := by simp [Every, functions]

@[simp] theorem every_number (x : Float) : (number x).Every p := by simp [Every, functions]

@[simp] theorem every_native (n : Native) (stamp : Nat) : (native n stamp).Every p := by
  simp [Every, functions]

@[simp] theorem every_function {f : Function} : (function f).Every p ↔ p f := by
  simp [Every, functions]

/-- What holds of every function in a signal holds of those in each of its values. -/
@[simp] theorem every_signal {s : Signal} {values : List Value} :
    (signal s values).Every p ↔ ∀ x ∈ values, x.Every p := by
  simp only [Every, functions, functionsOf_eq_flatMap, List.mem_flatMap]
  constructor
  · intro h x hx f hf
    exact h f ⟨x, hx, hf⟩
  · rintro h f ⟨x, hx, hf⟩
    exact h x hx f hf

/-- A weaker property holds of the same functions. -/
theorem Every.mono (h : v.Every p) (hpq : ∀ f, p f → q f) : v.Every q :=
  fun f hf ↦ hpq f (h f hf)

end Value

/-! ### Contexts that exist -/

/-- The scopes of a context and the namespace that ends it exist. -/
structure Context.ExistsIn (w : World) (c : Context) : Prop where
  /-- The namespace is there. -/
  home_lt : c.home.index < w.namespaces.size
  /-- The scopes are there. -/
  scopes_lt : ∀ id ∈ c.scopes, id.index < w.scopes.size

namespace World

/-- Namespaces and scopes are made, and none is given up. -/
structure Grows (w w' : World) : Prop where
  /-- Namespaces stay. -/
  namespaces_le : w.namespaces.size ≤ w'.namespaces.size
  /-- Scopes stay. -/
  scopes_le : w.scopes.size ≤ w'.scopes.size

namespace Grows

variable {w w' w₁ w₂ w₃ : World}

/-- A change that makes nothing. -/
theorem of_eq (hnamespaces : w'.namespaces.size = w.namespaces.size)
    (hscopes : w'.scopes.size = w.scopes.size) : w.Grows w' :=
  ⟨Nat.le_of_eq hnamespaces.symm, Nat.le_of_eq hscopes.symm⟩

theorem refl (w : World) : w.Grows w := of_eq rfl rfl

/-- Growth adds up. -/
theorem trans (h : w₁.Grows w₂) (h' : w₂.Grows w₃) : w₁.Grows w₃ :=
  ⟨Nat.le_trans h.namespaces_le h'.namespaces_le, Nat.le_trans h.scopes_le h'.scopes_le⟩

/-- One more scope: the contexts that there were stay. -/
theorem addScope (w : World) (c : Context) : w.Grows (w.addScope c).2 :=
  ⟨Nat.le_refl _, by simp⟩

/-- At most one more namespace. -/
theorem createNamespace (w : World) (path : String) : w.Grows (w.createNamespace path).2 :=
  ⟨w.size_le_createNamespace path, by simp⟩

/-- Changing bindings makes and removes no context. -/
theorem modify (w : World) (c : Context) (f : Bindings → Bindings) :
    w.Grows (w.modifyBindings c f) :=
  of_eq (w.size_namespaces_modify c f) (w.size_scopes_modify c f)

theorem mark (w : World) (n : String) : w.Grows (w.markLoaded n) :=
  of_eq (by simp) (by simp)

/-- What exists stays. -/
theorem existsIn {c : Context} (h : w.Grows w') (hc : c.ExistsIn w) : c.ExistsIn w' where
  home_lt := Nat.lt_of_lt_of_le hc.home_lt h.namespaces_le
  scopes_lt id hid := Nat.lt_of_lt_of_le (hc.scopes_lt id hid) h.scopes_le

/-- Functions whose contexts exist go on having contexts that exist. -/
theorem every {v : Value} (h : w.Grows w') (hv : v.Every fun f ↦ f.context.ExistsIn w) :
    v.Every fun f ↦ f.context.ExistsIn w' :=
  hv.mono fun _ hf ↦ h.existsIn hf

end Grows

/-- **Everything that is referred to exists.** -/
structure Linked (w : World) : Prop where
  /-- Functions captured what is there. -/
  values : w.All (·.Every fun f ↦ f.context.ExistsIn w)
  /-- Registered namespaces are there. -/
  registry : ∀ entry ∈ w.registry, entry.2.index < w.namespaces.size

namespace Linked

variable {w w' : World} {c : Context} {n path : String} {v : Value} {id : NamespaceId}

/-- A change after which everything bound and registered was so before. -/
theorem of_grows (h : w.Linked) (hgrows : w.Grows w')
    (hvalues : w'.All (·.Every fun f ↦ f.context.ExistsIn w))
    (hregistry : ∀ entry ∈ w'.registry, entry ∈ w.registry) : w'.Linked where
  values := hvalues.mono fun _ hv ↦ hgrows.every hv
  registry entry hentry :=
    Nat.lt_of_lt_of_le (h.registry entry (hregistry entry hentry)) hgrows.namespaces_le

/-- A registered identity was given out. -/
theorem registered_lt (h : w.Linked) (hpath : w.registered? path = some id) :
    id.index < w.namespaces.size :=
  h.registry (path, id) (mem_of_registered hpath)

/-- The top level of a registered namespace exists. -/
theorem existsIn_top (h : w.Linked) (hpath : w.registered? path = some id) :
    (Context.top id).ExistsIn w :=
  ⟨h.registered_lt hpath, by simp [Context.scopes]⟩

/-- A new scope binds no function. -/
theorem addScope (h : w.Linked) : (w.addScope c).2.Linked :=
  h.of_grows (Grows.addScope w c) h.values.scope fun _ hentry ↦ hentry

/-- The new scope exists, inside a context that did. -/
theorem existsIn_addScope (hc : c.ExistsIn w) : (w.addScope c).1.ExistsIn (w.addScope c).2 where
  home_lt := hc.home_lt
  scopes_lt id hid := by
    rcases List.mem_cons.1 hid with rfl | hold
    · simp
    · exact ((Grows.addScope w c).existsIn hc).scopes_lt id hold

theorem stamp (h : w.Linked) : w.addStamp.2.Linked :=
  h.of_grows (Grows.of_eq rfl rfl) h.values.stamp fun _ hentry ↦ hentry

/-- A namespace exists as soon as it is made. -/
theorem lt_createNamespace (h : w.Linked) (path : String) :
    (w.createNamespace path).1.index < (w.createNamespace path).2.namespaces.size := by
  rcases hpath : w.registered? path with - | id
  · rw [createNamespace_of_unregistered w hpath]
    simp [register, addNamespace]
  · rw [createNamespace_of_registered w hpath]
    exact h.registered_lt hpath

/-- A created namespace is registered under an identity that exists and binds no function. -/
theorem createNamespace (h : w.Linked) (path : String) : (w.createNamespace path).2.Linked where
  values := (h.values.createNamespace path).mono fun _ hv ↦ (Grows.createNamespace w path).every hv
  registry entry hentry := by
    have hlt := h.lt_createNamespace path
    have hle := (Grows.createNamespace w path).namespaces_le
    rcases hpath : w.registered? path with - | known
    · rw [createNamespace_of_unregistered w hpath] at hentry hlt hle ⊢
      rcases List.mem_append.1 hentry with hold | hnew
      · exact Nat.lt_of_lt_of_le (h.registry entry hold) hle
      · rw [List.mem_singleton.1 hnew]
        exact hlt
    · rw [createNamespace_of_registered w hpath] at hentry ⊢
      exact h.registry entry hentry

/-- A function may be bound if its context exists. -/
theorem insert (h : w.Linked) (hv : v.Every fun f ↦ f.context.ExistsIn w) :
    (w.modifyBindings c fun b ↦ b.insert n v).Linked :=
  h.of_grows (Grows.modify w c _) (h.values.insert hv) fun entry hentry ↦ by
    rwa [registry_modify] at hentry

theorem replace (h : w.Linked) (hv : v.Every fun f ↦ f.context.ExistsIn w) :
    (w.modifyBindings c fun b ↦ b.replace n v).Linked :=
  h.of_grows (Grows.modify w c _) (h.values.replace hv) fun entry hentry ↦ by
    rwa [registry_modify] at hentry

theorem mark (h : w.Linked) : (w.markLoaded n).Linked :=
  h.of_grows (Grows.mark w n) h.values.mark fun entry hentry ↦ by
    rwa [registry_markLoaded] at hentry

/-- A rollback unregisters paths, and what remains registered was registered before. -/
theorem rollback (h : w.Linked) {paths loaded : List String} :
    (w.rollback paths loaded n).Linked :=
  h.of_grows (Grows.of_eq rfl rfl) (h.values.rollback paths loaded) fun _ hentry ↦
    (List.mem_filter.1 hentry).1

end Linked

end World

/-! ### Every evaluation -/

namespace Discipline

/-- **Evaluations keep worlds linked.** -/
def linking (setting : Setting) : Discipline setting where
  world := World.Linked
  later := World.Grows
  value w v := v.Every fun f ↦ f.context.ExistsIn w
  context w c := c.ExistsIn w
  outer w c := c.ExistsIn w
  later_refl := World.Grows.refl
  later_trans := World.Grows.trans
  value_later hgrows hv := hgrows.every hv
  context_later hgrows hc := hgrows.existsIn hc
  outer_later hgrows hc := hgrows.existsIn hc
  outer_of_context hc := hc
  value_nothing _ := Value.every_nothing
  value_number _ x := Value.every_number x
  value_lookup hworld _ hlookup := World.All.lookup hworld.values hlookup
  value_function _ hc _ _ _ := Value.every_function.2 ⟨hc.home_lt, hc.scopes_lt⟩
  value_signal hv hx := Value.every_signal.1 hv _ hx
  outer_function _ hv := Value.every_function.1 hv
  context_registered hworld hpath := hworld.existsIn_top hpath
  world_scope hworld _ := hworld.addScope
  later_scope _ _ := World.Grows.addScope ..
  context_scope _ hc := World.Linked.existsIn_addScope hc
  world_stamp hworld := hworld.stamp
  later_stamp _ := World.Grows.of_eq rfl rfl
  world_namespace path hworld := hworld.createNamespace path
  later_namespace path _ := World.Grows.createNamespace _ path
  context_namespace path hworld := ⟨hworld.lt_createNamespace path, by simp [Context.scopes]⟩
  world_insert hworld _ _ hv _ := hworld.insert hv
  later_insert _ _ _ _ _ := World.Grows.modify ..
  world_replace hworld _ hv _ := hworld.replace hv
  later_replace _ _ _ _ := World.Grows.modify ..
  world_mark hworld _ := hworld.mark
  later_mark _ _ := World.Grows.mark ..
  failed_rollback _ hworld _ _ := hworld.rollback
  later_rollback _ _ hlater _ := ⟨hlater.namespaces_le, hlater.scopes_le⟩

/-- Loading keeps it too: a module is marked and, if it fails, rolled back. -/
theorem closed_linking (setting : Setting) : (linking setting).Closed where
  form_checked _ _ := trivial
  world_mark _ hworld := World.Linked.mark hworld
  later_mark n _ := World.Grows.mark _ n
  failed_rollback _ _ hworld _ := World.Linked.rollback hworld
  later_rollback _ _ _ hlater := ⟨hlater.namespaces_le, hlater.scopes_le⟩

end Discipline

namespace Interpreter

variable {i : Interpreter} {w w' : World}

/-- In a fresh interpreter only namespaces and natives are made, and natives have no context. -/
theorem linked_create (host : Host) (roots : Option (List String)) (name : Option String)
    (stamps : Nat) : (create host roots name stamps).2.Linked := by
  have hempty : (World.empty stamps).Linked :=
    ⟨World.all_empty _ stamps, fun entry hentry ↦ by cases hentry⟩
  refine keeps_create hempty (fun w path hw ↦ hw.createNamespace path) (fun w id entry hw ↦ ?_)
    host roots name
  unfold addNative
  exact hw.stamp.insert (Value.every_native _ _)

/-- Runs keep worlds linked, and the home namespace exists. -/
theorem linked_of_leads (h : i.Leads w w') (hw : w.Linked)
    (hhome : (Context.top i.home).ExistsIn w) :
    w'.Linked ∧ (Context.top i.home).ExistsIn w' := by
  have hkeep : ∀ limits host request u, (u.Linked ∧ (Context.top i.home).ExistsIn u) →
      (i.after (i.within limits host) request u).Linked ∧
        (Context.top i.home).ExistsIn (i.after (i.within limits host) request u) := by
    rintro limits host request u ⟨hu, hhome⟩
    have hafter := (Discipline.closed_linking (i.within limits host)).after i request hu hhome
    exact ⟨hafter.1, hafter.2.existsIn hhome⟩
  exact h.keeps hkeep ⟨hw, hhome⟩

/-- **Reachable worlds are linked**, and the home namespace exists in them. -/
theorem linked_of_reachable (h : i.Reachable w) :
    w.Linked ∧ (Context.top i.home).ExistsIn w := by
  obtain ⟨host, roots, name, stamps, hi, hleads⟩ := h
  have hlinked := linked_create host roots name stamps
  obtain ⟨path, hpath⟩ := registered_create host roots name stamps
  rw [← hi] at hpath
  exact linked_of_leads hleads hlinked (hlinked.existsIn_top hpath)

end Interpreter

end DottedLisp
