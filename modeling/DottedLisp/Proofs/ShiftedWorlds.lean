import DottedLisp.Proofs.MappedWorlds
import DottedLisp.Proofs.Simulation.Evaluator

/-!
# Worlds that differ in identities

Identities of namespaces and scopes and the stamps of functions are given out in order. A world in
which some were given out in vain, to what nothing refers to any more, differs from one in which
they were not by a **gap** in each of the three sequences: from some number on, everything has moved
by the width of the gap.

`World.Matches` says that two worlds are the same up to such a shift. Every change keeps it, what is
made next in the one world corresponds to what is made next in the other, and look-ups answer alike;
so evaluation cannot tell the two worlds apart (`shifting`). Nothing is excused: the runs exceed
limits together.
-/

namespace DottedLisp

/-! ### Gaps -/

/-- A gap in a sequence of numbers. -/
structure Gap where
  /-- The first number that is moved. -/
  start : Nat
  /-- By how much. -/
  width : Nat
  deriving Repr, DecidableEq

namespace Gap

variable {g : Gap} {m n n' : Nat}

/-- Move the numbers from the start of the gap on. -/
def shift (g : Gap) (n : Nat) : Nat :=
  if n < g.start then n else n + g.width

theorem shift_of_lt (h : n < g.start) : g.shift n = n := if_pos h

theorem shift_of_le (h : g.start ≤ n) : g.shift n = n + g.width := if_neg (by omega)

/-- Numbers are kept apart. -/
theorem shift_inj : g.shift m = g.shift n ↔ m = n := by
  unfold shift
  split <;> split <;> omega

/-- The gap lies below two counts that differ by its width. -/
structure Spans (g : Gap) (n n' : Nat) : Prop where
  /-- The gap was there when the first count was reached. -/
  start_le : g.start ≤ n
  /-- The second count is ahead by the gap. -/
  eq_add : n' = n + g.width

/-- What is counted next corresponds. -/
theorem Spans.shift_eq (h : g.Spans n n') : g.shift n = n' := by
  rw [shift_of_le h.start_le, h.eq_add]

theorem Spans.succ (h : g.Spans n n') : g.Spans (n + 1) (n' + 1) :=
  ⟨Nat.le_succ_of_le h.start_le, by rw [h.eq_add]; omega⟩

/-- What is not counted yet is not counted in the second count either. -/
theorem Spans.le_shift (h : g.Spans n n') (hm : n ≤ m) : n' ≤ g.shift m := by
  rw [shift_of_le (Nat.le_trans h.start_le hm), h.eq_add]
  exact Nat.add_le_add_right hm _

/-- What exists in the one run exists, shifted, in the other. -/
theorem Spans.shift_lt_iff (h : g.Spans n n') : g.shift m < n' ↔ m < n := by
  obtain ⟨hle, heq⟩ := h
  unfold shift
  split <;> omega

end Gap

/-! ### Shifts -/

/-- A gap in each sequence of identities. -/
structure Shift where
  /-- In the namespaces. -/
  spaces : Gap
  /-- In the scopes. -/
  scopes : Gap
  /-- In the stamps of functions. -/
  stamps : Gap
  deriving Repr, DecidableEq

namespace Shift

variable (r : Shift)

/-- Where a namespace is. -/
def space (id : NamespaceId) : NamespaceId := ⟨r.spaces.shift id.index⟩

/-- Where a scope is. -/
def scope (id : ScopeId) : ScopeId := ⟨r.scopes.shift id.index⟩

/-- What a context is. -/
def move : Context → Context
  | .top id => .top (r.space id)
  | .scope id outer => .scope (r.scope id) (move outer)

/-- What a function object is. -/
def function (f : Function) : Function :=
  { f with context := r.move f.context, stamp := r.stamps.shift f.stamp }

/-- What a value is. -/
abbrev value : Value → Value := Value.translate r.function

/-- No two namespaces are shifted to one. -/
theorem space_inj {id other : NamespaceId} : r.space id = r.space other ↔ id = other := by
  obtain ⟨i⟩ := id
  obtain ⟨j⟩ := other
  rw [space, space, NamespaceId.mk.injEq, Gap.shift_inj, NamespaceId.mk.injEq]

theorem scope_inj {id other : ScopeId} : r.scope id = r.scope other ↔ id = other := by
  obtain ⟨i⟩ := id
  obtain ⟨j⟩ := other
  rw [scope, scope, ScopeId.mk.injEq, Gap.shift_inj, ScopeId.mk.injEq]

/-! What was made before the gaps is where it was. -/

theorem space_of_lt {id : NamespaceId} (h : id.index < r.spaces.start) : r.space id = id := by
  rw [space, Gap.shift_of_lt h]

theorem scope_of_lt {id : ScopeId} (h : id.index < r.scopes.start) : r.scope id = id := by
  rw [scope, Gap.shift_of_lt h]

/-- A context that leads through what is below the gaps stays where it is. -/
theorem move_of_lt {c : Context} (hhome : c.home.index < r.spaces.start)
    (hscopes : ∀ id ∈ c.scopes, id.index < r.scopes.start) : r.move c = c := by
  induction c with
  | top id => exact congrArg Context.top (r.space_of_lt hhome)
  | scope id outer ih =>
    have hid := hscopes id (List.mem_cons_self ..)
    have houter := ih hhome fun other hother ↦ hscopes other (List.mem_cons_of_mem _ hother)
    rw [move, r.scope_of_lt hid, houter]

theorem isTop_move (c : Context) : (r.move c).isTop = c.isTop := by
  cases c <;> rfl

theorem home_move (c : Context) : (r.move c).home = r.space c.home := by
  induction c with
  | top id => rfl
  | scope id outer ih => exact ih

end Shift

/-! ### Worlds that match -/

namespace World

/-- **The second world is the first one up to a shift.** -/
structure Matches (r : Shift) (w w' : World) : Prop where
  /-- Namespaces have the gap. -/
  spaces : r.spaces.Spans w.namespaces.size w'.namespaces.size
  /-- Scopes have the gap. -/
  scopes : r.scopes.Spans w.scopes.size w'.scopes.size
  /-- Stamps have the gap. -/
  stamps : r.stamps.Spans w.stamps w'.stamps
  /-- Namespaces have their paths. -/
  path_eq (id : NamespaceId) : (w'.namespaceAt (r.space id)).path = (w.namespaceAt id).path
  /-- Namespaces bind the same. -/
  bindings_eq (id : NamespaceId) :
    (w'.namespaceAt (r.space id)).bindings = (w.namespaceAt id).bindings.map r.value
  /-- Scopes bind the same. -/
  scope_eq (id : ScopeId) : w'.scopeAt (r.scope id) = (w.scopeAt id).map r.value
  /-- The same paths are registered, in the same order. -/
  registry_eq : w'.registry = w.registry.map fun entry ↦ (entry.1, r.space entry.2)
  /-- The same modules are loaded. -/
  loaded_eq : w'.loaded = w.loaded

/-- A namespace that is made is the last one. -/
theorem namespaceAt_addNamespace (w : World) (path : String) (id : NamespaceId) :
    (w.addNamespace path).2.namespaceAt id =
      if id.index = w.namespaces.size then ⟨path, .empty⟩ else w.namespaceAt id := by
  simp only [addNamespace, namespaceAt, Array.getD_eq_getD_getElem?, Array.getElem?_push]
  split
  · rfl
  · rfl

namespace Matches

variable {r : Shift} {w w' w₁ w₁' w₂ w₂' : World} {c : Context} {n path : String}

/-! ### Answers -/

/-- The registries hold the same paths; what they hold under them is shifted. -/
theorem registered (h : w.Matches r w') (path : String) :
    w'.registered? path = (w.registered? path).map r.space := by
  rw [registered?, registered?, h.registry_eq]
  induction w.registry with
  | nil => rfl
  | cons entry rest ih =>
    rw [List.map_cons, List.lookup_cons, List.lookup_cons]
    cases path == entry.1 with
    | true => rfl
    | false => exact ih

theorem paths_eq (h : w.Matches r w') : w'.paths = w.paths := by
  rw [paths, h.registry_eq, List.map_map, paths]
  rfl

theorem isLoaded_eq (h : w.Matches r w') (n : String) : w'.isLoaded n = w.isLoaded n := by
  rw [isLoaded, h.loaded_eq, isLoaded]

/-- Corresponding levels bind the same names. -/
theorem bindingsOf (h : w.Matches r w') (c : Context) :
    w'.bindingsOf (r.move c) = (w.bindingsOf c).map r.value := by
  cases c with
  | top id => exact h.bindings_eq id
  | scope id outer => exact h.scope_eq id

/-- **A name is found** in the one world exactly where it is found in the other, with the value
shifted. -/
theorem lookup (h : w.Matches r w') (c : Context) (n : String) :
    w'.lookup? (r.move c) n = (w.lookup? c n).map r.value := by
  induction c with
  | top id => rw [Shift.move, lookup?, h.bindings_eq, Bindings.get?_map, lookup?]
  | scope id outer ih =>
    rw [Shift.move, lookup?, h.scope_eq, Bindings.get?_map, ih, lookup?]
    cases (w.scopeAt id).get? n <;> rfl

/-- The scope that binds a name likewise. -/
theorem findScope (h : w.Matches r w') (c : Context) (n : String) :
    w'.findScope? (r.move c) n = (w.findScope? c n).map r.move := by
  induction c with
  | top id => rfl
  | scope id outer ih =>
    rw [Shift.move, findScope?, h.scope_eq, Bindings.binds_map, ih, findScope?]
    split
    · rfl
    · rfl

/-! ### Changes -/

/-- The scope that is made next. -/
theorem addScope_fst (h : w.Matches r w') :
    (w'.addScope (r.move c)).1 = r.move (w.addScope c).1 := by
  simp only [World.addScope, Shift.move, Shift.scope, h.scopes.shift_eq]

/-- A scope is made in both, on both sides of the gap. -/
theorem addScope (h : w.Matches r w') :
    (w.addScope c).2.Matches r (w'.addScope (r.move c)).2 where
  spaces := h.spaces
  scopes := by
    rw [size_addScope, size_addScope]
    exact h.scopes.succ
  stamps := h.stamps
  path_eq := h.path_eq
  bindings_eq := h.bindings_eq
  scope_eq id := by rw [scopeAt_addScope, scopeAt_addScope, h.scope_eq]
  registry_eq := h.registry_eq
  loaded_eq := h.loaded_eq

theorem addStamp (h : w.Matches r w') : w.addStamp.2.Matches r w'.addStamp.2 :=
  { h with stamps := h.stamps.succ }

/-- The namespace under a path, made or not. -/
theorem createNamespace_fst (h : w.Matches r w') (path : String) :
    (w'.createNamespace path).1 = r.space (w.createNamespace path).1 := by
  have hregistered := h.registered path
  rcases hpath : w.registered? path with - | id
  · rw [hpath] at hregistered
    rw [createNamespace_of_unregistered w hpath, createNamespace_of_unregistered w' hregistered,
      Shift.space, h.spaces.shift_eq]
  · rw [hpath] at hregistered
    rw [createNamespace_of_registered w hpath, createNamespace_of_registered w' hregistered]

/-- So is a namespace … -/
theorem addNamespace (h : w.Matches r w') (path : String) :
    (w.addNamespace path).2.Matches r (w'.addNamespace path).2 := by
  -- the identity is the next one in both worlds or in none
  have hnext (id : NamespaceId) :
      (r.space id).index = w'.namespaces.size ↔ id.index = w.namespaces.size := by
    rw [← h.spaces.shift_eq]
    exact Gap.shift_inj
  refine { h with spaces := ?_, path_eq := fun id ↦ ?_, bindings_eq := fun id ↦ ?_ }
  · show r.spaces.Spans (w.namespaces.push _).size (w'.namespaces.push _).size
    rw [Array.size_push, Array.size_push]
    exact h.spaces.succ
  · simp only [namespaceAt_addNamespace, hnext]
    split
    · rfl
    · exact h.path_eq id
  · simp only [namespaceAt_addNamespace, hnext]
    split
    · rfl
    · exact h.bindings_eq id

/-- … unless both registries have one under that path. -/
theorem createNamespace (h : w.Matches r w') (path : String) :
    (w.createNamespace path).2.Matches r (w'.createNamespace path).2 := by
  have hregistered := h.registered path
  rcases hpath : w.registered? path with - | id
  · rw [hpath] at hregistered
    rw [createNamespace_of_unregistered w hpath, createNamespace_of_unregistered w' hregistered]
    refine { h.addNamespace path with registry_eq := ?_ }
    show w'.registry ++ [(path, NamespaceId.mk w'.namespaces.size)] =
      (w.registry ++ [(path, NamespaceId.mk w.namespaces.size)]).map fun entry ↦
        (entry.1, r.space entry.2)
    rw [List.map_append, h.registry_eq, List.map_singleton, Shift.space, h.spaces.shift_eq]
  · rw [hpath] at hregistered
    rw [createNamespace_of_registered w hpath, createNamespace_of_registered w' hregistered]
    exact h

/-- Corresponding changes of bindings. -/
theorem modify {f f' : Bindings → Bindings} (h : w.Matches r w')
    (hf : ∀ b : Bindings, (f b).map r.value = f' (b.map r.value)) (c : Context) :
    (w.modifyBindings c f).Matches r (w'.modifyBindings (r.move c) f') := by
  have hspaces : r.spaces.Spans (w.modifyBindings c f).namespaces.size
      (w'.modifyBindings (r.move c) f').namespaces.size := by
    rw [size_namespaces_modify, size_namespaces_modify]
    exact h.spaces
  have hscopes : r.scopes.Spans (w.modifyBindings c f).scopes.size
      (w'.modifyBindings (r.move c) f').scopes.size := by
    rw [size_scopes_modify, size_scopes_modify]
    exact h.scopes
  cases c with
  | top id =>
    have hchanged (other : NamespaceId) :
        (r.space other = r.space id ∧ (r.space id).index < w'.namespaces.size) ↔
          (other = id ∧ id.index < w.namespaces.size) :=
      and_congr r.space_inj h.spaces.shift_lt_iff
    refine { h with spaces := hspaces, path_eq := fun other ↦ ?_, bindings_eq := fun other ↦ ?_ }
    · simp only [Shift.move, namespaceAt_modify_top, hchanged]
      split
      · exact h.path_eq id
      · exact h.path_eq other
    · simp only [Shift.move, namespaceAt_modify_top, hchanged]
      split
      · rw [hf, h.bindings_eq]
      · exact h.bindings_eq other
  | scope id outer =>
    have hchanged (other : ScopeId) :
        (r.scope other = r.scope id ∧ (r.scope id).index < w'.scopes.size) ↔
          (other = id ∧ id.index < w.scopes.size) :=
      and_congr r.scope_inj h.scopes.shift_lt_iff
    refine { h with scopes := hscopes, scope_eq := fun other ↦ ?_ }
    simp only [Shift.move, scopeAt_modify_scope, hchanged]
    split
    · rw [hf, h.scope_eq]
    · exact h.scope_eq other

theorem mark (h : w.Matches r w') (n : String) : (w.markLoaded n).Matches r (w'.markLoaded n) := by
  unfold markLoaded
  rw [h.isLoaded_eq]
  split
  · exact h
  · exact { h with loaded_eq := congrArg (n :: ·) h.loaded_eq }

/-- Loads that are taken back leave worlds that match, if what was there before did. -/
theorem rollback (h₁ : w₁.Matches r w₁') (h₂ : w₂.Matches r w₂') (n : String) :
    (w₂.rollback w₁.paths w₁.loaded n).Matches r (w₂'.rollback w₁'.paths w₁'.loaded n) := by
  rw [h₁.paths_eq, h₁.loaded_eq]
  refine { h₂ with registry_eq := ?_, loaded_eq := ?_ }
  · show w₂'.registry.filter _ = (w₂.registry.filter _).map _
    rw [h₂.registry_eq, List.filter_map]
    rfl
  · show w₂'.loaded.filter _ = w₂.loaded.filter _
    rw [h₂.loaded_eq]

end Matches

end World

/-! ### The simulation -/

/-- **Runs in worlds that match correspond.** -/
def shifting (r : Shift) (setting : Setting) : Simulation setting setting where
  toAllowance := .same setting
  related := World.Matches r
  function := r.function
  space := r.space
  move := r.move
  world_of_related _ := trivial
  parted_of_related h := h
  stamp_function _ _ := Gap.shift_inj
  move_top _ := rfl
  isTop_move := r.isTop_move
  path_eq c h := by rw [r.home_move, h.path_eq]
  registered_eq path h := h.registered path
  loaded_eq _ h := Or.inl (h.isLoaded_eq _)
  lookup_eq h _ _ := h.lookup _ _
  lookup_top_eq {_ _ id n} h _ := h.lookup (.top id) n
  binds_eq h _ _ := by rw [h.bindingsOf, Bindings.binds_map]
  findScope_eq h _ _ _ := h.findScope _ _
  scope_eq h := h.addScope_fst
  related_scope h _ := h.addScope
  function_eq h := by rw [Shift.function, h.stamps.shift_eq]
  related_stamp h := h.addStamp
  namespace_eq path h := h.createNamespace_fst path
  related_namespace path h := h.createNamespace path
  related_insert h _ _ _ _ := h.modify (fun b ↦ b.map_insert _ _ _) _
  related_replace h _ _ _ := h.modify (fun b ↦ b.map_replace _ _ _) _
  related_mark h _ := h.mark _
  parted_rollback h₁ h₂ _ _ := h₁.rollback h₂ _

/-- **Every evaluation goes along with itself in a world that matches.** -/
theorem evaluates_shifting (r : Shift) (setting : Setting) (depth : Nat) :
    (shifting r setting).Evaluates (Evaluation.evaluate setting depth)
      (Evaluation.evaluate setting depth) :=
  Simulation.evaluates_of_shape (fun f ↦ ⟨r.stamps.shift f.stamp, rfl⟩) depth

/-- Nothing is excused, so the runs end alike in every case. -/
theorem outcomes_of_shifting {r : Shift} {setting : Setting} {α : Type} {w w' : World}
    {m m' : Evaluation α} {t : α → α} {P : World → α → Prop}
    (h : (shifting r setting).Follows w w' m m' t P) :
    (∃ a u u', m w = .ok a u ∧ m' w' = .ok (t a) u' ∧ u.Matches r u') ∨
      ∃ f u u', m w = .error f u ∧ m' w' = .error f u' ∧ u.Matches r u' := by
  unfold Simulation.Follows at h
  rcases hm : m w with ⟨a, u⟩ | ⟨f, u⟩
  · rw [hm] at h
    obtain ⟨-, -, -, u', hm', hmatches⟩ := h
    exact Or.inl ⟨a, u, u', rfl, hm', hmatches⟩
  · rw [hm] at h
    obtain ⟨-, -, -, hexcused | ⟨u', hm', hmatches⟩⟩ := h
    · exact hexcused.elim
    · exact Or.inr ⟨f, u, u', rfl, hm', hmatches⟩

end DottedLisp
