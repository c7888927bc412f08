import DottedLisp.World

/-!
# The world after a change

What each change of the world does to the two views of it, `World.namespaceAt` and
`World.scopeAt`, and to the registry. An identity that was never given out reads as something that
binds nothing, so **making** a namespace or a scope changes no view of bindings at all; only
`World.modifyBindings` does, and only at one identity.
-/

namespace DottedLisp

namespace World

variable (w : World) (c : Context) (f : Bindings → Bindings)

/-! ### Identities that were not given out -/

/-- Under an identity that was not given out there is the default namespace. -/
theorem namespaceAt_of_le {w : World} {id : NamespaceId} (h : w.namespaces.size ≤ id.index) :
    w.namespaceAt id = default := by
  rw [namespaceAt, Array.getD_eq_getD_getElem?, Array.getElem?_eq_none h, Option.getD_none]

/-- Under an identity that was not given out there is a scope without bindings. -/
theorem scopeAt_of_le {w : World} {id : ScopeId} (h : w.scopes.size ≤ id.index) :
    w.scopeAt id = .empty := by
  rw [scopeAt, Array.getElem?_eq_none h, Option.map_none, Option.getD_none]

/-! ### Bindings -/

/-- A change of the bindings of a namespace shows there and nowhere else, if the namespace exists.
-/
theorem namespaceAt_modify_top (id other : NamespaceId) :
    (w.modifyBindings (.top id) f).namespaceAt other =
      if other = id ∧ id.index < w.namespaces.size then
        { w.namespaceAt id with bindings := f (w.namespaceAt id).bindings }
      else w.namespaceAt other := by
  obtain ⟨i⟩ := id
  obtain ⟨j⟩ := other
  simp only [modifyBindings, namespaceAt, Array.getD_eq_getD_getElem?, Array.getElem?_modify,
    NamespaceId.mk.injEq]
  by_cases hij : i = j
  · subst hij
    by_cases hi : i < w.namespaces.size
    · simp [hi]
    · simp [hi]
  · simp [hij, Ne.symm hij]

@[simp] theorem namespaceAt_modify_scope (id : ScopeId) (outer : Context) (other : NamespaceId) :
    (w.modifyBindings (.scope id outer) f).namespaceAt other = w.namespaceAt other := rfl

/-- A change of the bindings of a scope shows there and nowhere else, if the scope exists. -/
theorem scopeAt_modify_scope (id : ScopeId) (outer : Context) (other : ScopeId) :
    (w.modifyBindings (.scope id outer) f).scopeAt other =
      if other = id ∧ id.index < w.scopes.size then f (w.scopeAt id) else w.scopeAt other := by
  obtain ⟨i⟩ := id
  obtain ⟨j⟩ := other
  simp only [modifyBindings, scopeAt, Array.getElem?_modify, ScopeId.mk.injEq]
  by_cases hij : i = j
  · subst hij
    by_cases hi : i < w.scopes.size
    · simp [hi]
    · simp [hi]
  · simp [hij, Ne.symm hij]

@[simp] theorem scopeAt_modify_top (id : NamespaceId) (other : ScopeId) :
    (w.modifyBindings (.top id) f).scopeAt other = w.scopeAt other := rfl

/-- Bindings are not part of the registry. -/
@[simp] theorem registry_modify : (w.modifyBindings c f).registry = w.registry := by
  cases c <;> rfl

@[simp] theorem loaded_modify : (w.modifyBindings c f).loaded = w.loaded := by
  cases c <;> rfl

@[simp] theorem stamps_modify : (w.modifyBindings c f).stamps = w.stamps := by
  cases c <;> rfl

/-- Changing bindings makes no scopes, and no namespaces either. -/
@[simp] theorem size_scopes_modify : (w.modifyBindings c f).scopes.size = w.scopes.size := by
  cases c <;> simp [modifyBindings]

/-- A change of bindings makes no namespace. -/
@[simp] theorem size_namespaces_modify :
    (w.modifyBindings c f).namespaces.size = w.namespaces.size := by
  cases c <;> simp [modifyBindings]

/-! ### Scopes -/

/-- Namespaces do not know of the scopes inside them. -/
@[simp] theorem namespaceAt_addScope (id : NamespaceId) :
    (w.addScope c).2.namespaceAt id = w.namespaceAt id := rfl

/-- A new scope shows no difference: it is as empty as the default. -/
@[simp] theorem scopeAt_addScope (id : ScopeId) :
    (w.addScope c).2.scopeAt id = w.scopeAt id := by
  simp only [addScope, scopeAt, Array.getElem?_push]
  split
  · rename_i hsize
    simp [hsize]
  · rfl

/-- There is one scope more. -/
@[simp] theorem size_addScope : (w.addScope c).2.scopes.size = w.scopes.size + 1 := by
  simp [addScope]

/-! ### Namespaces and the registry -/

/-- Creating a namespace under a registered path gives what is registered and changes nothing. -/
theorem createNamespace_of_registered {path : String} {id : NamespaceId}
    (h : w.registered? path = some id) : w.createNamespace path = (id, w) := by
  rw [createNamespace, h]

/-- Creating a namespace under another path adds one and registers it. -/
theorem createNamespace_of_unregistered {path : String} (h : w.registered? path = none) :
    w.createNamespace path =
      (⟨w.namespaces.size⟩, (w.addNamespace path).2.register path ⟨w.namespaces.size⟩) := by
  rw [createNamespace, h]
  rfl

/-- Creating a namespace leaves scopes, stamps and loaded modules as they are. -/
@[simp] theorem scopes_createNamespace (path : String) :
    (w.createNamespace path).2.scopes = w.scopes := by
  unfold createNamespace
  split <;> rfl

/-- Creating a namespace makes no scope. -/
@[simp] theorem scopeAt_createNamespace (path : String) (id : ScopeId) :
    (w.createNamespace path).2.scopeAt id = w.scopeAt id := by
  rw [scopeAt, scopes_createNamespace, scopeAt]

@[simp] theorem stamps_createNamespace (path : String) :
    (w.createNamespace path).2.stamps = w.stamps := by
  unfold createNamespace
  split <;> rfl

@[simp] theorem loaded_createNamespace (path : String) :
    (w.createNamespace path).2.loaded = w.loaded := by
  unfold createNamespace
  split <;> rfl

/-- Creating a namespace loads nothing. -/
@[simp] theorem isLoaded_createNamespace (path n : String) :
    (w.createNamespace path).2.isLoaded n = w.isLoaded n := by
  rw [isLoaded, loaded_createNamespace, isLoaded]

/-- After a namespace was created, every identity shows what it showed before, or it is the new one,
which showed nothing. -/
theorem namespaceAt_createNamespace (path : String) (id : NamespaceId) :
    (w.createNamespace path).2.namespaceAt id = w.namespaceAt id ∨
      id.index = w.namespaces.size ∧ (w.namespaceAt id).bindings = .empty ∧
        (w.createNamespace path).2.namespaceAt id = ⟨path, .empty⟩ := by
  rcases hpath : w.registered? path with - | known
  · rw [createNamespace_of_unregistered w hpath]
    simp only [register, addNamespace, namespaceAt, Array.getD_eq_getD_getElem?,
      Array.getElem?_push]
    by_cases hsize : id.index = w.namespaces.size
    · refine Or.inr ⟨hsize, ?_, ?_⟩
      · simp [hsize]
        rfl
      · simp [hsize]
    · exact Or.inl (by simp [hsize])
  · rw [createNamespace_of_registered w hpath]
    exact Or.inl rfl

/-- A new namespace binds nothing, as did the identity it was given. -/
@[simp] theorem bindings_createNamespace (path : String) (id : NamespaceId) :
    ((w.createNamespace path).2.namespaceAt id).bindings = (w.namespaceAt id).bindings := by
  rcases w.namespaceAt_createNamespace path id with h | ⟨-, hempty, h⟩
  · rw [h]
  · rw [h, hempty]

/-- Namespaces are never taken away. -/
theorem size_le_createNamespace (path : String) :
    w.namespaces.size ≤ (w.createNamespace path).2.namespaces.size := by
  unfold createNamespace
  split
  · exact Nat.le_refl _
  · show w.namespaces.size ≤ (w.namespaces.push ⟨path, .empty⟩).size
    rw [Array.size_push]
    exact Nat.le_succ _

/-- A registered path is an entry of the registry. -/
theorem mem_of_registered {w : World} {path : String} {id : NamespaceId}
    (h : w.registered? path = some id) : (path, id) ∈ w.registry := by
  obtain ⟨before, after, hregistry, -⟩ := List.lookup_eq_some_iff.1 h
  rw [hregistry]
  exact List.mem_append_right _ (List.mem_cons_self ..)

/-- The namespace under a path is registered there. -/
theorem registered_createNamespace (path : String) :
    (w.createNamespace path).2.registered? path = some (w.createNamespace path).1 := by
  rcases hpath : w.registered? path with - | id
  · rw [createNamespace_of_unregistered w hpath]
    rw [registered?] at hpath
    simp [registered?, register, addNamespace, List.lookup_append, hpath]
  · rw [createNamespace_of_registered w hpath]
    exact hpath

/-- The path of a created namespace is registered, whether it was before or not. -/
theorem isRegistered_createNamespace (path : String) :
    (w.createNamespace path).2.isRegistered path = true := by
  rw [isRegistered, registered_createNamespace]
  rfl

/-- What is registered after a namespace was asked for: what was, and perhaps a new namespace under
the path. -/
theorem registered_of_createNamespace {path other : String} {id : NamespaceId}
    (h : (w.createNamespace path).2.registered? other = some id) :
    w.registered? other = some id ∨
      other = path ∧ id = ⟨w.namespaces.size⟩ ∧ w.registered? path = none := by
  rcases hpath : w.registered? path with - | known
  -- The new entry is the last one, so it is found only if no other is.
  · rw [createNamespace_of_unregistered w hpath] at h
    have happend : (w.registry ++ [(path, NamespaceId.mk w.namespaces.size)]).lookup other =
        some id := h
    rw [List.lookup_append] at happend
    rcases hold : w.registry.lookup other with - | old
    · rw [hold, Option.none_or, List.lookup_cons] at happend
      split at happend
      · rename_i heq
        exact Or.inr ⟨by simpa using heq, (Option.some.inj happend).symm, rfl⟩
      · cases happend
    · rw [hold, Option.some_or] at happend
      exact Or.inl (hold.trans happend)
  · rw [createNamespace_of_registered w hpath] at h
    exact Or.inl h

/-- A path that is not registered is in no entry of the registry. -/
theorem not_mem_paths_of_unregistered {path : String} (h : w.registered? path = none) :
    path ∉ w.paths := by
  intro hmem
  obtain ⟨entry, hentry, rfl⟩ := List.mem_map.1 hmem
  rw [registered?, List.lookup_eq_none_iff] at h
  exact absurd (h entry hentry) (by simp)

/-! ### Loading -/

/-- Marking a module as loaded changes the list of loaded modules only. -/
@[simp] theorem namespaces_markLoaded (n : String) :
    (w.markLoaded n).namespaces = w.namespaces := by
  unfold markLoaded
  split <;> rfl

@[simp] theorem scopes_markLoaded (n : String) : (w.markLoaded n).scopes = w.scopes := by
  unfold markLoaded
  split <;> rfl

@[simp] theorem registry_markLoaded (n : String) : (w.markLoaded n).registry = w.registry := by
  unfold markLoaded
  split <;> rfl

@[simp] theorem stamps_markLoaded (n : String) : (w.markLoaded n).stamps = w.stamps := by
  unfold markLoaded
  split <;> rfl

/-- That a module counts as loaded is said apart from what its namespace binds. -/
@[simp] theorem namespaceAt_markLoaded (n : String) (id : NamespaceId) :
    (w.markLoaded n).namespaceAt id = w.namespaceAt id := by
  rw [namespaceAt, namespaces_markLoaded, namespaceAt]

@[simp] theorem scopeAt_markLoaded (n : String) (id : ScopeId) :
    (w.markLoaded n).scopeAt id = w.scopeAt id := by
  rw [scopeAt, scopes_markLoaded, scopeAt]

/-- A rollback changes the registry and the loaded modules; what the identities show stays. -/
@[simp] theorem namespaceAt_rollback (paths loaded : List String) (n : String)
    (id : NamespaceId) : (w.rollback paths loaded n).namespaceAt id = w.namespaceAt id := rfl

/-- The scopes of a load that failed stay, for the closures that hold them. -/
@[simp] theorem scopeAt_rollback (paths loaded : List String) (n : String) (id : ScopeId) :
    (w.rollback paths loaded n).scopeAt id = w.scopeAt id := rfl

@[simp] theorem namespaceAt_addStamp (id : NamespaceId) :
    w.addStamp.2.namespaceAt id = w.namespaceAt id := rfl

@[simp] theorem scopeAt_addStamp (id : ScopeId) : w.addStamp.2.scopeAt id = w.scopeAt id := rfl

/-! ### Chains of scopes -/

/-- The scope that an assignment changes is one of the chain. -/
theorem eq_scope_of_findScope {w : World} {c scope : Context} {n : String}
    (h : w.findScope? c n = some scope) :
    ∃ id outer, scope = .scope id outer ∧ (w.scopeAt id).binds n = true ∧ id ∈ c.scopes := by
  induction c with
  | top id => cases h
  | scope id outer ih =>
    rw [findScope?] at h
    split at h
    · rename_i hbinds
      cases h
      exact ⟨id, outer, rfl, hbinds, List.mem_cons_self ..⟩
    · obtain ⟨id', outer', heq, hbinds, hmem⟩ := ih h
      exact ⟨id', outer', heq, hbinds, List.mem_cons_of_mem _ hmem⟩

/-- What a look-up finds is bound in a scope of the chain or in its namespace. -/
theorem mem_of_lookup {w : World} {c : Context} {n : String} {v : Value}
    (h : w.lookup? c n = some v) :
    (w.namespaceAt c.home).bindings.get? n = some v ∨
      ∃ id ∈ c.scopes, (w.scopeAt id).get? n = some v := by
  induction c with
  | top id => exact Or.inl h
  | scope id outer ih =>
    rw [lookup?] at h
    split at h
    · rename_i value hvalue
      exact Or.inr ⟨id, List.mem_cons_self .., by rw [hvalue, h]⟩
    · rcases ih h with hhome | ⟨id', hmem, hget⟩
      · exact Or.inl hhome
      · exact Or.inr ⟨id', List.mem_cons_of_mem _ hmem, hget⟩

end World

end DottedLisp
