import DottedLisp.Proofs.WorldViews

/-!
# Properties of all bound values

`World.All p` says that **everything bound anywhere** satisfies `p`: in namespaces, registered or
not, and in scopes, reachable or not. Changes of the world keep it as long as what is newly bound
satisfies `p`, and look-ups find only such values.
-/

namespace DottedLisp

namespace Bindings

variable {p : Value → Prop} {b : Bindings} {n : String} {v : Value}

/-- Every bound value has a property. -/
def All (p : Value → Prop) (b : Bindings) : Prop :=
  ∀ entry ∈ b.entries, p entry.2

/-- Nothing is bound at first, so nothing can be wrong with it. -/
theorem all_empty : empty.All p := by
  intro entry hentry
  cases hentry

/-- A value that is bound last. -/
theorem All.insert (h : b.All p) (hv : p v) : (b.insert n v).All p := by
  intro entry hentry
  rcases List.mem_append.1 hentry with hold | hnew
  · exact h entry hold
  · rw [List.mem_singleton.1 hnew]
    exact hv

/-- A replaced value is one more value that is bound, and no other is touched. -/
theorem All.replace (h : b.All p) (hv : p v) : (b.replace n v).All p := by
  intro entry hentry
  obtain ⟨old, hold, rfl⟩ := List.mem_map.1 hentry
  split
  · exact hv
  · exact h old hold

/-- What is found for a name stands beside it in the list. By induction on the entries. -/
theorem mem_of_get? (h : b.get? n = some v) : (n, v) ∈ b.entries := by
  obtain ⟨entries⟩ := b
  simp only [get?] at h ⊢
  induction entries with
  | nil => cases h
  | cons entry rest ih =>
    obtain ⟨m, x⟩ := entry
    rw [List.lookup_cons] at h
    split at h
    · rename_i heq
      rw [beq_iff_eq] at heq
      cases h
      rw [heq]
      exact List.mem_cons_self ..
    · exact List.mem_cons_of_mem _ (ih h)

/-- A value that is found has the property. -/
theorem All.of_get? (h : b.All p) (hget : b.get? n = some v) : p v :=
  h (n, v) (mem_of_get? hget)

theorem All.mono {q : Value → Prop} (h : b.All p) (hpq : ∀ v, p v → q v) : b.All q :=
  fun entry hentry ↦ hpq entry.2 (h entry hentry)

end Bindings

namespace World

/-- Every value that is bound anywhere has a property. -/
structure All (p : Value → Prop) (w : World) : Prop where
  /-- In namespaces. -/
  namespaces : ∀ id, (w.namespaceAt id).bindings.All p
  /-- In scopes. -/
  scopes : ∀ id, (w.scopeAt id).All p

namespace All

variable {p : Value → Prop} {w : World} {c : Context} {n : String} {v : Value}

/-- A change that leaves the views alone keeps the property. -/
theorem of_eq {w' : World} (h : w.All p)
    (hnamespaces : ∀ id, (w'.namespaceAt id).bindings = (w.namespaceAt id).bindings)
    (hscopes : ∀ id, w'.scopeAt id = w.scopeAt id) : w'.All p where
  namespaces id := by
    rw [hnamespaces]
    exact h.namespaces id
  scopes id := by
    rw [hscopes]
    exact h.scopes id

/-- A stronger property of values is one of the worlds that bind them. -/
theorem mono {q : Value → Prop} (h : w.All p) (hpq : ∀ v, p v → q v) : w.All q where
  namespaces id := (h.namespaces id).mono hpq
  scopes id := (h.scopes id).mono hpq

/-- What a look-up along the chain of contexts finds has the property, since some level binds it. -/
theorem lookup (h : w.All p) (hlookup : w.lookup? c n = some v) : p v := by
  rcases mem_of_lookup hlookup with hhome | ⟨id, -, hget⟩
  · exact (h.namespaces _).of_get? hhome
  · exact (h.scopes id).of_get? hget

/-- A new scope is empty. -/
theorem scope (h : w.All p) : (w.addScope c).2.All p :=
  h.of_eq (fun _ ↦ rfl) fun id ↦ w.scopeAt_addScope c id

theorem stamp (h : w.All p) : w.addStamp.2.All p :=
  h.of_eq (fun _ ↦ rfl) fun _ ↦ rfl

/-- A namespace that is created is empty; one that was there is kept. -/
theorem createNamespace (h : w.All p) (path : String) : (w.createNamespace path).2.All p :=
  h.of_eq (fun id ↦ w.bindings_createNamespace path id) fun id ↦ w.scopeAt_createNamespace path id

theorem mark (h : w.All p) : (w.markLoaded n).All p :=
  h.of_eq (fun id ↦ by rw [namespaceAt_markLoaded]) fun id ↦ w.scopeAt_markLoaded n id

/-- Taking names out of the registry unbinds nothing. -/
theorem rollback (h : w.All p) (paths loaded : List String) :
    (w.rollback paths loaded n).All p :=
  h.of_eq (fun _ ↦ rfl) fun _ ↦ rfl

/-- A change of the bindings of one context. -/
theorem modify {f : Bindings → Bindings} (h : w.All p)
    (hf : ∀ b : Bindings, b.All p → (f b).All p) : (w.modifyBindings c f).All p := by
  cases c with
  | top id =>
    refine ⟨fun other ↦ ?_, fun other ↦ h.scopes other⟩
    rw [namespaceAt_modify_top]
    split
    · exact hf _ (h.namespaces id)
    · exact h.namespaces other
  | scope id outer =>
    refine ⟨fun other ↦ h.namespaces other, fun other ↦ ?_⟩
    rw [scopeAt_modify_scope]
    split
    · exact hf _ (h.scopes id)
    · exact h.scopes other

/-- One more value is bound, and it has the property. -/
theorem insert (h : w.All p) (hv : p v) : (w.modifyBindings c fun b ↦ b.insert n v).All p :=
  h.modify fun _ hb ↦ hb.insert hv

theorem replace (h : w.All p) (hv : p v) : (w.modifyBindings c fun b ↦ b.replace n v).All p :=
  h.modify fun _ hb ↦ hb.replace hv

end All

/-- An empty world binds nothing. -/
theorem all_empty (p : Value → Prop) (stamps : Nat) : (World.empty stamps).All p where
  namespaces id := by
    simp only [World.empty, namespaceAt]
    exact Bindings.all_empty
  scopes id := by
    simp only [World.empty, scopeAt]
    exact Bindings.all_empty

end World

end DottedLisp
