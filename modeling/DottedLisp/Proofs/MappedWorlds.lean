import DottedLisp.Proofs.BoundValues

/-!
# Worlds with other values

`World.map g` puts `g v` in the place of every value `v` that is bound anywhere and leaves the rest
of the world alone. **Every change of the world commutes with it**, and look-ups find the mapped
values, so that a run in the mapped world can be compared with a run in the original one step by
step.
-/

namespace DottedLisp

namespace Bindings

/-- Put other values in place of the bound ones. -/
def map (g : Value → Value) (b : Bindings) : Bindings :=
  ⟨b.entries.map fun entry ↦ (entry.1, g entry.2)⟩

variable (g : Value → Value) (b : Bindings) (n : String) (v : Value)

@[simp] theorem map_empty : empty.map g = empty := rfl

/-- Looking up and mapping commute. -/
@[simp] theorem get?_map : (b.map g).get? n = (b.get? n).map g := by
  obtain ⟨entries⟩ := b
  simp only [get?, map]
  induction entries with
  | nil => rfl
  | cons entry rest ih =>
    rw [List.map_cons, List.lookup_cons, List.lookup_cons]
    cases n == entry.1 with
    | true => rfl
    | false => exact ih

/-- Mapping values binds and frees no name. -/
@[simp] theorem binds_map : (b.map g).binds n = b.binds n := by
  rw [binds, get?_map, Option.isSome_map, binds]

/-- A new binding is mapped with the others. -/
theorem map_insert : (b.insert n v).map g = (b.map g).insert n (g v) := by
  simp [insert, map]

/-- So is one that replaces another. -/
theorem map_replace : (b.replace n v).map g = (b.map g).replace n (g v) := by
  simp only [replace, map, List.map_map, mk.injEq]
  refine List.map_congr_left fun entry _ ↦ ?_
  by_cases h : entry.1 = n
  · simp [h]
  · simp [h]

/-- Where every bound value is fixed, so are the bindings. -/
theorem map_eq_self {g : Value → Value} {b : Bindings} (h : b.All fun v ↦ g v = v) :
    b.map g = b := by
  obtain ⟨entries⟩ := b
  rw [map, mk.injEq]
  refine (List.map_congr_left fun entry hentry ↦ ?_).trans (List.map_id _)
  rw [h entry hentry, id]

end Bindings

namespace World

/-- Put other values in place of all that are bound. -/
def map (g : Value → Value) (w : World) : World :=
  { w with
    namespaces := w.namespaces.map fun space ↦ { space with bindings := space.bindings.map g }
    scopes := w.scopes.map fun scope ↦ { scope with bindings := scope.bindings.map g } }

variable (g : Value → Value) (w : World) (c : Context) (n path : String)

/-! ### Views -/

/-- A namespace keeps its path and maps its bindings. -/
theorem namespaceAt_map (id : NamespaceId) :
    (w.map g).namespaceAt id =
      { w.namespaceAt id with bindings := (w.namespaceAt id).bindings.map g } := by
  simp only [map, namespaceAt, Array.getD_eq_getD_getElem?, Array.getElem?_map]
  rcases w.namespaces[id.index]? with - | space
  · rfl
  · rfl

/-- A scope maps its bindings. -/
theorem scopeAt_map (id : ScopeId) : (w.map g).scopeAt id = (w.scopeAt id).map g := by
  simp only [map, scopeAt, Array.getElem?_map]
  rcases w.scopes[id.index]? with - | scope
  · rfl
  · rfl

theorem bindingsOf_map : (w.map g).bindingsOf c = (w.bindingsOf c).map g := by
  cases c with
  | top id => rw [bindingsOf, namespaceAt_map, bindingsOf]
  | scope id outer => rw [bindingsOf, scopeAt_map, bindingsOf]

/-- **Looking up commutes with mapping**, along the whole chain of contexts. -/
theorem lookup_map : (w.map g).lookup? c n = (w.lookup? c n).map g := by
  induction c with
  | top id => rw [lookup?, namespaceAt_map, Bindings.get?_map, lookup?]
  | scope id outer ih =>
    rw [lookup?, scopeAt_map, Bindings.get?_map, lookup?, ih]
    cases (w.scopeAt id).get? n <;> rfl

/-- Which scope binds a name does not depend on the values. -/
theorem findScope_map : (w.map g).findScope? c n = w.findScope? c n := by
  induction c with
  | top id => rfl
  | scope id outer ih => rw [findScope?, scopeAt_map, Bindings.binds_map, ih, findScope?]

/-! ### Changes -/

/-- A new scope has nothing to map, and its identity is the same. -/
theorem addScope_map :
    (w.map g).addScope c = ((w.addScope c).1, (w.addScope c).2.map g) := by
  simp [addScope, map]

/-- Neither has a new namespace; one that is registered is the same one. -/
theorem createNamespace_map :
    (w.map g).createNamespace path =
      ((w.createNamespace path).1, (w.createNamespace path).2.map g) := by
  rcases hpath : w.registered? path with - | id
  · have hpath' : (w.map g).registered? path = none := hpath
    rw [createNamespace_of_unregistered w hpath, createNamespace_of_unregistered _ hpath']
    simp [addNamespace, register, map]
  · have hpath' : (w.map g).registered? path = some id := hpath
    rw [createNamespace_of_registered w hpath, createNamespace_of_registered _ hpath']

/-- Changing an entry of an array, seen through a map. -/
theorem map_modify_of_comm {α β : Type} {h : α → β} {f : α → α} {f' : β → β}
    (hcomm : ∀ a, h (f a) = f' (h a)) (xs : Array α) (i : Nat) :
    (xs.modify i f).map h = (xs.map h).modify i f' := by
  refine Array.ext_getElem? fun j ↦ ?_
  rw [Array.getElem?_map, Array.getElem?_modify, Array.getElem?_modify, Array.getElem?_map]
  split
  · rw [Option.map_map, Option.map_map]
    congr 1
    exact funext hcomm
  · rfl

/-- A change of bindings is mapped to the corresponding change. -/
theorem map_modify {f f' : Bindings → Bindings} (hf : ∀ b, (f b).map g = f' (b.map g)) :
    (w.modifyBindings c f).map g = (w.map g).modifyBindings c f' := by
  cases c with
  | top id =>
    simp only [modifyBindings, map, mk.injEq, and_true]
    exact map_modify_of_comm (fun space ↦ by rw [hf]) _ _
  | scope id outer =>
    simp only [modifyBindings, map, mk.injEq, and_true, true_and]
    exact map_modify_of_comm (fun scope ↦ by rw [hf]) _ _

theorem map_markLoaded : (w.map g).markLoaded n = (w.markLoaded n).map g := by
  unfold markLoaded
  show (if w.isLoaded n then w.map g else _) = _
  split
  · rfl
  · rfl

theorem map_rollback (paths loaded : List String) :
    (w.map g).rollback paths loaded n = (w.rollback paths loaded n).map g := rfl

/-- A world keeps the values that are mapped to themselves. -/
theorem map_eq_self {g : Value → Value} {w : World} (h : w.All fun v ↦ g v = v) :
    w.map g = w := by
  -- Entry by entry: what stands at an index is what its identity shows.
  have hnamespaces :
      (w.namespaces.map fun space ↦ { space with bindings := space.bindings.map g }) =
        w.namespaces := by
    refine Array.ext_getElem? fun i ↦ ?_
    have hall := h.namespaces ⟨i⟩
    rw [namespaceAt, Array.getD_eq_getD_getElem?] at hall
    rw [Array.getElem?_map]
    rcases hi : w.namespaces[i]? with - | space
    · rfl
    · rw [hi, Option.getD_some] at hall
      rw [Option.map_some, Bindings.map_eq_self hall]
  have hscopes :
      (w.scopes.map fun scope ↦ { scope with bindings := scope.bindings.map g }) = w.scopes := by
    refine Array.ext_getElem? fun i ↦ ?_
    have hall := h.scopes ⟨i⟩
    rw [scopeAt] at hall
    rw [Array.getElem?_map]
    rcases hi : w.scopes[i]? with - | scope
    · rfl
    · rw [hi, Option.map_some, Option.getD_some] at hall
      rw [Option.map_some, Bindings.map_eq_self hall]
  rw [map, hnamespaces, hscopes]

end World

end DottedLisp
