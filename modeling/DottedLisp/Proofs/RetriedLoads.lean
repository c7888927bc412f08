import DottedLisp.Proofs.Growth
import DottedLisp.Proofs.LinkedWorlds
import DottedLisp.Proofs.ProperWorlds
import DottedLisp.Proofs.ShiftedWorlds

/-!
# Loads that are tried again

A load that fails is taken back: the registry and the loaded modules are what they were. What it
made stays behind, namespaces and scopes that nothing refers to, so that the world before the load
and the one after it differ in the identities that are given out next. If nothing that was there
before binds anything else than it did, that is the **only** difference, and another load of the
module goes in the one world as it goes in the other, up to a shift of identities.

What was there before can have changed, though. The forms of the failed load may have bound
something in a namespace that existed, or have assigned to a variable that a function of one had
captured, and neither is taken back.
-/

namespace DottedLisp

namespace World

/-- What was there before binds what it did. -/
structure Untouched (w w' : World) : Prop where
  /-- The namespaces that there were. -/
  namespaces (id : NamespaceId) : id.index < w.namespaces.size →
    (w'.namespaceAt id).bindings = (w.namespaceAt id).bindings
  /-- The scopes that there were. -/
  scopes (id : ScopeId) : id.index < w.scopes.size → w'.scopeAt id = w.scopeAt id

instance (w w' : World) : Decidable (w.Untouched w') :=
  decidable_of_iff
    ((∀ i < w.namespaces.size,
        (w'.namespaceAt ⟨i⟩).bindings = (w.namespaceAt ⟨i⟩).bindings) ∧
      ∀ i < w.scopes.size, w'.scopeAt ⟨i⟩ = w.scopeAt ⟨i⟩)
    ⟨fun h ↦ ⟨fun id hid ↦ h.1 id.index hid, fun id hid ↦ h.2 id.index hid⟩,
      fun h ↦ ⟨fun i hi ↦ h.namespaces ⟨i⟩ hi, fun i hi ↦ h.scopes ⟨i⟩ hi⟩⟩

end World

/-! ### The shift between two worlds -/

namespace Shift

/-- The gaps that a world has, seen from an earlier one. -/
def between (w w' : World) : Shift where
  spaces := ⟨w.namespaces.size, w'.namespaces.size - w.namespaces.size⟩
  scopes := ⟨w.scopes.size, w'.scopes.size - w.scopes.size⟩
  stamps := ⟨w.stamps, w'.stamps - w.stamps⟩

variable {w w' : World}

/-- A value that was bound in the earlier world is the same in the later one. -/
theorem between_value {v : Value} (hlinked : v.Every fun f ↦ f.context.ExistsIn w)
    (hmade : v.Made w.stamps) : (between w w').value v = v := by
  cases v with
  | function f =>
    have hf := Value.every_function.1 hlinked
    have hcontext := (between w w').move_of_lt hf.home_lt hf.scopes_lt
    have hstamp : (between w w').stamps.shift f.stamp = f.stamp := Gap.shift_of_lt hmade
    rw [value, Value.translate_function, function, hcontext, hstamp]
  | signal => exact hmade.elim
  | _ => simp

/-- **The shift moves nothing that the first world holds**: all of it is below both gaps. -/
theorem between_all (hlinked : w.Linked) (hproper : w.Proper) (w' : World) :
    w.All fun v ↦ (between w w').value v = v where
  namespaces id entry hentry :=
    between_value (hlinked.values.namespaces id entry hentry) (hproper.namespaces id entry hentry)
  scopes id entry hentry :=
    between_value (hlinked.values.scopes id entry hentry) (hproper.scopes id entry hentry)

end Shift

/-- A later world that only has more, none of it registered, is the earlier one up to a shift. -/
theorem World.matches_between {w w' : World} (hlinked : w.Linked) (hproper : w.Proper)
    (hextends : w.Extends w') (hgrows : w.Grows w') (hmakes : w.MakesMore w')
    (hregistry : w'.registry = w.registry) (hloaded : w'.loaded = w.loaded)
    (huntouched : w.Untouched w') : w.Matches (Shift.between w w') w' := by
  have hspans : ∀ {m n : Nat}, m ≤ n → Gap.Spans ⟨m, n - m⟩ m n := by
    intro m n h
    exact ⟨Nat.le_refl m, (Nat.add_sub_cancel' h).symm⟩
  have hspaces : (Shift.between w w').spaces.Spans w.namespaces.size w'.namespaces.size :=
    hspans hgrows.namespaces_le
  have hscopes : (Shift.between w w').scopes.Spans w.scopes.size w'.scopes.size :=
    hspans hgrows.scopes_le
  have hsame := Shift.between_all hlinked hproper w'
  -- What was there is below the gap and untouched; what comes behind it does not exist yet, in
  -- either world.
  have hnamespace (id : NamespaceId) :
      w'.namespaceAt ((Shift.between w w').space id) = w.namespaceAt id := by
    rcases Nat.lt_or_ge id.index w.namespaces.size with hlt | hge
    · rw [Shift.space_of_lt _ hlt]
      show Namespace.mk (w'.namespaceAt id).path (w'.namespaceAt id).bindings = w.namespaceAt id
      rw [hextends.path_eq id hlt, huntouched.namespaces id hlt]
    · rw [namespaceAt_of_le hge]
      exact namespaceAt_of_le (hspaces.le_shift hge)
  have hscope (id : ScopeId) : w'.scopeAt ((Shift.between w w').scope id) = w.scopeAt id := by
    rcases Nat.lt_or_ge id.index w.scopes.size with hlt | hge
    · rw [Shift.scope_of_lt _ hlt, huntouched.scopes id hlt]
    · rw [scopeAt_of_le hge]
      exact scopeAt_of_le (hscopes.le_shift hge)
  refine ⟨hspaces, hscopes, hspans hmakes, fun id ↦ ?_, fun id ↦ ?_, fun id ↦ ?_, ?_, hloaded⟩
  · rw [hnamespace]
  · rw [hnamespace, Bindings.map_eq_self (hsame.namespaces id)]
  · rw [hscope, Bindings.map_eq_self (hsame.scopes id)]
  · rw [hregistry]
    refine (List.map_id _).symm.trans (List.map_congr_left fun entry hentry ↦ ?_)
    rw [Shift.space_of_lt _ (hlinked.registry entry hentry)]
    rfl

/-! ### Two loads of a module -/

namespace Evaluation

/-- Outcomes correspond: an answer that is shifted, or the same failure, in worlds that match. -/
inductive Corresponds (r : Shift) :
    EStateM.Result Failure World NamespaceId → EStateM.Result Failure World NamespaceId → Prop
  | ok {id : NamespaceId} {u u' : World} :
    u.Matches r u' → Corresponds r (.ok id u) (.ok (r.space id) u')
  | error {f : Failure} {u u' : World} :
    u.Matches r u' → Corresponds r (.error f u) (.error f u')

/-- A simulation by the shift, with nothing excused, is a correspondence of the outcomes. -/
theorem corresponds_of_follows {r : Shift} {setting : Setting} {w w' : World}
    {m m' : Evaluation NamespaceId} {P : World → NamespaceId → Prop}
    (h : (shifting r setting).Follows w w' m m' r.space P) : Corresponds r (m w) (m' w') := by
  rcases outcomes_of_shifting h with
    ⟨id, u, u', hm, hm', hmatches⟩ | ⟨f, u, u', hm, hm', hmatches⟩
  · rw [hm, hm']
    exact .ok hmatches
  · rw [hm, hm']
    exact .error hmatches

end Evaluation

namespace Interpreter

open Evaluation

variable {setting : Setting} {n text : String} {w w' : World} {f : Failure}

/-- A failed load of a module that was not loaded leaves the registry and the loaded modules as they
were. -/
theorem registry_of_loadText_error (hloaded : w.isLoaded n = false)
    (h : loadText setting n text w = .error f w') :
    w'.registry = w.registry ∧ w'.loaded = w.loaded := by
  unfold loadText Evaluation.loadText at h
  rcases hread : readModule setting.limits text with f' | forms
  · rw [hread] at h
    cases h
    exact ⟨rfl, rfl⟩
  · rw [hread] at h
    have hload : loadForms (evaluate setting setting.limits.depth) n forms w = .error f w' := h
    obtain ⟨hregistry, hrest⟩ := loadForms_restores hload
    refine ⟨hregistry, hrest.trans (List.filter_eq_self.2 fun other hother ↦ ?_)⟩
    rw [decide_eq_true_eq]
    rintro rfl
    exact World.LoadsMore.not_mem_of_not_loaded hloaded hother

/-- Loads in worlds that match correspond. -/
theorem corresponds_loadText {r : Shift} (hmatches : w.Matches r w')
    (hloaded : w.isLoaded n = false) (setting : Setting) (text : String) :
    Corresponds r (loadText setting n text w) (loadText setting n text w') :=
  corresponds_of_follows (Simulation.follows_loadText
    (evaluates_shifting r setting setting.limits.depth) hmatches hloaded (fun _ _ ↦ trivial)
    fun _ _ _ _ _ ↦ trivial)

/-- **A failed load is retried as if it had not been made**, if what was there before it binds what
it did. The second load ends as it would have ended in the world before the first: in the same
failure, or in worlds that are the same up to a shift of the identities that were given out since,
with the same modules loaded, the same paths registered and the same bindings in every namespace and
scope. The shift leaves every value that was bound before alone. -/
theorem retried_load_corresponds {i : Interpreter} (hreachable : i.Reachable w)
    (hloaded : w.isLoaded n = false) (hfailed : loadText setting n text w = .error f w')
    (huntouched : w.Untouched w') :
    (w.All fun v ↦ (Shift.between w w').value v = v) ∧
      ∀ setting' text', Corresponds (Shift.between w w') (loadText setting' n text' w)
        (loadText setting' n text' w') := by
  have hproper := proper_of_reachable hreachable
  obtain ⟨hlinked, -⟩ := linked_of_reachable hreachable
  obtain ⟨hregistry, hmodules⟩ := registry_of_loadText_error hloaded hfailed
  have hextends := (Discipline.closed_extending setting).loadText n text (w := w) trivial
  have hgrows := (Discipline.closed_linking setting).loadText n text hlinked
  have hmakes := (Discipline.closed_making setting).loadText n text hproper
  rw [hfailed] at hextends hgrows hmakes
  have hmatches : w.Matches (Shift.between w w') w' :=
    World.matches_between hlinked hproper hextends.2.1 hgrows.2.1 hmakes.2.1 hregistry hmodules
      huntouched
  exact ⟨Shift.between_all hlinked hproper w',
    fun setting' text' ↦ corresponds_loadText hmatches hloaded setting' text'⟩

/-- The world that a failed load leaves is the one after the request for it. -/
theorem loadText_eq_after (i : Interpreter) (h : failure? (loadText setting n text w) = some f) :
    loadText setting n text w = .error f (i.after setting (.loadText n text) w) := by
  obtain ⟨u, hu⟩ := error_of_failure _ h
  have hperform : i.perform setting (.loadText n text) w = .error f u := bind_of_error hu
  unfold after
  rw [hperform, hu]

/-- A first load that makes a namespace and a function before it fails, and a second one that makes
them again: both worlds have them, at identities that differ. -/
theorem retried_load_corresponds_inner :
    ∃ (i : Interpreter) (w w' : World) (f : Failure), i.Reachable w ∧ w.isLoaded "m" = false ∧
      loadText (i.within .standard Host.empty) "m"
        "(namespace current.inner (defn f () 1)) (missing)" w = .error f w' ∧
      w.Untouched w' ∧ Shift.between w w' = ⟨⟨6, 2⟩, ⟨0, 0⟩, ⟨105, 1⟩⟩ ∧
      Corresponds (Shift.between w w')
        (loadText (i.within .standard Host.empty) "m" "(namespace current.inner (defn f () 2))" w)
        (loadText (i.within .standard Host.empty) "m" "(namespace current.inner (defn f () 2))"
          w') := by
  obtain ⟨i, w, w', f, hreachable, hloaded, hfailed, huntouched, hshift⟩ :
      ∃ (i : Interpreter) (w w' : World) (f : Failure), i.Reachable w ∧ w.isLoaded "m" = false ∧
        loadText (i.within .standard Host.empty) "m"
          "(namespace current.inner (defn f () 1)) (missing)" w = .error f w' ∧
        w.Untouched w' ∧ Shift.between w w' = ⟨⟨6, 2⟩, ⟨0, 0⟩, ⟨105, 1⟩⟩ := by
    refine ⟨(create Host.empty none none 0).1, (create Host.empty none none 0).2,
      (create Host.empty none none 0).1.after
        ((create Host.empty none none 0).1.within .standard Host.empty)
        (.loadText "m" "(namespace current.inner (defn f () 1)) (missing)")
        (create Host.empty none none 0).2,
      .fault (.unbound "missing"), ⟨Host.empty, none, none, 0, rfl, .refl _⟩, ?_, ?_, ?_, ?_⟩
    · decide +kernel
    · refine loadText_eq_after (create Host.empty none none 0).1 ?_
      decide +kernel
    · decide +kernel
    · decide +kernel
  have hretried := retried_load_corresponds hreachable hloaded hfailed huntouched
  exact ⟨i, w, w', f, hreachable, hloaded, hfailed, huntouched, hshift, hretried.2 _ _⟩

/-- **A failed load can leave a trace.** It binds a constant in the home namespace, fails, and is
not taken back there: the corrected text, which loads without it, cannot bind the constant. -/
theorem retried_load_differs :
    ∃ (i : Interpreter) (w w' : World) (f : Failure), i.Reachable w ∧ w.isLoaded "m" = false ∧
      w.registered? "m" = none ∧
      loadText (i.within .standard Host.empty) "m" "(namespace user (const x 1)) (missing)" w =
        .error f w' ∧
      (∃ id u, loadText (i.within .standard Host.empty) "m" "(namespace user (const x 2))" w =
        .ok id u) ∧
      ∃ u, loadText (i.within .standard Host.empty) "m" "(namespace user (const x 2))" w' =
        .error (.fault (.alreadyBound "x")) u := by
  refine ⟨(create Host.empty none none 0).1, (create Host.empty none none 0).2,
    (create Host.empty none none 0).1.after
      ((create Host.empty none none 0).1.within .standard Host.empty)
      (.loadText "m" "(namespace user (const x 1)) (missing)") (create Host.empty none none 0).2,
    .fault (.unbound "missing"), ⟨Host.empty, none, none, 0, rfl, .refl _⟩, ?_, ?_, ?_, ⟨⟨6⟩, ?_⟩,
    ?_⟩
  · decide +kernel
  · decide +kernel
  · refine loadText_eq_after (create Host.empty none none 0).1 ?_
    decide +kernel
  · refine ok_of_answer _ ?_
    decide +kernel
  · refine error_of_failure _ ?_
    decide +kernel

end Interpreter

end DottedLisp
