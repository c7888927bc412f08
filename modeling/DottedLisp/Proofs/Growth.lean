import DottedLisp.Proofs.Session
import DottedLisp.Proofs.WorldViews

/-!
# What only grows, and what a failed load takes back

Namespaces are **constants over whole runs**. Whatever is evaluated, and however it ends, a
registered path keeps its namespace, and a namespace keeps what it binds: bindings are only ever
appended. This is the relation `World.Extends`, which every single change keeps.

A load that fails takes back the paths it registered and the modules it loaded. Loads nest, and the
inner ones may have succeeded or failed in any combination; but in the course of an evaluation the
registry and the list of loaded modules grow **only by what was not there**, so cutting them back to
what was there gives exactly what they were. That is `World.Extends` for the registry, and
`World.LoadsMore` for the loaded modules.
-/

namespace DottedLisp

namespace World

/-! ### Namespaces and the registry -/

/-- Everything in `w` is still there in `w'`. -/
structure Extends (w w' : World) : Prop where
  /-- No namespace is given up. -/
  size_le : w.namespaces.size ≤ w'.namespaces.size
  /-- A namespace keeps its path. -/
  path_eq (id : NamespaceId) :
    id.index < w.namespaces.size → (w'.namespaceAt id).path = (w.namespaceAt id).path
  /-- Bindings are appended. -/
  bindings (id : NamespaceId) :
    (w.namespaceAt id).bindings.entries <+: (w'.namespaceAt id).bindings.entries
  /-- Paths are registered that were not. -/
  registry : ∃ added, w'.registry = w.registry ++ added ∧ ∀ entry ∈ added, entry.1 ∉ w.paths

namespace Extends

variable {w w' w₁ w₂ w₃ : World}

/-- A change that concerns neither namespaces nor the registry. -/
theorem of_eq (hnamespaces : w'.namespaces = w.namespaces) (hregistry : w'.registry = w.registry) :
    w.Extends w' where
  size_le := Nat.le_of_eq (by rw [hnamespaces])
  path_eq id _ := by rw [namespaceAt, hnamespaces, namespaceAt]
  bindings id := ⟨[], by rw [List.append_nil, namespaceAt, namespaceAt, hnamespaces]⟩
  registry := ⟨[], by rw [hregistry, List.append_nil], by simp⟩

theorem refl (w : World) : w.Extends w := of_eq rfl rfl

/-- Growth adds up: what was appended later goes behind what was appended before. -/
theorem trans (h : w₁.Extends w₂) (h' : w₂.Extends w₃) : w₁.Extends w₃ where
  size_le := Nat.le_trans h.size_le h'.size_le
  path_eq id hid := by
    rw [h'.path_eq id (Nat.lt_of_lt_of_le hid h.size_le), h.path_eq id hid]
  bindings id := (h.bindings id).trans (h'.bindings id)
  registry := by
    obtain ⟨added, heq, hfresh⟩ := h.registry
    obtain ⟨added', heq', hfresh'⟩ := h'.registry
    refine ⟨added ++ added', by rw [heq', heq, List.append_assoc], fun entry hentry ↦ ?_⟩
    rcases List.mem_append.1 hentry with hentry | hentry
    · exact hfresh entry hentry
    · -- what is new to the later world is new to the earlier one
      refine fun hpath ↦ hfresh' entry hentry ?_
      rw [paths, heq, List.map_append]
      exact List.mem_append_left _ hpath

/-- A registered path keeps its namespace. -/
theorem registered (h : w.Extends w') {path : String} {id : NamespaceId}
    (hpath : w.registered? path = some id) : w'.registered? path = some id := by
  obtain ⟨added, heq, -⟩ := h.registry
  rw [registered?] at hpath ⊢
  rw [heq, List.lookup_append, hpath, Option.some_or]

/-- A bound identifier keeps its value. -/
theorem get (h : w.Extends w') {id : NamespaceId} {n : String} {v : Value}
    (hget : (w.namespaceAt id).bindings.get? n = some v) :
    (w'.namespaceAt id).bindings.get? n = some v := by
  obtain ⟨added, heq⟩ := h.bindings id
  rw [Bindings.get?] at hget ⊢
  rw [← heq, List.lookup_append, hget, Option.some_or]

/-- Creating a namespace keeps those that there are and registers at most one more. -/
theorem createNamespace (path : String) : w.Extends (w.createNamespace path).2 where
  size_le := w.size_le_createNamespace path
  path_eq id hid := by
    rcases w.namespaceAt_createNamespace path id with h | ⟨hsize, -, -⟩
    · rw [h]
    · omega
  bindings id := ⟨[], by rw [List.append_nil, bindings_createNamespace]⟩
  registry := by
    rcases hpath : w.registered? path with - | id
    · rw [createNamespace_of_unregistered w hpath]
      refine ⟨[(path, ⟨w.namespaces.size⟩)], rfl, ?_⟩
      intro entry hentry
      rw [List.mem_singleton.1 hentry]
      exact not_mem_paths_of_unregistered w hpath
    · rw [createNamespace_of_registered w hpath]
      exact ⟨[], by rw [List.append_nil], by simp⟩

/-- Binding what was not bound. -/
theorem insert {c : Context} {n : String} {v : Value} :
    w.Extends (w.modifyBindings c fun b ↦ b.insert n v) := by
  cases c with
  | scope id outer => exact of_eq rfl rfl
  | top id =>
    refine ⟨by simp, fun other _ ↦ ?_, fun other ↦ ?_, ⟨[], by simp, by simp⟩⟩
    · rw [namespaceAt_modify_top]
      split
      · rename_i h
        rw [h.1]
      · rfl
    · rw [namespaceAt_modify_top]
      split
      · rename_i h
        rw [h.1]
        exact List.prefix_append _ _
      · exact List.prefix_refl _

/-- Assignments change scopes only. -/
theorem replace {c scope : Context} {n : String} {v : Value}
    (h : w.findScope? c n = some scope) :
    w.Extends (w.modifyBindings scope fun b ↦ b.replace n v) := by
  obtain ⟨id, outer, rfl, -, -⟩ := eq_scope_of_findScope h
  exact of_eq rfl rfl

/-- **Cutting the registry back gives what it was.** -/
theorem registry_rollback (h : w₁.Extends w₂) (loaded : List String) (n : String) :
    (w₂.rollback w₁.paths loaded n).registry = w₁.registry := by
  obtain ⟨added, heq, hfresh⟩ := h.registry
  show w₂.registry.filter (fun entry ↦ w₁.paths.contains entry.1) = w₁.registry
  have hold : w₁.registry.filter (fun entry ↦ w₁.paths.contains entry.1) = w₁.registry := by
    refine List.filter_eq_self.2 fun entry hentry ↦ ?_
    rw [List.contains_iff_mem]
    exact List.mem_map_of_mem hentry
  have hnew : added.filter (fun entry ↦ w₁.paths.contains entry.1) = [] := by
    refine List.filter_eq_nil_iff.2 fun entry hentry ↦ ?_
    rw [List.contains_iff_mem]
    exact hfresh entry hentry
  rw [heq, List.filter_append, hold, hnew, List.append_nil]

/-- Rolling back to the paths of an earlier world leaves what extends that world. -/
theorem rollback (h : w₁.Extends w₂) (loaded : List String) (n : String) :
    w₁.Extends (w₂.rollback w₁.paths loaded n) where
  size_le := h.size_le
  path_eq := h.path_eq
  bindings := h.bindings
  registry := ⟨[], by rw [h.registry_rollback, List.append_nil], by simp⟩

end Extends

/-! ### Loaded modules -/

/-- Modules that were loaded still are, and the others in front of them were not. -/
def LoadsMore (w w' : World) : Prop :=
  ∃ added, w'.loaded = added ++ w.loaded ∧ ∀ n ∈ added, n ∉ w.loaded

namespace LoadsMore

variable {w w' w₁ w₂ w₃ : World} {n : String}

theorem of_eq (h : w'.loaded = w.loaded) : w.LoadsMore w' :=
  ⟨[], by rw [h, List.nil_append], by simp⟩

/-- The modules that were added later were not loaded in the earlier world either. -/
theorem trans (h : w₁.LoadsMore w₂) (h' : w₂.LoadsMore w₃) : w₁.LoadsMore w₃ := by
  obtain ⟨added, heq, hfresh⟩ := h
  obtain ⟨added', heq', hfresh'⟩ := h'
  refine ⟨added' ++ added, by rw [heq', heq, List.append_assoc], fun n hn ↦ ?_⟩
  rcases List.mem_append.1 hn with hn | hn
  · refine fun hmem ↦ hfresh' n hn ?_
    rw [heq]
    exact List.mem_append_right _ hmem
  · exact hfresh n hn

/-- **Cutting the loaded modules back** gives what they were, less the module that failed. -/
theorem loaded_rollback (h : w₁.LoadsMore w₂) (paths : List String) (n : String) :
    (w₂.rollback paths w₁.loaded n).loaded = w₁.loaded.filter (· ≠ n) := by
  obtain ⟨added, heq, hfresh⟩ := h
  show w₂.loaded.filter (fun other ↦ w₁.loaded.contains other && other ≠ n) = _
  have hold : w₁.loaded.filter (fun other ↦ w₁.loaded.contains other && other ≠ n) =
      w₁.loaded.filter (· ≠ n) := by
    refine List.filter_congr fun other hother ↦ ?_
    rw [List.contains_iff_mem.2 hother, Bool.true_and]
  have hnew : added.filter (fun other ↦ w₁.loaded.contains other && other ≠ n) = [] := by
    refine List.filter_eq_nil_iff.2 fun other hother ↦ ?_
    rw [Bool.and_eq_true, List.contains_iff_mem]
    exact fun hmem ↦ hfresh other hother hmem.1
  rw [heq, List.filter_append, hold, hnew, List.nil_append]

/-- A module that does not count as loaded is not in the list. -/
theorem not_mem_of_not_loaded (h : w.isLoaded n = false) : n ∉ w.loaded := by
  intro hmem
  rw [isLoaded, List.contains_iff_mem.2 hmem] at h
  cases h

/-- Marking a module adds it in front, unless it is there. -/
theorem mark (w : World) (n : String) : w.LoadsMore (w.markLoaded n) := by
  rcases h : w.isLoaded n with - | -
  · refine ⟨[n], by simp [markLoaded, h], fun other hother ↦ ?_⟩
    rw [List.mem_singleton.1 hother]
    exact not_mem_of_not_loaded h
  · exact of_eq (by simp [markLoaded, h])

/-- A module that was not loaded before is none of those that are left. -/
theorem rollback (h : w₁.LoadsMore w₂) (paths : List String) (hn : w₁.isLoaded n = false) :
    w₁.LoadsMore (w₂.rollback paths w₁.loaded n) := by
  refine of_eq ((h.loaded_rollback paths n).trans (List.filter_eq_self.2 fun other hother ↦ ?_))
  rw [decide_eq_true_eq]
  rintro rfl
  exact not_mem_of_not_loaded hn hother

end LoadsMore

end World

/-! ### Every evaluation -/

namespace Discipline

/-- Evaluations only extend the world. -/
def extending (setting : Setting) : Discipline setting where
  later := World.Extends
  later_refl := World.Extends.refl
  later_trans := World.Extends.trans
  later_scope _ _ := World.Extends.of_eq rfl rfl
  later_stamp _ := World.Extends.of_eq rfl rfl
  later_namespace path _ := World.Extends.createNamespace path
  later_insert _ _ _ _ _ := World.Extends.insert
  later_replace _ _ _ hscope := World.Extends.replace hscope
  later_mark _ _ :=
    World.Extends.of_eq (World.namespaces_markLoaded ..) (World.registry_markLoaded ..)
  later_rollback _ _ hlater _ := hlater.rollback _ _

/-- Requests keep it as well; a rollback goes back to the world that the load began in. -/
theorem closed_extending (setting : Setting) : (extending setting).Closed where
  form_checked _ _ := trivial
  world_mark _ _ := trivial
  later_mark n _ :=
    World.Extends.of_eq (World.namespaces_markLoaded _ n) (World.registry_markLoaded _ n)
  failed_rollback _ _ _ _ := trivial
  later_rollback _ _ _ hlater := World.Extends.rollback hlater _ _

/-- In the course of an evaluation, modules are loaded that were not. -/
def loading (setting : Setting) : Discipline setting where
  later := World.LoadsMore
  later_refl _ := World.LoadsMore.of_eq rfl
  later_trans := World.LoadsMore.trans
  later_scope _ _ := World.LoadsMore.of_eq rfl
  later_stamp _ := World.LoadsMore.of_eq rfl
  later_namespace path _ := World.LoadsMore.of_eq (World.loaded_createNamespace _ path)
  later_insert _ _ _ _ _ := World.LoadsMore.of_eq (World.loaded_modify ..)
  later_replace _ _ _ _ := World.LoadsMore.of_eq (World.loaded_modify ..)
  later_mark _ _ := World.LoadsMore.mark ..
  later_rollback _ _ hlater hn := World.LoadsMore.rollback hlater _ hn

end Discipline

/-! ### Failed loads -/

namespace Evaluation

variable {setting : Setting} {n text : String} {w w' : World} {f : Failure}

/-- Running forms extends the world and loads more, also if it fails. -/
theorem extends_of_runForms_error {depth : Nat} {id : NamespaceId} {forms : List Form}
    (h : runForms (evaluate setting depth) id forms w = .error f w') :
    w.Extends w' ∧ w.LoadsMore w' := by
  have hextends : (Discipline.extending setting).Ends w (fun _ _ ↦ True)
      (runForms (evaluate setting depth) id forms w) :=
    Discipline.ends_of_follows (Simulation.follows_runForms
      ((Discipline.extending setting).evaluates depth) ⟨rfl, trivial⟩ trivial fun _ _ ↦ trivial)
  have hloads : (Discipline.loading setting).Ends w (fun _ _ ↦ True)
      (runForms (evaluate setting depth) id forms w) :=
    Discipline.ends_of_follows (Simulation.follows_runForms
      ((Discipline.loading setting).evaluates depth) ⟨rfl, trivial⟩ trivial fun _ _ ↦ trivial)
  rw [h] at hextends hloads
  exact ⟨hextends.2.1, hloads.2.1⟩

/-- The failure of a form takes the registry and the loaded modules back. -/
theorem loadForms_restores {depth : Nat} {forms : List Form}
    (h : loadForms (evaluate setting depth) n forms w = .error f w') :
    w'.registry = w.registry ∧ w'.loaded = w.loaded.filter (· ≠ n) := by
  rw [loadForms_apply] at h
  rcases hrun : runForms (evaluate setting depth) (w.createNamespace n).1 forms
      ((w.createNamespace n).2.markLoaded n) with ⟨⟨⟩, u⟩ | ⟨f', u⟩
  · rw [hrun] at h
    cases h
  · rw [hrun] at h
    cases h
    -- loads inside this one are part of the run, each cut back or kept; only the outer cut is left
    obtain ⟨hextends, hloads⟩ := extends_of_runForms_error hrun
    have hcreate : w.Extends ((w.createNamespace n).2.markLoaded n) :=
      (World.Extends.createNamespace n).trans
        (World.Extends.of_eq (World.namespaces_markLoaded _ n) (World.registry_markLoaded _ n))
    have hmark : w.LoadsMore ((w.createNamespace n).2.markLoaded n) :=
      (World.LoadsMore.of_eq (World.loaded_createNamespace _ n)).trans (World.LoadsMore.mark _ n)
    exact ⟨(hcreate.trans hextends).registry_rollback w.loaded n,
      (hmark.trans hloads).loaded_rollback w.paths n⟩

end Evaluation

namespace Interpreter

variable {setting : Setting} {n text : String} {w w' : World} {f : Failure}

/-- **A failed load is taken back.** If reading or checking fails, nothing at all has changed. If a
form fails, at whatever depth of loads that it caused, every path is registered as before and the
modules that were loaded before still are, the failed one apart. -/
theorem loadText_restores (h : loadText setting n text w = .error f w') :
    (∀ f', Evaluation.readModule setting.limits text = .error f' → f' = f ∧ w' = w) ∧
      (∀ forms, Evaluation.readModule setting.limits text = .ok forms →
        w'.registry = w.registry ∧ w'.loaded = w.loaded.filter (· ≠ n)) := by
  -- The text is read and checked before anything is changed.
  unfold loadText Evaluation.loadText at h
  rcases hread : Evaluation.readModule setting.limits text with f' | forms
  · rw [hread] at h
    cases h
    refine ⟨?_, ?_⟩
    · intro f' hf'
      cases hf'
      exact ⟨rfl, rfl⟩
    · intro forms hforms
      cases hforms
  · rw [hread] at h
    have hload : Evaluation.loadForms (evaluator setting) n forms w = .error f w' := h
    refine ⟨?_, ?_⟩
    · intro f' hf'
      cases hf'
    · intro _ _
      exact Evaluation.loadForms_restores hload

/-- A module that is loaded again, loads another one and then fails: both count as not loaded. -/
theorem loadText_restores_nested :
    ∃ w', loadText
        ((⟨⟨0⟩, none⟩ : Interpreter).within ⟨20, 20, 20⟩
          (Host.empty.write ["n.nsl"] "(defn x () x)"))
        "m" "(use n.x) (g)" { World.empty 0 with loaded := ["m", "k"] } =
          .error (.fault (.unbound "g")) w' ∧
      w'.registry = [] ∧ w'.loaded = ["k"] := by
  obtain ⟨w', hw'⟩ := Evaluation.error_of_failure (f := .fault (.unbound "g"))
    (loadText
      ((⟨⟨0⟩, none⟩ : Interpreter).within ⟨20, 20, 20⟩
        (Host.empty.write ["n.nsl"] "(defn x () x)"))
      "m" "(use n.x) (g)" { World.empty 0 with loaded := ["m", "k"] }) (by decide +kernel)
  have hforms : Evaluation.readModule ⟨20, 20, 20⟩ "(use n.x) (g)" =
      .ok [.list [.symbol "use", .symbol "n.x"], .list [.symbol "g"]] := by
    rfl
  exact ⟨w', hw', (loadText_restores hw').2 _ hforms⟩

/-- Every run extends the world. -/
theorem extends_of_leads {i : Interpreter} (h : i.Leads w w') : w.Extends w' := by
  refine h.keeps (fun limits host request u hu ↦ hu.trans ?_) (World.Extends.refl w)
  exact ((Discipline.closed_extending (i.within limits host)).after i request trivial trivial).2

/-- **Namespace bindings are constants over whole runs.** Whatever requests are made, and whether
they are answered or fail, a registered path keeps its namespace, an identifier bound in a namespace
keeps its value, and what a namespace binds is only ever appended to. -/
theorem bindings_constant {i : Interpreter} (h : i.Leads w w') :
    (∀ path id, w.registered? path = some id → w'.registered? path = some id) ∧
      (∀ id n v, (w.namespaceAt id).bindings.get? n = some v →
        (w'.namespaceAt id).bindings.get? n = some v) ∧
      ∀ id, (w.namespaceAt id).bindings.entries <+: (w'.namespaceAt id).bindings.entries := by
  have hextends := extends_of_leads h
  refine ⟨fun path id hpath ↦ ?_, fun id n v hget ↦ ?_, fun id ↦ ?_⟩
  · exact hextends.registered hpath
  · exact hextends.get hget
  · exact hextends.bindings id

/-- Loading a text under the path of a native namespace fails to bind what is bound there, and takes
nothing of it away. -/
theorem bindings_constant_native :
    ∃ i w w', (i, w) = create Host.empty none none 0 ∧
      w' = i.after (i.within .standard Host.empty) (.loadText "builtin" "(const val not)") w ∧
      w.registered? "builtin" = some ⟨4⟩ ∧ w'.registered? "builtin" = some ⟨4⟩ ∧
      (w.namespaceAt ⟨4⟩).bindings.get? "val" = some (.native ⟨"builtin.val", 1, .itself⟩ 101) ∧
      (w'.namespaceAt ⟨4⟩).bindings.get? "val" =
        some (.native ⟨"builtin.val", 1, .itself⟩ 101) := by
  have hpath : (create Host.empty none none 0).2.registered? "builtin" = some ⟨4⟩ := by
    decide +kernel
  have hget : ((create Host.empty none none 0).2.namespaceAt ⟨4⟩).bindings.get? "val" =
      some (.native ⟨"builtin.val", 1, .itself⟩ 101) := by
    decide +kernel
  obtain ⟨hregistered, hbound, -⟩ := bindings_constant
    (Leads.step .standard Host.empty (.loadText "builtin" "(const val not)")
      (Leads.refl (create Host.empty none none 0).2))
  exact ⟨_, _, _, rfl, rfl, hpath, hregistered _ _ hpath, hget, hbound _ _ _ hget⟩

end Interpreter

end DottedLisp
