import DottedLisp.Proofs.Simulation.Application
import DottedLisp.Proofs.WorldViews

/-!
# Loading modules under a simulation

Loads that `use` forms cause. Such a load is made only if the module does **not** count as loaded,
so the laws on marking and on taking back are needed under that condition alone.
-/

namespace DottedLisp

namespace Evaluation

/-- Loading a module, said without sequencing: the failure of a form takes the world back. -/
theorem loadForms_apply (e : Evaluator) (n : String) (forms : List Form) (w : World) :
    loadForms e n forms w =
      match runForms e (w.createNamespace n).1 forms ((w.createNamespace n).2.markLoaded n) with
      | .ok _ u => .ok (w.createNamespace n).1 u
      | .error f u => .error f (u.rollback w.paths w.loaded n) := by
  show EStateM.bind (undoing _ (runForms e (w.createNamespace n).1 forms)) _
    ((w.createNamespace n).2.markLoaded n) = _
  unfold EStateM.bind undoing
  rcases runForms e (w.createNamespace n).1 forms ((w.createNamespace n).2.markLoaded n) with
    ⟨-, u⟩ | ⟨f, u⟩
  · rfl
  · rfl

/-! ### The file of a module

What loading comes to, by what the search for the file gives. -/

section File

variable {setting : Setting} {e : Evaluator} {n text : String} {f : Failure} {w : World}

/-- If the search fails, so does the load … -/
theorem loadFile?_of_error (h : setting.findModule n = .error f) :
    loadFile? setting e n = throw f := by
  unfold loadFile?
  rw [h]
  rfl

/-- … but a file that is not there is no failure yet: what it means is for the caller to say. -/
theorem loadFile?_of_none (h : setting.findModule n = .ok none) :
    loadFile? setting e n = pure none := by
  unfold loadFile?
  rw [h]
  rfl

theorem loadFile?_of_some (h : setting.findModule n = .ok (some text)) :
    loadFile? setting e n = (loadText setting e n text >>= fun id ↦ pure (some id)) := by
  unfold loadFile?
  rw [h]
  rfl

/-- A module that counts as loaded is not looked for. -/
theorem loadNeeded_of_loaded (h : w.isLoaded n = true) :
    loadNeeded setting e n w = .ok () w := by
  show (if w.isLoaded n = true then (pure () : Evaluation Unit)
    else discard (loadFile? setting e n)) w = .ok () w
  rw [if_pos h]
  rfl

theorem loadNeeded_of_not_loaded (h : w.isLoaded n = false) :
    loadNeeded setting e n w = discard (loadFile? setting e n) w := by
  show (if w.isLoaded n = true then (pure () : Evaluation Unit)
    else discard (loadFile? setting e n)) w = _
  rw [if_neg (by simp [h])]

/-- Without a file nothing is loaded, whether it is needed or not. -/
theorem loadNeeded_of_none (h : setting.findModule n = .ok none) :
    loadNeeded setting e n w = .ok () w := by
  rcases hw : w.isLoaded n with - | -
  · rw [loadNeeded_of_not_loaded hw, loadFile?_of_none h]
    rfl
  · exact loadNeeded_of_loaded hw

/-- A module that is asked for and counts as loaded answers by its namespace. -/
theorem loadModule_of_loaded (h : w.isLoaded n = true) :
    loadModule setting e n w = getNamespace n w := by
  show (if w.isLoaded n = true then (getNamespace n : Evaluation NamespaceId) else _) w = _
  exact congrFun (if_pos h) w

/-- A search that fails leaves the world as it is … -/
theorem loadModule_of_error (h : w.isLoaded n = false) (hfind : setting.findModule n = .error f) :
    loadModule setting e n w = .error f w := by
  show (if w.isLoaded n = true then (getNamespace n : Evaluation NamespaceId) else _) w = _
  refine (congrFun (if_neg (by simp [h])) w).trans ?_
  rw [loadFile?_of_error hfind]
  rfl

/-- … and so does one that finds no file, which **here** is a failure. -/
theorem loadModule_of_none (h : w.isLoaded n = false) (hfind : setting.findModule n = .ok none) :
    loadModule setting e n w = .error (.moduleMissing n) w := by
  show (if w.isLoaded n = true then (getNamespace n : Evaluation NamespaceId) else _) w = _
  refine (congrFun (if_neg (by simp [h])) w).trans ?_
  rw [loadFile?_of_none hfind]
  rfl

theorem loadModule_of_some (h : w.isLoaded n = false)
    (hfind : setting.findModule n = .ok (some text)) :
    loadModule setting e n w = loadText setting e n text w := by
  show (if w.isLoaded n = true then (getNamespace n : Evaluation NamespaceId) else _) w = _
  refine (congrFun (if_neg (by simp [h])) w).trans ?_
  rw [loadFile?_of_some hfind]
  rcases hm : loadText setting e n text w with ⟨id, u⟩ | ⟨f, u⟩
  · exact bind_of_ok (a := some id) (u := u) (bind_of_ok hm)
  · exact bind_of_error (bind_of_error hm)

end File

end Evaluation

namespace Simulation

open Evaluation

variable {setting setting' : Setting} {S : Simulation setting setting'} {e e' : Evaluator}
  {w w' : World}

/-- The forms of a module, at the top level of its namespace. -/
theorem follows_runForms (he : S.Evaluates e e') {id : NamespaceId} {forms : List Form}
    (h : S.related w w') (hc : S.context w (.top id))
    (hforms : ∀ form ∈ forms, S.form (.top id) .value form) :
    S.Follows w w' (runForms e id forms) (runForms e' (S.space id) forms) (fun a ↦ a)
      fun u _ ↦ S.context u (.top id) := by
  have heach := follows_each he h hc hforms
  rwa [S.move_top] at heach

/-- A load that fails takes both worlds back, each to what **it** was before. -/
theorem follows_loadForms (he : S.Evaluates e e') (h : S.related w w') {n : String}
    {forms : List Form} (hloaded : w.isLoaded n = false)
    (hforms : ∀ form ∈ forms, ∀ id, S.form (.top id) .value form) :
    S.Follows w w' (loadForms e n forms) (loadForms e' n forms) S.space
      fun u id ↦ S.context u (.top id) := by
  have hworld := S.world_of_related h
  have hloaded' : (w.createNamespace n).2.isLoaded n = false := by
    rw [World.isLoaded_createNamespace, hloaded]
  -- The namespace is made and the module marked before its first form is evaluated.
  have hmark := S.later_mark (S.world_namespace n hworld) hloaded'
  have hstart := S.later_trans (S.later_namespace n hworld) hmark
  have hrun : S.Follows ((w.createNamespace n).2.markLoaded n)
      ((w'.createNamespace n).2.markLoaded n) (runForms e (w.createNamespace n).1 forms)
      (runForms e' (S.space (w.createNamespace n).1) forms) (fun a ↦ a)
      fun u _ ↦ S.context u (.top (w.createNamespace n).1) :=
    follows_runForms he
      (S.related_mark (S.related_namespace n h) ⟨w.isRegistered_createNamespace n, hloaded'⟩)
      (S.context_later hmark (S.context_namespace n hworld)) fun form hform ↦ hforms form hform _
  unfold Follows at hrun ⊢
  rw [loadForms_apply, loadForms_apply, S.namespace_eq n h]
  rcases hw : runForms e (w.createNamespace n).1 forms
    ((w.createNamespace n).2.markLoaded n) with ⟨_, u⟩ | ⟨f, u⟩
  · rw [hw] at hrun
    obtain ⟨hu, hlater, hc, u', hw', hrelated⟩ := hrun
    exact ⟨hu, S.later_trans hstart hlater, hc, u', by rw [hw'], hrelated⟩
  · rw [hw] at hrun
    obtain ⟨hu, hlater, hf, hrest⟩ := hrun
    -- A failure takes back everything since the beginning of the load, in both runs.
    have hlater' := S.later_trans hstart hlater
    refine ⟨S.failed_rollback hworld hu hlater' hloaded,
      S.later_rollback hworld hu hlater' hloaded, hf, hrest.imp_right ?_⟩
    rintro ⟨u', hw', hparted⟩
    exact ⟨_, by rw [hw'], S.parted_rollback h hparted hlater' hloaded⟩

/-- A text that cannot be read is refused before anything is changed. -/
theorem follows_loadText (he : S.Evaluates e e') (h : S.related w w') {n text : String}
    (hloaded : w.isLoaded n = false)
    (hfailure : ∀ f, readModule setting.limits text = .error f → S.failure f)
    (hforms : ∀ forms, readModule setting.limits text = .ok forms →
      ∀ form ∈ forms, ∀ id, S.form (.top id) .value form) :
    S.Follows w w' (loadText setting e n text) (loadText setting' e' n text) S.space
      fun u id ↦ S.context u (.top id) := by
  unfold loadText
  rcases hread : readModule setting.limits text with f | forms
  · rcases S.read_error hread with hexcused | hread'
    · exact Follows.of_excused (f := f) rfl (hfailure f hread) hexcused h
    · rw [hread']
      exact Follows.of_error (f := f) rfl rfl (S.later_refl w) h (hfailure f hread)
  · rw [S.read_ok hread]
    exact follows_loadForms he h hloaded (hforms forms hread)

/-- The file of a module that is not loaded; both runs find the same text. -/
theorem follows_loadFile (he : S.Evaluates e e') (h : S.related w w') {n : String}
    (hloaded : w.isLoaded n = false) :
    S.Follows w w' (loadFile? setting e n) (loadFile? setting' e' n) (Option.map S.space)
      fun _ _ ↦ True := by
  have hsame := S.findModule_eq n
  rcases hfind : setting.findModule n with f | - | text
  · rw [loadFile?_of_error hfind, loadFile?_of_error (hsame.trans hfind)]
    exact Follows.of_error rfl rfl (S.later_refl w) h (S.failure_find hfind)
  · rw [loadFile?_of_none hfind, loadFile?_of_none (hsame.trans hfind)]
    exact follows_pure (t := Option.map S.space) (a := none) h trivial
  · rw [loadFile?_of_some hfind, loadFile?_of_some (hsame.trans hfind)]
    refine (follows_loadText he h hloaded (fun f hread ↦ S.failure_read hfind hread)
      fun forms hread form hform id ↦ S.form_module id hfind hread hform).bind
        fun id u u' _ hu _ ↦ ?_
    exact follows_pure (t := Option.map S.space) (a := some id) hu trivial

/-- Loading what a `use` form needs. Where the two worlds disagree about what is loaded there is no
file, so it makes no difference. -/
theorem follows_loadNeeded (he : S.Evaluates e e') (h : S.related w w') (path : String) :
    S.Follows w w' (loadNeeded setting e (Name.moduleOf path))
      (loadNeeded setting' e' (Name.moduleOf path)) id fun _ _ ↦ True := by
  rcases hw : w.isLoaded (Name.moduleOf path) with - | -
  · rcases S.loaded_eq path h with hsame | hnone
    · rw [hw] at hsame
      exact (follows_loadFile he h hw).discard.congr (loadNeeded_of_not_loaded hw)
        (loadNeeded_of_not_loaded hsame)
    · exact Follows.of_ok (loadNeeded_of_none hnone)
        (loadNeeded_of_none (by rw [S.findModule_eq, hnone])) (S.later_refl w) h trivial
  · rcases S.loaded_eq path h with hsame | hnone
    · rw [hw] at hsame
      exact Follows.of_ok (loadNeeded_of_loaded hw) (loadNeeded_of_loaded hsame) (S.later_refl w) h
        trivial
    · exact Follows.of_ok (loadNeeded_of_loaded hw)
        (loadNeeded_of_none (by rw [S.findModule_eq, hnone])) (S.later_refl w) h trivial

end Simulation

end DottedLisp
