import DottedLisp.Proofs.Growth
import DottedLisp.Proofs.Moments

/-!
# Loads in progress, and loads that are over

Modules may use each other in a circle. What stops the circle is that a module counts as loaded from
before its first form is evaluated, and that nothing takes this back while it is being loaded: the
failure of a load **inside** unmarks other modules only. So at every moment of every run the modules
that are being loaded are distinct and count as loaded, and every module that counts as loaded has a
namespace. This is `World.Underway`.

The loads in progress at a moment are read off the way to it (`Interpreter.During`): the load that a
request asks for, and one more for each `use` form on the way. Other forms start no load, because
they do not depend on what files there are (`Moment.step_eq_of_not_uses`).

A load that is over is protected in the same way as one that is in progress. Whatever is asked for
afterwards, except to load a text as that very module, the module stays loaded with the namespace it
has.
-/

namespace DottedLisp

/-! ### The invariant -/

namespace World

/-- The given modules are being loaded, one inside the other. -/
structure Underway (loads : List String) (w : World) : Prop where
  /-- No module is being loaded twice. -/
  nodup : loads.Nodup
  /-- What is being loaded counts as loaded. -/
  loaded : ∀ n ∈ loads, w.isLoaded n = true
  /-- What counts as loaded has a namespace. -/
  registered : ∀ n, w.isLoaded n = true → w.isRegistered n = true

variable {w w' w₁ w₂ : World} {n k : String} {loads : List String}

/-- The module that is marked counts as loaded, and so does what did before. -/
theorem isLoaded_markLoaded : (w.markLoaded n).isLoaded k = true ↔ k = n ∨ w.isLoaded k = true := by
  unfold markLoaded
  split
  · rename_i hn
    constructor
    · exact Or.inr
    · rintro (rfl | hk)
      · exact hn
      · exact hk
  · simp [isLoaded]

/-- After a rollback that counts as loaded which did, did so before, and is not the module that
failed. -/
theorem isLoaded_rollback {paths loaded : List String} :
    (w.rollback paths loaded n).isLoaded k = true ↔
      w.isLoaded k = true ∧ k ∈ loaded ∧ k ≠ n := by
  simp [rollback, isLoaded]

/-- What is registered stays registered. -/
theorem Extends.isRegistered (h : w.Extends w') (hn : w.isRegistered n = true) :
    w'.isRegistered n = true := by
  obtain ⟨id, hid⟩ := Option.isSome_iff_exists.1 hn
  rw [World.isRegistered, h.registered hid]
  rfl

namespace Underway

/-- A module that is not loaded is not being loaded. -/
theorem not_mem (h : w.Underway loads) (hn : w.isLoaded n = false) : n ∉ loads := by
  intro hmem
  rw [h.loaded n hmem] at hn
  cases hn

/-- Changes that load nothing. -/
theorem of_extends (h : w.Underway loads) (hextends : w.Extends w')
    (hloaded : w'.loaded = w.loaded) : w'.Underway loads where
  nodup := h.nodup
  loaded n hn := by
    rw [isLoaded, hloaded]
    exact h.loaded n hn
  registered n hn := by
    rw [isLoaded, hloaded] at hn
    exact hextends.isRegistered (h.registered n hn)

/-- A namespace that is created takes none away. -/
theorem createNamespace (h : w.Underway loads) (path : String) :
    (w.createNamespace path).2.Underway loads :=
  h.of_extends (Extends.createNamespace path) (loaded_createNamespace w path)

/-- Marking a module that has its namespace. -/
theorem mark (h : w.Underway loads) (hn : w.isRegistered n = true) :
    (w.markLoaded n).Underway loads where
  nodup := h.nodup
  loaded k hk := isLoaded_markLoaded.2 (Or.inr (h.loaded k hk))
  registered k hk := by
    rw [World.isRegistered, registered?, registry_markLoaded]
    rcases isLoaded_markLoaded.1 hk with rfl | hk
    · exact hn
    · exact h.registered k hk

/-- A loaded module may be counted among those being loaded, once. -/
theorem cons (h : w.Underway loads) (hfresh : n ∉ loads) (hn : w.isLoaded n = true) :
    w.Underway (n :: loads) where
  nodup := List.nodup_cons.2 ⟨hfresh, h.nodup⟩
  loaded k hk := by
    rcases List.mem_cons.1 hk with rfl | hk
    · exact hn
    · exact h.loaded k hk
  registered := h.registered

/-- The world in which the forms of a module are evaluated first. -/
theorem enter (h : w.Underway loads) (hfresh : n ∉ loads) :
    ((w.createNamespace n).2.markLoaded n).Underway (n :: loads) :=
  ((h.createNamespace n).mark (w.isRegistered_createNamespace n)).cons hfresh
    (isLoaded_markLoaded.2 (Or.inl rfl))

/-- **Taking a load back leaves the loads around it.** -/
theorem rollback (h₁ : w₁.Underway loads) (h₂ : w₂.Underway loads) (hextends : w₁.Extends w₂)
    (hfresh : n ∉ loads) : (w₂.rollback w₁.paths w₁.loaded n).Underway loads where
  nodup := h₁.nodup
  loaded k hk := by
    refine isLoaded_rollback.2 ⟨h₂.loaded k hk, List.contains_iff_mem.1 (h₁.loaded k hk), ?_⟩
    rintro rfl
    exact hfresh hk
  registered k hk := by
    obtain ⟨-, hold, -⟩ := isLoaded_rollback.1 hk
    rw [World.isRegistered, registered?, hextends.registry_rollback]
    exact h₁.registered k (List.contains_iff_mem.2 hold)

end Underway

end World

/-! ### Evaluations keep it -/

namespace Discipline

variable {setting : Setting} {loads : List String}

/-- What is being loaded stays so in the course of an evaluation. -/
def underway (setting : Setting) (loads : List String) : Discipline setting where
  world := World.Underway loads
  later := World.Extends
  later_refl := World.Extends.refl
  later_trans := World.Extends.trans
  failed_of_world h := h
  world_scope h _ := h.of_extends (World.Extends.of_eq rfl rfl) rfl
  later_scope _ _ := World.Extends.of_eq rfl rfl
  world_stamp h := h.of_extends (World.Extends.of_eq rfl rfl) rfl
  later_stamp _ := World.Extends.of_eq rfl rfl
  world_namespace path h := h.createNamespace path
  later_namespace path _ := World.Extends.createNamespace path
  world_insert h _ _ _ _ := h.of_extends World.Extends.insert (World.loaded_modify ..)
  later_insert _ _ _ _ _ := World.Extends.insert
  world_replace h _ _ hscope :=
    h.of_extends (World.Extends.replace hscope) (World.loaded_modify ..)
  later_replace _ _ _ hscope := World.Extends.replace hscope
  world_mark h hn := h.mark hn.1
  later_mark _ _ :=
    World.Extends.of_eq (World.namespaces_markLoaded ..) (World.registry_markLoaded ..)
  failed_rollback h₁ h₂ hlater hn := h₁.rollback h₂ hlater (h₁.not_mem hn)
  later_rollback _ _ hlater _ := hlater.rollback _ _

/-- Forms are not restricted, so the placement check need not say anything. -/
theorem checks_underway (setting : Setting) (loads : List String) :
    (underway setting loads).Checks := ⟨fun _ _ ↦ trivial⟩

/-- Also a load of a module that counts as loaded, if it is not one of those being loaded. -/
theorem loadsFrom_underway {w : World} {n : String} (hw : w.Underway loads) (hfresh : n ∉ loads) :
    (underway setting loads).LoadsFrom w n where
  world_mark := (hw.createNamespace n).mark (w.isRegistered_createNamespace n)
  later_mark := World.Extends.of_eq (World.namespaces_markLoaded ..) (World.registry_markLoaded ..)
  failed_rollback hu hlater := hw.rollback hu hlater hfresh
  later_rollback _ hlater := World.Extends.rollback hlater _ _

end Discipline

/-! ### The loads that `use` forms start -/

namespace Evaluation

variable {w u : World}

/-- Reading a name off a form changes nothing. -/
theorem eq_of_nameOf {form : Form} {n : String} (h : nameOf form w = .ok n u) : u = w := by
  unfold nameOf at h
  split at h
  · cases h
    rfl
  · cases h

/-- Neither does making it absolute. -/
theorem eq_of_normalize {c : Context} {n full : String} (h : normalize c n w = .ok full u) :
    u = w := by
  unfold normalize at h
  dsimp only at h
  split at h
  · cases h
    rfl
  · cases h

/-- Neither does cutting it. -/
theorem eq_of_splitName {full : String} {parts : String × String}
    (h : splitName full w = .ok parts u) : u = w := by
  unfold splitName at h
  rcases hsplit : Name.split? full with - | known
  · rw [hsplit] at h
    cases h
  · rw [hsplit] at h
    cases h
    rfl

end Evaluation

namespace Moment

open Evaluation

variable {setting : Setting} {e : Evaluator} {m m' : Moment} {w : World} {n text : String}

/-- What is evaluated is a `use` form. -/
def Uses (m : Moment) : Prop :=
  ∃ head operands, m.form = .list (head :: operands) ∧ head.special? = some .use

/-- The module that the target of a `use` form lies in, if it names a place. -/
def targetModule? (c : Context) (target : Form) (w : World) : Option String :=
  (answer? ((do splitName (← normalize c (← nameOf target)) : Evaluation _) w)).map
    fun parts ↦ Name.moduleOf parts.1

/-- The module that a `use` form takes a name from. -/
def usedModule? (m : Moment) : Option String :=
  match m.form with
  | .list (head :: target :: _) =>
    if head.special? = some .use then targetModule? m.context target m.world else none
  | _ => none

/-- A moment that is at no `use` form has no module to load. -/
theorem usedModule?_of_not_uses (hm : ¬ m.Uses) : m.usedModule? = none := by
  unfold usedModule?
  split
  · rename_i head target operands hform
    exact if_neg fun hhead ↦ hm ⟨head, target :: operands, hform, hhead⟩
  · rfl

/-- **Only `use` forms start loads**: what files there are does not matter for the others. -/
theorem step_eq_of_not_uses {setting' : Setting} (hm : ¬ m.Uses)
    (hlimits : setting'.limits = setting.limits) :
    m.outcome (step setting' e) = m.outcome (step setting e) := by
  obtain ⟨form, c, position, w⟩ := m
  -- A call looks at the setting for the limit on steps only, and so does a loop below.
  have happly : apply setting' e = apply setting e := by
    unfold apply
    rw [hlimits]
  unfold outcome step
  dsimp only
  split
  · rfl
  · rfl
  · rfl
  · rename_i head operands
    rcases hhead : head.special? with - | keyword
    · dsimp only
      rw [happly]
    · have hspecial : special setting' e keyword operands c position =
          special setting e keyword operands c position := by
        cases keyword with
        | use => exact absurd ⟨head, operands, rfl, hhead⟩ hm
        | loop =>
          show loop setting' e c operands = loop setting e c operands
          unfold loop
          rw [hlimits]
        | _ => rfl
      dsimp only
      rw [hspecial]

/-- Once both names are known, all that using one comes to is in the load of its module. -/
theorem comesTo_load_of_useNamed {path n : String} {rest : Evaluation Value}
    (h : ComesTo (fun e ↦ (change (fun w ↦ (w.isRegistered path, w)) >>= fun known ↦
      if known = true then rest else loadNeeded setting e n >>= fun _ ↦ rest) w) e m') :
    ComesTo (fun e ↦ loadNeeded setting e n w) e m' := by
  obtain ⟨known, u, hknown, h⟩ := h.of_bind
  cases hknown
  rcases hpath : w.isRegistered path with - | -
  · rw [hpath] at h
    exact ComesTo.of_bind_left h
  · rw [hpath] at h
    exact absurd h (not_comesTo_of_eq fun _ ↦ rfl)

/-- A `use` form evaluates nothing itself. All it comes to is in the load of the module that it
takes from. -/
theorem comesTo_load_of_useAs {c : Context} {target : Form} {alias? : Option Form}
    (h : ComesTo (fun e ↦ useAs setting e c target alias? w) e m') :
    ∃ n, targetModule? c target w = some n ∧ ComesTo (fun e ↦ loadNeeded setting e n w) e m' := by
  cases c with
  | scope id outer =>
    refine absurd h (not_comesTo_of_eq (a := .error (.fault .usePlace) w) fun e ↦ ?_)
    have hplace : (Context.scope id outer).isTop = false := rfl
    exact congrFun (useAs_of_scope hplace) w
  | top id =>
    obtain ⟨name, u, hname, h⟩ := ComesTo.of_bind h
    -- The target is made absolute and cut before anything is evaluated; none of it changes the
    -- world.
    cases eq_of_nameOf hname
    obtain ⟨full, u, hfull, h⟩ := ComesTo.of_bind h
    cases eq_of_normalize hfull
    obtain ⟨⟨path, identifier⟩, u, hparts, h⟩ := ComesTo.of_bind h
    cases eq_of_splitName hparts
    have htarget : targetModule? (.top id) target w = some (Name.moduleOf path) := by
      unfold targetModule?
      rw [bind_of_ok hname, bind_of_ok hfull, hparts]
      rfl
    refine ⟨_, htarget, ?_⟩
    cases alias? with
    | none => exact comesTo_load_of_useNamed h
    | some form =>
      obtain ⟨n, u, hn, h⟩ := ComesTo.of_bind h
      cases eq_of_nameOf hn
      exact comesTo_load_of_useNamed h

/-- All that a `use` form comes to is in the load of the module that it takes from. -/
theorem comesTo_load_of_uses (hm : m.Uses) (h : m.LeadsTo setting e m') :
    ∃ n, m.usedModule? = some n ∧ ComesTo (fun e ↦ loadNeeded setting e n m.world) e m' := by
  obtain ⟨form, c, position, w⟩ := m
  obtain ⟨head, operands, rfl, hhead⟩ := hm
  have hstep : ∀ e, outcome (step setting e) ⟨.list (head :: operands), c, position, w⟩ =
      (use setting e c operands >>= expectValue .use position) w := by
    intro e
    unfold outcome step
    dsimp only
    rw [hhead]
    rfl
  have huse : ComesTo (fun e ↦ use setting e c operands w) e m' := by
    simp only [LeadsTo, hstep] at h
    exact h.of_bind_left
  -- The module is that of the first operand, whatever the alias is.
  have hused : ∀ target rest, operands = target :: rest →
      usedModule? ⟨.list (head :: operands), c, position, w⟩ = targetModule? c target w := by
    rintro target rest rfl
    exact if_pos hhead
  match operands with
  | [target] =>
    have huseAs : ComesTo (fun e ↦ useAs setting e c target none w) e m' := huse
    rw [hused target _ rfl]
    exact comesTo_load_of_useAs huseAs
  | [target, name] =>
    have huseAs : ComesTo (fun e ↦ useAs setting e c target (some name) w) e m' := huse
    rw [hused target _ rfl]
    exact comesTo_load_of_useAs huseAs
  | [] => exact absurd huse (not_comesTo_of_eq fun _ ↦ rfl)
  | _ :: _ :: _ :: _ => exact absurd huse (not_comesTo_of_eq fun _ ↦ rfl)

/-- **A module that counts as loaded is not loaded for a `use` form.** -/
theorem comesTo_loadText_of_loadNeeded (h : ComesTo (fun e ↦ loadNeeded setting e n w) e m') :
    w.isLoaded n = false ∧
      ∃ text, ComesTo (fun e ↦ loadText setting e n text w) e m' := by
  -- If the module counts as loaded, or its file is not found, no form is evaluated at all.
  rcases hloaded : w.isLoaded n with - | -
  · refine ⟨rfl, ?_⟩
    have hneeded : ∀ e, loadNeeded setting e n w = discard (loadFile? setting e n) w :=
      fun e ↦ loadNeeded_of_not_loaded hloaded
    simp only [hneeded] at h
    have hfile : ComesTo (fun e ↦ loadFile? setting e n w) e m' := ComesTo.of_bind_left h
    rcases hfind : setting.findModule n with f | - | text
    · simp only [loadFile?_of_error hfind] at hfile
      exact absurd hfile (not_comesTo_of_eq fun _ ↦ rfl)
    · simp only [loadFile?_of_none hfind] at hfile
      exact absurd hfile (not_comesTo_of_eq fun _ ↦ rfl)
    · simp only [loadFile?_of_some hfind] at hfile
      exact ⟨text, hfile.of_bind_left⟩
  · exact absurd h (not_comesTo_of_eq fun _ ↦ loadNeeded_of_loaded hloaded)

/-- A module that counts as loaded is not loaded on request either, unless from a text. -/
theorem comesTo_loadText_of_loadModule (h : ComesTo (fun e ↦ loadModule setting e n w) e m') :
    ∃ text, ComesTo (fun e ↦ loadText setting e n text w) e m' := by
  rcases hloaded : w.isLoaded n with - | -
  · rcases hfind : setting.findModule n with f | - | text
    · exact absurd h (not_comesTo_of_eq fun _ ↦ loadModule_of_error hloaded hfind)
    · exact absurd h (not_comesTo_of_eq fun _ ↦ loadModule_of_none hloaded hfind)
    · simp only [loadModule_of_some hloaded hfind] at h
      exact ⟨text, h⟩
  · exact absurd h (not_comesTo_of_eq fun _ ↦ loadModule_of_loaded hloaded)

/-- **While the forms of a module are evaluated it is being loaded**, together with the modules that
were being loaded before. -/
theorem underway_of_loadText {depth : Nat} {loads : List String} (hw : w.Underway loads)
    (hfresh : n ∉ loads)
    (h : ComesTo (fun e ↦ loadText setting e n text w) (evaluate setting depth) m) :
    m.world.Underway (n :: loads) := by
  unfold loadText at h
  rcases hread : readModule setting.limits text with f | forms
  · rw [hread] at h
    exact absurd h (not_comesTo_of_eq fun _ ↦ rfl)
  · rw [hread] at h
    have hload : ComesTo (fun e ↦ loadForms e n forms w) (evaluate setting depth) m := h
    have hrun : ComesTo
        (fun e ↦ runForms e (w.createNamespace n).1 forms ((w.createNamespace n).2.markLoaded n))
        (evaluate setting depth) m :=
      hload.of_part fun heq ↦ by rw [loadForms_apply, loadForms_apply, heq]
    exact ((Discipline.underway setting (n :: loads)).admits_of_runForms (hw.enter hfresh) trivial
      (fun _ _ ↦ trivial) hrun).1

/-- The moment at which the first form of a module is evaluated. -/
def entering (n : String) (form : Form) (w : World) : Moment :=
  ⟨form, .top (w.createNamespace n).1, .value, (w.createNamespace n).2.markLoaded n⟩

/-- An evaluation leaves the loads around it as they are. -/
theorem underway_after {loads : List String} (hm : m.world.Underway loads) (depth : Nat) :
    (m.after (evaluate setting depth)).Underway loads :=
  ((Discipline.underway setting loads).ends_after depth hm trivial trivial).1

end Moment

/-! ### Whole runs -/

namespace Interpreter

open Evaluation

variable {i : Interpreter} {setting : Setting} {w u v : World} {n : String} {id : NamespaceId}

/-- Between requests nothing is being loaded. -/
theorem underway_of_reachable (h : i.Reachable w) : w.Underway [] := by
  obtain ⟨host, roots, name, stamps, -, hleads⟩ := h
  refine hleads.keeps (fun limits host request u hu ↦ ?_) ?_
  · exact ((Discipline.checks_underway _ []).after i request hu trivial fun n _ _ ↦
      Discipline.loadsFrom_underway hu List.not_mem_nil).1
  · refine keeps_create ⟨List.nodup_nil, by simp, fun n hn ↦ by cases hn⟩
      (fun w path hw ↦ hw.createNamespace path) (fun w id entry hw ↦ ?_) host roots name
    have hstamp : w.addStamp.2.Underway [] := hw.of_extends (World.Extends.of_eq rfl rfl) rfl
    unfold addNative
    exact hstamp.of_extends World.Extends.insert (World.loaded_modify ..)

/-- The moments that a request begins with, each with the loads that it begins. -/
inductive Begins (i : Interpreter) (setting : Setting) (w : World) :
    Request → List String → Moment → Prop
  | evalText {text : String} {form : Form} :
    readText text = .ok form → Placement.check setting.limits.checkDepth form = .ok () →
      Begins i setting w (.evalText text) [] ⟨form, .top i.home, .value, w⟩
  | evalAll {text : String} {before rest : List Form} {form : Form} {value : Value} {u : World} :
    (TokenStream.ofText text).readAll.1 = before ++ form :: rest →
      evalForms setting i.home .nothing before w = .ok value u →
      Placement.check setting.limits.checkDepth form = .ok () →
      Begins i setting w (.evalAll text) [] ⟨form, .top i.home, .value, u⟩
  | loadText {n text : String} {m : Moment} :
    m.ComesTo (fun e ↦ Evaluation.loadText setting e n text w) (evaluator setting) →
      Begins i setting w (.loadText n text) [n] m
  | loadModule {n : String} {m : Moment} :
    m.ComesTo (fun e ↦ Evaluation.loadModule setting e n w) (evaluator setting) →
      Begins i setting w (.loadModule n) [n] m

/-- The moments of a request, each with the modules that are being loaded, the innermost first, and
with how deep evaluations may still nest. -/
inductive During (i : Interpreter) (setting : Setting) (w : World) (request : Request) :
    List String → Nat → Moment → Prop
  | begins {loads : List String} {m : Moment} :
    i.Begins setting w request loads m → During i setting w request loads setting.limits.depth m
  | inside {loads : List String} {depth : Nat} {m m' : Moment} :
    During i setting w request loads (depth + 1) m →
      m.LeadsTo setting (evaluate setting depth) m' →
      During i setting w request (m.usedModule?.toList ++ loads) depth m'

/-- Where the forms of a request begin to be evaluated, exactly the module that is asked for is
being loaded, if one is. -/
theorem Begins.underway {request : Request} {loads : List String} {m : Moment}
    (h : i.Begins setting w request loads m) (hw : w.Underway []) : m.world.Underway loads := by
  cases h with
  | evalText _ _ => exact hw
  | @evalAll _ before _ _ _ _ _ hbefore _ =>
    have hkeeps : (Discipline.underway setting []).Keeps w _
        (evalForms setting i.home .nothing before w) :=
      (Discipline.checks_underway setting []).evalForms before .nothing hw trivial
    rw [hbefore] at hkeeps
    exact hkeeps.1
  | loadText h => exact Moment.underway_of_loadText hw List.not_mem_nil h
  | loadModule h =>
    obtain ⟨text, htext⟩ := Moment.comesTo_loadText_of_loadModule h
    exact Moment.underway_of_loadText hw List.not_mem_nil htext

/-- By induction on the way to the moment: a `use` form on it comes to something only in a load of a
module that is not loaded, hence not being loaded; within any other form the loads stay. -/
theorem During.underway {request : Request} {loads : List String} {depth : Nat} {m : Moment}
    (h : i.During setting w request loads depth m) (hw : w.Underway []) :
    m.world.Underway loads := by
  induction h with
  | begins h => exact h.underway hw
  | @inside loads depth m m' _ hleads ih =>
    by_cases hm : m.Uses
    · obtain ⟨n, hn, hneeded⟩ := Moment.comesTo_load_of_uses hm hleads
      obtain ⟨hnew, text, htext⟩ := Moment.comesTo_loadText_of_loadNeeded hneeded
      rw [hn]
      exact Moment.underway_of_loadText ih (ih.not_mem hnew) htext
    · rw [Moment.usedModule?_of_not_uses hm]
      exact ((Discipline.underway setting loads).admits_of_leadsTo ih trivial trivial hleads).1

/-- Loading a module that counts as loaded is a look into the registry. -/
theorem loadModule_of_registered {e : Evaluator} (hloaded : w.isLoaded n = true)
    (hid : w.registered? n = some id) : Evaluation.loadModule setting e n w = .ok id w := by
  rw [loadModule_of_loaded hloaded, getNamespace, hid]

/-- **No module is loaded while it is being loaded.** Between requests, every module that counts as
loaded has a namespace, and asking to load it gives that namespace. At every moment of a request,
and at the end of the evaluation that begins there, the modules that are being loaded are distinct
and count as loaded, and every loaded module has a namespace. If a `use` form comes to anything, it
starts to load a module that is not being loaded; the other forms start no load. -/
theorem no_reentrant_load (hw : i.Reachable w) :
    (∀ n, w.isLoaded n = true → ∃ id, w.registered? n = some id ∧
      ∀ setting e, Evaluation.loadModule setting e n w = .ok id w) ∧
    ∀ limits host request loads depth m,
      i.During (i.within limits host) w request loads depth m →
        m.world.Underway loads ∧
        (m.after (evaluate (i.within limits host) depth)).Underway loads ∧
        (m.Uses → ∀ e m', m.LeadsTo (i.within limits host) e m' →
          ∃ n, m.usedModule? = some n ∧ n ∉ loads) ∧
        (¬ m.Uses → ∀ setting e, setting.limits = limits →
          m.outcome (step setting e) = m.outcome (step (i.within limits host) e)) := by
  have hbetween := underway_of_reachable hw
  refine ⟨fun n hn ↦ ?_, fun limits host request loads depth m hm ↦ ?_⟩
  · obtain ⟨id, hid⟩ := Option.isSome_iff_exists.1 (hbetween.registered n hn)
    exact ⟨id, hid, fun _ _ ↦ loadModule_of_registered hn hid⟩
  · have hworld := hm.underway hbetween
    refine ⟨hworld, Moment.underway_after hworld depth, fun huses e m' hleads ↦ ?_,
      fun huses setting e hlimits ↦ Moment.step_eq_of_not_uses huses hlimits⟩
    obtain ⟨n, hn, hneeded⟩ := Moment.comesTo_load_of_uses huses hleads
    exact ⟨n, hn, hworld.not_mem (Moment.comesTo_loadText_of_loadNeeded hneeded).1⟩

/-- Two modules that use each other. While `a` is being loaded, the form of `b` is evaluated, which
takes from a namespace of `a` that is not there yet. This does not load `a` once more. -/
theorem no_reentrant_load_cyclic :
    ∃ host i w m,
      host = (Host.empty.write ["a.nsl"] "(use b.x)").write ["b.nsl"] "(use a.in.y)" ∧
      (i, w) = create host none none 0 ∧
      i.During (i.within ⟨20, 20, 20⟩ host) w (.loadModule "a") ["b", "a"] 19 m ∧
      m.form = .list [.symbol "use", .symbol "a.in.y"] ∧ m.usedModule? = some "a" ∧
      m.world.Underway ["b", "a"] ∧
      ∀ e m', ¬ m.LeadsTo (i.within ⟨20, 20, 20⟩ host) e m' := by
  obtain ⟨host, hhost⟩ : ∃ host : Host,
      host = (Host.empty.write ["a.nsl"] "(use b.x)").write ["b.nsl"] "(use a.in.y)" := ⟨_, rfl⟩
  generalize hi : (create host none none 0).1 = i
  generalize hw : (create host none none 0).2 = w
  generalize hA : Moment.entering "a" (.list [.symbol "use", .symbol "b.x"]) w = inA
  generalize hB : Moment.entering "b" (.list [.symbol "use", .symbol "a.in.y"]) inA.world = inB
  have hbegins : i.During (i.within ⟨20, 20, 20⟩ host) w (.loadModule "a") ["a"] 20 inA := by
    refine .begins (.loadModule (Moment.comesTo_of_failure .stepsExceeded fun heq ↦ ?_))
    subst hA hw hi hhost
    exact absurd (congrArg failure? heq) (by decide +kernel)
  have hleads : inA.LeadsTo (i.within ⟨20, 20, 20⟩ host)
      (evaluate (i.within ⟨20, 20, 20⟩ host) 19) inB := by
    refine Moment.comesTo_of_failure .stepsExceeded fun heq ↦ ?_
    subst hB hA hw hi hhost
    exact absurd (congrArg failure? heq) (by decide +kernel)
  have husedA : inA.usedModule? = some "b" := by
    subst hA hw hhost
    decide +kernel
  have husedB : inB.usedModule? = some "a" := by
    subst hB hA hw hhost
    decide +kernel
  have hduring := During.inside hbegins hleads
  rw [husedA] at hduring
  have hreachable : i.Reachable w := ⟨host, none, none, 0, hi.symm, hw ▸ .refl _⟩
  -- Both loads are under way, so whatever is evaluated for the last form would belong to the load
  -- of a third module; but the form asks for the first one.
  obtain ⟨hunderway, -, hload, -⟩ := (no_reentrant_load hreachable).2 _ _ _ _ _ _ hduring
  refine ⟨host, i, w, inB, hhost, ?_, hduring, ?_, husedB, hunderway, fun e m' hleads ↦ ?_⟩
  · rw [← hi, ← hw]
  · rw [← hB]
    rfl
  · obtain ⟨n, hn, hfresh⟩ := hload ⟨_, _, by rw [← hB]; rfl, by decide⟩ e m' hleads
    cases husedB.symm.trans hn
    exact hfresh (by decide)

/-! ### Loads that are over -/

/-- Some sequence of requests takes one world to the other, and none of them loads a text as the
given module. -/
inductive LeadsSparing (i : Interpreter) (n : String) : World → World → Prop
  | refl (w : World) : LeadsSparing i n w w
  | step {w u : World} (limits : Limits) (host : Host) (request : Request) :
    LeadsSparing i n w u → (∀ text, request ≠ .loadText n text) →
      LeadsSparing i n w (i.after (i.within limits host) request u)

/-- A module that is spared stays loaded, and the world is extended. -/
theorem LeadsSparing.underway (h : i.LeadsSparing n u v) (hu : u.Underway [n]) :
    v.Underway [n] ∧ u.Extends v := by
  induction h with
  | refl => exact ⟨hu, World.Extends.refl u⟩
  | @step v limits host request _ hspared ih =>
    obtain ⟨hv, hextends⟩ := ih
    have hafter := (Discipline.checks_underway (i.within limits host) [n]).after i request hv
      trivial fun k text hrequest ↦ Discipline.loadsFrom_underway hv fun hk ↦ ?_
    · exact ⟨hafter.1, hextends.trans hafter.2⟩
    · cases List.mem_singleton.1 hk
      exact hspared text hrequest

/-- A module whose text was loaded is loaded, with the namespace that was the answer. -/
theorem underway_of_loadText {text : String} (hw : w.Underway [])
    (h : loadText setting n text w = .ok id u) : u.Underway [n] ∧ u.registered? n = some id := by
  unfold loadText Evaluation.loadText at h
  rcases hread : readModule setting.limits text with f | forms
  · rw [hread] at h
    cases h
  · rw [hread] at h
    have hload : loadForms (evaluator setting) n forms w = .ok id u := h
    -- Once the forms are read the load is under way, and all of them were checked.
    have hrun : (Discipline.underway setting [n]).Ends _ _
        (runForms (evaluator setting) (w.createNamespace n).1 forms
          ((w.createNamespace n).2.markLoaded n)) :=
      (Discipline.checks_underway setting [n]).runForms (hw.enter List.not_mem_nil) trivial
        (check_of_readModule hread)
    rw [loadForms_apply] at hload
    split at hload
    · rename_i hok
      rw [hok] at hrun
      cases hload
      refine ⟨hrun.1, World.Extends.registered hrun.2.1 ?_⟩
      rw [World.registered?, World.registry_markLoaded]
      exact w.registered_createNamespace n
    · cases hload

/-- A module that was loaded on request is loaded, with the namespace that was the answer. -/
theorem underway_of_loadModule (hw : w.Underway [])
    (h : loadModule setting n w = .ok id u) : u.Underway [n] ∧ u.registered? n = some id := by
  unfold loadModule at h
  rcases hloaded : w.isLoaded n with - | -
  · rcases hfind : setting.findModule n with f | - | text
    · rw [loadModule_of_error hloaded hfind] at h
      cases h
    · rw [loadModule_of_none hloaded hfind] at h
      cases h
    · rw [loadModule_of_some hloaded hfind] at h
      exact underway_of_loadText hw h
  -- Loaded before: the registry answers, and nothing is evaluated.
  · rw [loadModule_of_loaded hloaded, getNamespace] at h
    split at h
    · rename_i hid
      cases h
      exact ⟨hw.cons List.not_mem_nil hloaded, hid⟩
    · cases h

/-- The world after a request to load a module is the one that loading leaves. -/
theorem after_loadModule (h : loadModule setting n w = .ok id u) :
    i.after setting (.loadModule n) w = u := by
  have hperform : i.perform setting (.loadModule n) w = .ok (.home id) u := bind_of_ok h
  rw [after, hperform]

/-- **Loading a module once more changes nothing.** After a module was loaded on request, whatever
requests are made, answered or not, except to load a text as that module, a request to load it is
answered with the same namespace in the same world. The files there are do not matter, and nothing
is evaluated: the answer is the same for every evaluator. -/
theorem loadModule_idempotent {limits : Limits} {host : Host} (hw : i.Reachable w)
    (h : loadModule (i.within limits host) n w = .ok id u) (hleads : i.LeadsSparing n u v) :
    ∀ setting, loadModule setting n v = .ok id v ∧
      ∀ e, Evaluation.loadModule setting e n v = .ok id v := by
  obtain ⟨hu, hid⟩ := underway_of_loadModule (underway_of_reachable hw) h
  obtain ⟨hv, hextends⟩ := hleads.underway hu
  have hloaded := hv.loaded n (List.mem_singleton_self n)
  have hid' := hextends.registered hid
  exact fun setting ↦ ⟨loadModule_of_registered hloaded hid', fun e ↦
    loadModule_of_registered hloaded hid'⟩

/-- A module is loaded; then a load of another one fails, inside a third one that uses the first;
then the file is gone. -/
theorem loadModule_idempotent_failing :
    ∃ i w u v, (i, w) = create Host.empty none none 0 ∧
      loadModule (i.within ⟨20, 20, 20⟩ (Host.empty.write ["m.nsl"] "(defn x () x)")) "m" w =
        .ok ⟨6⟩ u ∧
      i.perform (i.within ⟨20, 20, 20⟩ (Host.empty.write ["n.nsl"] "(use m.x) (g)"))
        (.loadText "k" "(use n.x)") u = .error (.fault (.unbound "g")) v ∧
      loadModule (i.within ⟨20, 20, 20⟩ Host.empty) "m" v = .ok ⟨6⟩ v := by
  generalize hi : (create Host.empty none none 0).1 = i
  generalize hw : (create Host.empty none none 0).2 = w
  have hanswer : answer? (loadModule
      (i.within ⟨20, 20, 20⟩ (Host.empty.write ["m.nsl"] "(defn x () x)")) "m" w) =
        some ⟨6⟩ := by
    subst hw hi
    decide +kernel
  obtain ⟨u, hu⟩ := ok_of_answer _ hanswer
  have hfailure : failure? (i.perform
      (i.within ⟨20, 20, 20⟩ (Host.empty.write ["n.nsl"] "(use m.x) (g)"))
      (.loadText "k" "(use n.x)") (i.after
        (i.within ⟨20, 20, 20⟩ (Host.empty.write ["m.nsl"] "(defn x () x)")) (.loadModule "m") w)) =
          some (.fault (.unbound "g")) := by
    subst hw hi
    decide +kernel
  rw [after_loadModule hu] at hfailure
  obtain ⟨v, hv⟩ := error_of_failure _ hfailure
  -- The failing request is for another module, so the history spares this one.
  have hleads := LeadsSparing.step ⟨20, 20, 20⟩ (Host.empty.write ["n.nsl"] "(use m.x) (g)")
    (.loadText "k" "(use n.x)") (.refl u) (i := i) (n := "m") (by simp)
  rw [after, hv] at hleads
  have hreachable : i.Reachable w := ⟨Host.empty, none, none, 0, hi.symm, hw ▸ .refl _⟩
  exact ⟨i, w, u, v, by rw [← hi, ← hw], hu, hv,
    (loadModule_idempotent hreachable hu hleads _).1⟩

end Interpreter

end DottedLisp
