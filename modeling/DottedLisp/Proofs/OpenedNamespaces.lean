import DottedLisp.Proofs.CheckDepth
import DottedLisp.Proofs.ModuleLoads
import DottedLisp.Proofs.ProperWorlds
import DottedLisp.Proofs.RelativeNames
import DottedLisp.Proofs.SignalConfinement

/-!
# Opened namespaces and loaded modules

There are two ways to evaluate forms at the top level of a namespace: a `namespace` form opens it,
and a load makes it the home of a module. They check and run the same forms, but not in the same
world: a module counts as loaded from before its first form on, and this can be asked for in any
form of it, at any depth, by a `use`.

`World.AgreesBut` relates two worlds that may disagree about one module. As long as the module has
no file, or has a name that no `use` asks for, a disagreement about it is never seen, so the second
run follows the first (`Simulation.besides`). A `namespace` form takes one level of the depth more
than a load does, so exceeding the depth is excused.

Main statement: `Interpreter.load_agrees_with_namespace`. It needs that the search for a file of the
module ends without one. Where no file name can be made the search itself fails, and the two ways
differ (`Interpreter.load_differs_from_namespace`).
-/

namespace DottedLisp

/-! ### Worlds that disagree about one module -/

namespace World

variable {m : String} {w w' : World}

/-- The same world, with other modules loaded. -/
def withLoaded (w : World) (loaded : List String) : World :=
  { w with loaded := loaded }

/-- Looking up does not ask what is loaded. By induction on the context. -/
theorem lookup_withLoaded (w : World) (loaded : List String) (c : Context) (n : String) :
    (w.withLoaded loaded).lookup? c n = w.lookup? c n := by
  induction c with
  | top id => rfl
  | scope id outer ih =>
    rw [lookup?, lookup?, ih]
    rfl

/-- Neither does looking for a scope. -/
theorem findScope_withLoaded (w : World) (loaded : List String) (c : Context) (n : String) :
    (w.withLoaded loaded).findScope? c n = w.findScope? c n := by
  induction c with
  | top id => rfl
  | scope id outer ih =>
    rw [findScope?, findScope?, ih]
    rfl

/-- Contexts bind what they bind. -/
theorem bindingsOf_withLoaded (w : World) (loaded : List String) (c : Context) :
    (w.withLoaded loaded).bindingsOf c = w.bindingsOf c := by
  rcases c with id | ⟨id, outer⟩
  · rfl
  · rfl

/-- Creating a namespace does not ask what is loaded, and says nothing about it. -/
theorem createNamespace_withLoaded (w : World) (loaded : List String) (path : String) :
    (w.withLoaded loaded).createNamespace path =
      ((w.createNamespace path).1, (w.createNamespace path).2.withLoaded loaded) := by
  have hregistered : (w.withLoaded loaded).registered? path = w.registered? path := rfl
  rcases hpath : w.registered? path with - | id
  · rw [createNamespace_of_unregistered _ hpath,
      createNamespace_of_unregistered _ (hregistered.trans hpath)]
    rfl
  · rw [createNamespace_of_registered _ hpath,
      createNamespace_of_registered _ (hregistered.trans hpath)]

/-- Neither does a change of bindings. -/
theorem modify_withLoaded (w : World) (loaded : List String) (c : Context)
    (f : Bindings → Bindings) :
    (w.withLoaded loaded).modifyBindings c f = (w.modifyBindings c f).withLoaded loaded := by
  rcases c with id | ⟨id, outer⟩
  · rfl
  · rfl

/-- The worlds agree, but perhaps not about whether the module `m` is loaded. -/
def AgreesBut (m : String) (w w' : World) : Prop :=
  ∃ loaded, w' = w.withLoaded loaded ∧ ∀ n, n ≠ m → w'.isLoaded n = w.isLoaded n

/-- Marking a module changes nothing else. -/
theorem agreesBut_markLoaded (w : World) : w.AgreesBut m (w.markLoaded m) := by
  refine ⟨(w.markLoaded m).loaded, ?_, fun n hne ↦ ?_⟩
  · unfold markLoaded
    split <;> rfl
  · rw [Bool.eq_iff_iff, isLoaded_markLoaded, or_iff_right hne]

namespace AgreesBut

/-- Both worlds get the same scope. -/
theorem addScope (h : w.AgreesBut m w') (c : Context) :
    (w.addScope c).2.AgreesBut m (w'.addScope c).2 := by
  obtain ⟨loaded, rfl, hloaded⟩ := h
  exact ⟨loaded, rfl, hloaded⟩

theorem addStamp (h : w.AgreesBut m w') : w.addStamp.2.AgreesBut m w'.addStamp.2 := by
  obtain ⟨loaded, rfl, hloaded⟩ := h
  exact ⟨loaded, rfl, hloaded⟩

/-- Both worlds get the same namespace, or had it. -/
theorem createNamespace (h : w.AgreesBut m w') (path : String) :
    (w.createNamespace path).2.AgreesBut m (w'.createNamespace path).2 := by
  obtain ⟨loaded, rfl, hloaded⟩ := h
  refine ⟨loaded, by rw [createNamespace_withLoaded], fun n hne ↦ ?_⟩
  rw [isLoaded_createNamespace, isLoaded_createNamespace, hloaded n hne]

/-- Both worlds are changed alike. -/
theorem modify (h : w.AgreesBut m w') (c : Context) (f : Bindings → Bindings) :
    (w.modifyBindings c f).AgreesBut m (w'.modifyBindings c f) := by
  obtain ⟨loaded, rfl, hloaded⟩ := h
  refine ⟨loaded, modify_withLoaded w loaded c f, fun n hne ↦ ?_⟩
  rw [isLoaded, isLoaded, loaded_modify, loaded_modify]
  exact hloaded n hne

/-- Both worlds mark the module; if it is the one that they disagree about, they agree about it now.
-/
theorem mark (h : w.AgreesBut m w') (n : String) :
    (w.markLoaded n).AgreesBut m (w'.markLoaded n) := by
  obtain ⟨loaded, rfl, hloaded⟩ := h
  refine ⟨((w.withLoaded loaded).markLoaded n).loaded, ?_, fun k hne ↦ ?_⟩
  · unfold markLoaded
    split <;> split <;> rfl
  · rw [Bool.eq_iff_iff, isLoaded_markLoaded, isLoaded_markLoaded, hloaded k hne]

end AgreesBut

end World

/-! ### The two runs -/

variable {setting : Setting} {m : String}

/-- No `use` makes a difference between a world in which `m` is loaded and one in which it is not:
none asks for it, or it has no file. -/
def Setting.Indifferent (setting : Setting) (m : String) : Prop :=
  m = Name.moduleOf m → setting.findModule m = .ok none

/-- Both runs are given the same, and only exceeding the depth is excused. -/
def Allowance.sparingDepth (setting : Setting) : Allowance setting setting :=
  { Allowance.same setting with
    excused := fun f ↦ f = .depthExceeded
    steps_eq := Or.inr rfl
    read_error := fun h ↦ Or.inr h }

/-- A run in a world that may disagree about one module. What a failure leaves is not compared. -/
def Simulation.besides (hm : setting.Indifferent m) : Simulation setting setting where
  toDiscipline := .confining setting
  toAllowance := .sparingDepth setting
  related w w' := w.AgreesBut m w' ∧ w.SignalFree
  parted _ _ := True
  world_of_related h := h.2
  path_eq _ h := by
    obtain ⟨⟨loaded, rfl, -⟩, -⟩ := h
    rfl
  registered_eq _ h := by
    obtain ⟨⟨loaded, rfl, -⟩, -⟩ := h
    rw [Option.map_id_fun]
    rfl
  loaded_eq path h := by
    by_cases hpath : Name.moduleOf path = m
    · subst hpath
      exact Or.inr (hm (Name.moduleOf_moduleOf path).symm)
    · obtain ⟨⟨loaded, rfl, hloaded⟩, -⟩ := h
      exact Or.inl (hloaded _ hpath)
  lookup_eq h _ _ := by
    obtain ⟨⟨loaded, rfl, -⟩, -⟩ := h
    rw [World.lookup_withLoaded, Value.translate_id_eq, Option.map_id_fun, id]
  lookup_top_eq h _ := by
    obtain ⟨⟨loaded, rfl, -⟩, -⟩ := h
    rw [World.lookup_withLoaded, Value.translate_id_eq, Option.map_id_fun, id, id]
  binds_eq h _ _ := by
    obtain ⟨⟨loaded, rfl, -⟩, -⟩ := h
    rw [World.bindingsOf_withLoaded]
  findScope_eq h _ _ _ := by
    obtain ⟨⟨loaded, rfl, -⟩, -⟩ := h
    rw [World.findScope_withLoaded]
    exact (congrFun Option.map_id_fun _).symm
  scope_eq h := by
    obtain ⟨⟨loaded, rfl, -⟩, -⟩ := h
    rfl
  related_scope h _ := ⟨h.1.addScope _, World.All.scope h.2⟩
  function_eq h := by
    obtain ⟨⟨loaded, rfl, -⟩, -⟩ := h
    rfl
  related_stamp h := ⟨h.1.addStamp, World.All.stamp h.2⟩
  namespace_eq path h := by
    obtain ⟨⟨loaded, rfl, -⟩, -⟩ := h
    rw [World.createNamespace_withLoaded, id]
  related_namespace path h := ⟨h.1.createNamespace path, World.All.createNamespace h.2 path⟩
  related_insert h _ _ hv _ := by
    rw [Value.translate_id]
    exact ⟨h.1.modify _ _, World.All.insert h.2 hv⟩
  related_replace h _ hv _ := by
    rw [Value.translate_id]
    exact ⟨h.1.modify _ _, World.All.replace h.2 hv⟩
  related_mark h _ := ⟨h.1.mark _, World.All.mark h.2⟩
  parted_rollback _ _ _ _ := trivial

namespace Evaluation

variable {e : Evaluator} {id : NamespaceId}

/-- A module's forms are a sequence whose value nobody takes. -/
theorem runForms_eq (e : Evaluator) (id : NamespaceId) (forms : List Form) :
    runForms e id forms = (sequence e (.top id) .value forms >>= fun _ ↦ pure ()) := by
  induction forms with
  | nil => rfl
  | cons form forms ih =>
    show (discard (e form (.top id) .value) >>= fun _ ↦ runForms e id forms) = _
    rcases forms with - | ⟨next, forms⟩
    · have hdiscard : discard (e form (.top id) .value) =
          (e form (.top id) .value >>= fun _ ↦ pure ()) := rfl
      rw [hdiscard, bind_assoc]
      rfl
    · have hsequence : sequence e (.top id) .value (form :: next :: forms) =
          (discard (e form (.top id) .value) >>= fun _ ↦
            sequence e (.top id) .value (next :: forms)) := rfl
      rw [ih, hsequence, bind_assoc]

/-- The outcome of opening a namespace and that of loading a module, side by side: both succeed, in
worlds that agree but for the module, or both fail in the same way. -/
def EndAlike (m : String) :
    EStateM.Result Failure World Value → EStateM.Result Failure World NamespaceId → Prop
  | .ok _ u, .ok _ u' => u.AgreesBut m u'
  | .error f _, .error f' _ => f' = f
  | _, _ => False

/-- If opening succeeds, so does loading. -/
theorem ok_of_endAlike {opened : EStateM.Result Failure World Value}
    {loaded : EStateM.Result Failure World NamespaceId} (hopened : (answer? opened).isSome = true)
    (h : failure? opened = some .depthExceeded ∨ EndAlike m opened loaded) :
    ∃ v u n u', opened = .ok v u ∧ loaded = .ok n u' ∧ u.AgreesBut m u' := by
  match opened, loaded, h with
  | .ok v u, .ok n u', .inr h => exact ⟨v, u, n, u', rfl, rfl, h⟩
  | .error .., _, _ => cases hopened

/-! ### The check -/

/-- A `namespace` form is checked as its forms are, one level further down. -/
theorem check_namespace (depth : Nat) (m : String) (forms : List Form) :
    Placement.Settles
      (Placement.check depth (.list (.symbol "namespace" :: .symbol m :: forms)))
      (forms.forM (Placement.check depth)) := by
  match depth with
  | 0 => exact Or.inl rfl
  | 1 => exact Or.inl rfl
  | depth + 2 =>
    have hsame : Placement.check (depth + 2)
        (.list (.symbol "namespace" :: .symbol m :: forms)) =
          forms.forM (Placement.checkValue (depth + 1)) := rfl
    rw [hsame]
    exact Placement.Settles.forM (Placement.settles_check _ (Nat.le_succ _)).1 forms

/-! ### The forms -/

variable {w : World} {forms : List Form}

/-- Opening a namespace under an absolute name is creating it and evaluating the forms there. -/
theorem enterNamespace_of_absolute (habsolute : Name.IsAbsolute m) (c : Context) :
    enterNamespace e c (.symbol m :: forms) w =
      sequence e (.top (w.createNamespace m).1) .value forms (w.createNamespace m).2 := by
  have hname : normalize c m w = .ok m w := by
    simp only [normalize, habsolute.normalize]
  show (normalize c m >>= fun path ↦ change (fun w ↦ w.createNamespace path) >>= fun id ↦
    sequence e (.top id) .value forms) w = _
  rw [bind_of_ok hname]
  rfl

/-- **Opening a namespace goes along with a load of its forms** at the same depth, as the load has
one level more to spare for them. -/
theorem agree_loadForms (hm : setting.Indifferent m) (habsolute : Name.IsAbsolute m)
    (hw : w.SignalFree) (depth : Nat) (c : Context) (forms : List Form) :
    failure? (evaluate setting depth (.list (.symbol "namespace" :: .symbol m :: forms)) c .value
        w) = some .depthExceeded ∨
      EndAlike m
        (evaluate setting depth (.list (.symbol "namespace" :: .symbol m :: forms)) c .value w)
        (loadForms (evaluate setting depth) m forms w) := by
  obtain - | depth := depth
  · exact Or.inl rfl
  have hhead : (Form.symbol "namespace").special? = some .enterNamespace := rfl
  have hopened : special setting (evaluate setting depth) .enterNamespace (.symbol m :: forms) c
      .value w =
        sequence (evaluate setting depth) (.top (w.createNamespace m).1) .value forms
          (w.createNamespace m).2 := enterNamespace_of_absolute habsolute c
  have hnested : (Simulation.besides hm).Evaluates (evaluate setting depth)
      (evaluate setting (depth + 1)) :=
    Simulation.evaluates_deeper rfl (fun f ↦ ⟨f.stamp, rfl⟩) depth (Nat.le_succ depth)
  have hrelated : (Simulation.besides hm).related (w.createNamespace m).2
      ((w.createNamespace m).2.markLoaded m) :=
    ⟨World.agreesBut_markLoaded _, World.All.createNamespace hw m⟩
  have hfollows : (Simulation.besides hm).Follows (w.createNamespace m).2
      ((w.createNamespace m).2.markLoaded m)
      (sequence (evaluate setting depth) (.top (w.createNamespace m).1) .value forms)
      (sequence (evaluate setting (depth + 1)) (.top (w.createNamespace m).1) .value forms)
      (Simulation.besides hm).translate ((Simulation.besides hm).result .value) :=
    Simulation.follows_sequence hnested hrelated trivial (fun _ _ ↦ trivial) (fun _ _ ↦ trivial)
      fun _ ↦ rfl
  unfold Simulation.Follows at hfollows
  rw [evaluate_succ, Simulation.step_special hhead, ← evaluate_succ, loadForms_apply, runForms_eq]
  rcases hrun : sequence (evaluate setting depth) (.top (w.createNamespace m).1) .value forms
    (w.createNamespace m).2 with ⟨v, u⟩ | ⟨f, u⟩
  · rw [hrun] at hfollows
    obtain ⟨-, -, hv, u', hload, hagrees, -⟩ := hfollows
    rw [bind_of_ok (hopened.trans hrun), bind_of_ok hload]
    have hvalue : v.isSignal = false := hv
    refine Or.inr ?_
    rw [expectValue, if_neg (by simp [hvalue])]
    exact hagrees
  · rw [hrun] at hfollows
    rw [bind_of_error (hopened.trans hrun)]
    obtain ⟨-, -, -, hexcused | ⟨u', hload, -⟩⟩ := hfollows
    · exact Or.inl (congrArg some hexcused)
    · rw [bind_of_error hload]
      exact Or.inr rfl

end Evaluation

namespace Interpreter

open Evaluation

/-- Sound values are no signals. -/
theorem signalFree_of_reachable {i : Interpreter} {w : World} (h : i.Reachable w) : w.SignalFree :=
  (proper_of_reachable h).mono fun _ hv ↦ hv.isSignal

/-- **Loading a module agrees with opening its namespace.** In every reachable world, for every
absolute name `m` about which no `use` can make a difference and for all forms that a text falls
into: opening the namespace `m` around the forms and loading `m` from the text succeed alike, in
worlds that differ at most in whether `m` is loaded, and fail alike, unless the first exceeds the
depth. -/
theorem load_agrees_with_namespace {i : Interpreter} {w : World} (hw : i.Reachable w)
    {setting : Setting} {m text : String} {forms : List Form} {rest : TokenStream}
    (habsolute : Name.IsAbsolute m) (hm : setting.Indifferent m)
    (hread : (TokenStream.ofText text).readAll = (forms, none, rest)) (id : NamespaceId) :
    failure? (evalForm setting id (.list (.symbol "namespace" :: .symbol m :: forms)) w) =
        some .depthExceeded ∨
      EndAlike m (evalForm setting id (.list (.symbol "namespace" :: .symbol m :: forms)) w)
        (loadText setting m text w) := by
  have hmodule : readModule setting.limits text =
      (forms.forM (Placement.check setting.limits.checkDepth) >>= fun _ ↦ pure forms) := by
    rw [readModule, hread]
  have hload : loadText setting m text =
      (ofExcept (readModule setting.limits text) >>= loadForms (evaluator setting) m) := rfl
  rw [hload, hmodule]
  unfold evalForm
  rcases check_namespace setting.limits.checkDepth m forms with hcut | hsame
  · rw [hcut]
    exact Or.inl rfl
  · rw [hsame]
    rcases Placement.check setting.limits.checkDepth
      (.list (.symbol "namespace" :: .symbol m :: forms)) with f | ⟨⟩
    · exact Or.inr rfl
    · exact agree_loadForms hm habsolute (signalFree_of_reachable hw) _ (.top id) forms

/-- A module that opens a namespace of its own and uses a function from there. -/
theorem load_agrees_with_namespace_inner :
    let i := (create Host.empty none none 0).1
    let w := (create Host.empty none none 0).2
    let setting := i.within ⟨20, 20, 20⟩ Host.empty
    ∃ v u n u',
      evalForm setting i.home
          (.list [.symbol "namespace", .symbol "m",
            .list [.symbol "namespace", .symbol "m.inner",
              .list [.symbol "defn", .symbol "f", .list [.symbol "a"], .symbol "a"]],
            .list [.symbol "use", .symbol "m.inner.f"]]) w = .ok v u ∧
        loadText setting "m" "(namespace m.inner (defn f (a) a)) (use m.inner.f)" w = .ok n u' ∧
        u.AgreesBut "m" u' := by
  intro i w setting
  have hread : (TokenStream.ofText "(namespace m.inner (defn f (a) a)) (use m.inner.f)").readAll =
      ([.list [.symbol "namespace", .symbol "m.inner",
          .list [.symbol "defn", .symbol "f", .list [.symbol "a"], .symbol "a"]],
        .list [.symbol "use", .symbol "m.inner.f"]], none, TokenStream.exhausted) := by
    decide +kernel
  have hw : i.Reachable w := ⟨Host.empty, none, none, 0, rfl, .refl _⟩
  have hfind : setting.findModule "m" = .ok none := by decide +kernel
  have habsolute : Name.IsAbsolute "m" := by decide +kernel
  have hagree := load_agrees_with_namespace hw habsolute (fun _ ↦ hfind) hread i.home
  have hopened : (answer? (evalForm setting i.home
      (.list [.symbol "namespace", .symbol "m",
        .list [.symbol "namespace", .symbol "m.inner",
          .list [.symbol "defn", .symbol "f", .list [.symbol "a"], .symbol "a"]],
        .list [.symbol "use", .symbol "m.inner.f"]]) w)).isSome = true := by
    decide +kernel
  exact ok_of_endAlike hopened hagree

/-- Where no file name can be made for a module, there is no file of it either. A load does not look
for one, and a `use` of what is not there says so; in the opened namespace the same `use` fails
because of the name. -/
theorem load_differs_from_namespace :
    let i := (create Host.empty none none 0).1
    let w := (create Host.empty none none 0).2
    let setting := i.within ⟨20, 20, 20⟩ Host.empty
    Name.IsAbsolute "/" ∧ setting.findModule "/" = .error .moduleUnnamed ∧
      failure? (loadText setting "/" "(use /.a.x)" w) =
        some (.fault (.unknownNamespace "/.a")) ∧
      failure? (evalForm setting i.home
          (.list [.symbol "namespace", .symbol "/", .list [.symbol "use", .symbol "/.a.x"]]) w) =
        some .moduleUnnamed := by
  decide +kernel

end Interpreter

end DottedLisp
