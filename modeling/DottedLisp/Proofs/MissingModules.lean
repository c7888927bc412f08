import DottedLisp.Proofs.Session
import DottedLisp.Proofs.UsedNames

/-!
# Missing modules

A `use` form whose namespace is not registered looks for a file of the module first, and only then
for the namespace. On the way the target is made absolute, cut at its last dot, and its first
segment turned into a file name, which is looked for under one root after the other. Each of these
can go wrong in its own way; the module says which failure comes out when there is no file.

It is the fault of the namespace, with **two exceptions**. A first segment made of slashes, or of
nothing, has no file name (`Path.ofModule?_eq_none_iff`), and the search fails before anything is
looked up. And the host may refuse to look, which ends the search under the first root where it does
so (`Host.locate?_eq_error_iff`). The world is the same as before in every case.

Main statement: `Interpreter.use_of_missing`; the exceptions are met in
`Interpreter.use_of_missing_beside` and `Interpreter.use_of_unnamed`.
-/

namespace DottedLisp

/-! ### Files of modules -/

namespace Path

/-- The parts of a text without dots: nothing is left of it only if it is **made of slashes**. -/
theorem parts_ofText_eq_nil_iff {name : String} (hdot : '.' ∉ name.toList) :
    (ofText name).parts = [] ↔ ∀ c ∈ name.toList, c = '/' := by
  have hproper : ∀ field ∈ Text.fields '/' name.toList, isProper field = false ↔ field = [] := by
    intro field hfield
    have hne : field ≠ ['.'] := by
      rintro rfl
      exact hdot (Text.mem_of_mem_fields hfield (List.mem_singleton_self '.'))
    simp [isProper, hne]
  rw [ofText, List.map_eq_nil_iff, List.filter_eq_nil_iff, ← Text.fields_eq_nil_iff]
  refine forall_congr' fun field ↦ forall_congr' fun hfield ↦ ?_
  rw [Bool.not_eq_true, hproper field hfield]

/-- **A file name can be made** for every first segment that is more than slashes. -/
theorem ofModule?_eq_none_iff {name suffix : String} (hdot : '.' ∉ name.toList)
    (hsuffix : isSuffix suffix = true) :
    ofModule? name suffix = none ↔ ∀ c ∈ name.toList, c = '/' := by
  -- A name without dots is one segment, so its parts are those of the file.
  have hparts : (here.join (ofText name)).parts = (ofText name).parts := by
    rw [join]
    split <;> rfl
  rw [← parts_ofText_eq_nil_iff hdot, ofModule?, Text.fields_of_not_mem hdot]
  simp only [List.map_cons, List.map_nil, List.foldl_cons, List.foldl_nil, String.ofList_toList,
    withSuffix?, hparts, hsuffix, if_true]
  rcases hlast : (ofText name).parts.getLast? with - | last
  · simpa using hlast
  · have hne : (ofText name).parts ≠ [] := by
      intro hnil
      rw [hnil] at hlast
      cases hlast
    simp [hne]

end Path

/-- The first segment of a path ends before the first dot. -/
theorem Name.not_mem_moduleOf (path : String) : '.' ∉ (moduleOf path).toList := by
  rw [moduleOf, String.toList_ofList]
  intro hmem
  simpa using List.mem_takeWhile_imp hmem

namespace Host

variable {h : Host} {roots : Option (List Path)} {name : String} {file candidate root first : Path}
  {paths : List Path} {error : HostError}

/-! ### Searching under roots -/

/-- A search **reaches** a root: under those before it there is nothing. -/
def Reaches (h : Host) (file : Path) (paths : List Path) (root : Path) : Prop :=
  ∃ before after, paths = before ++ root :: after ∧
    ∀ other ∈ before, h.look (other.join file) = .nothing

/-- Without roots none is reached. -/
theorem not_reaches_nil : ¬ h.Reaches file [] root := by
  rintro ⟨before, after, hpaths, -⟩
  exact List.append_ne_nil_of_right_ne_nil before (List.cons_ne_nil root after) hpaths.symm

/-- The first root is reached at once, the others past it. -/
theorem reaches_cons : h.Reaches file (first :: paths) root ↔
    root = first ∨ h.look (first.join file) = .nothing ∧ h.Reaches file paths root := by
  constructor
  · rintro ⟨before, after, hpaths, hbefore⟩
    cases before with
    | nil => exact Or.inl (List.cons.inj hpaths).1.symm
    | cons other before =>
      obtain ⟨rfl, rfl⟩ := List.cons.inj hpaths
      exact Or.inr ⟨hbefore first List.mem_cons_self, before, after, rfl,
        fun other hother ↦ hbefore other (List.mem_cons_of_mem first hother)⟩
  · rintro (rfl | ⟨hfirst, before, after, rfl, hbefore⟩)
    · exact ⟨[], paths, rfl, by simp⟩
    · refine ⟨first :: before, after, rfl, fun other hother ↦ ?_⟩
      rcases List.mem_cons.1 hother with rfl | hother
      · exact hfirst
      · exact hbefore other hother

/-- A search ends **without a file** if there is nothing under any root. -/
theorem locate?_eq_none_iff : h.locate? file paths = .ok none ↔
    ∀ root ∈ paths, h.look (root.join file) = .nothing := by
  induction paths with
  | nil => simp [locate?]
  | cons root paths ih =>
    rw [locate?, List.forall_mem_cons, ← ih]
    rcases h.look (root.join file) with text | error | - | error <;> simp

/-- A search **finds** the first file that it reaches. -/
theorem locate?_eq_some_iff : h.locate? file paths = .ok (some candidate) ↔
    ∃ root, h.Reaches file paths root ∧ candidate = root.join file ∧
      (h.look candidate).isFile = true := by
  induction paths with
  | nil => simp [locate?, not_reaches_nil]
  | cons first paths ih =>
    have hcases : (∃ root, h.Reaches file (first :: paths) root ∧ candidate = root.join file ∧
          (h.look candidate).isFile = true) ↔
        (candidate = first.join file ∧ (h.look (first.join file)).isFile = true) ∨
          h.look (first.join file) = .nothing ∧ h.locate? file paths = .ok (some candidate) := by
      simp only [reaches_cons, or_and_right, exists_or, exists_eq_left, ih, and_assoc,
        exists_and_left]
      exact or_congr_left (and_congr_right fun heq ↦ by rw [heq])
    rw [hcases, locate?]
    rcases h.look (first.join file) with text | error | - | error <;> simp [Look.isFile, eq_comm]

/-- A search **fails** where it reaches a root that the host refuses to look under. -/
theorem locate?_eq_error_iff : h.locate? file paths = .error error ↔
    ∃ root, h.Reaches file paths root ∧ h.look (root.join file) = .refused error := by
  induction paths with
  | nil => simp [locate?, not_reaches_nil]
  | cons first paths ih =>
    simp only [reaches_cons, or_and_right, exists_or, exists_eq_left, and_assoc, exists_and_left,
      ← ih]
    rw [locate?]
    rcases h.look (first.join file) with text | error | - | error <;> simp

/-- There is a **file of the module** under one of the roots. -/
def HoldsModule (h : Host) (roots : Option (List Path)) (name : String) : Prop :=
  ∃ file root, Path.ofModule? name h.suffix = some file ∧ root ∈ roots.getD h.roots ∧
    (h.look (root.join file)).isFile = true

/-- The search for the module reaches a root under which the host **refuses to look**. -/
def RefusesModule (h : Host) (roots : Option (List Path)) (name : String) (error : HostError) :
    Prop :=
  ∃ file root, Path.ofModule? name h.suffix = some file ∧
    h.Reaches file (roots.getD h.roots) root ∧ h.look (root.join file) = .refused error

section OneRoot

variable (hname : Path.ofModule? name h.suffix = some file) (hroots : roots.getD h.roots = [root])
include hname hroots

/-- Under one root a module is held if there is its file. -/
theorem holdsModule_iff : h.HoldsModule roots name ↔ (h.look (root.join file)).isFile = true := by
  simp [HoldsModule, hname, hroots]

/-- Under one root a module is refused if its file is. -/
theorem refusesModule_iff :
    h.RefusesModule roots name error ↔ h.look (root.join file) = .refused error := by
  simp [RefusesModule, hname, hroots, reaches_cons, not_reaches_nil]

end OneRoot

/-- A module that has a file name is searched for under the roots. -/
theorem resolve_eq (hname : Path.ofModule? name h.suffix = some file) :
    h.resolve roots name = (h.locate? file (roots.getD h.roots)).mapError .host := by
  rw [resolve, hname]

/-- For a module without a file name there is no search. -/
theorem resolve_of_unnamed (hname : Path.ofModule? name h.suffix = none) :
    h.resolve roots name = .error .moduleUnnamed := by
  rw [resolve, hname]

theorem moduleText_of_unnamed (hname : Path.ofModule? name h.suffix = none) :
    h.moduleText roots name = .error .moduleUnnamed := by
  rw [moduleText, resolve_of_unnamed hname]

/-- The refusal of a look is what the search for the text ends in. -/
theorem moduleText_of_refused (hrefused : h.RefusesModule roots name error) :
    h.moduleText roots name = .error (.host error) := by
  obtain ⟨file, root, hname, hreaches, hlook⟩ := hrefused
  rw [moduleText, resolve_eq hname, locate?_eq_error_iff.2 ⟨root, hreaches, hlook⟩]
  rfl

/-- Where there is no file and no look is refused, the search ends without a text. -/
theorem moduleText_of_not_holds (hname : Path.ofModule? name h.suffix ≠ none)
    (hfile : ¬ h.HoldsModule roots name) (hlook : ∀ error, ¬ h.RefusesModule roots name error) :
    h.moduleText roots name = .ok none := by
  obtain ⟨file, hfound⟩ := Option.ne_none_iff_exists'.1 hname
  rcases hlocate : h.locate? file (roots.getD h.roots) with error | - | candidate
  · obtain ⟨root, hroot⟩ := locate?_eq_error_iff.1 hlocate
    exact absurd ⟨file, root, hfound, hroot⟩ (hlook error)
  · rw [moduleText, resolve_eq hfound, hlocate]
    rfl
  · obtain ⟨root, ⟨before, after, hroots, -⟩, rfl, hholds⟩ := locate?_eq_some_iff.1 hlocate
    exact absurd ⟨file, root, hfound, by simp [hroots], hholds⟩ hfile

end Host

/-! ### Using what is not there -/

namespace Evaluation

variable {setting : Setting} {w : World} {id : NamespaceId}
  {target full path identifier : String} {alias? : Option String} {position : Position}

/-- There is nothing to bind from a namespace that is not registered. -/
theorem bindFrom_of_unregistered (hregistered : w.isRegistered path = false) (name : String) :
    bindFrom id path identifier name w = .error (.fault (.unknownNamespace path)) w := by
  have hspace : getNamespace path w = .error (.fault (.unknownNamespace path)) w := by
    rw [getNamespace, Option.not_isSome_iff_eq_none.1 (ne_true_of_eq_false hregistered)]
  rw [bindFrom]
  exact bind_of_error hspace

section Missing

variable
  (hname : Name.normalize target (Name.moduleOf (w.namespaceAt id).path)
    (w.namespaceAt id).path = .ok full)
  (hsplit : Name.split? full = some (path, identifier))
  (hregistered : w.isRegistered path = false)
include hname hsplit hregistered

/-- Where loading changes nothing, `use` ends in the fault of the namespace. -/
theorem evaluate_use_of_ok (depth : Nat)
    (hload : loadNeeded setting (evaluate setting depth) (Name.moduleOf path) w = .ok () w) :
    evaluate setting (depth + 1) (.use target alias?) (.top id) position w =
      .error (.fault (.unknownNamespace path)) w := by
  rw [evaluate_use]
  refine bind_of_error ?_
  rw [useAs_of_unregistered hname hsplit hregistered, bind_of_ok hload,
    bindFrom_of_unregistered hregistered]

/-- Where loading fails, `use` fails with it. -/
theorem evaluate_use_of_error (depth : Nat) {f : Failure}
    (hload : loadNeeded setting (evaluate setting depth) (Name.moduleOf path) w = .error f w) :
    evaluate setting (depth + 1) (.use target alias?) (.top id) position w = .error f w := by
  rw [evaluate_use]
  refine bind_of_error ?_
  rw [useAs_of_unregistered hname hsplit hregistered, bind_of_error hload]

end Missing

end Evaluation

namespace Interpreter

open Evaluation

variable {i : Interpreter} {limits : Limits} {host : Host} {w : World} {id : NamespaceId}
  {target full path identifier : String} {alias? : Option String} {position : Position}

/-- Modules are found by their texts on the host, under the roots of the interpreter. -/
theorem findModule_within (i : Interpreter) (limits : Limits) (host : Host) (name : String) :
    (i.within limits host).findModule name = host.moduleText i.roots name := rfl

/-- **Using what is not there.** Let the target of a `use` form be absolute and cut, its path not
registered and no root hold a file of its first segment. The form changes nothing, and it ends

* in the fault of the namespace, if the first segment counts as loaded, or if it is more than
  slashes and the host looks under every root;
* in the want of a file name, if the first segment is empty or made of slashes and not loaded;
* in the error of the host, if the segment is not loaded and the search for it reaches a root that
  the host refuses to look under. -/
theorem use_of_missing (depth : Nat) (hsuffix : host.suffix = ".nsl")
    (hname : Name.normalize target (Name.moduleOf (w.namespaceAt id).path)
      (w.namespaceAt id).path = .ok full)
    (hsplit : Name.split? full = some (path, identifier))
    (hregistered : w.isRegistered path = false)
    (hfile : ¬ host.HoldsModule i.roots (Name.moduleOf path)) :
    (w.isLoaded (Name.moduleOf path) = true ∨
        (∃ c ∈ (Name.moduleOf path).toList, c ≠ '/') ∧
          (∀ error, ¬ host.RefusesModule i.roots (Name.moduleOf path) error) →
      ∃ fault,
        evaluate (i.within limits host) (depth + 1) (.use target alias?) (.top id) position w =
          .error (.fault fault) w ∧
        fault.code = "NAMESPACE_NOT_FOUND" ∧ fault.data = [("namePath", .text path)]) ∧
    (w.isLoaded (Name.moduleOf path) = false → (∀ c ∈ (Name.moduleOf path).toList, c = '/') →
      evaluate (i.within limits host) (depth + 1) (.use target alias?) (.top id) position w =
        .error .moduleUnnamed w) ∧
    (w.isLoaded (Name.moduleOf path) = false →
      ∀ error, host.RefusesModule i.roots (Name.moduleOf path) error →
        evaluate (i.within limits host) (depth + 1) (.use target alias?) (.top id) position w =
          .error (.host error) w) := by
  have hnamed : Path.ofModule? (Name.moduleOf path) host.suffix = none ↔
      ∀ c ∈ (Name.moduleOf path).toList, c = '/' :=
    Path.ofModule?_eq_none_iff (Name.not_mem_moduleOf path) (by rw [hsuffix]; decide)
  -- Where the search fails, loading fails with it, and so does the form.
  have hfails : ∀ f, w.isLoaded (Name.moduleOf path) = false →
      (i.within limits host).findModule (Name.moduleOf path) = .error f →
      evaluate (i.within limits host) (depth + 1) (.use target alias?) (.top id) position w =
        .error f w := by
    intro f hloaded hfind
    refine evaluate_use_of_error hname hsplit hregistered depth ?_
    rw [loadNeeded_of_not_loaded hloaded, loadFile?_of_error hfind]
    rfl
  refine ⟨fun hcase ↦ ⟨.unknownNamespace path, ?_, rfl, rfl⟩, fun hloaded hslashes ↦ ?_,
    fun hloaded error hrefused ↦ ?_⟩
  · refine evaluate_use_of_ok hname hsplit hregistered depth ?_
    rcases hcase with hloaded | ⟨⟨c, hmem, hc⟩, hlook⟩
    · exact loadNeeded_of_loaded hloaded
    · have hne : Path.ofModule? (Name.moduleOf path) host.suffix ≠ none :=
        fun hnone ↦ hc (hnamed.1 hnone c hmem)
      refine loadNeeded_of_none ?_
      rw [findModule_within, Host.moduleText_of_not_holds hne hfile hlook]
  · refine hfails _ hloaded ?_
    rw [findModule_within, Host.moduleText_of_unnamed (hnamed.2 hslashes)]
  · refine hfails _ hloaded ?_
    rw [findModule_within, Host.moduleText_of_refused hrefused]

/-- A fresh interpreter beside a file of another module: the first segment is a path with a slash,
and the identifier is used under another name. One more file, whatever it is, must not be looked
up. -/
theorem use_of_missing_beside :
    let host : Host :=
      { Host.empty.write ["a", "c.nsl"] "(const x 1)" with
        elsewhere := fun p ↦
          if p = ⟨.here, ["d.nsl"]⟩ then .refused (.system 13) else .nothing }
    let i := (create host none none 0).1
    let w := (create host none none 0).2
    (∃ fault,
      evaluate (i.within .standard host) 1 (.use "a/b.c.x" (some "y")) (.top i.home) .value w =
        .error (.fault fault) w ∧
      fault.code = "NAMESPACE_NOT_FOUND" ∧ fault.data = [("namePath", .text "a/b.c")]) ∧
    ¬ host.HoldsModule none "d" ∧
    evaluate (i.within .standard host) 1 (.use "d.x" none) (.top i.home) .value w =
      .error (.host (.system 13)) w := by
  intro host i w
  have hroots : (none : Option (List Path)).getD host.roots = [.here] := by decide +kernel
  have hfile : Path.ofModule? "a/b" host.suffix = some ⟨.here, ["a", "b.nsl"]⟩ := by
    decide +kernel
  have hnothing : host.look (Path.here.join ⟨.here, ["a", "b.nsl"]⟩) = .nothing := by
    decide +kernel
  have hfile' : Path.ofModule? "d" host.suffix = some ⟨.here, ["d.nsl"]⟩ := by decide +kernel
  have hrefused : host.look (Path.here.join ⟨.here, ["d.nsl"]⟩) = .refused (.system 13) := by
    decide +kernel
  have hfree : ¬ host.HoldsModule none "a/b" := by
    rw [Host.holdsModule_iff hfile hroots, hnothing]
    decide
  have hfree' : ¬ host.HoldsModule none "d" := by
    rw [Host.holdsModule_iff hfile' hroots, hrefused]
    decide
  have hlooks : ∀ error, ¬ host.RefusesModule none "a/b" error := by
    intro error
    rw [Host.refusesModule_iff hfile hroots, hnothing]
    rintro ⟨⟩
  have hsplit : Name.split? "a/b.c.x" = some ("a/b.c", "x") := by decide
  have hsplit' : Name.split? "d.x" = some ("d", "x") := by decide
  refine ⟨?_, hfree', ?_⟩
  · exact (use_of_missing 0 (by decide +kernel) (by decide +kernel) hsplit (by decide +kernel)
      hfree).1 (Or.inr ⟨⟨'a', by decide, by decide⟩, hlooks⟩)
  · exact (use_of_missing 0 (by decide +kernel) (by decide +kernel) hsplit' (by decide +kernel)
      hfree').2.2 (by decide +kernel) _ ((Host.refusesModule_iff hfile' hroots).2 hrefused)

/-- Where the first segment is empty there is no file of the module, for want of a name; but it is
the search for it that fails, and not the look-up. -/
theorem use_of_unnamed :
    let i := (create Host.empty none none 0).1
    let w := (create Host.empty none none 0).2
    Host.empty.suffix = ".nsl" ∧ Name.normalize ".a.x" "user" "user" = .ok ".a.x" ∧
      Name.split? ".a.x" = some (".a", "x") ∧ w.isRegistered ".a" = false ∧
      ¬ Host.empty.HoldsModule i.roots (Name.moduleOf ".a") ∧
      failure? (evaluate (i.within ⟨20, 20, 20⟩ Host.empty) 20 (.use ".a.x" none) (.top i.home)
        .value w) = some .moduleUnnamed := by
  intro i w
  refine ⟨by decide +kernel, by decide +kernel, by decide +kernel, by decide +kernel, ?_,
    by decide +kernel⟩
  rintro ⟨file, -, hname, -⟩
  have hnone : Path.ofModule? (Name.moduleOf ".a") Host.empty.suffix = none := by decide +kernel
  rw [hnone] at hname
  cases hname

end Interpreter

end DottedLisp
