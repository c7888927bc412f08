import DottedLisp.Proofs.MissingModules

/-!
# Files of modules

A module name becomes a file name: its segments are directories, the last one the file, and a suffix
is put behind it. Names are cut at **every** dot, so no segment holds one, and no part of the file
name is a dot or two dots. What a segment may hold is slashes. Inside it they make more parts of one
segment, or none where nothing stands between them; only a segment that begins with a slash starts
anew, away from the root.

So a file is always looked for **below** its root, by the text of the path and by where the host
walks along it (`Path.isStep_of_ofModule?`, `Host.exists_walk_append_steps`). Where no segment is
empty or holds a slash the file name tells the name of the module (`Path.eq_of_ofModule?_eq`), and
two modules never share a file.

Which file is found is for the host to say: the first one that the search reaches, and it may be
refused a look before that (`Host.resolve_eq_some_iff`, `Host.resolve_eq_error_iff`).

Main statement: `Host.module_files`.
-/

namespace DottedLisp

namespace Name

/-- A name for which there can be a file below a root: **some** segment is not empty, and none
begins with a slash. -/
structure NamesFile (name : String) : Prop where
  /-- There is something to name the file after. -/
  exists_ne_empty : ∃ segment ∈ segments name, segment ≠ ""
  /-- No segment starts anew. -/
  head_ne_slash : ∀ segment ∈ segments name, segment.toList.head? ≠ some '/'

/-- A name with segments that are parts of a path each: none is empty, none holds a slash. -/
def NamesParts (name : String) : Prop :=
  ∀ segment ∈ segments name, segment ≠ "" ∧ '/' ∉ segment.toList

/-- There is always a first segment, so a name without empty segments has one that is not empty. -/
theorem NamesParts.namesFile {name : String} (h : NamesParts name) : NamesFile name where
  exists_ne_empty := by
    obtain ⟨segment, hsegment⟩ := List.exists_mem_of_ne_nil _ (segments_spec name).1
    exact ⟨segment, hsegment, (h segment hsegment).1⟩
  head_ne_slash segment hsegment hhead := (h segment hsegment).2 (List.mem_of_mem_head? hhead)

/-- The segments tell the name. -/
theorem eq_of_segments_eq {m n : String} (h : segments m = segments n) : m = n := by
  rw [← (segments_spec m).2.1, h, (segments_spec n).2.1]

end Name

namespace Path

/-! ### Parts -/

/-- A part that goes **one step down**: it is not empty, it is neither a dot nor two dots, and it
holds no slash. -/
structure IsStep (part : String) : Prop where
  /-- It names something. -/
  ne_empty : part ≠ ""
  /-- It does not stay. -/
  ne_dot : part ≠ "."
  /-- It does not go up. -/
  ne_dots : part ≠ ".."
  /-- It is one part. -/
  no_slash : '/' ∉ part.toList

/-- A path that leads from another one down, by at least one step. -/
def IsBelow (p root : Path) : Prop :=
  p.anchor = root.anchor ∧
    ∃ steps, steps ≠ [] ∧ p.parts = root.parts ++ steps ∧ ∀ part ∈ steps, IsStep part

/-- A part that a segment makes: it is not empty and holds neither dots nor slashes. -/
structure IsBare (part : String) : Prop where
  /-- It names something. -/
  ne_empty : part ≠ ""
  /-- It has no suffix. -/
  no_dot : '.' ∉ part.toList
  /-- It is one part. -/
  no_slash : '/' ∉ part.toList

variable {part suffix name : String} {p q root : Path}

/-- What begins with a character other than a dot is neither a dot nor two dots. -/
theorem IsBare.append (h : IsBare part) (hsuffix : '/' ∉ suffix.toList) :
    IsStep (part ++ suffix) := by
  obtain ⟨first, rest, hpart⟩ : ∃ first rest, part.toList = first :: rest :=
    List.exists_cons_of_ne_nil fun hnil ↦ h.ne_empty (String.toList_eq_nil_iff.1 hnil)
  have hfirst : first ≠ '.' := by
    rintro rfl
    exact h.no_dot (hpart ▸ List.mem_cons_self)
  have hne : ∀ other : String, other.toList.head? ≠ some first → part ++ suffix ≠ other := by
    rintro _ hother rfl
    exact hother (by rw [String.toList_append, hpart, List.cons_append, List.head?_cons])
  refine ⟨hne "" (by simp), hne "." (by simpa using hfirst.symm),
    hne ".." (by simpa using hfirst.symm), ?_⟩
  rw [String.toList_append, List.mem_append, not_or]
  exact ⟨h.no_slash, hsuffix⟩

/-- The directories of a module are steps down. -/
theorem IsBare.isStep (h : IsBare part) : IsStep part := by
  have hstep : IsStep (part ++ "") := h.append (by simp)
  rwa [String.append_empty] at hstep

/-! ### From names to paths -/

/-- Only a slash in front leads away from the current directory. -/
theorem anchorOf_eq_here {cs : List Char} (h : cs.head? ≠ some '/') : anchorOf cs = .here := by
  unfold anchorOf
  split
  · exact absurd rfl h
  · exact absurd rfl h
  · exact absurd rfl h
  · rfl

theorem join_of_here (h : q.anchor = .here) : p.join q = ⟨p.anchor, p.parts ++ q.parts⟩ :=
  if_pos h

/-- Going on along paths that do not start anew puts their parts one behind the other. -/
theorem foldl_join {paths : List Path} (h : ∀ q ∈ paths, q.anchor = .here) (p : Path) :
    paths.foldl join p = ⟨p.anchor, p.parts ++ paths.flatMap parts⟩ := by
  induction paths generalizing p with
  | nil => simp
  | cons q paths ih =>
    rw [List.foldl_cons, join_of_here (h q List.mem_cons_self),
      ih fun r hr ↦ h r (List.mem_cons_of_mem q hr), List.flatMap_cons, List.append_assoc]

/-- The parts that the segments of a name make. -/
def moduleParts (name : String) : List String :=
  (Name.segments name).flatMap fun segment ↦ (ofText segment).parts

/-- **Segments hold no dots, and parts no slashes**; what is left of a segment is neither empty nor
a dot. -/
theorem isBare_of_mem_moduleParts (h : part ∈ moduleParts name) : IsBare part := by
  obtain ⟨segment, hsegment, hpart⟩ := List.mem_flatMap.1 h
  obtain ⟨field, hfield, rfl⟩ := List.mem_map.1 hpart
  obtain ⟨hfield, hproper⟩ := List.mem_filter.1 hfield
  rw [isProper, Bool.and_eq_true, decide_eq_true_iff] at hproper
  refine ⟨fun hempty ↦ hproper.1 (String.ofList_eq_empty_iff.1 hempty), ?_, ?_⟩
  · rw [String.toList_ofList]
    exact fun hdot ↦ (Name.segments_spec name).2.2 segment hsegment
      (Text.mem_of_mem_fields hfield hdot)
  · rw [String.toList_ofList]
    exact Text.not_mem_of_mem_fields hfield

/-- A segment that is not empty and begins with no slash makes a part. -/
theorem moduleParts_ne_nil (h : Name.NamesFile name) : moduleParts name ≠ [] := by
  obtain ⟨segment, hsegment, hne⟩ := h.exists_ne_empty
  intro hnil
  -- A segment that makes no part is made of slashes alone, so it begins with one.
  have hparts : (ofText segment).parts = [] := List.flatMap_eq_nil_iff.1 hnil segment hsegment
  have hslashes :=
    (parts_ofText_eq_nil_iff ((Name.segments_spec name).2.2 segment hsegment)).1 hparts
  obtain ⟨first, rest, hfirst⟩ : ∃ first rest, segment.toList = first :: rest :=
    List.exists_cons_of_ne_nil fun hnil ↦ hne (String.toList_eq_nil_iff.1 hnil)
  refine h.head_ne_slash segment hsegment ?_
  rw [hfirst, List.head?_cons, hslashes first (hfirst ▸ List.mem_cons_self)]

/-- The file of a module, where no segment starts anew. -/
theorem ofModule?_eq (h : ∀ segment ∈ Name.segments name, segment.toList.head? ≠ some '/')
    (suffix : String) :
    ofModule? name suffix = (⟨.here, moduleParts name⟩ : Path).withSuffix? suffix := by
  have hsegments : ((Text.fields '.' name.toList).map fun segment ↦
      ofText (String.ofList segment)) = (Name.segments name).map ofText := by
    rw [Name.segments, List.map_map]
    rfl
  have hanchors : ∀ q ∈ (Name.segments name).map ofText, q.anchor = .here := by
    intro q hq
    obtain ⟨segment, hsegment, rfl⟩ := List.mem_map.1 hq
    exact anchorOf_eq_here (h segment hsegment)
  show (((Text.fields '.' name.toList).map fun segment ↦ ofText (String.ofList segment)).foldl join
    here).withSuffix? suffix = _
  rw [hsegments, foldl_join hanchors, List.flatMap_map]
  rfl

/-- The suffix goes behind the last part. -/
theorem withSuffix?_concat (hsuffix : isSuffix suffix = true) (anchor : Anchor)
    (parts : List String) (last : String) :
    (⟨anchor, parts ++ [last]⟩ : Path).withSuffix? suffix =
      some ⟨anchor, parts ++ [last ++ suffix]⟩ := by
  simp [withSuffix?, hsuffix]

/-- **Every name of a file has one**, the parts of its segments with the suffix behind the last. -/
theorem exists_ofModule? (h : Name.NamesFile name) (hsuffix : isSuffix suffix = true) :
    ∃ parts last, moduleParts name = parts ++ [last] ∧
      ofModule? name suffix = some ⟨.here, parts ++ [last ++ suffix]⟩ := by
  obtain ⟨parts, last, hparts⟩ := List.eq_nil_or_concat' (moduleParts name) |>.resolve_left
    (moduleParts_ne_nil h)
  refine ⟨parts, last, hparts, ?_⟩
  rw [ofModule?_eq h.head_ne_slash, hparts, withSuffix?_concat hsuffix]

/-- A suffix is part of a name. -/
theorem no_slash_of_isSuffix (h : isSuffix suffix = true) : '/' ∉ suffix.toList := by
  rw [isSuffix, Bool.and_eq_true, Bool.not_eq_true'] at h
  intro hmem
  rw [List.contains_iff_mem.2 hmem] at h
  cases h.2

/-- The file of a module is made of steps down. -/
theorem isStep_of_ofModule? (h : Name.NamesFile name) (hsuffix : isSuffix suffix = true) :
    ∃ steps, steps ≠ [] ∧ ofModule? name suffix = some ⟨.here, steps⟩ ∧
      ∀ part ∈ steps, IsStep part := by
  obtain ⟨parts, last, hparts, hfile⟩ := exists_ofModule? h hsuffix
  have hbare : ∀ part ∈ parts ++ [last], IsBare part :=
    fun part hpart ↦ isBare_of_mem_moduleParts (hparts ▸ hpart)
  refine ⟨_, List.concat_ne_nil _ _, hfile, fun part hpart ↦ ?_⟩
  rcases List.mem_append.1 hpart with hinit | hlast
  · exact (hbare part (List.mem_append_left _ hinit)).isStep
  · rw [List.mem_singleton.1 hlast]
    exact (hbare last (List.mem_append_right _ (List.mem_singleton_self last))).append
      (no_slash_of_isSuffix hsuffix)

/-! ### From paths to names -/

/-- A segment without slashes is one part. -/
theorem parts_ofText_of_bare (h : IsBare part) : (ofText part).parts = [part] := by
  have hproper : isProper part.toList = true := by
    rw [isProper, Bool.and_eq_true, decide_eq_true_iff, decide_eq_true_iff]
    refine ⟨fun hnil ↦ h.ne_empty (String.toList_eq_nil_iff.1 hnil), fun hdot ↦ h.no_dot ?_⟩
    rw [hdot]
    exact List.mem_singleton_self '.'
  simp [ofText, Text.fields_of_not_mem h.no_slash, hproper]

/-- Where every segment is a part, the parts are the segments. -/
theorem moduleParts_of_namesParts (h : Name.NamesParts name) :
    moduleParts name = Name.segments name := by
  have hparts : ∀ segment ∈ Name.segments name, (ofText segment).parts = [segment] := by
    intro segment hsegment
    obtain ⟨hne, hslash⟩ := h segment hsegment
    exact parts_ofText_of_bare ⟨hne, (Name.segments_spec name).2.2 segment hsegment, hslash⟩
  rw [moduleParts, List.flatMap_congr hparts, List.flatMap_singleton']

/-- A part without dots and slashes is a name of one segment. -/
theorem segments_of_bare (h : IsBare part) : Name.segments part = [part] := by
  rw [Name.segments, Text.fields_of_not_mem h.no_dot, List.map_singleton, String.ofList_toList]

/-- Its segment is a part. -/
theorem IsBare.namesParts (h : IsBare part) : Name.NamesParts part := by
  intro segment hsegment
  rw [segments_of_bare h, List.mem_singleton] at hsegment
  rw [hsegment]
  exact ⟨h.ne_empty, h.no_slash⟩

/-- A name of one segment names its file itself. -/
theorem ofModule?_of_bare (h : IsBare part) (hsuffix : isSuffix suffix = true) :
    ofModule? part suffix = some ⟨.here, [part ++ suffix]⟩ := by
  rw [ofModule?_eq h.namesParts.namesFile.head_ne_slash, moduleParts_of_namesParts h.namesParts,
    segments_of_bare h]
  exact withSuffix?_concat hsuffix .here [] part

/-- **The file tells the module.** -/
theorem eq_of_ofModule?_eq {m n : String} (hm : Name.NamesParts m) (hn : Name.NamesParts n)
    (hsuffix : isSuffix suffix = true) (h : ofModule? m suffix = ofModule? n suffix) : m = n := by
  obtain ⟨parts, last, hparts, hfile⟩ := exists_ofModule? hm.namesFile hsuffix
  obtain ⟨parts', last', hparts', hfile'⟩ := exists_ofModule? hn.namesFile hsuffix
  rw [hfile, hfile'] at h
  have hsteps : parts ++ [last ++ suffix] = parts' ++ [last' ++ suffix] :=
    congrArg Path.parts (Option.some.inj h)
  obtain ⟨rfl, hlast⟩ := List.append_inj' hsteps rfl
  -- The suffix is put behind the last part, whatever that is, so it can be taken off again.
  have hlasts : last = last' := by
    have hlists := congrArg String.toList (List.cons.inj hlast).1
    rw [String.toList_append, String.toList_append] at hlists
    exact String.toList_inj.1 (List.append_cancel_right hlists)
  apply Name.eq_of_segments_eq
  rw [← moduleParts_of_namesParts hm, ← moduleParts_of_namesParts hn, hparts, hparts', hlasts]

end Path

namespace Host

variable {h : Host} {roots : Option (List Path)}

/-! ### Walking -/

/-- Whoever walks along a path in two stretches walks along the first, and on from there. By
induction on the first stretch. -/
theorem exists_walk_append {origin parts steps place : List String}
    (hplace : h.walk origin (parts ++ steps) = .ok (some place)) :
    ∃ middle, h.walk origin parts = .ok (some middle) ∧ h.walk middle steps = .ok (some place) := by
  induction parts generalizing origin with
  | nil => exact ⟨origin, rfl, hplace⟩
  | cons part parts ih =>
    rw [List.cons_append, walk] at hplace
    rw [walk]
    -- Of the five branches two go on, down or up; the others do not end in a place.
    split_ifs at hplace ⊢ with hdirectory hlength hdown hinner
    · cases hplace
    · exact ih hplace
    · cases hplace
    · exact ih hplace

/-- Steps down lead to where they say. -/
theorem walk_steps {origin steps place : List String} (hsteps : ∀ part ∈ steps, Path.IsStep part)
    (hplace : h.walk origin steps = .ok (some place)) : place = origin ++ steps := by
  induction steps generalizing origin with
  | nil =>
    cases hplace
    rw [List.append_nil]
  | cons part steps ih =>
    -- Two dots are the only part that the host goes up for.
    have hpart : part ≠ ".." := (hsteps part List.mem_cons_self).ne_dots
    rw [walk, if_pos hpart] at hplace
    split at hplace
    · cases hplace
    · split at hplace
      · cases hplace
      · rw [ih (fun next hnext ↦ hsteps next (List.mem_cons_of_mem part hnext)) hplace,
          List.append_assoc, List.singleton_append]

/-- **Whoever walks below a root passes it**, and gets to a place inside it. -/
theorem exists_walk_append_steps {start parts steps place : List String}
    (hsteps : ∀ part ∈ steps, Path.IsStep part)
    (hplace : h.walk start (parts ++ steps) = .ok (some place)) :
    ∃ origin, h.walk start parts = .ok (some origin) ∧ place = origin ++ steps := by
  obtain ⟨origin, horigin, hrest⟩ := exists_walk_append hplace
  exact ⟨origin, horigin, walk_steps hsteps hrest⟩

/-- **A name that is too long is refused** before anything is looked for. -/
theorem look_of_long {part : String} (hnull : '\x00' ∉ part.toList)
    (hlong : nameLimit < part.utf8ByteSize) : h.look ⟨.here, [part]⟩ = .refused .nameTooLong := by
  have htext : (⟨.here, [part]⟩ : Path).text = part := by
    simp [Path.text, Path.anchorText]
  have hhere : ¬ (!h.isDirectory []) = true := by simp [isDirectory]
  rw [look, htext, if_neg (by simpa using hnull)]
  split
  · rfl
  · rw [if_neg (by simp), walk, if_neg hhere, if_pos hlong]

/-! ### Searching -/

section Search

variable {name : String} {file candidate : Path} {f : Failure}
  (hname : Path.ofModule? name h.suffix = some file)
include hname

/-- A module is found at the **first** path that is reached and holds a file. -/
theorem resolve_eq_some_iff : h.resolve roots name = .ok (some candidate) ↔
    ∃ root, h.Reaches file (roots.getD h.roots) root ∧ candidate = root.join file ∧
      (h.look candidate).isFile = true := by
  rw [resolve_eq hname, ← locate?_eq_some_iff]
  rcases h.locate? file (roots.getD h.roots) with error | found <;> simp [Except.mapError]

/-- A module is not found if there is nothing at any path. -/
theorem resolve_eq_none_iff : h.resolve roots name = .ok none ↔
    ∀ root ∈ roots.getD h.roots, h.look (root.join file) = .nothing := by
  rw [resolve_eq hname, ← locate?_eq_none_iff]
  rcases h.locate? file (roots.getD h.roots) with error | found <;> simp [Except.mapError]

/-- A search fails with the refusal of the look that it reaches. -/
theorem resolve_eq_error_iff : h.resolve roots name = .error f ↔
    ∃ root error, h.Reaches file (roots.getD h.roots) root ∧
      h.look (root.join file) = .refused error ∧ f = .host error := by
  have hcases : (∃ root error, h.Reaches file (roots.getD h.roots) root ∧
        h.look (root.join file) = .refused error ∧ f = .host error) ↔
      ∃ error, h.locate? file (roots.getD h.roots) = .error error ∧ f = .host error := by
    simp only [locate?_eq_error_iff]
    rw [exists_comm]
    simp only [← and_assoc, exists_and_right]
  rw [hcases, resolve_eq hname]
  rcases h.locate? file (roots.getD h.roots) with error | found <;> simp [Except.mapError, eq_comm]

end Search

/-- **Module names map to files safely.** Let the suffix be one that a file name can have.

* If some segment of a name is not empty and none begins with a slash, the name has a file, and
  under every root the path to it goes on from that root by steps down only. Wherever the host gets
  to on this path, it is inside the directory that the root leads to.
* Different names with segments that are not empty and hold no slash have different files.
* If a name has a file, searching for it gives the path below the first root that holds one, as long
  as every look before it finds nothing; nothing exactly if every look does; and the error of the
  first look that is refused, if there is no file before it.
* If a name has no file, there is nothing to search for. -/
theorem module_files (hsuffix : Path.isSuffix h.suffix = true) (roots : Option (List Path)) :
    (∀ name, Name.NamesFile name → ∃ file, Path.ofModule? name h.suffix = some file ∧
      ∀ root : Path, (root.join file).IsBelow root ∧
        ∀ start place, h.walk start (root.join file).parts = .ok (some place) →
          ∃ origin, h.walk start root.parts = .ok (some origin) ∧ place = origin ++ file.parts) ∧
    (∀ m n, Name.NamesParts m → Name.NamesParts n → m ≠ n →
      ∃ file file', Path.ofModule? m h.suffix = some file ∧
        Path.ofModule? n h.suffix = some file' ∧ file ≠ file') ∧
    (∀ name file, Path.ofModule? name h.suffix = some file →
      (∀ candidate, h.resolve roots name = .ok (some candidate) ↔
        ∃ root, h.Reaches file (roots.getD h.roots) root ∧ candidate = root.join file ∧
          (h.look candidate).isFile = true) ∧
      (h.resolve roots name = .ok none ↔
        ∀ root ∈ roots.getD h.roots, h.look (root.join file) = .nothing) ∧
      ∀ f, h.resolve roots name = .error f ↔
        ∃ root error, h.Reaches file (roots.getD h.roots) root ∧
          h.look (root.join file) = .refused error ∧ f = .host error) ∧
    ∀ name, Path.ofModule? name h.suffix = none →
      h.resolve roots name = .error .moduleUnnamed := by
  refine ⟨fun name hname ↦ ?_, fun m n hm hn hne ↦ ?_, fun name file hfile ↦ ?_,
    fun name hname ↦ resolve_of_unnamed hname⟩
  · obtain ⟨steps, hsteps, hfile, hdown⟩ := Path.isStep_of_ofModule? hname hsuffix
    refine ⟨_, hfile, fun root ↦ ?_⟩
    rw [Path.join_of_here rfl]
    exact ⟨⟨rfl, steps, hsteps, rfl, hdown⟩,
      fun start place hplace ↦ exists_walk_append_steps hdown hplace⟩
  · obtain ⟨steps, -, hfile, -⟩ := Path.isStep_of_ofModule? hm.namesFile hsuffix
    obtain ⟨steps', -, hfile', -⟩ := Path.isStep_of_ofModule? hn.namesFile hsuffix
    refine ⟨_, _, hfile, hfile', fun heq ↦ hne ?_⟩
    exact Path.eq_of_ofModule?_eq hm hn hsuffix (by rw [hfile, hfile', heq])
  · exact ⟨fun candidate ↦ resolve_eq_some_iff hfile, resolve_eq_none_iff hfile,
      fun f ↦ resolve_eq_error_iff hfile⟩

/-- A name with slashes and an empty segment, under the second of two roots, an absolute one, with
two dots for a suffix; and two names that differ in a dot. -/
theorem module_files_slashes :
    let file : Path := ⟨.here, ["lib", "x", "m.."]⟩
    let root : Path := ⟨.root, ["second"]⟩
    let host : Host :=
      { Host.empty.setVariable suffixVariable ".." with
        elsewhere := fun p ↦ if p = root.join file then .file "1" else .nothing }
    Path.isSuffix host.suffix = true ∧ Name.NamesFile "lib//x..m/" ∧
      Path.ofModule? "lib//x..m/" host.suffix = some file ∧ (root.join file).IsBelow root ∧
      host.resolve (some [⟨.here, ["first"]⟩, root]) "lib//x..m/" =
        .ok (some (root.join file)) ∧
      Name.NamesParts "lib.x" ∧ Name.NamesParts "libx" ∧
      ∃ file file', Path.ofModule? "lib.x" host.suffix = some file ∧
        Path.ofModule? "libx" host.suffix = some file' ∧ file ≠ file' := by
  intro file root host
  have hsuffix : Path.isSuffix host.suffix = true := by decide +kernel
  have hname : Name.NamesFile "lib//x..m/" := ⟨by decide +kernel, by decide +kernel⟩
  have hdotted : Name.NamesParts "lib.x" := by
    unfold Name.NamesParts
    decide +kernel
  have hplain : Name.NamesParts "libx" := by
    unfold Name.NamesParts
    decide +kernel
  obtain ⟨hfiles, hdistinct, hsearch, -⟩ :=
    module_files hsuffix (some [⟨.here, ["first"]⟩, root])
  have hfile : Path.ofModule? "lib//x..m/" host.suffix = some file := by decide +kernel
  obtain ⟨found, hfound, hbelow⟩ := hfiles _ hname
  obtain rfl : file = found := Option.some.inj (hfile.symm.trans hfound)
  refine ⟨hsuffix, hname, hfile, (hbelow root).1, ?_, hdotted, hplain,
    hdistinct _ _ hdotted hplain (by decide)⟩
  refine ((hsearch _ _ hfile).1 _).2
    ⟨root, ⟨[⟨.here, ["first"]⟩], [], rfl, ?_⟩, rfl, by decide +kernel⟩
  intro other hother
  rw [List.mem_singleton.1 hother]
  decide +kernel

/-- **A search can fail though no root holds the file, or though a later one does.** The name of the
file is too long for the host to look; an earlier root must not be searched; or there is no name for
the file at all. -/
theorem search_fails :
    let long := String.ofList (List.replicate 300 'a')
    let closed : Path := ⟨.root, ["closed"]⟩
    let other : Path := ⟨.root, ["other"]⟩
    let file : Path := ⟨.here, ["m.nsl"]⟩
    let host : Host :=
      { Host.empty with
        elsewhere := fun p ↦
          if p = closed.join file then .refused (.system 13)
          else if p = other.join file then .file "1" else .nothing }
    (Name.NamesFile long ∧ ¬ Host.empty.HoldsModule none long ∧
        Host.empty.resolve none long = .error (.host .nameTooLong)) ∧
      (Path.ofModule? "m" host.suffix = some file ∧
        (host.look (other.join file)).isFile = true ∧
        host.resolve (some [closed, other]) "m" = .error (.host (.system 13))) ∧
      ¬ Host.empty.HoldsModule none "" ∧ Host.empty.resolve none "" = .error .moduleUnnamed := by
  intro long closed other file host
  -- The long name is not evaluated: it is enough that it is made of letters, and how many they are.
  have hletters : ∀ c ∈ long.toList, c = 'a' := by
    rw [String.toList_ofList]
    exact fun c hc ↦ List.eq_of_mem_replicate hc
  have hbare : Path.IsBare long :=
    ⟨by decide +kernel, fun hmem ↦ absurd (hletters _ hmem) (by decide),
      fun hmem ↦ absurd (hletters _ hmem) (by decide)⟩
  have hroots : (none : Option (List Path)).getD Host.empty.roots = [.here] := by decide +kernel
  have hlong : Path.ofModule? long Host.empty.suffix =
      some ⟨.here, [long ++ Host.empty.suffix]⟩ :=
    Path.ofModule?_of_bare hbare (by decide +kernel)
  have hrefused : Host.empty.look (Path.here.join ⟨.here, [long ++ Host.empty.suffix]⟩) =
      .refused .nameTooLong := by
    refine look_of_long ?_ ?_
    · rw [String.toList_append, List.mem_append, not_or]
      exact ⟨fun hmem ↦ absurd (hletters _ hmem) (by decide), by decide +kernel⟩
    · have hsize : nameLimit < long.utf8ByteSize := by decide +kernel
      rw [String.utf8ByteSize_append]
      exact Nat.lt_of_lt_of_le hsize (Nat.le_add_right _ _)
  have hfile : Path.ofModule? "m" host.suffix = some file := by decide +kernel
  have hempty : Path.ofModule? "" Host.empty.suffix = none := by decide +kernel
  refine ⟨⟨hbare.namesParts.namesFile, ?_, ?_⟩, ⟨hfile, by decide +kernel, ?_⟩, ?_,
    resolve_of_unnamed hempty⟩
  · rw [holdsModule_iff hlong hroots, hrefused]
    decide
  · refine (resolve_eq_error_iff hlong).2 ⟨.here, .nameTooLong, ?_, hrefused, rfl⟩
    rw [hroots]
    exact ⟨[], [], rfl, by simp⟩
  · refine (resolve_eq_error_iff hfile).2 ⟨closed, .system 13, ?_, by decide +kernel, rfl⟩
    exact ⟨[], [other], rfl, by simp⟩
  · rintro ⟨found, -, hfound, -⟩
    rw [hempty] at hfound
    cases hfound

end Host

end DottedLisp
