import DottedLisp.Interpreter
import DottedLisp.Proofs.Simulation.Basic
import Mathlib.Data.List.Basic
import Mathlib.Data.List.TakeWhile

/-!
# Relative names

A name is read in two directions. Whether it is relative, and which module it belongs to, shows at
its **first** dot; where it is cut into path and identifier, and how far `parent.` climbs, shows at
its **last** one. The module says how the two fit together.

Climbing is arithmetic on the segments of a path: each leading `parent.` takes off the last of them,
and one segment at least has to stay (`ascend_raised`). Making a name absolute is therefore said in
full by the segments and by the number of leading `parent.` (`normalize_by_segments`).

What stays is the first segment. If it is neither empty nor a word that makes a name relative, then
the absolute name is a full name, means the same wherever it stands, and is cut where its path ends
(`Evaluation.relative_names_agree`). Nothing is claimed of the namespaces `module`, `current` and
`parent`: their identifiers cannot be reached by absolute names.
-/

namespace DottedLisp

namespace Name

variable {name path rest a : String}

/-! ### The beginning of a name -/

/-- Not relative to the namespace in which it stands. -/
def IsAbsolute (name : String) : Prop :=
  after? "module." name = none ∧ after? "current." name = none ∧ after? "parent." name = none

instance (name : String) : Decidable (IsAbsolute name) :=
  inferInstanceAs (Decidable (_ ∧ _))

theorem IsAbsolute.normalize (h : IsAbsolute name) (moduleName current : String) :
    Name.normalize name moduleName current = .ok name := by
  simp only [Name.normalize, h.1, h.2.1, h.2.2]

/-- Taking a beginning off, as an equation between texts. -/
theorem after?_eq_some_iff {beginning : String} :
    after? beginning name = some rest ↔ name = beginning ++ rest := by
  simp only [after?, Option.map_eq_some_iff, List.isPrefixOf?_eq_some_iff_append_eq]
  constructor
  · rintro ⟨cs, hcs, rfl⟩
    rw [← String.toList_inj, ← hcs, String.toList_append, String.toList_ofList]
  · rintro rfl
    exact ⟨rest.toList, String.toList_append.symm, String.ofList_toList⟩

/-- A beginning cannot be taken off if the name is no text behind it. -/
theorem after?_eq_none_iff {beginning : String} :
    after? beginning name = none ↔ ∀ rest, name ≠ beginning ++ rest := by
  rw [Option.eq_none_iff_forall_not_mem]
  exact forall_congr' fun rest ↦ not_congr after?_eq_some_iff

theorem normalize_module (rest moduleName current : String) :
    normalize ("module." ++ rest) moduleName current = .ok (join moduleName rest) := by
  have hafter : after? "module." ("module." ++ rest) = some rest := after?_eq_some_iff.2 rfl
  simp only [normalize, hafter]

theorem normalize_current (rest moduleName current : String) :
    normalize ("current." ++ rest) moduleName current = .ok (join current rest) := by
  have hmodule : after? "module." ("current." ++ rest) = none := by
    rw [after?, String.toList_append]
    rfl
  have hafter : after? "current." ("current." ++ rest) = some rest := after?_eq_some_iff.2 rfl
  simp only [normalize, hmodule, hafter]

theorem normalize_parent (rest moduleName current : String) :
    normalize ("parent." ++ rest) moduleName current =
      ascend current.toList ("parent.".toList ++ rest.toList) := by
  have hmodule : after? "module." ("parent." ++ rest) = none := by
    rw [after?, String.toList_append]
    rfl
  have hcurrent : after? "current." ("parent." ++ rest) = none := by
    rw [after?, String.toList_append]
    rfl
  have hafter : after? "parent." ("parent." ++ rest) = some rest := after?_eq_some_iff.2 rfl
  simp only [normalize, hmodule, hcurrent, hafter, String.toList_append]

/-- A name is absolute, or begins with one of the three words. -/
theorem absolute_or_relative (name : String) :
    IsAbsolute name ∨
      ∃ rest, name = "module." ++ rest ∨ name = "current." ++ rest ∨ name = "parent." ++ rest := by
  rcases hmodule : after? "module." name with - | rest
  · rcases hcurrent : after? "current." name with - | rest
    · rcases hparent : after? "parent." name with - | rest
      · exact Or.inl ⟨hmodule, hcurrent, hparent⟩
      · exact Or.inr ⟨rest, Or.inr (Or.inr (after?_eq_some_iff.1 hparent))⟩
    · exact Or.inr ⟨rest, Or.inr (Or.inl (after?_eq_some_iff.1 hcurrent))⟩
  · exact Or.inr ⟨rest, Or.inl (after?_eq_some_iff.1 hmodule)⟩

/-! ### Climbing -/

/-- The segments of a path: what stands between its dots. -/
def segments (path : String) : List String :=
  (Text.fields '.' path.toList).map String.ofList

theorem intercalate_ofList (parts : List (List Char)) :
    ".".intercalate (parts.map String.ofList) = String.ofList (Text.unfields '.' parts) := by
  match parts with
  | [] => rfl
  | [part] => rfl
  | part :: next :: others =>
    have hrest := intercalate_ofList (next :: others)
    rw [List.map_cons] at hrest
    rw [List.map_cons, List.map_cons, String.intercalate_cons_cons, hrest, Text.unfields,
      ← String.toList_inj]
    simp

/-- Segments joined by dots are the path, and they hold no dots. -/
theorem segments_spec (path : String) :
    segments path ≠ [] ∧ ".".intercalate (segments path) = path ∧
      ∀ segment ∈ segments path, '.' ∉ segment.toList := by
  refine ⟨?_, ?_, fun segment hsegment ↦ ?_⟩
  · simpa [segments] using Text.fields_ne_nil '.' path.toList
  · rw [segments, intercalate_ofList, Text.unfields_fields, String.ofList_toList]
  · obtain ⟨part, hpart, rfl⟩ := List.mem_map.1 hsegment
    rw [String.toList_ofList]
    exact Text.not_mem_of_mem_fields hpart

/-- A name behind `n` leading `parent.`. -/
def raised : Nat → String → String
  | 0, rest => rest
  | n + 1, rest => "parent." ++ raised n rest

/-- The name is `rest` behind its leading `parent.`, and these are `k` in all. -/
def Climbs (name : String) (k : Nat) (rest : String) : Prop :=
  name = raised k rest ∧ ∀ other, rest ≠ "parent." ++ other

/-- Every name is behind its leading `parent.`, however many these are. -/
theorem exists_climbs (name : String) : ∃ k rest, Climbs name k rest := by
  rcases hparent : after? "parent." name with - | other
  · exact ⟨0, name, rfl, after?_eq_none_iff.1 hparent⟩
  · have hname : name = "parent." ++ other := after?_eq_some_iff.1 hparent
    have hshorter : other.length < name.length := by
      rw [hname, String.length_append]
      have hlength : "parent.".length = 7 := rfl
      omega
    obtain ⟨k, rest, hother, hrest⟩ := exists_climbs other
    exact ⟨k + 1, rest, by rw [hname, hother, raised], hrest⟩
termination_by name.length

/-- One `parent.` goes up by one segment, if there are two at least. -/
theorem ascend_parent (path rest : List Char) :
    ascend path ("parent.".toList ++ rest) =
      match Text.cutLast? '.' path with
      | some (parent, _) => ascend parent rest
      | none => .error (String.ofList rest) := rfl

/-- When no `parent.` is left the name is joined to the path that was reached. -/
theorem ascend_of_ne (path : List Char) (h : ∀ other, rest ≠ "parent." ++ other) :
    ascend path rest.toList = .ok (join (String.ofList path) rest) := by
  rw [ascend, String.ofList_toList]
  intro other hother
  refine h (String.ofList other) ?_
  have hparent : "parent.".toList = ['p', 'a', 'r', 'e', 'n', 't', '.'] := rfl
  rw [← String.toList_inj, hother, String.toList_append, hparent, String.toList_ofList]
  rfl

/-- **Climbing takes off the last segments**, one for each `parent.`, as long as one stays. By
induction on the number of steps; the path is taken apart from its end. -/
theorem ascend_raised (h : ∀ other, rest ≠ "parent." ++ other) (k : Nat) :
    ∀ {parts : List (List Char)}, parts ≠ [] → (∀ part ∈ parts, '.' ∉ part) →
      ascend (Text.unfields '.' parts) (raised k rest).toList =
        if k < parts.length then
          .ok (join (String.ofList (Text.unfields '.' (parts.take (parts.length - k)))) rest)
        else .error (raised (k - parts.length) rest) := by
  induction k with
  | zero =>
    intro parts hne _
    rw [raised, ascend_of_ne _ h, if_pos (List.length_pos_iff.2 hne), Nat.sub_zero,
      List.take_length]
  | succ k ih =>
    intro parts hne hparts
    obtain ⟨init, last, rfl⟩ : ∃ init last, parts = init ++ [last] :=
      ⟨_, _, (List.dropLast_concat_getLast hne).symm⟩
    have hlast : '.' ∉ last := hparts last (by simp)
    rw [raised, String.toList_append, ascend_parent]
    by_cases hinit : init = []
    · -- the only segment is left
      subst hinit
      have hcut : Text.cutLast? '.' (Text.unfields '.' ([] ++ [last])) = none :=
        Text.cutLast?_of_not_mem hlast
      rw [hcut, String.ofList_toList]
      simp
    -- One segment is cut off, and with it the count goes down on both sides.
    · have hcut : Text.cutLast? '.' (Text.unfields '.' (init ++ [last])) =
          some (Text.unfields '.' init, last) := by
        rw [Text.unfields_concat hinit, Text.cutLast?_append hlast]
      have hstays : k + 1 < (init ++ [last]).length ↔ k < init.length := by simp
      have hleft : (init ++ [last]).length - (k + 1) = init.length - k := by
        rw [List.length_append, List.length_singleton, Nat.add_sub_add_right]
      have hbeyond : k + 1 - (init ++ [last]).length = k - init.length := by
        rw [List.length_append, List.length_singleton, Nat.add_sub_add_right]
      have htake : (init ++ [last]).take (init.length - k) = init.take (init.length - k) :=
        List.take_append_of_le_length (Nat.sub_le _ _)
      rw [hcut]
      simp only [ih hinit fun part hpart ↦ hparts part (List.mem_append_left _ hpart), hstays,
        hleft, hbeyond, htake]

/-- Climbing from a path, by its segments. -/
theorem normalize_of_climbs {k : Nat} (h : Climbs name k rest) (hk : 0 < k)
    (moduleName current : String) :
    normalize name moduleName current =
      if k < (segments current).length then
        .ok (".".intercalate ((segments current).take ((segments current).length - k)) ++ "." ++
          rest)
      else .error (raised (k - (segments current).length) rest) := by
  obtain ⟨rfl, hrest⟩ := h
  obtain ⟨k, rfl⟩ := Nat.exists_eq_succ_of_ne_zero (Nat.ne_of_gt hk)
  have hclimb := ascend_raised hrest (k + 1) (Text.fields_ne_nil '.' current.toList)
    fun part hpart ↦ Text.not_mem_of_mem_fields hpart
  rw [Text.unfields_fields, raised, String.toList_append] at hclimb
  rw [raised, normalize_parent, hclimb, segments, List.length_map, ← List.map_take,
    intercalate_ofList]
  rfl

/-- A name without a leading `parent.` can be made absolute. -/
theorem normalize_ne_error (h : ∀ other, name ≠ "parent." ++ other)
    (moduleName current left : String) : normalize name moduleName current ≠ .error left := by
  rcases absolute_or_relative name with habsolute | ⟨tail, rfl | rfl | rfl⟩
  · rw [habsolute.normalize]
    exact nofun
  · rw [normalize_module]
    exact nofun
  · rw [normalize_current]
    exact nofun
  · exact absurd rfl (h tail)

/-- **When a name climbs too far**, and what of it is left then. -/
theorem normalize_eq_error_iff {k : Nat} (h : Climbs name k rest)
    (moduleName current left : String) :
    normalize name moduleName current = .error left ↔
      (segments current).length ≤ k ∧ left = raised (k - (segments current).length) rest := by
  have hpos : 0 < (segments current).length := List.length_pos_iff.2 (segments_spec current).1
  -- Without a leading `parent.` there is nothing to climb and nothing to fail.
  rcases Nat.eq_zero_or_pos k with rfl | hk
  · have hname : name = rest := h.1
    constructor
    · exact fun herror ↦ absurd herror (normalize_ne_error (hname ▸ h.2) _ _ _)
    · exact fun hle ↦ absurd hle.1 (Nat.not_le_of_gt hpos)
  · rw [normalize_of_climbs h hk]
    split
    · rename_i hlt
      constructor
      · exact nofun
      · exact fun hle ↦ absurd hle.1 (Nat.not_le_of_gt hlt)
    · rename_i hge
      constructor
      · rintro ⟨⟩
        exact ⟨Nat.le_of_not_lt hge, rfl⟩
      · rintro ⟨-, rfl⟩
        rfl

/-- **Making a name absolute is arithmetic on segments.** Let `k` be the number of leading `parent.`
of a name. If there are any, they take as many segments off the end of the current path, and the
rest of the name is put under what stays of the path; if no segment would stay, what is left of the
name **after the step that fails** is reported. If there are none, a leading `module.` or `current.`
is replaced once, and any other name stays as it is. There is no other failure. -/
theorem normalize_by_segments (name moduleName current : String) :
    (∃ k rest, Climbs name k rest) ∧
      ∀ k rest, Climbs name k rest →
        (0 < k → k < (segments current).length →
          normalize name moduleName current =
            .ok (".".intercalate ((segments current).take ((segments current).length - k)) ++
              "." ++ rest)) ∧
        (∀ left, normalize name moduleName current = .error left ↔
          (segments current).length ≤ k ∧ left = raised (k - (segments current).length) rest) ∧
        (∀ (c : Context) (w : World), (w.namespaceAt c.home).path = current →
          (segments current).length ≤ k →
          ∃ fault, Evaluation.normalize c name w = .error (.fault fault) w ∧
            fault.code = "RELATIVE_PATH_ERROR" ∧
            fault.data =
              [("relativePath", .text (raised (k - (segments current).length) rest))]) ∧
        (k = 0 →
          (∀ tail, name = "module." ++ tail →
            normalize name moduleName current = .ok (moduleName ++ "." ++ tail)) ∧
          (∀ tail, name = "current." ++ tail →
            normalize name moduleName current = .ok (current ++ "." ++ tail)) ∧
          ((∀ tail, name ≠ "module." ++ tail ∧ name ≠ "current." ++ tail) →
            normalize name moduleName current = .ok name)) := by
  refine ⟨exists_climbs name, fun k rest hclimbs ↦ ⟨fun hk hlt ↦ ?_,
    fun left ↦ normalize_eq_error_iff hclimbs moduleName current left, fun c w hpath hle ↦ ?_,
    fun hzero ↦ ⟨?_, ?_, fun hother ↦ ?_⟩⟩⟩
  · rw [normalize_of_climbs hclimbs hk, if_pos hlt]
  · have herror := (normalize_eq_error_iff hclimbs (moduleOf current) current _).2 ⟨hle, rfl⟩
    refine ⟨.beyondModule _, ?_, rfl, rfl⟩
    simp only [Evaluation.normalize, hpath, herror]
  · rintro tail rfl
    exact normalize_module tail moduleName current
  · rintro tail rfl
    exact normalize_current tail moduleName current
  · subst hzero
    have hname : name = rest := hclimbs.1
    refine IsAbsolute.normalize ⟨after?_eq_none_iff.2 fun tail ↦ (hother tail).1,
      after?_eq_none_iff.2 fun tail ↦ (hother tail).2, ?_⟩ moduleName current
    exact after?_eq_none_iff.2 (hname ▸ hclimbs.2)

/-- From a path of three segments, one of them empty: two levels up, and four. -/
theorem normalize_by_segments_empty :
    Climbs "parent.parent.x" 2 "x" ∧ segments "a..b" = ["a", "", "b"] ∧
      normalize "parent.parent.x" "a" "a..b" = .ok "a.x" ∧
      Climbs "parent.parent.parent.parent.x" 4 "x" ∧
      normalize "parent.parent.parent.parent.x" "a" "a..b" = .error "parent.x" := by
  have hx : ∀ other, "x" ≠ "parent." ++ other := after?_eq_none_iff.1 (by decide)
  have htwo : Climbs "parent.parent.x" 2 "x" := ⟨by decide, hx⟩
  have hfour : Climbs "parent.parent.parent.parent.x" 4 "x" := ⟨by decide, hx⟩
  have hsegments : segments "a..b" = ["a", "", "b"] := by decide
  refine ⟨htwo, hsegments, ?_, hfour, ?_⟩
  · have hstays := ((normalize_by_segments _ "a" "a..b").2 2 "x" htwo).1 (by decide)
    rw [hsegments] at hstays
    exact hstays (by decide)
  · refine (((normalize_by_segments _ "a" "a..b").2 4 "x" hfour).2.1 _).2 ?_
    rw [hsegments]
    exact ⟨by decide, by decide⟩

/-! ### The first segment -/

/-- A module is its own module. -/
theorem moduleOf_moduleOf (path : String) : moduleOf (moduleOf path) = moduleOf path := by
  rw [moduleOf, moduleOf, String.toList_ofList, List.takeWhile_idem]

theorem toList_join (path name : String) :
    (join path name).toList = path.toList ++ '.' :: name.toList := by
  simp [join]

/-- What stands behind the first dot does not matter for the first segment. -/
theorem takeWhile_dot (front last : List Char) :
    (front ++ '.' :: last).takeWhile (· ≠ '.') = front.takeWhile (· ≠ '.') := by
  induction front with
  | nil => simp
  | cons c front ih =>
    rw [List.cons_append, List.takeWhile_cons, List.takeWhile_cons, ih]

theorem moduleOf_join (path name : String) : moduleOf (join path name) = moduleOf path := by
  rw [moduleOf, toList_join, takeWhile_dot, moduleOf]

/-- The first segment is neither empty nor a word that makes a name relative. -/
def IsAnchored (path : String) : Prop :=
  moduleOf path ∉ ["", "module", "current", "parent"]

instance (path : String) : Decidable (IsAnchored path) :=
  inferInstanceAs (Decidable (¬ _))

theorem IsAnchored.of_eq (h : IsAnchored path) (heq : moduleOf name = moduleOf path) :
    IsAnchored name := by
  rw [IsAnchored, heq]
  exact h

/-- What begins with an anchored segment is not relative: a name that begins with one of the three
words has that word as its first segment. -/
theorem IsAnchored.isAbsolute (h : IsAnchored name) : IsAbsolute name := by
  have hword : ∀ word rest, name = word ++ "." ++ rest → moduleOf name = moduleOf word := by
    rintro word rest rfl
    exact moduleOf_join word rest
  rcases absolute_or_relative name with habsolute | ⟨rest, hname | hname | hname⟩
  · exact habsolute
  · rw [IsAnchored, hword "module" rest hname] at h
    exact absurd (by decide) h
  · rw [IsAnchored, hword "current" rest hname] at h
    exact absurd (by decide) h
  · rw [IsAnchored, hword "parent" rest hname] at h
    exact absurd (by decide) h

/-- The first character of a path whose first segment is not empty. -/
theorem exists_cons_of_isAnchored (h : IsAnchored path) :
    ∃ c cs, path.toList = c :: cs ∧ c ≠ '.' := by
  rcases hpath : path.toList with - | ⟨c, cs⟩
  · exact absurd (by simp [moduleOf, hpath]) h
  · refine ⟨c, cs, rfl, ?_⟩
    rintro rfl
    exact absurd (by simp [moduleOf, hpath]) h

/-- Behind an anchored path every name is a full one, with the dot of the joint. -/
theorem isFull_join (h : IsAnchored path) (name : String) : isFull (join path name) = true := by
  obtain ⟨c, cs, hpath, hc⟩ := exists_cons_of_isAnchored h
  rw [isFull, toList_join, hpath]
  simp [hc]

/-- A name under a path is cut where the path ends, if there is no dot behind it. -/
theorem split?_join (h : IsAnchored path) (hname : name ≠ "") (hdot : '.' ∉ name.toList) :
    split? (join path name) = some (path, name) := by
  obtain ⟨c, cs, hpath, -⟩ := exists_cons_of_isAnchored h
  obtain ⟨d, ds, hds⟩ : ∃ d ds, name.toList = d :: ds :=
    List.exists_cons_of_ne_nil fun hnil ↦ hname (String.toList_eq_nil_iff.1 hnil)
  have hcut : Text.cutLast? '.' (join path name).toList = some (c :: cs, d :: ds) := by
    rw [toList_join, Text.cutLast?_append hdot, hpath, hds]
  have hfront : String.ofList (c :: cs) = path := by rw [← hpath, String.ofList_toList]
  have hlast : String.ofList (d :: ds) = name := by rw [← hds, String.ofList_toList]
  simp only [split?, hcut, hfront, hlast]

/-- Climbing stays in the module. -/
theorem join_of_ascend {front cs : List Char} (h : ascend front cs = .ok a) :
    ∃ path rest, a = join path rest ∧ moduleOf path = moduleOf (String.ofList front) := by
  induction front, cs using ascend.induct with
  | case1 front cs parent last hcut ih =>
    have hascend : ascend parent cs = .ok a := by
      rw [ascend, hcut] at h
      exact h
    obtain ⟨path, rest, rfl, hmodule⟩ := ih hascend
    obtain ⟨rfl, -⟩ := Text.cutLast?_eq_some_iff.1 hcut
    refine ⟨path, rest, rfl, ?_⟩
    rw [hmodule, moduleOf, moduleOf, String.toList_ofList, String.toList_ofList, takeWhile_dot]
  | case2 front cs hcut =>
    rw [ascend, hcut] at h
    cases h
  | case3 front cs hne =>
    rw [ascend.eq_2 _ _ hne] at h
    cases h
    exact ⟨_, _, rfl, rfl⟩

/-- **What is made absolute** was absolute before, or is a name in the module of the path. -/
theorem absolute_or_join_of_normalize (h : normalize name (moduleOf path) path = .ok a) :
    (IsAbsolute name ∧ a = name) ∨
      ∃ front rest, a = join front rest ∧ moduleOf front = moduleOf path := by
  rcases absolute_or_relative name with habsolute | ⟨rest, rfl | rfl | rfl⟩
  · rw [habsolute.normalize] at h
    cases h
    exact Or.inl ⟨habsolute, rfl⟩
  · rw [normalize_module] at h
    cases h
    exact Or.inr ⟨_, rest, rfl, moduleOf_moduleOf path⟩
  · rw [normalize_current] at h
    cases h
    exact Or.inr ⟨path, rest, rfl, rfl⟩
  · rw [normalize_parent] at h
    obtain ⟨front, rest, rfl, hmodule⟩ := join_of_ascend h
    rw [String.ofList_toList] at hmodule
    exact Or.inr ⟨front, rest, rfl, hmodule⟩

end Name

/-! ### Looking names up -/

namespace Evaluation

open Name

variable {name path identifier absolute : String} {w : World}

/-- A full absolute name is looked up in the registry, whatever the context. -/
theorem lookup_of_absolute (hfull : isFull name = true) (habsolute : IsAbsolute name)
    (c : Context) : lookup c name w = getFull name w := by
  have hname : normalize c name w = .ok name w := by
    simp only [normalize, habsolute.normalize]
  rw [lookup, if_pos hfull, bind_of_ok hname]

/-- Behind its last dot a full name is a name at the top level of a namespace. -/
theorem getFull_of_split {id : NamespaceId} (hsplit : split? name = some (path, identifier))
    (hid : w.registered? path = some id) : getFull name w = get (.top id) identifier w := by
  have hname : splitName name w = .ok (path, identifier) w := by
    rw [splitName, hsplit]
    rfl
  have hspace : getNamespace path w = .ok id w := by
    rw [getNamespace, hid]
  rw [getFull, bind_of_ok hname]
  exact bind_of_ok hspace

/-- The absolute name of a full name is a full name that stands for itself. -/
theorem absolute_of_normalize {c : Context} (hpath : IsAnchored (w.namespaceAt c.home).path)
    (hfull : isFull name = true) {u : World} (h : normalize c name w = .ok absolute u) :
    isFull absolute = true ∧ IsAbsolute absolute ∧ u = w := by
  rcases hname : Name.normalize name (moduleOf (w.namespaceAt c.home).path)
    (w.namespaceAt c.home).path with left | a
  · simp only [normalize, hname] at h
    cases h
  · simp only [normalize, hname] at h
    cases h
    rcases absolute_or_join_of_normalize hname with ⟨habsolute, rfl⟩ | ⟨front, rest, rfl, hmodule⟩
    · exact ⟨hfull, habsolute, rfl⟩
    · have hfront : IsAnchored front := hpath.of_eq hmodule
      exact ⟨isFull_join hfront rest,
        (hfront.of_eq (moduleOf_join front rest)).isAbsolute, rfl⟩

/-- **Relative and absolute names agree**, in every world and so in all that are reached. Under a
registered path whose first segment is neither empty nor a word that makes a name relative, an
identifier has its full name in every context: looking it up there is asking the namespace. And
seen from a namespace with such a path, the absolute name of a full name is the same seen from
everywhere, and looking up the one here is looking up the other in any context. -/
theorem relative_names_agree :
    (∀ (w : World) (path identifier : String) (id : NamespaceId), w.registered? path = some id →
      IsAnchored path → identifier ≠ "" → '.' ∉ identifier.toList →
      ∀ c, lookup c (path ++ "." ++ identifier) w = get (.top id) identifier w) ∧
    ∀ (w u : World) (c : Context) (name absolute : String),
      IsAnchored (w.namespaceAt c.home).path → isFull name = true →
      normalize c name w = .ok absolute u →
      (∀ moduleName current, Name.normalize absolute moduleName current = .ok absolute) ∧
      ∀ c', lookup c name w = lookup c' absolute w := by
  refine ⟨fun w path identifier id hid hpath hidentifier hdot c ↦ ?_,
    fun w u c name absolute hpath hfull h ↦ ?_⟩
  · have hname : IsAnchored (join path identifier) := hpath.of_eq (moduleOf_join path identifier)
    have hlookup := lookup_of_absolute (w := w) (isFull_join hpath identifier) hname.isAbsolute c
    rw [getFull_of_split (split?_join hpath hidentifier hdot) hid] at hlookup
    exact hlookup
  · obtain ⟨hfull', habsolute, rfl⟩ := absolute_of_normalize hpath hfull h
    refine ⟨habsolute.normalize, fun c' ↦ ?_⟩
    rw [lookup_of_absolute hfull' habsolute, lookup, if_pos hfull, bind_of_ok h]

/-- In a fresh interpreter: a native operation by its full name, seen from the home namespace, and
by a relative one, seen from another namespace of natives. -/
theorem relative_names_agree_native :
    let w := (Interpreter.create Host.empty none none 0).2
    w.registered? "native.i64" = some ⟨0⟩ ∧ (w.namespaceAt ⟨1⟩).path = "native.f64" ∧
      (answer? (lookup (.top ⟨5⟩) "native.i64.add" w)).isSome = true ∧
      lookup (.top ⟨5⟩) "native.i64.add" w = get (.top ⟨0⟩) "add" w ∧
      normalize (.top ⟨1⟩) "parent.i64.add" w = .ok "native.i64.add" w ∧
      lookup (.top ⟨1⟩) "parent.i64.add" w = lookup (.top ⟨5⟩) "native.i64.add" w := by
  intro w
  have hid : w.registered? "native.i64" = some ⟨0⟩ := by decide +kernel
  have hpath : (w.namespaceAt ⟨1⟩).path = "native.f64" := by decide +kernel
  have hnormalize : normalize (.top ⟨1⟩) "parent.i64.add" w = .ok "native.i64.add" w := by
    simp only [normalize, Context.home, hpath]
    rfl
  have hanchored : IsAnchored (w.namespaceAt ⟨1⟩).path := by
    rw [hpath]
    decide
  refine ⟨hid, hpath, by decide +kernel, ?_, hnormalize, ?_⟩
  · exact relative_names_agree.1 w "native.i64" "add" ⟨0⟩ hid (by decide) (by decide) (by decide) _
  · exact (relative_names_agree.2 w w (.top ⟨1⟩) _ _ hanchored (by decide) hnormalize).2 _

end Evaluation

end DottedLisp
