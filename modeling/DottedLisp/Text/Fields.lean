/-!
# Fields between separators

Names are cut at dots, search paths at colons and file paths at slashes. A text with `n` separators
has `n + 1` fields, some of them perhaps empty.
-/

namespace DottedLisp.Text

/-- The fields of a text, cut at **every** separator. -/
def fields (separator : Char) : List Char → List (List Char)
  | [] => [[]]
  | c :: rest =>
    if c = separator then [] :: fields separator rest
    else
      match fields separator rest with
      | [] => [[c]]
      | field :: others => (c :: field) :: others

/-- Put the fields back together. -/
def unfields (separator : Char) : List (List Char) → List Char
  | [] => []
  | [field] => field
  | field :: next :: others => field ++ separator :: unfields separator (next :: others)

/-- A text without a separator is one field. -/
theorem fields_ne_nil (separator : Char) (cs : List Char) : fields separator cs ≠ [] := by
  cases cs with
  | nil => simp [fields]
  | cons c rest =>
    rw [fields]
    split
    · simp
    · split <;> simp

/-- **Nothing is lost**: the fields put back together are the text. -/
theorem unfields_fields (separator : Char) (cs : List Char) :
    unfields separator (fields separator cs) = cs := by
  induction cs with
  | nil => rfl
  | cons c rest ih =>
    rw [fields]
    split
    · next h =>
      subst h
      cases hrest : fields c rest with
      | nil => exact absurd hrest (fields_ne_nil c rest)
      | cons field others => rw [unfields, ← hrest, ih, List.nil_append]
    · cases hrest : fields separator rest with
      | nil => exact absurd hrest (fields_ne_nil separator rest)
      | cons field others =>
        rw [hrest] at ih
        cases others with
        | nil => simpa [unfields] using ih
        | cons other more => simpa [unfields] using ih

/-- No field holds the separator. -/
theorem not_mem_of_mem_fields {separator : Char} {cs field : List Char}
    (h : field ∈ fields separator cs) : separator ∉ field := by
  induction cs generalizing field with
  | nil => simp_all [fields]
  | cons c rest ih =>
    rw [fields] at h
    split at h
    · rcases List.mem_cons.1 h with rfl | h'
      · simp
      · exact ih h'
    · next hc =>
      cases hrest : fields separator rest with
      | nil => exact absurd hrest (fields_ne_nil separator rest)
      | cons first others =>
        rw [hrest] at h ih
        rcases List.mem_cons.1 h with rfl | h'
        · have hfirst : separator ∉ first := ih List.mem_cons_self
          simp only [List.mem_cons, not_or]
          exact ⟨fun heq => hc heq.symm, hfirst⟩
        · exact ih (List.mem_cons_of_mem _ h')

/-! ### What fields hold -/

section Fields

variable {separator c : Char} {cs field : List Char}

/-- And that field is the text. -/
theorem fields_of_not_mem (h : separator ∉ cs) : fields separator cs = [cs] := by
  induction cs with
  | nil => rfl
  | cons c rest ih =>
    have hc : c ≠ separator := fun heq => h (heq ▸ List.mem_cons_self)
    rw [fields, if_neg hc, ih fun hmem => h (List.mem_cons_of_mem c hmem)]

/-- Fields hold only characters of the text. -/
theorem mem_of_mem_fields (h : field ∈ fields separator cs) (hc : c ∈ field) : c ∈ cs := by
  induction cs generalizing field with
  | nil =>
    rw [fields, List.mem_singleton] at h
    rwa [h] at hc
  | cons first rest ih =>
    rw [fields] at h
    split at h
    · rcases List.mem_cons.1 h with rfl | hrest
      · cases hc
      · exact List.mem_cons_of_mem first (ih hrest hc)
    · rcases hrest : fields separator rest with - | ⟨next, others⟩
      · exact absurd hrest (fields_ne_nil separator rest)
      · rw [hrest] at h ih
        rcases List.mem_cons.1 h with rfl | hother
        · rcases List.mem_cons.1 hc with rfl | hnext
          · exact List.mem_cons_self
          · exact List.mem_cons_of_mem first (ih List.mem_cons_self hnext)
        · exact List.mem_cons_of_mem first (ih (List.mem_cons_of_mem next hother) hc)

/-- Between separators alone there is nothing. -/
theorem fields_eq_nil_iff :
    (∀ field ∈ fields separator cs, field = []) ↔ ∀ c ∈ cs, c = separator := by
  induction cs with
  | nil => simp [fields]
  | cons c rest ih =>
    by_cases hc : c = separator
    · rw [fields, if_pos hc]
      simp [ih, hc]
    · rw [fields, if_neg hc]
      rcases fields separator rest with - | ⟨next, others⟩
      · simp [hc]
      · simp [hc]

end Fields

/-- Cut a text at its **last** separator; `none` if it has none. -/
def cutLast? (separator : Char) (cs : List Char) : Option (List Char × List Char) :=
  let tail := cs.reverse.takeWhile (· ≠ separator)
  match cs.reverse.dropWhile (· ≠ separator) with
  | [] => none
  | _ :: front => some (front.reverse, tail.reverse)

/-! ### Where a text is cut -/

section CutLast

variable {separator : Char} {cs front last : List Char}

theorem ne_of_mem_reverse (h : separator ∉ cs) :
    ∀ c ∈ cs.reverse, decide (c ≠ separator) = true := by
  intro c hc
  rw [decide_eq_true_iff]
  rintro rfl
  exact h (List.mem_reverse.1 hc)

/-- A text is cut at the last separator, behind which there is no other one. -/
theorem cutLast?_append (h : separator ∉ last) :
    cutLast? separator (front ++ separator :: last) = some (front, last) := by
  have hreverse : (front ++ separator :: last).reverse =
      last.reverse ++ separator :: front.reverse := by
    simp
  have htake : (front ++ separator :: last).reverse.takeWhile (· ≠ separator) = last.reverse := by
    rw [hreverse, List.takeWhile_append_of_pos (ne_of_mem_reverse h)]
    simp
  have hdrop : (front ++ separator :: last).reverse.dropWhile (· ≠ separator) =
      separator :: front.reverse := by
    rw [hreverse, List.dropWhile_append_of_pos (ne_of_mem_reverse h)]
    simp
  simp only [cutLast?, htake, hdrop, List.reverse_reverse]

theorem cutLast?_of_not_mem (h : separator ∉ cs) : cutLast? separator cs = none := by
  have hdrop : (cs.reverse ++ []).dropWhile (· ≠ separator) = [] :=
    List.dropWhile_append_of_pos (ne_of_mem_reverse h)
  rw [List.append_nil] at hdrop
  simp only [cutLast?, hdrop]

/-- Where a text is cut there is a separator, and none behind it. -/
theorem cutLast?_eq_some_iff :
    cutLast? separator cs = some (front, last) ↔
      cs = front ++ separator :: last ∧ separator ∉ last := by
  constructor
  · intro h
    by_cases hmem : separator ∈ cs
    · obtain ⟨last', front', hreverse, hlast⟩ :=
        List.eq_append_cons_of_mem (List.mem_reverse.2 hmem)
      have hcs : cs = front'.reverse ++ separator :: last'.reverse := by
        rw [← List.reverse_reverse cs, hreverse]
        simp
      have hlast' : separator ∉ last'.reverse := fun hc => hlast (List.mem_reverse.1 hc)
      rw [hcs, cutLast?_append hlast'] at h
      cases h
      exact ⟨hcs, hlast'⟩
    · rw [cutLast?_of_not_mem hmem] at h
      cases h
  · rintro ⟨rfl, hlast⟩
    exact cutLast?_append hlast

/-- Putting one more field at the end. -/
theorem unfields_concat {parts : List (List Char)} (h : parts ≠ []) :
    unfields separator (parts ++ [last]) = unfields separator parts ++ separator :: last := by
  induction parts with
  | nil => exact absurd rfl h
  | cons part parts ih =>
    cases parts with
    | nil => rfl
    | cons next parts =>
      have hnext := ih (List.cons_ne_nil next parts)
      rw [List.cons_append, List.cons_append, unfields, ← List.cons_append, hnext, unfields,
        List.append_assoc, List.cons_append]

end CutLast

example : fields '.' "a..b".toList = ["a".toList, [], "b".toList] := by decide

example : cutLast? '.' "a.b.c".toList = some ("a.b".toList, "c".toList) := by decide

end DottedLisp.Text
