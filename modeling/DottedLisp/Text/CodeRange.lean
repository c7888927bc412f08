/-!
# Tables of code points

A property of characters is kept as a table of **ranges in ascending order**. A look-up walks the
table from the front and stops at the first range that begins beyond the code point, so a common
character is decided within a few steps.

Nothing here is specific to one property: the tables themselves stand in modules named for what they
list.
-/

namespace DottedLisp

/-- A range of code points, both ends included. -/
structure CodeRange where
  /-- The first code point of the range. -/
  first : Nat
  /-- The last code point of the range. -/
  last : Nat
  deriving Repr, DecidableEq

namespace CodeRange

/-- The range of an **ascending** table that holds `code`, if one does. -/
def find? (code : Nat) : List CodeRange → Option CodeRange
  | [] => none
  | range :: rest =>
    if code < range.first then none
    else if code ≤ range.last then some range
    else find? code rest

/-- Whether an ascending table holds the character. -/
def member (table : List CodeRange) (c : Char) : Bool :=
  (find? c.toNat table).isSome

/-- A range that is found does hold the code point. -/
theorem mem_of_find?_eq_some {code : Nat} {table : List CodeRange} {range : CodeRange}
    (h : find? code table = some range) :
    range ∈ table ∧ range.first ≤ code ∧ code ≤ range.last := by
  induction table with
  | nil => simp [find?] at h
  | cons head rest ih =>
    rw [find?] at h
    split at h
    · simp at h
    · split at h
      · cases h
        exact ⟨List.mem_cons_self, by omega, by omega⟩
      · obtain ⟨hmem, hbounds⟩ := ih h
        exact ⟨List.mem_cons_of_mem _ hmem, hbounds⟩

end CodeRange

end DottedLisp
