import DottedLisp.Value

/-!
# Bindings

What one namespace or scope binds: identifiers with values, **in the order in which they were
bound**. A new value for an identifier that is bound takes the place of the old one.
-/

namespace DottedLisp

/-- Identifiers with their values, the oldest first. -/
structure Bindings where
  /-- The entries in order. -/
  entries : List (String × Value)
  deriving Inhabited, DecidableEq

namespace Bindings

/-- Nothing bound. -/
def empty : Bindings := ⟨[]⟩

/-- The value of an identifier. -/
def get? (b : Bindings) (name : String) : Option Value :=
  b.entries.lookup name

/-- Whether an identifier is bound. -/
def binds (b : Bindings) (name : String) : Bool :=
  (b.get? name).isSome

/-- Bind an identifier that is not bound. -/
def insert (b : Bindings) (name : String) (value : Value) : Bindings :=
  ⟨b.entries ++ [(name, value)]⟩

/-- Give a bound identifier a new value. -/
def replace (b : Bindings) (name : String) (value : Value) : Bindings :=
  ⟨b.entries.map fun entry => if entry.1 = name then (name, value) else entry⟩

/-- The bound identifiers in order. -/
def names (b : Bindings) : List String :=
  b.entries.map Prod.fst

/-- How many identifiers are bound. -/
def size (b : Bindings) : Nat :=
  b.entries.length

/-! ### How the operations change look-ups -/

@[simp] theorem get?_empty (name : String) : empty.get? name = none := rfl

@[simp] theorem names_empty : empty.names = [] := rfl

/-- A new binding goes behind the others. -/
@[simp] theorem names_insert (b : Bindings) (name : String) (value : Value) :
    (b.insert name value).names = b.names ++ [name] := by
  simp [names, insert]

/-- Replacing keeps the names and their order. -/
@[simp] theorem names_replace (b : Bindings) (name : String) (value : Value) :
    (b.replace name value).names = b.names := by
  simp only [names, replace, List.map_map]
  apply List.map_congr_left
  intro entry _
  by_cases h : entry.1 = name <;> simp [h]

/-- A new binding is found. -/
theorem get?_insert_self {b : Bindings} {name : String} {value : Value} (h : b.get? name = none) :
    (b.insert name value).get? name = some value := by
  simp only [get?, insert] at *
  rw [List.lookup_append, h]
  simp

/-- Other identifiers are not affected. -/
theorem get?_insert_of_ne {b : Bindings} {name other : String} {value : Value} (h : other ≠ name) :
    (b.insert name value).get? other = b.get? other := by
  simp only [get?, insert]
  rw [List.lookup_append]
  have hne : (other == name) = false := by simpa using h
  simp [List.lookup_cons, hne]

/-- Replacing a value does not affect other identifiers. -/
theorem get?_replace_of_ne {b : Bindings} {name other : String} {value : Value} (h : other ≠ name) :
    (b.replace name value).get? other = b.get? other := by
  obtain ⟨entries⟩ := b
  simp only [get?, replace]
  induction entries with
  | nil => rfl
  | cons entry rest ih =>
    rw [List.map_cons, List.lookup_cons, List.lookup_cons, ih]
    by_cases hentry : entry.1 = name
    · have hne : (other == name) = false := by simpa using h
      simp [hentry, hne]
    · simp [hentry]

/-- The value that replaced another one is found, if there was one to replace. -/
theorem get?_replace_self {b : Bindings} {name : String} {value : Value} (h : b.binds name = true) :
    (b.replace name value).get? name = some value := by
  obtain ⟨entries⟩ := b
  simp only [binds, get?, replace] at *
  induction entries with
  | nil => cases h
  | cons entry rest ih =>
    rw [List.map_cons, List.lookup_cons]
    by_cases hentry : entry.1 = name
    · simp [hentry]
    · have hne : (name == entry.1) = false := by simpa using Ne.symm hentry
      rw [List.lookup_cons, hne] at h
      simp [hentry, hne, ih h]

end Bindings

end DottedLisp
