import DottedLisp.Text.Fields

/-!
# Names

A **path** names a namespace: segments joined by dots, the first of which names the module. A **full
name** is a path, a dot and an identifier. Whether a name is full is decided by its *first* dot, and
where a full name is cut by its *last* one.

A full name may be written relative to the namespace it stands in: `module.` and `current.` stand
for the module and the path of that namespace, and each leading `parent.` goes one segment up.
-/

namespace DottedLisp.Name

/-- Whether a name is a full name: it has a dot, and does not begin with one. -/
def isFull (name : String) : Bool :=
  match name.toList with
  | [] => false
  | first :: rest => first ≠ '.' && rest.contains '.'

/-- The module of a path: its first segment. -/
def moduleOf (path : String) : String :=
  String.ofList (path.toList.takeWhile (· ≠ '.'))

/-- Cut a full name at its last dot into a path and an identifier, neither of them empty. -/
def split? (name : String) : Option (String × String) :=
  match Text.cutLast? '.' name.toList with
  | some (p :: path, i :: identifier) =>
    some (String.ofList (p :: path), String.ofList (i :: identifier))
  | _ => none

/-! ### Relative names -/

/-- Put a name under a path. -/
def join (path name : String) : String :=
  path ++ "." ++ name

/-- Go up from a path once for each leading `parent.` of a name, then down to what is left of the
name. A path of one segment has no parent: the answer then is what was left of the name **after**
the step that failed. -/
def ascend (path : List Char) : List Char → Except String String
  | 'p' :: 'a' :: 'r' :: 'e' :: 'n' :: 't' :: '.' :: rest =>
    match Text.cutLast? '.' path with
    | some (parent, _) => ascend parent rest
    | none => .error (String.ofList rest)
  | name => .ok (join (String.ofList path) (String.ofList name))

/-- What is left of a text after a given beginning. -/
def after? (beginning : String) (name : String) : Option String :=
  (List.isPrefixOf? beginning.toList name.toList).map String.ofList

/-- Make a name absolute, seen from a namespace with the given module and path. A name without a
relative beginning stays as it is. -/
def normalize (name moduleName current : String) : Except String String :=
  match after? "module." name with
  | some rest => .ok (join moduleName rest)
  | none =>
    match after? "current." name with
    | some rest => .ok (join current rest)
    | none =>
      match after? "parent." name with
      | some _ => ascend current.toList name.toList
      | none => .ok name

example : isFull "a.b" ∧ ¬ isFull ".a.b" ∧ ¬ isFull "a" ∧ isFull "a." := by decide

example : split? "a.b.c" = some ("a.b", "c") ∧ split? ".c" = none ∧ split? "a." = none := by decide

example : moduleOf "a.b.c" = "a" ∧ moduleOf "a" = "a" := by decide

example : normalize "parent.parent.x" "a" "a.b.c" = .ok "a.x" := rfl

example : normalize "parent.parent.parent.x" "a" "a.b" = .error "parent.x" := rfl

end DottedLisp.Name
