import DottedLisp.Fault
import DottedLisp.Module.Path
import DottedLisp.Text.Blank

/-!
# The host

What lies outside an interpreter: variables, directories and files, all of them values. The tree
below the current directory is listed, and paths are walked in it. Whatever else the system knows,
at absolute paths, above the current directory or behind links, is one function that says what is at
a path; nothing is assumed of it.

A look at a path ends in one of **three** ways: there is a regular file, whether it can be read or
not; there is none; or the system refuses, as it does for a name that is too long, or in a directory
that must not be searched. A search for a module ends with the first refusal.

Three variables matter. One lists the roots that modules are searched under, one names the default
namespace, one gives the suffix of module files. A variable that is **empty** counts as not set.
-/

namespace DottedLisp

/-- What is at a path. -/
inductive Look where
  /-- A regular file with its text. -/
  | file (text : String)
  /-- A regular file whose text cannot be had. -/
  | unreadable (error : HostError)
  /-- No regular file: nothing at all, or a directory. -/
  | nothing
  /-- The system does not say. -/
  | refused (error : HostError)
  deriving Repr, DecidableEq

/-- Whether there is a regular file. -/
def Look.isFile : Look → Bool
  | file _ | unreadable _ => true
  | nothing | refused _ => false

/-- Variables, directories and files. -/
structure Host where
  /-- The variables that are set. -/
  variableValues : List (String × String)
  /-- The directories below the current one, by their parts. -/
  directories : List (List String)
  /-- The files with their texts, by their parts. -/
  files : List (List String × String)
  /-- What is at the paths that lead to none of these files. -/
  elsewhere : Path → Look

namespace Host

/-- A host without variables and files. -/
def empty : Host := ⟨[], [], [], fun _ => .nothing⟩

/-! ### Files -/

/-- Set a variable. -/
def setVariable (h : Host) (name value : String) : Host :=
  { h with variableValues := (name, value) :: h.variableValues.filter fun entry => entry.1 ≠ name }

/-- Make a directory and those around it. -/
def addDirectory (h : Host) (parts : List String) : Host :=
  { h with directories := (List.range (parts.length + 1)).map parts.take ++ h.directories }

/-- Write a file, in a directory that is made for it. -/
def write (h : Host) (parts : List String) (text : String) : Host :=
  let h := h.addDirectory parts.dropLast
  { h with files := (parts, text) :: h.files.filter fun entry => entry.1 ≠ parts }

/-- Delete a file. -/
def delete (h : Host) (parts : List String) : Host :=
  { h with files := h.files.filter fun entry => entry.1 ≠ parts }

/-- Whether there is a directory. -/
def isDirectory (h : Host) (parts : List String) : Bool :=
  parts.isEmpty || h.directories.contains parts

/-- How many bytes a name may have. -/
def nameLimit : Nat := 255

/-- How many bytes are too many for a path. -/
def pathLimit : Nat := 4096

/-- Walk from a directory along parts, each step taken from a directory. A part that is too long
ends the walk with an error, if it is come to at all. -/
def walk (h : Host) (origin : List String) :
    List String → Except HostError (Option (List String))
  | [] => .ok (some origin)
  | part :: rest =>
    if !h.isDirectory origin then .ok none
    else if nameLimit < part.utf8ByteSize then .error .nameTooLong
    else if part ≠ ".." then h.walk (origin ++ [part]) rest
    else if origin.isEmpty then .ok none
    else h.walk origin.dropLast rest

/-- What is at a path. A text with a null character is no path at all. -/
def look (h : Host) (p : Path) : Look :=
  if p.text.toList.contains '\x00' then .nothing
  else if pathLimit ≤ p.text.utf8ByteSize then .refused .nameTooLong
  else if p.anchor ≠ .here then h.elsewhere p
  else
    match h.walk [] p.parts with
    | .error error => .refused error
    | .ok place =>
      match place.bind fun parts => h.files.lookup parts with
      | some text => .file text
      | none => h.elsewhere p

/-- Every line end of a file is read as one line feed. -/
def unifyLineEnds : List Char → List Char
  | '\r' :: '\n' :: rest => '\n' :: unifyLineEnds rest
  | '\r' :: rest => '\n' :: unifyLineEnds rest
  | c :: rest => c :: unifyLineEnds rest
  | [] => []

/-! ### Variables -/

/-- The value of a variable; an empty one counts as not set. -/
def valueOf? (h : Host) (name : String) : Option String :=
  (h.variableValues.lookup name).filter fun value => !value.isEmpty

/-- The variable that lists roots. -/
def rootsVariable : String := "NSLISP_MODULES_PATH"

/-- The variable that names the default namespace. -/
def namespaceVariable : String := "NSLISP_DEFAULT_NAMESPACE"

/-- The variable that gives the suffix of module files. -/
def suffixVariable : String := "NSLISP_MODULE_SUFFIX"

/-- The paths that a variable lists between colons, trimmed, blank ones left out; if it is not set,
the given ones. -/
def pathsFrom (h : Host) (variableName : String) (defaults : List Path) : List Path :=
  match h.valueOf? variableName with
  | none => defaults
  | some raw =>
    let entries := (Text.fields ':' raw.toList).map fun entry => Text.trim (String.ofList entry)
    (entries.filter fun entry => !entry.isEmpty).map Path.ofText

/-- The roots that modules are searched under. -/
def roots (h : Host) : List Path :=
  h.pathsFrom rootsVariable [.here]

/-- The namespace of code that names none. -/
def defaultNamespace (h : Host) : String :=
  (h.valueOf? namespaceVariable).getD "user"

/-- The suffix of module files, with a dot in front. -/
def suffix (h : Host) : String :=
  let suffix := (h.valueOf? suffixVariable).getD ".nsl"
  if suffix.toList.head? = some '.' then suffix else "." ++ suffix

/-! ### Modules -/

/-- The path of a file under the **first** root that has one. A look that is refused before that
ends the search. -/
def locate? (h : Host) (file : Path) : List Path → Except HostError (Option Path)
  | [] => .ok none
  | root :: rest =>
    match h.look (root.join file) with
    | .file _ | .unreadable _ => .ok (some (root.join file))
    | .nothing => h.locate? file rest
    | .refused error => .error error

/-- Find the file of a module. The roots are given, or else those of the host. -/
def resolve (h : Host) (roots : Option (List Path)) (name : String) :
    Except Failure (Option Path) :=
  match Path.ofModule? name h.suffix with
  | some file => (h.locate? file (roots.getD h.roots)).mapError .host
  | none => .error .moduleUnnamed

/-- The text of a file, line ends made one. -/
def read (h : Host) (p : Path) : Except HostError String :=
  match h.look p with
  | .file text => .ok (String.ofList (unifyLineEnds text.toList))
  | .unreadable error | .refused error => .error error
  | .nothing => .error .notFound

/-- The text of a module, if it has a file. -/
def moduleText (h : Host) (roots : Option (List Path)) (name : String) :
    Except Failure (Option String) :=
  match h.resolve roots name with
  | .ok (some found) => ((h.read found).mapError .host).map some
  | .ok none => .ok none
  | .error failure => .error failure

end Host

end DottedLisp
