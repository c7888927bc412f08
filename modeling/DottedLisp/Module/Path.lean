import DottedLisp.Text.Fields

/-!
# File paths

A path is where it starts and the parts below. Empty parts and single dots vanish when a path is
read; double dots stay, for the host to walk. Of leading slashes one or more make a path absolute,
and **exactly two** are kept apart from one.
-/

namespace DottedLisp

/-- Where a path starts. -/
inductive Anchor where
  /-- At the current directory. -/
  | here
  /-- At the root. -/
  | root
  /-- At the root that exactly two slashes name. -/
  | doubleRoot
  deriving Repr, DecidableEq

/-- A file path. -/
structure Path where
  /-- Where it starts. -/
  anchor : Anchor
  /-- The parts below, the outermost first. -/
  parts : List String
  deriving Repr, DecidableEq

namespace Path

/-- The current directory. -/
def here : Path := ⟨.here, []⟩

/-- Where a text starts as a path. -/
def anchorOf : List Char → Anchor
  | '/' :: '/' :: '/' :: _ => .root
  | '/' :: '/' :: _ => .doubleRoot
  | '/' :: _ => .root
  | _ => .here

/-- Whether a part of a path says anything. -/
def isProper (part : List Char) : Bool :=
  part ≠ [] && part ≠ ['.']

/-- Read a path. -/
def ofText (s : String) : Path :=
  ⟨anchorOf s.toList, ((Text.fields '/' s.toList).filter isProper).map String.ofList⟩

/-- Go on from one path along another; an absolute path starts anew. -/
def join (p q : Path) : Path :=
  if q.anchor = .here then ⟨p.anchor, p.parts ++ q.parts⟩ else q

/-- The text of an anchor. -/
def anchorText : Anchor → String
  | .here => ""
  | .root => "/"
  | .doubleRoot => "//"

/-- The text of a path. -/
def text (p : Path) : String :=
  if p.parts.isEmpty && p.anchor = .here then "."
  else anchorText p.anchor ++ "/".intercalate p.parts

/-- Whether a text can be the suffix of a file name: more than a dot, and no slash in it. -/
def isSuffix (suffix : String) : Bool :=
  suffix ≠ "." && !suffix.toList.contains '/'

/-- Put a suffix behind the last part. A path without parts has no name to put it behind. -/
def withSuffix? (p : Path) (suffix : String) : Option Path :=
  match p.parts.getLast? with
  | some name =>
    if isSuffix suffix then some { p with parts := p.parts.dropLast ++ [name ++ suffix] }
    else none
  | none => none

/-- The file of a module, relative to a root: its segments are directories, the last one the file
without its suffix. -/
def ofModule? (name suffix : String) : Option Path :=
  let segments := (Text.fields '.' name.toList).map fun segment => ofText (String.ofList segment)
  (segments.foldl join here).withSuffix? suffix

example : (ofText "./a//b/.").text = "a/b" ∧ (ofText "").text = "." := by decide

example : (ofText "a/../b").text = "a/../b" := by decide

example : (ofModule? "a.b" ".x").map text = some "a/b.x" ∧ ofModule? "" ".x" = none := by decide

end Path

end DottedLisp
