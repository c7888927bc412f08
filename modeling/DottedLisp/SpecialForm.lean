import DottedLisp.Form

/-!
# Special forms

The lists that are not calls: those whose first item is one of thirteen keywords. The table is
consulted before anything is looked up, so no binding can change what these words mean at the head
of a list.
-/

namespace DottedLisp

/-- The special forms. -/
inductive SpecialForm where
  /-- Bind a constant in a namespace. -/
  | constant
  /-- Bind a variable in a scope. -/
  | localVariable
  /-- Give a variable a new value. -/
  | assignment
  /-- Evaluate forms in another namespace. -/
  | enterNamespace
  /-- Bind an identifier of another namespace. -/
  | use
  /-- Evaluate forms in a fresh scope. -/
  | block
  /-- Choose one of two forms. -/
  | conditional
  /-- Repeat a body. -/
  | loop
  /-- Leave a loop. -/
  | leave
  /-- Run a loop's body again. -/
  | again
  /-- Define a function. -/
  | function
  /-- Define a function whose body is a loop. -/
  | recursiveFunction
  /-- Make a function without a name. -/
  | closure
  deriving Repr, DecidableEq

namespace SpecialForm

/-- The word that a special form begins with. -/
def keyword : SpecialForm → String
  | constant => "const"
  | localVariable => "let"
  | assignment => "set"
  | enterNamespace => "namespace"
  | use => "use"
  | block => "do"
  | conditional => "if"
  | loop => "loop"
  | leave => "break"
  | again => "recur"
  | function => "defn"
  | recursiveFunction => "defnr"
  | closure => "fn"

/-- All special forms. -/
def all : List SpecialForm :=
  [constant, localVariable, assignment, enterNamespace, use, block, conditional, loop, leave, again,
   function, recursiveFunction, closure]

/-- The special form with a given keyword. -/
def ofKeyword? (word : String) : Option SpecialForm :=
  all.find? fun form => form.keyword = word

example : ∀ form ∈ all, ofKeyword? form.keyword = some form := by decide

end SpecialForm

namespace Form

/-- The special form that begins with this form, if it is a keyword. -/
def special? : Form → Option SpecialForm
  | symbol name => SpecialForm.ofKeyword? name
  | _ => none

end Form

end DottedLisp
