import DottedLisp.Form

/-!
# Values and contexts

Functions are closures: they keep the context in which they were made. A **context** is the top
level of a namespace, or a scope inside another context; the whole chain is part of the context
itself, so every chain ends in a namespace. What the scopes and namespaces *bind* is not here but in
the `World`.

Functions, native ones too, are the same only if they are one object. Each carries the **stamp** it
was given when it was made.
-/

namespace DottedLisp

/-- Which namespace, in order of creation. -/
structure NamespaceId where
  /-- How many namespaces were made before. -/
  index : Nat
  deriving Repr, DecidableEq

/-- Which scope, in order of creation. -/
structure ScopeId where
  /-- How many scopes were made before. -/
  index : Nat
  deriving Repr, DecidableEq

/-- Where identifiers are looked up and bound. -/
inductive Context where
  /-- The top level of a namespace. -/
  | top (id : NamespaceId)
  /-- A scope inside another context. -/
  | scope (id : ScopeId) (outer : Context)
  deriving Repr, DecidableEq

namespace Context

/-- The namespace that ends the chain. -/
def home : Context → NamespaceId
  | top id => id
  | scope _ outer => outer.home

/-- The scopes of the chain, the innermost first. -/
def scopes : Context → List ScopeId
  | top _ => []
  | scope id outer => id :: outer.scopes

/-- Whether the context is the top level of a namespace. -/
def isTop : Context → Bool
  | top _ => true
  | scope .. => false

end Context

/-! ### Functions -/

/-- The native operations. -/
inductive Operation where
  | add | subtract | multiply | divide | remainder
  | bitAnd | bitOr | bitXor | shiftLeft | shiftRight | shiftRightUnsigned
  | equal | unequal | less | greater | lessEqual | greaterEqual
  | absolute | negate | ceiling | floor | truncate | nearest | squareRoot
  | itself | logicalAnd | logicalOr | logicalNot
  /-- Declared, and refused when called. -/
  | declared
  deriving Repr, DecidableEq

/-- A native function. -/
structure Native where
  /-- Its full name. -/
  name : String
  /-- How many arguments a call gives it. -/
  arity : Nat
  /-- What it does. -/
  operation : Operation
  deriving Repr, DecidableEq

/-- The kinds of functions that programs define. -/
inductive FunctionKind where
  /-- Defined under a name. -/
  | named
  /-- Without a name. -/
  | anonymous
  /-- Defined under a name, with a body that is a loop. -/
  | recursive
  deriving Repr, DecidableEq

/-- A function that a program defined. -/
structure Function where
  /-- Its kind. -/
  kind : FunctionKind
  /-- Its name; that of an anonymous function is fixed. -/
  name : String
  /-- The names of its parameters. -/
  parameters : List String
  /-- Its body. -/
  body : Form
  /-- The context it was made in. -/
  context : Context
  /-- Which function object it is. -/
  stamp : Nat
  deriving DecidableEq

/-- The name of every anonymous function. -/
def Function.anonymousName : String := "lambda"

/-! ### Values -/

/-- How a control path of a loop ends. -/
inductive Signal where
  /-- The loop is left. -/
  | leave
  /-- The body runs again. -/
  | again
  deriving Repr, DecidableEq

/-- What evaluation gives. A signal is a value only on its way from the end of a control path to the
loop that takes it. -/
inductive Value where
  /-- The value of an empty block. -/
  | nothing
  /-- A number. -/
  | number (value : Float)
  /-- A native function and its stamp. -/
  | native (function : Native) (stamp : Nat)
  /-- A function that a program defined. -/
  | function (function : Function)
  /-- A loop signal with the values it carries. -/
  | signal (signal : Signal) (values : List Value)
  deriving Inhabited

namespace Value

/-- Whether a value is a loop signal. -/
def isSignal : Value → Bool
  | signal .. => true
  | _ => false

/-- Whether two values count as equal: numbers by value, functions by identity. -/
def same : Value → Value → Bool
  | number x, number y => x == y
  | nothing, nothing => true
  | native _ stamp, native _ stamp' => stamp = stamp'
  | function f, function g => f.stamp = g.stamp
  | _, _ => false

/-- Whether a value counts as true: only the number one does. -/
def isTrue : Value → Bool
  | number x => x == 1.0
  | _ => false

/-- The number of a truth value. -/
def ofBool (b : Bool) : Value :=
  number (if b then 1.0 else 0.0)

mutual

/-- Equality of values is decidable. Unlike `same` it tells the zeros apart. -/
def decEq : (a b : Value) → Decidable (a = b)
  | nothing, nothing => .isTrue rfl
  | number x, number y =>
    if h : x = y then .isTrue (h ▸ rfl) else .isFalse fun h' => h (Value.number.inj h')
  | native m s, native n t =>
    if h : m = n ∧ s = t then .isTrue (h.1 ▸ h.2 ▸ rfl)
    else .isFalse fun h' => h (Value.native.inj h')
  | function f, function g =>
    if h : f = g then .isTrue (h ▸ rfl) else .isFalse fun h' => h (Value.function.inj h')
  | signal s xs, signal t ys =>
    match decEqs xs ys with
    | .isTrue h =>
      if h' : s = t then .isTrue (h ▸ h' ▸ rfl) else .isFalse fun e => h' (Value.signal.inj e).1
    | .isFalse h => .isFalse fun e => h (Value.signal.inj e).2
  | nothing, number _ | nothing, native .. | nothing, function _ | nothing, signal ..
  | number _, nothing | number _, native .. | number _, function _ | number _, signal ..
  | native .., nothing | native .., number _ | native .., function _ | native .., signal ..
  | function _, nothing | function _, number _ | function _, native .. | function _, signal ..
  | signal .., nothing | signal .., number _ | signal .., native .. | signal .., function _ =>
    .isFalse (by simp)

/-- Equality of lists of values is decidable. -/
def decEqs : (as bs : List Value) → Decidable (as = bs)
  | [], [] => .isTrue rfl
  | a :: as, b :: bs =>
    match decEq a b, decEqs as bs with
    | .isTrue h, .isTrue h' => .isTrue (h ▸ h' ▸ rfl)
    | .isFalse h, _ => .isFalse fun h' => h (List.cons.inj h').1
    | _, .isFalse h => .isFalse fun h' => h (List.cons.inj h').2
  | [], _ :: _ | _ :: _, [] => .isFalse (by simp)

end

instance : DecidableEq Value := decEq

end Value

/-! ### Texts -/

/-- The word that defines a kind of function. -/
def FunctionKind.keyword : FunctionKind → String
  | named => "defn"
  | anonymous => "fn"
  | recursive => "defnr"

/-- The text of a function: how it was defined, without its body. -/
def Function.text (f : Function) : String :=
  let name := if f.kind = .anonymous then "" else f.name ++ " "
  "(" ++ f.kind.keyword ++ " " ++ name ++ "(" ++ " ".intercalate f.parameters ++ ") ...)"

/-- The text of a native function. -/
def Native.text (n : Native) : String :=
  "<native " ++ n.name ++ "/" ++ toString n.arity ++ ">"

/-- The word for a signal. -/
def Signal.label : Signal → String
  | leave => "Stop"
  | again => "Continue"

namespace Value

mutual

/-- The text of a value. -/
def text : Value → String
  | nothing => "None"
  | number x => Number.text x
  | native n _ => n.text
  | function f => f.text
  | signal s values => s.label ++ "([" ++ ", ".intercalate (texts values) ++ "])"

/-- The texts of several values. -/
def texts : List Value → List String
  | [] => []
  | value :: rest => value.text :: texts rest

end

end Value

end DottedLisp
