import DottedLisp.Fault
import DottedLisp.Number.Integer
import DottedLisp.Number.Remainder
import DottedLisp.Value

/-!
# Native operations

What the native functions compute, and the catalogue of those that every interpreter starts with.
There is one numeric type; the operations named for 64-bit integers work on the **words** of their
operands where they work on bits, and on the numbers themselves everywhere else.

An operation that cannot work on its arguments, or is given the wrong number of them, has no result;
the call then reports the native function by name. Equality, inequality, `val` and `not` work on
every value.
-/

namespace DottedLisp

namespace Operation

/-- An operation on two numbers. -/
def onNumbers (f : Float → Float → Float) : List Value → Option Value
  | [.number x, .number y] => some (.number (f x y))
  | _ => none

/-- An operation on one number. -/
def onNumber (f : Float → Float) : List Value → Option Value
  | [.number x] => some (.number (f x))
  | _ => none

/-- A test of two numbers. -/
def comparing (f : Float → Float → Bool) : List Value → Option Value
  | [.number x, .number y] => some (.ofBool (f x y))
  | _ => none

/-- An operation on the words of two numbers. -/
def onWords (f : BitVec 64 → BitVec 64 → BitVec 64) : List Value → Option Value :=
  onNumbers fun x y => Number.ofWord (f (Number.toWord x) (Number.toWord y))

/-- A shift of a word by the low six bits of another. -/
def shifting (f : BitVec 64 → Nat → BitVec 64) : List Value → Option Value :=
  onNumbers fun x y => Number.ofWord (f (Number.toWord x) (Number.shiftAmount y))

/-- The remainder looks at its divisor first: a zero divisor makes it NaN **whatever** the dividend
is, and an infinite dividend makes it NaN whatever the divisor is. -/
def remainderOf : List Value → Option Value
  | [dividend, divisor] =>
    match dividend, divisor with
    | .number x, .number y => some (.number (Number.remainder x y))
    | _, .number y => if y == 0.0 then some (.number Number.notANumber) else none
    | .number x, _ => if x.isInf then some (.number Number.notANumber) else none
    | _, _ => none
  | _ => none

/-- A test of two values. -/
def testing (f : Value → Value → Bool) : List Value → Option Value
  | [a, b] => some (.ofBool (f a b))
  | _ => none

/-- What an operation gives; `none` where it has no result. -/
def run : Operation → List Value → Option Value
  | add => onNumbers (· + ·)
  | subtract => onNumbers (· - ·)
  | multiply => onNumbers (· * ·)
  | divide => onNumbers (· / ·)
  | remainder => remainderOf
  | bitAnd => onWords (· &&& ·)
  | bitOr => onWords (· ||| ·)
  | bitXor => onWords (· ^^^ ·)
  | shiftLeft => shifting (· <<< ·)
  | shiftRight => shifting BitVec.sshiftRight
  | shiftRightUnsigned => shifting (· >>> ·)
  | equal => testing Value.same
  | unequal => testing fun a b => !a.same b
  | less => comparing (· < ·)
  | greater => comparing (· > ·)
  | lessEqual => comparing (· ≤ ·)
  | greaterEqual => comparing (· ≥ ·)
  | absolute => onNumber Float.abs
  | negate => onNumber Float.neg
  | ceiling => onNumber (Number.roundToInteger .up)
  | floor => onNumber (Number.roundToInteger .down)
  | truncate => onNumber (Number.roundToInteger .towardZero)
  | nearest => onNumber (Number.roundToInteger .toNearest)
  | squareRoot => onNumber Float.sqrt
  | itself => fun
    | [value] => some value
    | _ => none
  | logicalAnd => comparing fun x y => Number.toWord x &&& Number.toWord y != 0
  | logicalOr => comparing fun x y => Number.toWord x ||| Number.toWord y != 0
  | logicalNot => fun
    | [.number x] => some (.ofBool (x == 0.0))
    | [_] => some (.ofBool false)
    | _ => none
  | declared => fun _ => none

end Operation

/-- Call a native function on values, however many there are. -/
def Native.call (n : Native) (arguments : List Value) : Except Fault Value :=
  if n.operation = .declared then .error (.notImplemented n.name)
  else
    match n.operation.run arguments with
    | some value => .ok value
    | none => .error (.argumentType n.name)

/-! ### The catalogue -/

namespace Native

/-- A group of native functions that share a namespace: identifiers with arities and operations, in
order. -/
structure Group where
  /-- The path of the namespace. -/
  path : String
  /-- The functions. -/
  entries : List (String × Nat × Operation)

/-- The native functions of a group with their identifiers. -/
def Group.natives (g : Group) : List (String × Native) :=
  g.entries.map fun (identifier, arity, operation) =>
    (identifier, ⟨g.path ++ "." ++ identifier, arity, operation⟩)

/-- Identifiers that are declared only. -/
def declaring (arity : Nat) (identifiers : List String) : List (String × Nat × Operation) :=
  identifiers.map fun identifier => (identifier, arity, .declared)

/-- Operations named for 64-bit integers. -/
def i64 : Group where
  path := "native.i64"
  entries :=
    [("add", 2, .add), ("sub", 2, .subtract), ("mul", 2, .multiply), ("div_s", 2, .divide),
     ("rem_s", 2, .remainder),
     ("and", 2, .bitAnd), ("or", 2, .bitOr), ("xor", 2, .bitXor), ("shl", 2, .shiftLeft),
     ("shr_s", 2, .shiftRight), ("shr_u", 2, .shiftRightUnsigned),
     ("eq", 2, .equal), ("ne", 2, .unequal), ("lt_s", 2, .less), ("gt_s", 2, .greater),
     ("le_s", 2, .lessEqual), ("ge_s", 2, .greaterEqual)]
    ++ declaring 2 ["div_u", "rem_u", "lt_u", "gt_u", "le_u", "ge_u"]
    ++ declaring 1
      ["extend_i32_s", "extend_i32_u", "trunc_f32_s", "trunc_f32_u", "trunc_f64_s", "trunc_f64_u"]

/-- Operations named for 64-bit floating-point numbers. -/
def f64 : Group where
  path := "native.f64"
  entries :=
    [("add", 2, .add), ("sub", 2, .subtract), ("mul", 2, .multiply), ("div", 2, .divide),
     ("eq", 2, .equal), ("ne", 2, .unequal), ("lt", 2, .less), ("gt", 2, .greater),
     ("le", 2, .lessEqual), ("ge", 2, .greaterEqual),
     ("abs", 1, .absolute), ("neg", 1, .negate), ("ceil", 1, .ceiling), ("floor", 1, .floor),
     ("trunc", 1, .truncate), ("nearest", 1, .nearest), ("sqrt", 1, .squareRoot)]
    ++ declaring 1 ["promote", "convert_i32_s", "convert_i32_u", "convert_i64_s", "convert_i64_u"]

/-- Operations named for 32-bit integers. -/
def i32 : Group where
  path := "native.i32"
  entries :=
    declaring 2
      ["add", "sub", "mul", "div_s", "div_u", "rem_s", "rem_u", "and", "or", "xor", "shl", "shr_s",
       "shr_u", "eq", "ne", "lt_s", "lt_u", "gt_s", "gt_u", "le_s", "le_u", "ge_s", "ge_u"]
    ++ declaring 1 ["wrap", "trunc_f32_s", "trunc_f32_u", "trunc_f64_s", "trunc_f64_u"]

/-- Operations named for 32-bit floating-point numbers. -/
def f32 : Group where
  path := "native.f32"
  entries :=
    declaring 2 ["add", "sub", "mul", "div", "eq", "ne", "lt", "gt", "le", "ge"]
    ++ declaring 1
      ["abs", "neg", "ceil", "floor", "trunc", "nearest", "sqrt", "demote", "convert_i32_s",
       "convert_i32_u", "convert_i64_s", "convert_i64_u"]

/-- Identity and logic. -/
def builtin : Group where
  path := "builtin"
  entries :=
    [("val", 1, .itself), ("and", 2, .logicalAnd), ("or", 2, .logicalOr), ("not", 1, .logicalNot)]

/-- The groups that every interpreter starts with, in order. -/
def catalogue : List Group :=
  [i64, f64, i32, f32, builtin]

end Native

end DottedLisp
