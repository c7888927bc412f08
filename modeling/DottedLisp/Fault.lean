import DottedLisp.Form
import DottedLisp.Token

/-!
# Faults

Everything that can be wrong with a text, a name or a program, **by cause**. Each cause has a
category, a code, data that name what is concerned, and a message; all four are computed here and
nowhere else.

Two causes concern the places of `break` and `recur`. They are told apart by **who noticed**: a
`placement` fault comes from the check that runs before evaluation, while `strayed` and `unended`
come from the guards of the evaluator itself. Their texts are the same.
-/

namespace DottedLisp

/-- How a form misplaces `break` or `recur`. -/
inductive Violation where
  /-- The keyword stands where a value is needed. -/
  | misplaced (keyword : String)
  /-- A control path of the owner's body ends without one of them. -/
  | unended (owner : String)
  deriving Repr, DecidableEq

/-- What went wrong. -/
inductive Fault where
  /-- A character that no token can hold, or that cannot start one. -/
  | lexical (fault : LexicalFault)
  /-- A closing parenthesis with nothing to close. -/
  | unexpectedClose
  /-- A list that is not closed before the end. -/
  | unmatchedOpen
  /-- A text without any form. -/
  | emptyInput
  /-- A full name without a path or without an identifier. -/
  | malformedFullName (name : String)
  /-- A relative name that climbs beyond the module; what was left of it. -/
  | beyondModule (rest : String)
  /-- Something that cannot be bound: no symbol, or a full name. -/
  | undefinable (form : Form)
  /-- An identifier that is bound already. -/
  | alreadyBound (name : String)
  /-- An identifier that is not bound. -/
  | unbound (name : String)
  /-- A path under which no namespace is registered. -/
  | unknownNamespace (path : String)
  /-- A form or call with the wrong number of operands. -/
  | operandCount (name : String) (actual expected : Nat)
  /-- A `const` form outside a namespace's top level. -/
  | constPlace
  /-- A `let` form outside a scope. -/
  | letPlace
  /-- A `set` form outside a scope. -/
  | setPlace
  /-- A function definition outside a namespace's top level; how its message begins. -/
  | definitionPlace (keyword : String)
  /-- A `use` form outside a namespace's top level. -/
  | usePlace
  /-- A `set` form whose target is no symbol. -/
  | assignmentTarget (form : Form)
  /-- A parameter list that is no list. -/
  | parameterList (form : Form)
  /-- A parameter that is no plain identifier. -/
  | parameterName (form : Form)
  /-- Initial values of a loop that are no list. -/
  | initialValues (form : Form)
  /-- A name was needed. -/
  | nameExpected (form : Form)
  /-- A form that means nothing. -/
  | meaningless (form : Form)
  /-- A loop step with the wrong number of values. -/
  | loopArguments (actual expected : Nat)
  /-- A loop left with more or less than one value. -/
  | loopResult (actual : Nat)
  /-- A recursive function left with more or less than one value. -/
  | recursionResult (owner : String) (actual : Nat)
  /-- The placement check refused a form. -/
  | placement (violation : Violation)
  /-- A loop signal reached a place where a value is needed. -/
  | strayed (keyword : String)
  /-- The body of a loop or recursive function ended without a signal. -/
  | unended (owner : String)
  /-- The operator of a call is no function. -/
  | notAFunction (operator : Form)
  /-- A native operation was given something it cannot work on. -/
  | argumentType (native : String)
  /-- A native operation that is declared only. -/
  | notImplemented (native : String)
  deriving DecidableEq

namespace Fault

/-! ### Category, code, data, message -/

/-- The three kinds of faults. -/
inductive Category where
  /-- An identifier or namespace is missing, or bound twice. -/
  | identifier
  /-- A text or form is malformed or misplaced. -/
  | form
  /-- A call cannot be carried out. -/
  | call
  deriving Repr, DecidableEq

/-- The kind of a fault. -/
def category : Fault → Category
  | alreadyBound _ | unbound _ | unknownNamespace _ => .identifier
  | notAFunction _ | argumentType _ | notImplemented _ => .call
  | _ => .form

/-- The machine-readable code of a fault. -/
def code : Fault → String
  | lexical _ => "LEX_ERROR"
  | unexpectedClose | unmatchedOpen | emptyInput | malformedFullName _ | undefinable _
  | assignmentTarget _ | parameterList _ | parameterName _ | initialValues _ | nameExpected _
  | meaningless _ => "INVALID_EXPRESSION"
  | beyondModule _ => "RELATIVE_PATH_ERROR"
  | alreadyBound _ => "IDENTIFIER_ALREADY_EXIST"
  | unbound _ => "IDENTIFIER_NOT_FOUND"
  | unknownNamespace _ => "NAMESPACE_NOT_FOUND"
  | operandCount .. => "INCORRECT_NUMBER_OF_PARAMETERS"
  | constPlace => "INVALID_CONST_EXPRESSION_PLACE"
  | letPlace => "INVALID_LET_EXPRESSION_PLACE"
  | setPlace => "INVALID_SET_EXPRESSION_PLACE"
  | definitionPlace _ => "INVALID_DEFN_EXPRESSION_PLACE"
  | usePlace => "INVALID_USE_EXPRESSION_PLACE"
  | loopArguments .. => "INCORRECT_NUMBER_OF_LOOP_ARGS"
  | loopResult _ => "REQUIRE_LOOP_RETURN_ONE_VALUE"
  | recursionResult .. => "REQUIRE_RECURSION_FUNCTION_RETURN_ONE_VALUE"
  | placement (.misplaced _) | strayed _ => "INVALID_BREAK_RECUR_PLACE"
  | placement (.unended _) | unended _ => "REQUIRE_BREAK_OR_RECUR"
  | notAFunction _ => "IDENTIFIER_NOT_A_FUNCTION"
  | argumentType _ => "INVALID_ARGUMENT_TYPE"
  | notImplemented _ => "NOT_IMPLEMENT"

/-- One piece of data about a fault. -/
inductive Datum where
  /-- A text. -/
  | text (content : String)
  /-- A count or a position. -/
  | count (n : Nat)
  /-- A form as it was read. -/
  | form (content : Form)
  deriving DecidableEq

/-- The data of a fault, in order. -/
def data : Fault → List (String × Datum)
  | lexical f => [("char", .text (String.singleton f.char)), ("position", .count f.position)]
  | unexpectedClose => [("exp", .text ")")]
  | unmatchedOpen => [("exp", .text "(")]
  | emptyInput => [("exp", .text "")]
  | malformedFullName name => [("exp", .text name)]
  | beyondModule rest => [("relativePath", .text rest)]
  | undefinable form | assignmentTarget form | parameterList form | parameterName form
  | initialValues form | nameExpected form | meaningless form => [("exp", .form form)]
  | alreadyBound name | unbound name => [("name", .text name)]
  | unknownNamespace path => [("namePath", .text path)]
  | operandCount name actual expected =>
    [("name", .text name), ("actual", .count actual), ("expect", .count expected)]
  | constPlace | letPlace | setPlace | definitionPlace _ | usePlace => []
  | loopArguments actual expected => [("actual", .count actual), ("expect", .count expected)]
  | loopResult actual | recursionResult _ actual =>
    [("actual", .count actual), ("expect", .count 1)]
  | placement (.misplaced keyword) | strayed keyword => [("name", .text keyword)]
  | placement (.unended owner) | unended owner => [("name", .text owner)]
  | notAFunction (.symbol name) => [("name", .text name)]
  | notAFunction operator => [("name", .form operator)]
  | argumentType native | notImplemented native => [("name", .text native)]

/-- A name between double quotes. -/
def inQuotes (name : String) : String :=
  "\"" ++ name ++ "\""

/-- The message of a fault. -/
def message : Fault → String
  | lexical f =>
    "Invalid char at " ++ toString f.position ++ ": " ++ Text.quoted (String.singleton f.char)
  | unexpectedClose => "Unexpected ')'"
  | unmatchedOpen => "Unmatched '('"
  | emptyInput => "Empty input"
  | malformedFullName name => "Invalid identifier full name " ++ inQuotes name
  | beyondModule _ => "Relative path out of range."
  | undefinable form => "Cannot define " ++ form.detail ++ " as an identifier"
  | alreadyBound name => "Identifier " ++ inQuotes name ++ " has already exists"
  | unbound name => "Identifier " ++ inQuotes name ++ " not found"
  | unknownNamespace path => "Namespace " ++ inQuotes path ++ " not found"
  | operandCount name _ _ => "Incorrect number of parameters for function: " ++ inQuotes name
  | constPlace => "Const expressions can only be defined in namespaces"
  | letPlace => "Let expressions can only be defined in scopes"
  | setPlace => "Set expressions can only be used in scopes"
  | definitionPlace keyword => keyword ++ " expressions can only be defined in namespaces"
  | usePlace => "Use expressions can only be used in namespaces"
  | assignmentTarget form => "set first argument must be an identifier, got " ++ form.text
  | parameterList _ => "Parameter list expected"
  | parameterName form => "Invalid parameter name " ++ form.detail
  | initialValues _ => "Loop initial values must be a list"
  | nameExpected form => "Expected a name, got: " ++ form.detail
  | meaningless _ => "Invalid expression"
  | loopArguments _ _ => "Incorrect number of args for loop"
  | loopResult _ => "Require \"loop\" to return one value"
  | recursionResult owner _ => "Require " ++ inQuotes owner ++ " to return one value"
  | placement (.misplaced _) | strayed _ =>
    "break/recur can only end a control path of a loop or defnr body"
  | placement (.unended owner) | unended owner =>
    "Every control path of " ++ inQuotes owner ++ " must end with break or recur"
  | notAFunction operator =>
    "The specified identifier is not a function: " ++ inQuotes operator.text
  | argumentType native => "Invalid argument type for " ++ inQuotes native
  | notImplemented native => "Native function " ++ inQuotes native ++ " is not implemented"

/-! ### The text of a whole fault -/

/-- The name under which a kind of fault is reported. -/
def Category.label : Category → String
  | identifier => "NsIdentifierError"
  | form => "NsSyntaxError"
  | call => "NsEvalError"

/-- The text of a datum. -/
def Datum.detail : Datum → String
  | text content => Text.quoted content
  | count n => toString n
  | form content => content.detail

/-- The text of a fault's data: keys with their values, in order, between braces. -/
def dataText (f : Fault) : String :=
  let entries := f.data.map fun (key, datum) => Text.quoted key ++ ": " ++ datum.detail
  "\x7b" ++ ", ".intercalate entries ++ "\x7d"

/-- The report of a fault: code, message, and the data if there are any. -/
def report (f : Fault) : String :=
  let head := f.code ++ ": " ++ f.message
  if f.data.isEmpty then head else head ++ " " ++ f.dataText

/-- The detailed text of a fault, with its category. -/
def detail (f : Fault) : String :=
  let parts := [Text.quoted f.code, f.dataText, Text.quoted f.message]
  f.category.label ++ "(" ++ ", ".intercalate parts ++ ")"

end Fault

/-! ### Failures -/

/-- What the system reports when it is asked for a path, or for the text of a file. -/
inductive HostError where
  /-- It does not answer, by the number of its error. -/
  | system (number : Nat)
  /-- The file is no text. -/
  | undecodable
  deriving Repr, DecidableEq

namespace HostError

/-- A name, or a whole path, is longer than it may be. -/
def nameTooLong : HostError := .system 36

/-- There is nothing at the path. -/
def notFound : HostError := .system 2

end HostError

/-- How an operation can end without an answer. -/
inductive Failure where
  /-- Something was wrong with the program. -/
  | fault (fault : Fault)
  /-- The evaluation nests deeper than the given limit. -/
  | depthExceeded
  /-- A loop took more steps than the given limit. -/
  | stepsExceeded
  /-- No file holds the module. -/
  | moduleMissing (name : String)
  /-- No file name can be made for a module. -/
  | moduleUnnamed
  /-- The system did not look a file up, or did not give its text. -/
  | host (error : HostError)
  deriving DecidableEq

end DottedLisp
