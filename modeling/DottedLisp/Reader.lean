import DottedLisp.Fault
import DottedLisp.Number.Numeral

/-!
# The reader

Forms are read from a **stream of tokens**. The stream holds the tokens not read yet, perhaps a
fault behind the last of them, and room for one token that was looked at but not taken.

A fault is met when a token is needed that the text does not give. It is met **once**: what the
failing operation had taken is gone, and from then on the stream is at its end.

Reading keeps its own stack of open lists, so nesting costs no depth.
-/

namespace DottedLisp

/-- Read a token other than a parenthesis: a numeral is a number, anything else a symbol. -/
def Form.ofToken (token : String) : Form :=
  match Number.ofText? token with
  | some value => .number value
  | none => .symbol token

/-- Tokens that are still to be read. -/
structure TokenStream where
  /-- A token that was looked at and not taken. -/
  lookahead : Option String
  /-- The tokens behind it. -/
  tokens : List String
  /-- What stands behind the last token, if not the end. -/
  fault : Option Fault
  deriving DecidableEq

namespace TokenStream

/-- The stream of a text. -/
def ofText (source : String) : TokenStream :=
  let lexed := lex source
  ⟨none, lexed.tokens, lexed.fault.map Fault.lexical⟩

/-- The stream of given tokens. -/
def ofTokens (tokens : List String) : TokenStream :=
  ⟨none, tokens, none⟩

/-- The stream that is at its end. -/
def exhausted : TokenStream :=
  ⟨none, [], none⟩

/-- What can be done with a stream. A fault leaves the stream as far as it was read. -/
abbrev Action := EStateM Fault TokenStream

/-- Take a token from behind the lookahead. -/
def pull : Action (Option String) := fun s =>
  match s.tokens, s.fault with
  | token :: rest, _ => .ok (some token) { s with tokens := rest }
  | [], some fault => .error fault { s with fault := none }
  | [], none => .ok none s

/-- The next token, which stays in the stream. -/
def peek : Action (Option String) := fun s =>
  match s.lookahead with
  | some token => .ok (some token) s
  | none =>
    match pull s with
    | .ok token s => .ok token { s with lookahead := token }
    | .error fault s => .error fault s

/-- Take the next token. -/
def advance : Action (Option String) := fun s =>
  match s.lookahead with
  | some token => .ok (some token) { s with lookahead := none }
  | none => pull s

/-- Take all tokens. -/
def rest : Action (List String) := fun s =>
  match s.fault with
  | some fault => .error fault exhausted
  | none => .ok (s.lookahead.toList ++ s.tokens) exhausted

/-! ### Reading forms -/

/-- Read up to the parenthesis that closes the outermost open list. The items of the open lists come
last one first, the innermost list apart from those around it. `none` if the tokens end before. -/
def readList (outer : List (List Form)) (items : List Form) :
    List String → Option (Form × List String)
  | [] => none
  | token :: rest =>
    if token = "(" then readList (items :: outer) [] rest
    else if token = ")" then
      let form := Form.list items.reverse
      match outer with
      | [] => some (form, rest)
      | around :: outer => readList outer (form :: around) rest
    else readList outer (Form.ofToken token :: items) rest

/-- Read one form; `none` at the end of the stream. -/
def readForm : Action (Option Form) := do
  match ← peek with
  | none => return none
  | some token =>
    let _ ← advance
    if token = ")" then throw .unexpectedClose
    else if token = "(" then
      fun s =>
        match readList [] [] s.tokens, s.fault with
        | some (form, rest), _ => .ok (some form) { s with tokens := rest }
        | none, some fault => .error fault exhausted
        | none, none => .error .unmatchedOpen exhausted
    else return some (Form.ofToken token)

/-- Read forms until the stream ends or a fault is met; at most `bound` of them. -/
def readUpTo : Nat → TokenStream → List Form × Option Fault × TokenStream
  | 0, s => ([], none, s)
  | bound + 1, s =>
    match readForm s with
    | .error fault s => ([], some fault, s)
    | .ok none s => ([], none, s)
    | .ok (some form) s =>
      let (forms, fault, s) := readUpTo bound s
      (form :: forms, fault, s)

/-- How many tokens are unread. -/
def size (s : TokenStream) : Nat :=
  s.lookahead.toList.length + s.tokens.length

/-- Read **all** forms: those before the end or the first fault, the fault, and what is left of the
stream. Each form takes a token, so the number of tokens bounds the number of forms. -/
def readAll (s : TokenStream) : List Form × Option Fault × TokenStream :=
  readUpTo (s.size + 1) s

/-- Read the first form and give back the tokens behind it. A stream without a form is a fault, and
so is a lexical fault anywhere behind the form. -/
def readFirst : Action (Form × List String) := do
  match ← readForm with
  | none => throw .emptyInput
  | some form => return (form, ← rest)

/-- The first form of a stream and the tokens behind it. -/
def first (s : TokenStream) : Except Fault (Form × List String) :=
  match readFirst s with
  | .ok answer _ => .ok answer
  | .error fault _ => .error fault

end TokenStream

/-- The first form of a text, if the whole text falls into tokens. -/
def readText (source : String) : Except Fault Form :=
  (TokenStream.ofText source).first.map Prod.fst

end DottedLisp
