import DottedLisp.Text.Blank
import DottedLisp.Text.Printable

/-!
# Tokens

A text falls into parentheses, words and what stands between them: spaces, tabs, line ends and
comments from `;` to the end of the line. A **word** runs up to the next blank or closing
parenthesis, so it may hold an opening parenthesis or a semicolon after its first character.

Scanning is an automaton that looks at one character at a time. It stops at the first character that
cannot stand where it does, and keeps the tokens that lie wholly before.
-/

namespace DottedLisp

/-- A character that cannot stand where it does. -/
structure LexicalFault where
  /-- The character. -/
  char : Char
  /-- How many characters stand before it. -/
  position : Nat
  deriving Repr, DecidableEq

/-- The tokens of a text, up to its end or to the first fault. -/
structure Lexed where
  /-- The tokens before the end or the fault. -/
  tokens : List String
  /-- What stopped the scan, if it did not reach the end. -/
  fault : Option LexicalFault
  deriving Repr, DecidableEq

namespace Token

/-- The blanks that may stand between tokens. -/
def isSkipped (c : Char) : Bool :=
  c = ' ' || c = '\t' || c = '\r' || c = '\n'

/-- Whether a character ends a word. -/
def endsWord (c : Char) : Bool :=
  Text.isBlank c || c = ')'

/-- Where the scan is. -/
inductive Place where
  /-- Between tokens. -/
  | gap
  /-- In a comment. -/
  | comment
  /-- In a word; its characters so far, the last one first. -/
  | word (reversed : List Char)
  deriving Repr, DecidableEq

/-- What one character does. -/
inductive Move where
  /-- The scan goes on, and these tokens are complete, the last one first. -/
  | go (place : Place) (complete : List String)
  /-- The character cannot stand here; these tokens are complete before it. -/
  | stop (complete : List String)
  deriving Repr, DecidableEq

/-- The text of a word from its reversed characters. -/
def wordText (reversed : List Char) : String :=
  String.ofList reversed.reverse

/-- A character where a token may start, with the tokens that are complete before it. -/
def start (complete : List String) (c : Char) : Move :=
  if isSkipped c then .go .gap complete
  else if c = ';' then .go .comment complete
  else if c = '(' then .go .gap ("(" :: complete)
  else if c = ')' then .go .gap (")" :: complete)
  else if Text.isBlank c || !Text.isPrintable c then .stop complete
  else .go (.word [c]) complete

/-- The automaton's step. -/
def step (place : Place) (complete : List String) (c : Char) : Move :=
  match place with
  | .gap => start complete c
  | .comment => .go (if c = '\n' then .gap else .comment) complete
  | .word reversed =>
    if endsWord c then start (wordText reversed :: complete) c
    else if Text.isPrintable c then .go (.word (c :: reversed)) complete
    else .stop complete

/-- The tokens that the end of the text completes. -/
def finish (place : Place) (complete : List String) : List String :=
  match place with
  | .word reversed => wordText reversed :: complete
  | _ => complete

/-- Scan characters from a place and a position. The tokens found so far come last one first. -/
def scan (place : Place) (position : Nat) (complete : List String) : List Char → Lexed
  | [] => ⟨(finish place complete).reverse, none⟩
  | c :: rest =>
    match step place complete c with
    | .go place complete => scan place (position + 1) complete rest
    | .stop complete => ⟨complete.reverse, some ⟨c, position⟩⟩

end Token

/-- The tokens of a text. -/
def lex (source : String) : Lexed :=
  Token.scan .gap 0 [] source.toList

example : (lex "(a(b ;c\n1)").tokens = ["(", "a(b", "1", ")"] := by decide

example : lex "a\x0bb" = ⟨["a"], some ⟨'\x0b', 1⟩⟩ := by decide

end DottedLisp
