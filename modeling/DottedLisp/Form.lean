import DottedLisp.Number.Decimal
import DottedLisp.Text.Quoted

/-!
# Forms

What the reader makes of a text: numbers, symbols and lists of forms. The same data is the syntax of
programs and the body of every function value.

A form has two texts. `Form.detail` tells a symbol from other things and is used inside lists;
`Form.text` writes a symbol as its bare name.
-/

namespace DottedLisp

/-- A parsed expression. -/
inductive Form where
  /-- A number. -/
  | number (value : Float)
  /-- A symbol: an identifier or a full name. -/
  | symbol (name : String)
  /-- A list of forms. -/
  | list (items : List Form)
  deriving Inhabited

namespace Form

mutual

/-- The detailed text of a form. -/
def detail : Form → String
  | number value => Number.text value
  | symbol name => "Symbol(" ++ Text.quoted name ++ ")"
  | list items => "[" ++ ", ".intercalate (details items) ++ "]"

/-- The detailed texts of several forms. -/
def details : List Form → List String
  | [] => []
  | item :: rest => detail item :: details rest

end

/-- The plain text of a form. -/
def text : Form → String
  | symbol name => name
  | form => form.detail

/-- The name of a symbol. -/
def name? : Form → Option String
  | symbol name => some name
  | _ => none

mutual

/-- Equality of forms is decidable. -/
def decEq : (a b : Form) → Decidable (a = b)
  | number x, number y =>
    if h : x = y then isTrue (h ▸ rfl) else isFalse fun h' => h (Form.number.inj h')
  | symbol x, symbol y =>
    if h : x = y then isTrue (h ▸ rfl) else isFalse fun h' => h (Form.symbol.inj h')
  | list xs, list ys =>
    match decEqs xs ys with
    | isTrue h => isTrue (h ▸ rfl)
    | isFalse h => isFalse fun h' => h (Form.list.inj h')
  | number _, symbol _ | number _, list _ | symbol _, number _ | symbol _, list _ | list _, number _
  | list _, symbol _ => isFalse (by simp)

/-- Equality of lists of forms is decidable. -/
def decEqs : (as bs : List Form) → Decidable (as = bs)
  | [], [] => isTrue rfl
  | a :: as, b :: bs =>
    match decEq a b, decEqs as bs with
    | isTrue h, isTrue h' => isTrue (h ▸ h' ▸ rfl)
    | isFalse h, _ => isFalse fun h' => h (List.cons.inj h').1
    | _, isFalse h => isFalse fun h' => h (List.cons.inj h').2
  | [], _ :: _ | _ :: _, [] => isFalse (by simp)

end

instance : DecidableEq Form := decEq

end Form

end DottedLisp
