import DottedLisp.Text.CodeRange

/-!
# Blank characters

The characters that end a symbol and that are trimmed from the ends of a search-path entry. The
reader *skips* only four of them; every other blank is a fault where a token should start.
-/

namespace DottedLisp.Text

/-- The code points that count as **blank**. -/
def blanks : List CodeRange :=
  [⟨0x9, 0xd⟩, ⟨0x1c, 0x20⟩, ⟨0x85, 0x85⟩, ⟨0xa0, 0xa0⟩, ⟨0x1680, 0x1680⟩, ⟨0x2000, 0x200a⟩,
   ⟨0x2028, 0x2029⟩, ⟨0x202f, 0x202f⟩, ⟨0x205f, 0x205f⟩, ⟨0x3000, 0x3000⟩]

/-- Whether a character is blank. -/
def isBlank (c : Char) : Bool :=
  CodeRange.member blanks c

/-- Drop the blanks at both ends. -/
def trim (s : String) : String :=
  String.ofList ((s.toList.dropWhile isBlank).reverse.dropWhile isBlank).reverse

example : isBlank ' ' ∧ isBlank '\n' ∧ ¬ isBlank 'a' ∧ ¬ isBlank '(' := by decide

end DottedLisp.Text
