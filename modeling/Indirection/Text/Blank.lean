import Indirection.Text.CharSet

/-!
# Blanks

`blanks` holds the white space of Unicode 14 and the four information separators of ASCII; `strip`
takes them off both ends of a text.
-/

namespace Indirection.Text

/-- The characters that count as white space. -/
def blanks : CharSet where
  turns := [
    9, 14, 28, 33, 133, 134, 160, 161, 5760, 5761, 8192, 8203, 8232, 8234, 8239, 8240, 8287, 8288,
    12288, 12289]

/-- Whether a character is white space. -/
def isBlank (c : Char) : Bool := blanks.contains c

/-- Every character that core counts as white space is a blank. -/
theorem isBlank_of_isWhitespace {c : Char} (h : c.isWhitespace) : isBlank c = true := by
  have table : [' ', '\t', '\r', '\n'].all isBlank = true := by decide +kernel
  refine List.all_eq_true.1 table c ?_
  simpa [Char.isWhitespace, or_assoc] using h

/-- A list of characters without the blanks at its ends. -/
def stripChars (cs : List Char) : List Char :=
  ((cs.dropWhile isBlank).reverse.dropWhile isBlank).reverse

/-- A text without the blanks at its ends. -/
def strip (s : String) : String := String.ofList (stripChars s.toList)

end Indirection.Text
