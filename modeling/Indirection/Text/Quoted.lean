import Indirection.Text.Printable

/-!
# Quoted texts in messages

Main definitions:

* `quote s` — the text between quotation marks, as messages show spellings and names;
* `quoteMark cs` — the mark: single, unless the text holds a single and no double one;
* `escape mark c` — one character inside the marks;
* `leftOut` — what messages show in place of a value that was left out.

A backslash stands in front of the mark in use and of a backslash; tab, line feed and carriage
return have letters of their own; any other character that is not printable is written by its code
point in two, four or eight hexadecimal digits, the fewest of these that hold it.
-/

namespace Indirection.Text

/-- The lower-case hexadecimal digit of a number below sixteen. -/
def hexDigit (d : Nat) : Char :=
  if d < 10 then Char.ofNat (48 + d) else Char.ofNat (87 + d)

/-- The last `width` hexadecimal digits of `n`. -/
def hex : (width n : Nat) → List Char
  | 0, _ => []
  | width + 1, n => hex width (n / 16) ++ [hexDigit (n % 16)]

/-- Exactly `width` digits are written. -/
theorem length_hex (width n : Nat) : (hex width n).length = width := by
  induction width generalizing n with
  | zero => rfl
  | succ w ih => simp [hex, ih]

/-- The mark around a text with the characters `cs`. -/
def quoteMark (cs : List Char) : Char :=
  if cs.contains '\'' && !cs.contains '"' then '"' else '\''

/-- A character by its code point, in the shortest of the three forms. -/
def escapeCodePoint (c : Char) : List Char :=
  let n := c.toNat
  if n < 0x100 then '\\' :: 'x' :: hex 2 n
  else if n < 0x10000 then '\\' :: 'u' :: hex 4 n
  else '\\' :: 'U' :: hex 8 n

/-- One character of a text between the marks `mark`. -/
def escape (mark c : Char) : List Char :=
  if c = mark || c = '\\' then ['\\', c]
  else if c = '\t' then ['\\', 't']
  else if c = '\n' then ['\\', 'n']
  else if c = '\r' then ['\\', 'r']
  else if printable.contains c then [c]
  else escapeCodePoint c

/-- A text between quotation marks. -/
def quote (s : String) : String :=
  let cs := s.toList
  let mark := quoteMark cs
  String.ofList (mark :: (cs.flatMap (escape mark) ++ [mark]))

/-- What messages show in place of a value that was left out. -/
def leftOut : String := "[]"

end Indirection.Text
