import Indirection.Text.Decimal
import Indirection.Text.Quoted

/-!
# JSON documents

Main definitions:

* `Json` — a document; the fields of an object keep their order;
* `Json.render` — its text: two spaces of indentation for each level, empty lists and objects in one
  line, and ASCII characters only;
* `Json.escape` — one character of a string. A character beyond U+FFFF is written as two escapes,
  one for each of its UTF-16 units.
-/

namespace Indirection.Report

/-- A JSON document without fractions. -/
inductive Json where
  | null
  | bool (b : Bool)
  | int (z : Int)
  | str (s : String)
  | list (items : List Json)
  | obj (fields : List (String × Json))

namespace Json

/-! ### Strings -/

/-- A UTF-16 unit as an escape. -/
def unitEscape (n : Nat) : List Char := '\\' :: 'u' :: Text.hex 4 n

/-- One character of a string. -/
def escape (c : Char) : List Char :=
  if c = '"' then ['\\', '"']
  else if c = '\\' then ['\\', '\\']
  else if c = '\n' then ['\\', 'n']
  else if c = '\r' then ['\\', 'r']
  else if c = '\t' then ['\\', 't']
  else if c = '\x08' then ['\\', 'b']
  else if c = '\x0c' then ['\\', 'f']
  else
    let n := c.toNat
    if 0x20 ≤ n && n < 0x7f then [c]
    else if n < 0x10000 then unitEscape n
    else
      let offset := n - 0x10000
      unitEscape (0xd800 + offset / 0x400) ++ unitEscape (0xdc00 + offset % 0x400)

/-- A string between quotation marks. -/
def quoted (s : String) : List Char := '"' :: (s.toList.flatMap escape ++ ['"'])

/-! ### Documents -/

/-- The bracket in front of the fields of an object. -/
def openObject : Char := '\x7b'

/-- The bracket behind the fields of an object. -/
def closeObject : Char := '\x7d'

/-- The end of a line and the indentation of the next one, for `depth` levels. -/
def newline (depth : Nat) : List Char := '\n' :: List.replicate (2 * depth) ' '

mutual

/-- The characters of a document inside `depth` others. -/
def chars (depth : Nat) : Json → List Char
  | null => ['n', 'u', 'l', 'l']
  | bool true => ['t', 'r', 'u', 'e']
  | bool false => ['f', 'a', 'l', 's', 'e']
  | int z => Text.decimalChars z
  | str s => quoted s
  | list [] => ['[', ']']
  | list (j :: js) =>
    '[' :: (newline (depth + 1) ++ (chars (depth + 1) j ++ (itemChars (depth + 1) js ++
      (newline depth ++ [']']))))
  | obj [] => [openObject, closeObject]
  | obj ((name, j) :: fs) =>
    openObject :: (newline (depth + 1) ++ (quoted name ++ (':' :: ' ' :: (chars (depth + 1) j ++
      (fieldChars (depth + 1) fs ++ (newline depth ++ [closeObject]))))))

/-- The items of a list behind the first one. -/
def itemChars (depth : Nat) : List Json → List Char
  | [] => []
  | j :: js => ',' :: (newline depth ++ (chars depth j ++ itemChars depth js))

/-- The fields of an object behind the first one. -/
def fieldChars (depth : Nat) : List (String × Json) → List Char
  | [] => []
  | (name, j) :: fs =>
    ',' :: (newline depth ++ (quoted name ++ (':' :: ' ' :: (chars depth j ++
      fieldChars depth fs))))

end

/-- The text of a document. -/
def render (j : Json) : String := String.ofList (chars 0 j)

end Json

end Indirection.Report
