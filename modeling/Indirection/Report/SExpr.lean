import Indirection.Text.Decimal

/-!
# S-expressions

Main definitions:

* `SExpr` — a symbol, a string, a number or a list;
* `SExpr.render` — its text in one line: items of a list stand one space apart.

In a string the quotation mark, the backslash and five control characters are escaped. In a symbol
each character that would end it or mean something else has a backslash in front.
-/

namespace Indirection.Report

/-- An S-expression. -/
inductive SExpr where
  | symbol (name : String)
  | str (s : String)
  | int (z : Int)
  | list (items : List SExpr)

namespace SExpr

/-- One character of a string. -/
def escape (c : Char) : List Char :=
  if c = '\\' then ['\\', '\\']
  else if c = '"' then ['\\', '"']
  else if c = '\x08' then ['\\', 'b']
  else if c = '\x0c' then ['\\', 'f']
  else if c = '\n' then ['\\', 'n']
  else if c = '\r' then ['\\', 'r']
  else if c = '\t' then ['\\', 't']
  else [c]

/-- The characters that have a backslash in front inside a symbol. -/
def special : List Char :=
  ['\\', '\'', '\x60', '"', '(', ')', '[', ']', ' ', ',', '?', ';', '#']

/-- One character of a symbol. -/
def escapeSymbol (c : Char) : List Char :=
  if special.contains c then ['\\', c] else [c]

mutual

/-- The characters of an S-expression. -/
def chars : SExpr → List Char
  | symbol name => name.toList.flatMap escapeSymbol
  | str s => '"' :: (s.toList.flatMap escape ++ ['"'])
  | int z => Text.decimalChars z
  | list [] => ['(', ')']
  | list (e :: es) => '(' :: (chars e ++ (itemChars es ++ [')']))

/-- The items of a list behind the first one. -/
def itemChars : List SExpr → List Char
  | [] => []
  | e :: es => ' ' :: (chars e ++ itemChars es)

end

/-- The text of an S-expression. -/
def render (e : SExpr) : String := String.ofList (chars e)

end SExpr

end Indirection.Report
