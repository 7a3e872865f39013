import Indirection.Text.Decimal

/-!
# Positions in source files

Main definitions:

* `Position` — a file, a line and a column;
* `Position.text` — its form in messages;
* `Position.before` — the order in which tokens stand: by file name, then line, then column.
-/

namespace Indirection

/-- A place in a source file. An empty file name and a line or column of zero mean that this part
    is not known. -/
structure Position where
  file : String := ""
  line : Int := 0
  column : Int := 0
  deriving DecidableEq, Inhabited

namespace Position

/-- The known parts, from the file on: a column is shown only behind a line. -/
def parts (p : Position) : List String :=
  (if p.file = "" then [] else [p.file]) ++
    (if 0 < p.line then
      Text.decimal p.line :: (if 0 < p.column then [Text.decimal p.column] else [])
    else [])

/-- A position in messages. -/
def text (p : Position) : String :=
  if p.file = "" && p.line = 0 then "<unknown location>" else ":".intercalate p.parts

/-- `a` stands strictly before `b`. -/
def before (a b : Position) : Bool :=
  a.file < b.file ||
    (a.file = b.file && (a.line < b.line || (a.line = b.line && a.column < b.column)))

/-- Nothing stands before itself. -/
theorem before_irrefl (p : Position) : p.before p = false := by
  have h : ¬ p.file < p.file := String.lt_irrefl p.file
  simp only [before, h, decide_false, decide_true, Bool.false_or, Bool.true_and, Int.lt_irrefl]

end Position

end Indirection
