import Indirection.Fault
import Indirection.Program.Basic

/-!
# Finding a token in the text of its file

Main definitions:

* `Sources` — the texts of source files, by name;
* `lineStarts`, `lineAt` — the lines of a text; only a line feed ends one;
* `standsAt`, `isWhole` — whether a spelling stands at an offset, and as a whole word;
* `occurrences` — the places of a spelling in a line, from left to right and without overlap;
* `Program.locate` — the offsets at which a token stands.

A token is looked for at its reported position first. Columns drift where a front end expands tabs,
so the closest whole occurrence on the same line is taken otherwise, the leftmost of two at the same
distance. Offsets count characters.
-/

namespace Indirection

/-- The texts of source files by name, where they can be had. -/
abbrev Sources := String → Except Fault String

/-- A stretch of the text of a file. -/
structure Span where
  path : String
  start : Nat
  stop : Nat
  deriving DecidableEq

/-! ### Lines -/

/-- The offsets behind the line feeds of `cs`, which begins at `offset`. -/
def lineStartsFrom : (offset : Nat) → List Char → List Nat
  | _, [] => []
  | offset, c :: cs =>
    if c = '\n' then (offset + 1) :: lineStartsFrom (offset + 1) cs
    else lineStartsFrom (offset + 1) cs

/-- The offsets at which lines begin. Every text has at least one line. -/
def lineStarts (cs : List Char) : List Nat := 0 :: lineStartsFrom 0 cs

/-- The characters of the line that begins at `start`, without the line feed. -/
def lineAt (cs : List Char) (start : Nat) : List Char :=
  (cs.drop start).takeWhile (· ≠ '\n')

/-- Where the line of number `line` begins; lines are counted from one. -/
def lineStart? (cs : List Char) (line : Int) : Option Nat :=
  if line < 1 then none else (lineStarts cs)[(line - 1).toNat]?

/-! ### Words -/

/-- Whether a character may be part of a word: an ASCII letter or digit, or a low line. -/
def isWordChar (c : Char) : Bool := c.isAlphanum || c = '_'

/-- Whether `word` stands in `cs` at `offset`. -/
def standsAt (cs : List Char) (offset : Nat) (word : List Char) : Bool :=
  word.isPrefixOf (cs.drop offset)

/-- Whether the character of `cs` at `offset` may be part of a word. -/
def wordCharAt (cs : List Char) (offset : Nat) : Bool :=
  cs[offset]?.any isWordChar

/-- Whether what stands at `offset` is no part of a longer word. Only a spelling that begins with
    the character of a word can be. -/
def isWhole (cs : List Char) (offset : Nat) (word : List Char) : Bool :=
  !word.head?.any isWordChar ||
    (!(0 < offset && wordCharAt cs (offset - 1)) && !wordCharAt cs (offset + word.length))

/-- The offsets at which `word` occurs in a line that begins at `offset`, from left to right. The
    characters of one occurrence, `skip` of which are still to come, take no part in another. -/
def occurrences (word : List Char) : (skip offset : Nat) → List Char → List Nat
  | _, _, [] => []
  | skip + 1, offset, _ :: cs => occurrences word skip (offset + 1) cs
  | 0, offset, c :: cs =>
    if word.isPrefixOf (c :: cs) then offset :: occurrences word (word.length - 1) (offset + 1) cs
    else occurrences word 0 (offset + 1) cs

/-! ### The closest occurrence -/

/-- How far two offsets are apart. -/
def distance (a b : Nat) : Nat := (a - b) + (b - a)

/-- The element closest to `wanted`; of two at the same distance, the first. -/
def closest? (wanted : Nat) : List Nat → Option Nat
  | [] => none
  | o :: rest =>
    some (rest.foldl (fun best p => if distance p wanted < distance best wanted then p else best) o)

/-- The offset of `word` for a token reported at column `column` of the line that begins at
    `start`. -/
def anchor? (cs : List Char) (start : Nat) (column : Int) (word : List Char) : Option Nat :=
  let wanted := start + (column - 1).toNat
  if standsAt cs wanted word && isWhole cs wanted word then some wanted
  else
    closest? wanted
      ((occurrences word 0 start (lineAt cs start)).filter (isWhole cs · word))

/-- Where the token `t` stands in the text of its file. -/
def Program.locate (u : Program) (sources : Sources) (t : Ref) : Except Fault Span := do
  let place := u.place t
  let spelling := u.sourceText t
  let text ← sources place.file
  let cs := text.toList
  let word := spelling.toList
  let refuse (c : Cause) : Except Fault Span := .error (.of c (u.position t))
  if spelling = "" then refuse (.outsideFile spelling)
  else
    match lineStart? cs place.line with
    | none => refuse (.outsideFile spelling)
    | some start =>
      match anchor? cs start place.column word with
      | none => refuse (.notOnLine spelling place.line)
      | some offset => .ok { path := place.file, start := offset, stop := offset + word.length }

end Indirection
