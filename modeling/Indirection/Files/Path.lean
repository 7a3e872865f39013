/-!
# Paths

Main definitions:

* `Path` — a path by its parts, from a root or relative;
* `Path.ofString`, `Path.text` — its normal form: no empty parts and no single dots, double dots are
  kept;
* `Path.join`, `Path.parent` — one path behind another, and the directory a path lies in;
* `Path.user?` — the user at whose home directory a path begins.
-/

namespace Indirection

/-- A path. `root` holds the slashes it begins with: none, one, or exactly two. -/
structure Path where
  root : String
  parts : List String
  deriving DecidableEq

namespace Path

/-- The pieces of a text between slashes. -/
def splitSlash : List Char → List (List Char)
  | [] => [[]]
  | c :: cs =>
    if c = '/' then [] :: splitSlash cs
    else
      match splitSlash cs with
      | [] => [[c]]
      | piece :: rest => (c :: piece) :: rest

/-- There is at least one piece. -/
theorem splitSlash_ne_nil (cs : List Char) : splitSlash cs ≠ [] := by
  cases cs with
  | nil => simp [splitSlash]
  | cons c cs => unfold splitSlash; split <;> (try split) <;> simp

/-- The path that a text writes. Two slashes at the beginning are kept, more are one. -/
def ofString (s : String) : Path :=
  let cs := s.toList
  let slashes := (cs.takeWhile (· = '/')).length
  { root := if slashes = 0 then "" else if slashes = 2 then "//" else "/"
    parts := ((splitSlash cs).filter (fun p => p ≠ [] && p ≠ ['.'])).map String.ofList }

/-- The text of a path; the empty one is a dot. -/
def text (p : Path) : String :=
  if p.root = "" && p.parts.isEmpty then "." else p.root ++ "/".intercalate p.parts

/-- Whether a path begins at the root. -/
def isAbsolute (p : Path) : Bool := p.root ≠ ""

/-- The path `q` as seen from `p`. -/
def join (p q : Path) : Path :=
  if q.isAbsolute then q else { p with parts := p.parts ++ q.parts }

/-- The directory that a path lies in. -/
def parent (p : Path) : Path := { p with parts := p.parts.dropLast }

/-- The user at whose home directory a path begins: its first part is a tilde and the name of the
    user. -/
def user? (p : Path) : Option String :=
  if p.isAbsolute then none
  else
    match p.parts.head?.map String.toList with
    | some ('~' :: name) => some (String.ofList name)
    | _ => none

/-- Whether a path holds the character of code point zero, which no file name has. -/
def hasZero (p : Path) : Bool := p.parts.any (·.toList.contains '\x00')

end Path

end Indirection
