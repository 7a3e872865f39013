import Indirection.Files.Obstacle
import Indirection.Files.Path

/-!
# File trees

Main definitions:

* `FileTree` — directories and files, and the directory that relative paths start from;
* `FileTree.locate?` — where a path leads, through directories that exist;
* `FileTree.hasFile` — whether a path leads to a file, unless a name in it is too long;
* `FileTree.read?`, `FileTree.write` — the contents of a file;
* `FileTree.create` — writes a file and the directories above it, or says what stands in the way.
-/

namespace Indirection

/-- Directories and files. -/
structure FileTree where
  /-- the directory that relative paths start from -/
  base : Location
  dirs : List Location := []
  files : List (Location × ByteArray) := []

namespace FileTree

variable (t : FileTree)

/-- Whether there is a directory: the root, the base and those above it always exist. -/
def isDir (l : Location) : Bool := l.isPrefixOf t.base || t.dirs.contains l

/-- The contents of a file by its location. -/
def contents? (l : Location) : Option ByteArray := t.files.lookup l

/-- Where a name leads from `l`. -/
def step (l : Location) (name : String) : Location :=
  if name = ".." then l.dropLast else l ++ [name]

/-- Where the names `parts` lead from `l`, through directories that exist. -/
def follow? (l : Location) : List String → Option Location
  | [] => some l
  | name :: rest => if t.isDir l then follow? (step l name) rest else none

/-- The location that a path starts from. -/
def origin (p : Path) : Location := if p.isAbsolute then [] else t.base

/-- Where a path leads. -/
def locate? (p : Path) : Option Location := t.follow? (t.origin p) p.parts

/-- The contents of the file that a path leads to. -/
def read? (p : Path) : Option ByteArray := (t.locate? p).bind t.contents?

/-- Whether a path leads to a file. -/
def isFile (p : Path) : Bool := (t.read? p).isSome

/-- Whether a name has more than the 255 bytes that a file system allows. -/
def isTooLong (name : String) : Bool := 255 < name.utf8ByteSize

/-- Whether the way of the names `parts` from `l` comes to a name that is too long, through
    directories that exist. -/
def meetsLongName (l : Location) : List String → Bool
  | [] => false
  | name :: rest => t.isDir l && (isTooLong name || meetsLongName (step l name) rest)

/-- Whether a path leads to a file. One with a character of code point zero in it leads nowhere. -/
def hasFile (p : Path) : Except Obstacle Bool :=
  if p.hasZero then .ok false
  else if t.meetsLongName (t.origin p) p.parts then .error (.nameTooLong p.text)
  else .ok (t.isFile p)

/-- The first path of a list that leads to a file. -/
def firstFile? : List Path → Except Obstacle (Option Path)
  | [] => .ok none
  | p :: ps =>
    match t.hasFile p with
    | .error o => .error o
    | .ok true => .ok (some p)
    | .ok false => firstFile? ps

/-- The location of a path when double dots are taken back name by name, whether the directories
    exist or not. -/
def resolve (p : Path) : Location := p.parts.foldl step (t.origin p)

/-! ### Changes -/

/-- All locations above `l`, the root first. -/
def above (l : Location) : List Location := (List.range l.length).map (l.take ·)

/-- Adds a directory and those above it. -/
def addDir (l : Location) : FileTree :=
  let insert (ds : List Location) (d : Location) := if ds.contains d then ds else ds ++ [d]
  { t with dirs := (above l ++ [l]).foldl insert t.dirs }

/-- A file put in its place in a list of files. -/
def put (l : Location) (bytes : ByteArray) : List (Location × ByteArray) →
    List (Location × ByteArray)
  | [] => [(l, bytes)]
  | (k, old) :: rest => if k = l then (k, bytes) :: rest else (k, old) :: put l bytes rest

/-- Writes a file; the directories above it come into being. -/
def write (l : Location) (bytes : ByteArray) : FileTree :=
  { t.addDir l.dropLast with files := put l bytes t.files }

/-- Removes a file. -/
def delete (l : Location) : FileTree := { t with files := t.files.filter (·.1 ≠ l) }

/-- What stands in the way of making a directory and those above it. A name that is too long is met
    when its own directory is made, or at once where the one above it exists already. -/
def dirObstacle? (l : Location) : Option Obstacle :=
  if t.isDir l then none
  else if (t.contents? l).isSome then some (.fileExists l)
  else if (above l).any (fun k => (t.contents? k).isSome) then some (.notDirectory l)
  else
    (l.findIdx? isTooLong).map fun i =>
      .nameTooLong (Location.text (if t.isDir (l.take i) then l else l.take (i + 1)))

/-- Writes a file, and makes the directories above it first. -/
def create (l : Location) (bytes : ByteArray) : Except Obstacle FileTree :=
  match t.dirObstacle? l.dropLast with
  | some o => .error o
  | none =>
    if t.isDir l then .error (.isDirectory l)
    else if l.getLast?.any isTooLong then .error (.nameTooLong l.text)
    else .ok (t.write l bytes)

end FileTree

end Indirection
