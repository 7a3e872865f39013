import Indirection.Edit.Anchor
import Indirection.Files.Encoding
import Indirection.Files.Tree

/-!
# Loading source files

Tokens name their files as the front end was given them, mostly relative to the directory it ran in.
Main definitions:

* `SearchPath` — the directories in which a name is looked for, and the encoding of files;
* `SearchPath.find` — the path under which a name is found: as it stands, then in each directory;
* `SearchPath.sources` — the texts of a file tree by name;
* `Loader` — a search path that remembers what it has found and read.
-/

namespace Indirection

/-- Where source files are looked for. -/
structure SearchPath where
  roots : List Path := []
  encoding : String := "utf-8"

namespace SearchPath

/-- The paths at which a name is looked for. -/
def tries (s : SearchPath) (name : String) : List Path :=
  let p := Path.ofString name
  p :: s.roots.map (·.join p)

/-- The first of them that leads to a file. -/
def find (s : SearchPath) (t : FileTree) (name : String) : Except Fault Path :=
  match t.firstFile? (s.tries name) with
  | .ok (some p) => .ok p
  | .ok none => .error (.of (.sourceNotFound name) { file := name })
  | .error o => .error (.obstructed o)

/-- The text of the file at a path. -/
def textAt (s : SearchPath) (t : FileTree) (p : Path) : Except Fault String :=
  match Encoding.ofName? s.encoding with
  | none => .error .unknownEncoding
  | some e => e.decode ((t.read? p).getD .empty)

/-- The texts of a file tree by the names that tokens have for its files. -/
def sources (s : SearchPath) (t : FileTree) : Sources := fun name => do
  let p ← s.find t name
  s.textAt t p

end SearchPath

/-- A search path with the files found so far and the texts read so far. -/
structure Loader where
  search : SearchPath
  found : List (String × Path) := []
  texts : List (String × String) := []

namespace Loader

/-- The value of a name set in a list of pairs. -/
def set {α : Type} (name : String) (a : α) : List (String × α) → List (String × α)
  | [] => [(name, a)]
  | (n, b) :: rest => if n = name then (n, a) :: rest else (n, b) :: set name a rest

/-- Looks for a file, and remembers where it is. -/
def resolve (l : Loader) (t : FileTree) (name : String) : Loader × Except Fault Path :=
  match l.search.find t name with
  | .ok p => ({ l with found := set name p l.found }, .ok p)
  | .error f => (l, .error f)

/-- The text of a file, which is read only once. -/
def load (l : Loader) (t : FileTree) (name : String) : Loader × Except Fault String :=
  match l.texts.lookup name with
  | some text => (l, .ok text)
  | none =>
    match l.resolve t name with
    | (l, .error f) => (l, .error f)
    | (l, .ok p) =>
      match l.search.textAt t p with
      | .ok text => ({ l with texts := (name, text) :: l.texts }, .ok text)
      | .error f => (l, .error f)

end Loader

end Indirection
