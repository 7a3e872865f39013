import Indirection.Fault

/-!
# The catalogue of transformations

Main definitions:

* `Catalogue` — transformations by name, each with a description;
* `Catalogue.builtin` — the one that the library has;
* `Catalogue.get`, `available`, `register` — look-up, the list in order of names, and entry.
-/

namespace Indirection

/-- A transformation and what it does. -/
structure Entry where
  name : String
  description : String
  deriving DecidableEq

/-- Transformations, each name once, in the order they were entered. -/
structure Catalogue where
  entries : List Entry
  deriving DecidableEq

namespace Catalogue

/-- The transformation that runs when none is named. -/
def defaultName : String := "reduce-pointer-level"

/-- The reduction of pointer levels. -/
def reducePointerLevel : Entry where
  name := defaultName
  description :=
    "Reduce the pointer indirection level of one global/local variable or struct/union field. " ++
    "Valid declarations are ordered by indirection level and the deepest ones are chosen first, " ++
    "so a chosen declaration at the maximum level may be address-taken. Below the maximum level " ++
    "a declaration is ineligible if it is address-taken, or if it is the left-hand side of a " ++
    "pointer assignment whose right-hand side is not a plain reference, a unary expression or " ++
    "an indexing expression."

/-- The transformations of the library. -/
def builtin : Catalogue := ⟨[reducePointerLevel]⟩

variable (c : Catalogue)

/-- The transformation of a name. -/
def find? (name : String) : Option Entry := c.entries.find? (·.name = name)

/-- An entry put into a list that is in order of names. -/
def insertEntry (e : Entry) : List Entry → List Entry
  | [] => [e]
  | d :: rest => if e.name < d.name then e :: d :: rest else d :: insertEntry e rest

/-- All transformations in order of their names. -/
def available : List Entry := c.entries.foldr insertEntry []

/-- The transformation of a name; the refusal lists the names there are. -/
def get (name : String) : Except Fault Entry :=
  match c.find? name with
  | some e => .ok e
  | none => .error (.of (.unknownTransformation name (c.available.map Entry.name)) {})

/-- Enters a transformation under a name that is not taken. -/
def register (e : Entry) : Except Misuse Catalogue :=
  match c.find? e.name with
  | some _ => .error (.registeredTwice e.name)
  | none => .ok ⟨c.entries ++ [e]⟩

end Catalogue

end Indirection
