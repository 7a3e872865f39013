import Indirection.Position

/-!
# Pointer declarations

Main definitions:

* `Decl` — a variable or field whose type, arrays taken off, is a pointer;
* `Decl.qualifiedName` — its name, with the record it belongs to in front;
* `Decl.text` — its form in messages.
-/

namespace Indirection

/-- A pointer declaration. `key` is the identifier that its declarators share, `level` the number
    of its stars and `rank` the number of its array dimensions. -/
structure Decl where
  key : Int
  name : String
  level : Int
  position : Position := {}
  isField : Bool := false
  record : Option String := none
  rank : Int := 0
  deriving DecidableEq

namespace Decl

/-- The name, behind the name of its record where there is one. -/
def qualifiedName (d : Decl) : String :=
  match d.record with
  | some r => if r = "" then d.name else r ++ "::" ++ d.name
  | none => d.name

/-- A declaration in messages. -/
def text (d : Decl) : String :=
  d.qualifiedName ++ " (level " ++ Text.decimal d.level ++ ") at " ++ d.position.text

end Decl

end Indirection
