import Indirection.Event
import Indirection.Program.Brace

/-!
# Brace initializers of records

Main definitions:

* `Program.recordTypeScope` — the record that a declarator's type names;
* `Program.members` — the members of a record, each once;
* `Supply`, `Program.supplies` — which member each element of a brace initializer is for;
* `Program.fieldValues` — the values that a brace initializer supplies for one field, found through
  nested records and arrays of records.

An element with a designator goes to the member it names, any other to the member behind that of the
element before it. An element behind one with an unknown designator goes to the last member, and the
count starts again at the first one behind it.
-/

namespace Indirection

/-- What identifies a member: the key of its declaration, or, without one, its own record. -/
inductive MemberId where
  | declared (key : Int)
  | entry (v : Nat)
  deriving DecidableEq

/-- What an element of a record's brace initializer is for. -/
inductive Supply where
  /-- the value that begins at `value` is for the member `v` -/
  | member (v : Nat) (value : Ref)
  /-- the element names a member that the record does not have -/
  | unknown (name : String)

/-- What a brace initializer holds with regard to one field. -/
inductive FieldPart where
  /-- an initializer for the field begins here -/
  | value (start : Ref)
  | note (e : Event)
  /-- braces that initialise a record, or an array of them, nested in this one -/
  | nested (opening : Nat) (record : Nat) (rank : Nat)

namespace Program

variable (u : Program)

/-! ### Members -/

/-- The record that the type of a declarator's elements names. -/
def recordTypeScope (name : Ref) : Option Nat :=
  let scope := ((u.valueType? name).bind ValueType.scope).filter (· < u.scopes.size)
  if u.isRecordScope scope then scope else none

/-- What identifies the variable `v` among the members of a record. -/
def memberId (v : Nat) : MemberId :=
  let key := u.declKey (u.nameToken (some v))
  if key ≠ 0 then .declared key else .entry v

/-- The variables of `vs` that are not identified like one before them or one in `seen`. -/
def distinctMembers (seen : List MemberId) : List Nat → List Nat
  | [] => []
  | v :: vs =>
    if seen.contains (u.memberId v) then distinctMembers seen vs
    else v :: distinctMembers (u.memberId v :: seen) vs

/-- The members of a record, each once, in order of declaration. -/
def members (scope : Nat) : List Nat :=
  u.distinctMembers [] (((u.scope? (some scope)).map Scope.members).getD [])

/-- The place of the first member of a name. -/
def memberIndex? (members : List Nat) (name : String) : Option Nat :=
  members.findIdx? (fun v => u.text (u.nameToken (some v)) = name)

/-! ### Elements and members -/

/-- Which member each of the elements is for. `cursor` is the place of the member for the next
    element without a designator; it is missing behind an unknown designator. Elements behind the
    last member are left out, with all that follow them. -/
def suppliesFrom (members : List Nat) : (cursor : Option Nat) → List (Nat × Nat) → Trail Supply
  | _, [] => .nil
  | cursor, e :: es =>
    let (name?, value) := u.designated e.1 e.2
    match name?, name?.bind (u.memberIndex? members) with
    | some name, none => .one (.unknown name) ++ suppliesFrom members none es
    | _, found =>
      match found.or cursor with
      | some index =>
        match members[index]? with
        | some v => .one (.member v value) ++ suppliesFrom members (some (index + 1)) es
        | none => .nil
      | none =>
        match members.getLast? with
        | some v => .one (.member v value) ++ suppliesFrom members (some 0) es
        | none => .fail .noMember

/-- Which member of a record each of the elements is for. -/
def supplies (scope : Nat) (es : List (Nat × Nat)) : Trail Supply :=
  u.suppliesFrom (u.members scope) (some 0) es

/-- What a supply means for the field of key `key`: a value of the field, the braces of another
    record to look into, or nothing. -/
def fieldParts (key : Int) : Supply → List FieldPart
  | .unknown name => [.note (.unknownDesignator name)]
  | .member v value =>
    let name := u.nameToken (some v)
    if u.declKey name = key then [.value value]
    else
      match value, u.recordTypeScope name with
      | some opening, some record =>
        if u.text (some opening) = "\x7b" && (u.stars name).isEmpty then
          [.nested opening record (u.arrayRank name)]
        else []
      | _, _ => []

/-- The braces of the elements of an array of records. -/
def rowParts (record rank : Nat) (es : List (Nat × Nat)) : List FieldPart :=
  es.filterMap fun e =>
    match (u.designated e.1 e.2).2 with
    | some opening =>
      if u.text (some opening) = "\x7b" then some (.nested opening record rank) else none
    | none => none

/-- What the braces that open at `opening` hold for the field of key `key`: an array of records has
    braces in its elements, a record has members. -/
def parts (key : Int) (opening record rank : Nat) : Trail FieldPart :=
  .ofExcept (u.elements opening) fun es =>
    match rank with
    | rank + 1 => { items := u.rowParts record rank es }
    | 0 =>
      let supplied := u.supplies record es
      { items := supplied.items.flatMap (u.fieldParts key), fault := supplied.fault }

/-! ### Values of a field -/

/-- The walk through brace initializers: what it found, and the braces it has been in. -/
structure BraceWalk where
  found : Trail FieldPart := .nil
  seen : List Nat := []

/-- Goes into the braces that open at `opening`, to a depth of `depth`, unless they are known. -/
def enterBraces (key : Int) : (depth : Nat) → (seen : List Nat) → (opening record rank : Nat) →
    BraceWalk
  | 0, seen, _, _, _ => { seen }
  | depth + 1, seen, opening, record, rank =>
    if seen.contains opening then { seen }
    else
      let held := u.parts key opening record rank
      let walk := held.items.foldl
        (fun (w : BraceWalk) part =>
          match part with
          | .nested o r k =>
            let inner := enterBraces key depth w.seen o r k
            { found := w.found ++ inner.found, seen := inner.seen }
          | p => { w with found := w.found ++ .one p })
        { seen := opening :: seen }
      { walk with found := walk.found ++ { fault := held.fault } }

/-- The braces of a variable that is no pointer and whose type names a record. -/
def bracesOf? (name : Ref) : Option (Nat × Nat × Nat) :=
  if !u.isDeclaratorName name || !(u.stars name).isEmpty then none
  else
    match u.recordTypeScope name, u.initializer name with
    | some record, some opening =>
      if u.text (some opening) = "\x7b" then some (opening, record, u.arrayRank name) else none
    | _, _ => none

/-- What the brace initializers of all variables of record type hold for the field of key `key`. No
    braces are entered twice, so the depth suffices. -/
def fieldValues (key : Int) : Trail FieldPart :=
  (u.places.foldl
    (fun (w : BraceWalk) i =>
      if w.found.fault.isSome || u.declKey (some i) = key then w
      else
        match u.bracesOf? (some i) with
        | some (opening, record, rank) =>
          let inner := u.enterBraces key (u.size + 1) w.seen opening record rank
          { found := w.found ++ inner.found, seen := inner.seen }
        | none => w)
    {}).found

end Program

end Indirection
