import Indirection.Event
import Indirection.Program.Declarator
import Indirection.Program.Lvalue
import Indirection.Table.Basic
import Indirection.Trail

/-!
# Collecting the pointer declarations of a program

One walk over the token list fills the classification tables. A token can tell three things:

* a declarator of a variable or field with stars declares it (`declaration?`);
* a unary `&` on a name or a member access takes an address (`addressOperand?`);
* an assignment to a pointer disqualifies its target, unless the value is a plain reference, a unary
  expression or an element of an array, or the assignment is an initializer (`disqualified?`).

`findings` lists what the tokens tell, `collect` enters it. The whole program is walked before
anything is chosen, because any later token may bear on a declaration.
-/

namespace Indirection

/-- Which declarations are left out. -/
structure Scoping where
  /-- the names that are never reported -/
  excluded : List String := ["reg_save_area", "overflow_arg_area"]
  includeLocals : Bool := true
  includeFields : Bool := true

/-- What one token tells. -/
inductive Finding where
  | declaration (d : Decl)
  | addressTaken (spelling : String) (key : Int)
  /-- an address of something that is no variable -/
  | addressIgnored (spelling : String)
  | disqualification (key : Int) (target value : String)

namespace Program

variable (u : Program)

/-! ### What a token tells -/

/-- Whether the declarator at `t` is of a kind that is reported. -/
def isReported (scoping : Scoping) (t : Ref) : Bool :=
  let v := u.variableAt? (u.var t)
  let isField := u.isRecordScope (u.scopeOf (u.var t))
  !v.any Variable.isArgument && !scoping.excluded.contains (u.text t) &&
    (scoping.includeFields || !isField) &&
    (scoping.includeLocals || isField || !v.any Variable.isLocal)

/-- The declaration whose declarator has its name at `t`. -/
def declarationAt (t : Ref) : Decl :=
  let scope := u.scopeOf (u.var t)
  let isField := u.isRecordScope scope
  { key := u.declKey t
    name := u.text t
    level := (u.stars t).length
    position := u.position t
    isField
    record := if isField then (u.scope? scope).bind Scope.className else none
    rank := u.arrayRank t }

/-- The declaration reported at `t`, if `t` is the name in a declarator with stars. -/
def declaration? (scoping : Scoping) (t : Ref) : Option Decl :=
  if u.isDeclaratorName t && u.isReported scoping t && !(u.stars t).isEmpty then
    some (u.declarationAt t)
  else none

/-- The name whose address the operator at `t` takes. -/
def addressOperand? (t : Ref) : Ref :=
  let operand := u.skipCasts (u.operand1 t)
  if u.isMemberAccess operand then u.operand2 operand
  else if u.isName operand then operand
  else none

/-- Whether a value may be assigned to a pointer without disqualifying it. -/
def isPlainValue (value : Ref) : Bool :=
  u.isDeclarationReference value || u.isUnaryExpression value || u.isSubscript value

/-- Whether the assignment at `t` disqualifies the declaration on its left side. -/
def disqualifies (t : Ref) : Bool :=
  u.pointerLevel (u.operand1 t) ≠ 0 && !u.isInitializer t &&
    !u.isPlainValue (u.skipCasts (u.operand2 t))

/-- The finding of the operator at `t`. -/
def operatorFindings (t : Ref) : Trail Finding :=
  if u.isAddressOf t then
    match u.addressOperand? t with
    | none => .nil
    | some name =>
      let key := u.declKey (some name)
      let spelling := u.text (some name)
      .one (if key = 0 then .addressIgnored spelling else .addressTaken spelling key)
  else if u.isAssignment t && u.disqualifies t then
    let target := u.operand1 t
    .ofExcept (u.resolve target) fun key =>
      .one (.disqualification key (u.text target) (u.text (u.skipCasts (u.operand2 t))))
  else .nil

/-- Everything the token at place `i` tells: first as a name, then as an operator. -/
def findingsAt (scoping : Scoping) (i : Nat) : Trail Finding :=
  (match u.declaration? scoping (some i) with
    | some d => .one (.declaration d)
    | none => .nil) ++ u.operatorFindings (some i)

/-- Everything the tokens tell, in order, up to the first refusal. -/
def findings (scoping : Scoping) : Trail Finding :=
  .concat (u.findingsAt scoping) u.places

end Program

/-! ### Entering the findings -/

/-- The fact behind a finding. -/
def Finding.fact? : Finding → Option Fact
  | declaration d => some (.declared d)
  | addressTaken _ key => some (.addressTaken key)
  | addressIgnored _ => none
  | disqualification key _ _ => some (.disqualified key)

/-- The tables with the fact behind a finding. -/
def Table.enter (t : Table) (f : Finding) : Table :=
  match f.fact? with
  | some fact => t.record fact
  | none => t

/-- What is told about a finding, given the tables before it. -/
def Finding.events (t : Table) : Finding → List Event
  | declaration d => if t.knows d.key then [] else [.declared d]
  | addressTaken spelling key => [.addressTaken spelling key]
  | addressIgnored spelling => [.addressIgnored spelling]
  | disqualification key target value =>
    if t.isValid key then [.disqualified key target value] else []

/-- What is told while a list of findings is entered. -/
def Table.eventsOf (t : Table) : List Finding → List Event
  | [] => []
  | f :: rest => f.events t ++ eventsOf (t.enter f) rest

/-- The outcome of a collection: the tables, which are final unless a fault ended the walk. -/
structure Collection where
  table : Table
  fault : Option Fault
  events : List Event

/-- The classification of a program. After a fault the tables stand as the walk had filled them. -/
def Program.collect (u : Program) (scoping : Scoping) : Collection :=
  let trail := u.findings scoping
  let table := trail.items.foldl Table.enter {}
  let events := Table.eventsOf {} trail.items
  match trail.fault with
  | some f => { table, fault := some f, events }
  | none =>
    { table := table.freeze
      fault := none
      events := events ++ [.collected table.decls.length table.maxLevel table.taken.length
        table.disqualified.length] }

end Indirection
