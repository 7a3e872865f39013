import Indirection.Reduction.Narrowing

/-!
# Uses of the reduced declaration

Main definitions:

* `Site`, `Program.site` — what a use of the declaration denotes: the expression of its value, with
  the member access and all array subscripts, unless the use leaves some of these out;
* `Use`, `Program.use` — what the operator around that value does with it;
* `Program.rewriteUse` — the changes that keep the use well typed.

| use of `d`            | becomes         |
|-----------------------|-----------------|
| `*d`, `d[i]`          | `d`             |
| `d->m` at level one   | `d.m`           |
| `d = e`               | `d = narrow(e)` |
| `d += n`, `d++`, `&d` | unchanged       |
| any other             | `&d`            |
-/

namespace Indirection

/-- What a use of a declaration denotes. -/
inductive Site where
  /-- the expression of the declaration's value -/
  | value (node : Ref)
  /-- a field's name outside a member access -/
  | outside
  /-- an array used without all its subscripts -/
  | decayed
  deriving DecidableEq

/-- What the operator around a value does with it. -/
inductive Use where
  | dereferenced (operator : Ref)
  | indexed (operator : Ref)
  | arrow (operator : Ref)
  /-- `plain` is false of an assignment with an operation -/
  | assigned (operator : Ref) (plain : Bool)
  /-- its address is taken, or it is counted up or down -/
  | tolerated (operator : Ref)
  | other
  deriving DecidableEq

namespace Program

variable (u : Program)

/-- The operator that is `rank` subscripts above `node`, if each of them indexes the one below. -/
def subscripted : (rank : Nat) → (node : Ref) → Option Ref
  | 0, node => some node
  | rank + 1, node =>
    let parent := u.parent node
    if u.isSubscript parent && u.operand1 parent = node then subscripted rank parent else none

/-- What the use of the declaration `d` at `t` denotes. -/
def site (d : Decl) (t : Ref) : Site :=
  let parent := u.parent t
  let isMember := u.isMemberAccess parent && u.operand2 parent = t
  if d.isField && !isMember then .outside
  else
    match u.subscripted d.rank.toNat (if isMember then parent else t) with
    | some node => .value node
    | none => .decayed

/-- What the operator around the value at `node` does with it. -/
def use (node : Ref) : Use :=
  let parent := u.parent node
  let isFirst := u.operand1 parent = node
  if u.isDereference parent then .dereferenced parent
  else if u.isSubscript parent && isFirst then .indexed parent
  else if u.isArrow parent && isFirst then .arrow parent
  else if u.isAssignment parent && isFirst then .assigned parent (u.text parent = "=")
  else if u.isAddressOf parent || u.isIncrementDecrement parent then .tolerated parent
  else .other

/-- The changes for the value at `node`, given what is done with it. -/
def rewriteValue (d : Decl) (type? : Option String) (node : Ref) : Use → Trail Step
  | .dereferenced operator => .one (.change (.remove operator))
  | .indexed operator =>
    match u.link operator with
    | some close => .one (.change (.removeRange operator (some close)))
    | none => .fail (.of (.unmatched (u.text operator)) (u.position operator))
  | .arrow operator =>
    if d.level = 1 then .one (.change (.replace operator "."))
    else .fail (.of (.deepArrow d.name d.level) (u.position operator))
  | .assigned operator true => u.narrowExpression type? (u.operand2 operator)
  | .assigned _ false => .nil
  | .tolerated operator => .one (.tell (.unchanged (u.text operator) d.name (u.position operator)))
  | .other =>
    match u.bounds node with
    | some (first, _) => .one (.change (.insertBefore (some first) "&"))
    | none => .nil

/-- The changes that keep the use of the declaration `d` at `t` well typed. -/
def rewriteUse (d : Decl) (type? : Option String) (t : Ref) : Trail Step :=
  match u.site d t with
  | .outside => .one (.tell (.outsideAccess (u.text t)))
  | .decayed => .one (.tell (.decayed d.name (u.position t)))
  | .value node => u.rewriteValue d type? node (u.use node)

end Program

end Indirection
