import Indirection.Position

/-!
# Analysed programs

Main definitions:

* `Token`, `Variable`, `Scope`, `ValueType` — the records that a front end produces for a program;
* `Program` — the four tables of one configuration; records refer to each other by index;
* `Ref` — a reference to a token, or to none;
* accessors such as `Program.text`, `Program.next`, `Program.operand1`, all of which accept a
  missing token: it has no text, no neighbours and no operands.

A reference beyond the end of its table counts as missing, so that the accessors give only tokens
of the program (`Program.ref_lt`). Nothing else is assumed: links may be missing or point anywhere,
and operands need not form a tree.
-/

namespace Indirection

/-- A reference to a token by its place in the token list, or to no token. -/
abbrev Ref := Option Nat

/-- One token. Texts that are unknown are empty, and identifiers that are unknown are zero. -/
structure Token where
  /-- the spelling after the front end's normalisation -/
  text : String
  /-- the spelling in the source, where it differs -/
  sourceText : String := ""
  file : String := ""
  line : Int := 0
  column : Int := 0
  /-- the identifier of the variable that a name stands for -/
  varId : Int := 0
  /-- the variable that a name stands for -/
  var : Option Nat := none
  valueType : Option Nat := none
  /-- the partner of a bracket -/
  link : Ref := none
  operand1 : Ref := none
  operand2 : Ref := none
  parent : Ref := none
  isName : Bool := false
  isNumber : Bool := false
  isCast : Bool := false
  isAssignmentOp : Bool := false
  isEnumerator : Bool := false
  isFunction : Bool := false
  /-- whether this sign of equality was split off a declaration, if the front end says so -/
  isSplit : Option Bool := none
  deriving Inhabited

/-- One variable, member or parameter. -/
structure Variable where
  /-- the name in its declarator -/
  nameToken : Ref := none
  /-- the first token of its type -/
  typeStart : Ref := none
  scope : Option Nat := none
  isArgument : Bool := false
  isLocal : Bool := false
  deriving Inhabited

/-- One scope; the scope of a record lists the record's members. -/
structure Scope where
  type : Option String := none
  className : Option String := none
  members : List Nat := []
  deriving Inhabited

/-- The type of an expression: its base type, how many stars, and the record it names. -/
structure ValueType where
  type : Option String := none
  pointer : Int := 0
  scope : Option Nat := none
  deriving Inhabited

/-- One configuration of a program. -/
structure Program where
  tokens : Array Token := #[]
  vars : Array Variable := #[]
  scopes : Array Scope := #[]
  valueTypes : Array ValueType := #[]
  deriving Inhabited

namespace Program

variable (u : Program)

/-- The number of tokens. -/
def size : Nat := u.tokens.size

/-- The places of all tokens, in order. -/
def places : List Nat := List.range u.size

/-- The reference as it stands, or none when it leads out of the token list. -/
def ref (r : Ref) : Ref := r.filter (· < u.size)

/-- What passes `ref` is a token of the program. -/
theorem ref_lt {r : Ref} {i : Nat} (h : u.ref r = some i) : i < u.size := by
  simp only [ref, Option.filter_eq_some_iff] at h
  simpa using h.2

@[simp] theorem ref_none : u.ref none = none := rfl

/-! ### Tokens -/

/-- The record of a token. -/
def token? (t : Ref) : Option Token := t.bind (u.tokens[·]?)

@[simp] theorem token?_none : u.token? none = none := rfl

/-- The normalised spelling; empty for a missing token. -/
def text (t : Ref) : String := ((u.token? t).map Token.text).getD ""

/-- The spelling in the source file. -/
def sourceText (t : Ref) : String :=
  match u.token? t with
  | none => ""
  | some k => if k.sourceText = "" then k.text else k.sourceText

/-- The first operand of an operator. -/
def operand1 (t : Ref) : Ref := u.ref ((u.token? t).bind Token.operand1)

/-- The second operand of an operator. -/
def operand2 (t : Ref) : Ref := u.ref ((u.token? t).bind Token.operand2)

/-- The operator that a token is an operand of. -/
def parent (t : Ref) : Ref := u.ref ((u.token? t).bind Token.parent)

/-- The partner of a bracket. -/
def link (t : Ref) : Ref := u.ref ((u.token? t).bind Token.link)

/-- The token behind a token. -/
def next (t : Ref) : Ref := u.ref (t.map (· + 1))

/-- The token in front of a token. -/
def previous (t : Ref) : Ref :=
  match u.ref t with
  | some (i + 1) => some i
  | _ => none

/-- The identifier of the variable that a name stands for, or zero. -/
def varId (t : Ref) : Int := ((u.token? t).map Token.varId).getD 0

/-- The variable that a name stands for, as an index. -/
def var (t : Ref) : Option Nat :=
  ((u.token? t).bind Token.var).filter (· < u.vars.size)

/-- The type of the expression at a token. -/
def valueType? (t : Ref) : Option ValueType :=
  ((u.token? t).bind Token.valueType).bind (u.valueTypes[·]?)

/-- How many stars the type of an expression has; zero when the type is not known. -/
def pointerLevel (t : Ref) : Int := ((u.valueType? t).map ValueType.pointer).getD 0

/-- Whether a flag of a token is set; no flag of a missing token is. -/
def flag (f : Token → Bool) (t : Ref) : Bool := (u.token? t).any f

/-- Where a token stands, for messages: unknown parts are empty. -/
def position (t : Ref) : Position :=
  match u.token? t with
  | none => {}
  | some k => { file := k.file, line := k.line, column := k.column }

/-- Where a token stands, as the key by which tokens are ordered and files are found: a token of
    no file belongs to a file of the name `<unknown>`. -/
def place (t : Ref) : Position :=
  let p := u.position t
  if p.file = "" then { p with file := "<unknown>" } else p

/-! ### Variables and scopes -/

/-- The record of a variable. -/
def variableAt? (v : Option Nat) : Option Variable := v.bind (u.vars[·]?)

/-- The name in a variable's declarator. -/
def nameToken (v : Option Nat) : Ref := u.ref ((u.variableAt? v).bind Variable.nameToken)

/-- The scope that a variable belongs to, as an index. -/
def scopeOf (v : Option Nat) : Option Nat :=
  ((u.variableAt? v).bind Variable.scope).filter (· < u.scopes.size)

/-- The record of a scope. -/
def scope? (s : Option Nat) : Option Scope := s.bind (u.scopes[·]?)

/-- The scope types that make their variables members of a record. -/
def recordScopeTypes : List String := ["Struct", "Union", "Class"]

/-- Whether a scope is that of a record. -/
def isRecordScope (s : Option Nat) : Bool :=
  ((u.scope? s).bind Scope.type).any recordScopeTypes.contains

/-- The identifier of the declaration that a name refers to. A member access has an identifier of
    its own; the variable leads back to the member's declarator, whose identifier all uses share. -/
def declKey (t : Ref) : Int :=
  let key := u.varId (u.nameToken (u.var t))
  if key ≠ 0 then key else u.varId t

/-- A missing token refers to no declaration. -/
@[simp] theorem declKey_none : u.declKey none = 0 := by
  simp [declKey, var, nameToken, variableAt?, varId]

end Program

/-! ### Parents -/

/-- The parents that operands induce: going through the tokens in order, each operator becomes the
    parent of its first operand, then of its second; a later operator replaces an earlier one. -/
def parentsOf (operands : List (Ref × Ref)) : List Ref :=
  let adopt (parents : Array Ref) (child : Ref) (i : Nat) : Array Ref :=
    match child with
    | none => parents
    | some c => parents.setIfInBounds c (some i)
  (operands.zipIdx.foldl (fun parents (o, i) => adopt (adopt parents o.1 i) o.2 i)
    (Array.replicate operands.length none)).toList

end Indirection
