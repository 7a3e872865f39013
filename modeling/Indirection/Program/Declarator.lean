import Indirection.Program.Shape

/-!
# Declarators

Main definitions:

* `Program.stars` — the stars of the pointer declarator around a name, the nearest first;
* `Program.arrayRank` — the number of array dimensions behind a name;
* `Program.isDeclaratorName` — whether a name stands in a declarator of its variable;
* `Program.initializer` — the first token of the value that a declarator is initialised with.

A front end may split `T x = value;` into `T x; x = value;`. The second statement is no assignment:
`isSplitInitializer` recognises its `=`, and `isSplitName` the repeated name.
-/

namespace Indirection.Program

variable (u : Program)

/-! ### Fixed vocabularies -/

/-- The qualifiers that may stand between the stars of a declarator and its name. -/
def pointerQualifiers : List String :=
  ["const", "volatile", "restrict", "__restrict", "__restrict__"]

/-- The words that begin a statement and not a type: a name behind one of them is a use. -/
def statementKeywords : List String :=
  ["return", "else", "case", "goto", "do", "sizeof", "throw"]

/-- The tokens that may follow the name in a redeclaration. -/
def declaratorEnds : List String := [";", ",", "=", "["]

/-! ### Stars and dimensions -/

/-- The stars directly in front of place `i`, qualifiers passed over, the nearest first. -/
def starsBefore : (i : Nat) → List Nat
  | 0 => []
  | i + 1 =>
    if u.text (some i) = "*" then i :: starsBefore i
    else if pointerQualifiers.contains (u.text (some i)) then starsBefore i
    else []

/-- The stars of the pointer declarators that wrap a name directly, the nearest first: two for
    `int **p`, one for `int (*f)(void)` and one for `int *a[10]`. -/
def stars (name : Ref) : List Nat :=
  match u.ref name with
  | none => []
  | some i => u.starsBefore i

/-- The number of dimensions from `t` on, at most `steps` of them. A dimension whose bracket has no
    partner is the last one. -/
def rankWithin : (steps : Nat) → Ref → Nat
  | 0, _ => 0
  | steps + 1, t =>
    if u.text t = "[" then
      match u.link t with
      | none => 1
      | some close => rankWithin steps (u.next (some close)) + 1
    else 0

/-- The number of array dimensions behind a declarator's name. -/
def arrayRank (name : Ref) : Nat := u.rankWithin u.size (u.next name)

/-- The token behind the dimensions that begin at `t`, at most `steps` of them. -/
def skipDimensionsWithin : (steps : Nat) → Ref → Ref
  | 0, t => t
  | steps + 1, t =>
    if u.text t = "[" then
      match u.link t with
      | none => t
      | some close => skipDimensionsWithin steps (u.next (some close))
    else t

/-- The token in front of the dimensions that end at `t`, at most `steps` of them. -/
def skipDimensionsBackWithin : (steps : Nat) → Ref → Ref
  | 0, t => t
  | steps + 1, t =>
    if u.text t = "]" then
      match u.link t with
      | none => t
      | some opening => skipDimensionsBackWithin steps (u.previous (some opening))
    else t

/-! ### Names in declarators -/

/-- Whether `t` is the name in a declarator of its variable: the one that the variable records, or
    one in a redeclaration, which is told from a use by its neighbours. -/
def isDeclaratorName (t : Ref) : Bool :=
  if (u.var t).isNone || u.varId t = 0 then false
  else if u.nameToken (u.var t) = t then true
  else
    let parent := u.parent t
    let before := u.previous t
    if parent.isSome && !(u.text parent = "=" && u.operand1 parent = t) then false
    else if !declaratorEnds.contains (u.text (u.next t)) then false
    else u.text before = "*" ||
      (u.isName before && !statementKeywords.contains (u.text before))

/-- Whether `t` is the name in a designator of a brace initializer, as in `.f = value`. -/
def isDesignator (t : Ref) : Bool :=
  let dot := u.previous t
  u.text dot = "." && ["\x7b", ","].contains (u.text (u.previous dot)) && u.text (u.next t) = "="

/-! ### Initializers -/

/-- Whether the tokens around an `=` have the shape of a split declaration: the statement in front
    of its name ends in a declarator of the same variable. -/
def hasSplitShape (eq : Ref) : Bool :=
  let name := u.operand1 eq
  let stop := u.previous name
  let declared := u.skipDimensionsBackWithin u.size (u.previous stop)
  u.isName name && u.next name = eq && u.text stop = ";" &&
    u.declKey declared = u.declKey name && u.isDeclaratorName declared

/-- Whether `eq` is the `=` of a declaration split into two statements. The front end's own word
    decides; where it is silent, the shape does. -/
def isSplitInitializer (eq : Ref) : Bool :=
  u.text eq = "=" && (((u.token? eq).bind Token.isSplit).getD (u.hasSplitShape eq))

/-- Whether `eq` introduces the initial value of a declaration. -/
def isInitializer (eq : Ref) : Bool :=
  u.text eq = "=" && (u.isDeclaratorName (u.operand1 eq) || u.isSplitInitializer eq)

/-- Whether `t` is the repeated name of a split declaration. -/
def isSplitName (t : Ref) : Bool :=
  u.operand1 (u.parent t) = t && u.isSplitInitializer (u.parent t)

/-- The first token of the value that the declarator of `name` is initialised with. -/
def initializer (name : Ref) : Ref :=
  let t := u.skipDimensionsWithin u.size (u.next name)
  if u.text t = "=" then u.next t
  else if u.text t = ";" then
    let repeated := u.next t
    let eq := u.next repeated
    if u.declKey repeated = u.declKey name && u.operand1 eq = repeated && u.isSplitInitializer eq
    then u.next eq
    else none
  else none

end Indirection.Program
