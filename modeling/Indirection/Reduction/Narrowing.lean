import Indirection.Edit.Script
import Indirection.Program.Brace
import Indirection.Program.Extent

/-!
# Narrowing values

A reduced declaration needs values of one level less. Main definitions:

* `Step` — what a reduction does: it changes a token or tells something;
* `Narrowing`, `Program.narrowing` — how a value loses a level: `&x` becomes `x`, a zero stays, and
  anything else is dereferenced, a `void *` through a cast to the declared type;
* `Program.narrow` — the changes for it;
* `Program.narrowExpression`, `narrowRange`, `narrowInitializer` — the same for an operator, for a
  stretch of tokens and for all values in an initializer;
* `Program.typeText` — the declared type as it is written in a cast.
-/

namespace Indirection

/-- What a reduction does at one place. -/
inductive Step where
  | change (c : Change)
  | tell (e : Event)

/-- How a value loses one level. -/
inductive Narrowing where
  /-- the address operator in front of it goes away -/
  | dropAddress
  /-- a zero fits every level -/
  | keep
  /-- it is dereferenced behind the text `cast`, in parentheses if `wrap` is set -/
  | dereference (cast : String) (wrap : Bool)
  deriving DecidableEq

namespace Program

variable (u : Program)

/-- Whether the value at `t` is a pointer to no particular type. -/
def isVoidPointer (t : Ref) : Bool :=
  (u.valueType? t).any (fun vt => vt.type = some "void" && 1 ≤ vt.pointer)

/-- How the value at `root` loses a level, when values of the declared type are written with the
    cast `type?`. -/
def narrowing (type? : Option String) (root : Ref) : Narrowing :=
  if u.isAddressOf root then .dropAddress
  else if u.isNullConstant root then .keep
  else
    let wrap := !u.isPostfixOrPrimary root
    match type? with
    | some type => if u.isVoidPointer root then .dereference ("(" ++ type ++ ")") wrap
                   else .dereference "" wrap
    | none => .dereference "" wrap

/-- The changes that take a level off the value at `root`, which is spelled by the tokens of
    `range`. -/
def narrow (type? : Option String) (root : Ref) (range : Range) : Trail Step :=
  match u.narrowing type? root with
  | .dropAddress => .one (.change (.remove root))
  | .keep => .nil
  | .dereference cast false => .one (.change (.insertBefore range.first ("*" ++ cast)))
  | .dereference cast true =>
    { items := [.change (.insertBefore range.first ("*" ++ cast ++ "(")),
        .change (.insertAfter range.last ")")] }

/-- Takes a level off the value of the operator at `root`. -/
def narrowExpression (type? : Option String) (root : Ref) : Trail Step :=
  match u.bounds root with
  | some (first, last) => u.narrow type? root ⟨some first, some last⟩
  | none => .nil

/-- Takes a level off the value that a stretch of tokens spells. -/
def narrowRange (type? : Option String) (range : Range) : Trail Step :=
  match u.rangeRoot range.first range.last with
  | some root => u.narrow type? (some root) range
  | none => .fail (.of (.noTree (u.text range.first)) (u.position range.first))

/-- Takes a level off every value in the initializer that begins at `start`. -/
def narrowInitializer (type? : Option String) (start : Ref) : Trail Step :=
  (u.values start).bind (u.narrowRange type?)

/-! ### The declared type -/

/-- The words that say where a variable lives and are no part of its type. -/
def storageWords : List String := ["static", "extern", "register", "auto", "inline", "typedef"]

/-- The tokens at which the words of a type end. -/
def typeEnds : List String := ["*", ",", ";", "(", "[", "=", "\x7b"]

/-- The words of the type that begins at `start`, up to the declarator of `name`. -/
def typeWords (start name : Ref) : List String :=
  ((((u.stretch start none).takeWhile fun i =>
    some i ≠ name && !typeEnds.contains (u.text (some i)) && u.declKey (some i) = 0).filter fun i =>
    !storageWords.contains (u.text (some i))).map fun i => u.sourceText (some i))

/-- The type of level `level` declared for `name`, as it is written in a cast: `const char **` for
    `static const char **p`. A declarator with its name in parentheses has no such form, nor has a
    variable whose type is not known. -/
def typeText (name : Ref) (level : Int) : Option String :=
  if ["(", ")"].contains (u.text (u.next name)) then none
  else
    let words := u.typeWords ((u.variableAt? (u.var name)).bind Variable.typeStart) name
    if words.isEmpty then none
    else some (" ".intercalate words ++ " " ++ String.ofList (List.replicate level.toNat '*'))

end Program

end Indirection
