import Indirection.Program.Record
import Indirection.Reduction.Site

/-!
# The plan of a reduction

Given a declaration of some level, its plan is the list of changes that make it a declaration of one
level less and keep every dependent expression well typed. Main definitions:

* `Role`, `Program.role` — what each token is to the declaration;
* `Known` — what the declarators met so far tell about the declaration's type and record;
* `Program.rewriteDeclarator` — a star less, and the initializer narrowed;
* `Program.plan` — the whole plan: the tokens in order, and then, for a field, the brace
  initializers of its record.

A plan depends on the tokens alone; the texts of the files only matter when it is performed.
-/

namespace Indirection

/-- What a token is to a declaration. -/
inductive Role where
  | unrelated
  | declarator
  /-- a name that says which member or variable an initializer is for -/
  | label
  | use
  deriving DecidableEq

/-- What is known of the declaration at some point of the walk. -/
structure Known where
  /-- its type, as in a cast -/
  type? : Option String := none
  record : Option Nat := none
  /-- whether any declarator has been met -/
  declared : Bool := false

namespace Program

variable (u : Program)

/-- What the token `t` is to the declaration of key `key`. -/
def role (key : Int) (t : Ref) : Role :=
  if u.declKey t ≠ key then .unrelated
  else if u.isDeclaratorName t then .declarator
  else if u.isDesignator t || u.isSplitName t then .label
  else .use

/-- What is known behind the declarator of `d` at `t`; the first declarator that tells something is
    believed. -/
def learn (d : Decl) (known : Known) (t : Ref) : Known where
  type? := known.type?.or (u.typeText t d.level)
  record := if d.isField then known.record.or (u.scopeOf (u.var t)) else known.record
  declared := true

/-- The changes at the declarator of `d` at `t`: its nearest star goes away, and its initializer
    loses a level. -/
def rewriteDeclarator (type? : Option String) (t : Ref) : Trail Step :=
  match u.stars t with
  | [] => .fail (.of (.noStar (u.text t)) (u.position t))
  | star :: _ =>
    .one (.change (.remove (some star))) ++
      match u.initializer t with
      | some start => u.narrowInitializer type? (some start)
      | none => .nil

/-- The changes for what the braces of a record hold. -/
def rewriteField (type? : Option String) : FieldPart → Trail Step
  | .value start => u.narrowInitializer type? start
  | .note e => .one (.tell e)
  | .nested .. => .nil

/-- The end of a plan: the declaration must have been met, and a field is also narrowed in the brace
    initializers of its record. -/
def planEnd (d : Decl) (known : Known) : Trail Step :=
  if !known.declared then .fail (.of (.noDeclarator d.qualifiedName) d.position)
  else if !d.isField then .nil
  else
    match known.record with
    | none => .fail (.of (.noRecord d.qualifiedName) d.position)
    | some _ => (u.fieldValues d.key).bind (u.rewriteField known.type?)

/-- The plan for the tokens at the places given, when something is known from those before them. -/
def planFrom (d : Decl) (known : Known) : List Nat → Trail Step
  | [] => u.planEnd d known
  | i :: rest =>
    match u.role d.key (some i) with
    | .declarator =>
      let known := u.learn d known (some i)
      u.rewriteDeclarator known.type? (some i) ++ planFrom d known rest
    | .use => u.rewriteUse d known.type? (some i) ++ planFrom d known rest
    | .unrelated | .label => planFrom d known rest

/-- The plan that takes one level off the declaration `d`. -/
def plan (d : Decl) : Trail Step := u.planFrom d {} u.places

end Program

/-! ### Performing a plan -/

/-- How far a plan was performed: the script, the fault that ended it, and what was told. -/
structure Performance where
  script : Script := {}
  fault : Option Fault := none
  events : List Event := []

/-- Performs steps in order, up to the first change whose tokens are not found. -/
def Program.perform (u : Program) (sources : Sources) (script : Script) : List Step → Performance
  | [] => { script }
  | .tell e :: rest =>
    let p := u.perform sources script rest
    { p with events := e :: p.events }
  | .change c :: rest =>
    match u.place? sources c with
    | .error f => { script, fault := some f }
    | .ok r =>
      let p := u.perform sources (script.add r) rest
      { p with events := script.eventsOf r ++ p.events }

/-- Performs a plan from an empty script. -/
def Program.performPlan (u : Program) (sources : Sources) (d : Decl) : Performance :=
  let plan := u.plan d
  let p := u.perform sources {} plan.items
  { p with fault := p.fault.or plan.fault }

end Indirection
