import Indirection.Decl
import Indirection.Fault

/-!
# Classification tables

Main definitions:

* `Table` — the declarations of a program in the order they were first reported, with the sets of
  those that are disqualified and those whose address is taken;
* `Fact` — one report about a declaration, and `Table.record`, which enters it;
* `Table.report` — the same for tables that may be final already;
* `Table.Request`, `Table.serve` — everything that can be asked of tables, and how they answer;
* views: `isValid`, `valid`, `maxLevel`, `bucket`, `levels`, `byLevel`, `lookup`.

Only the first report of a declaration counts, and a disqualification stays, whether it comes before
the declaration or after it. All other data are views of these three lists.
-/

namespace Indirection

/-- The classification of a program's declarations. -/
structure Table where
  /-- the declarations in order of first report; no key occurs twice -/
  decls : List Decl := []
  /-- the keys of declarations that must not be changed -/
  disqualified : List Int := []
  /-- the keys of declarations whose address is taken -/
  taken : List Int := []
  /-- whether the tables are final -/
  frozen : Bool := false
  deriving DecidableEq

/-- A report about the declarations of a program. -/
inductive Fact where
  | declared (d : Decl)
  | addressTaken (key : Int)
  | disqualified (key : Int)
  deriving DecidableEq

/-- A key put behind a list of keys, unless it is there already. -/
def addKey (keys : List Int) (key : Int) : List Int :=
  if keys.contains key then keys else keys ++ [key]

/-- Adding a key adds exactly this member. -/
theorem mem_addKey {keys : List Int} {key k : Int} :
    k ∈ addKey keys key ↔ k ∈ keys ∨ k = key := by
  unfold addKey
  split
  · rename_i h
    have hm : key ∈ keys := by simpa using h
    exact ⟨.inl, fun h' => h'.elim id (fun e => e ▸ hm)⟩
  · simp

namespace Table

variable (t : Table)

/-! ### Reports -/

/-- Whether a declaration of this key has been reported. -/
def knows (key : Int) : Bool := t.decls.any (·.key = key)

/-- Enters a declaration, unless its key is known. -/
def declare (d : Decl) : Table :=
  if t.knows d.key then t else { t with decls := t.decls ++ [d] }

/-- Enters a fact. -/
def record : Fact → Table
  | .declared d => t.declare d
  | .addressTaken key => { t with taken := addKey t.taken key }
  | .disqualified key => { t with disqualified := addKey t.disqualified key }

/-- The same tables, final. -/
def freeze : Table := { t with frozen := true }

/-- Enters a fact into tables that are not final. -/
def report (f : Fact) : Except Misuse Table :=
  if t.frozen then .error .frozenTables else .ok (t.record f)

/-! ### Requests -/

/-- What can be asked of tables: to enter a fact, or to become final. -/
inductive Request where
  | report (f : Fact)
  | freeze
  deriving DecidableEq

/-- The answer to a request. -/
inductive Answer where
  | done
  /-- a declaration, which was entered if it was new -/
  | declared (new : Bool)
  | refused (m : Misuse)
  deriving DecidableEq

/-- The answer to a fact that is entered. -/
def answer : Fact → Answer
  | .declared d => .declared (!t.knows d.key)
  | .addressTaken _ | .disqualified _ => .done

/-- The tables behind a request, and the answer to it. Final tables refuse every fact and stay as
    they are. -/
def serve : Request → Table × Answer
  | .freeze => (t.freeze, .done)
  | .report f =>
    match t.report f with
    | .ok t' => (t', t.answer f)
    | .error m => (t, .refused m)

/-! ### Views -/

/-- Whether the address of a declaration is taken. -/
def isTaken (key : Int) : Bool := t.taken.contains key

/-- Whether a key is that of a declaration that is not disqualified. -/
def isValid (key : Int) : Bool := t.knows key && !t.disqualified.contains key

/-- The keys of all declarations that are not disqualified, in order of first report. -/
def valid : List Int := (t.decls.map Decl.key).filter (!t.disqualified.contains ·)

/-- The deepest level of any declaration, or zero. -/
def maxLevel : Int := t.decls.foldl (fun m d => max m d.level) 0

/-- The declarations of one level, in order of first report. -/
def bucket (level : Int) : List Decl := t.decls.filter (·.level = level)

/-- The declaration of a key. -/
def lookup (key : Int) : Option Decl := t.decls.find? (·.key = key)

/-- A number put into a list that decreases strictly, unless it is there already. -/
def insertLevel (level : Int) : List Int → List Int
  | [] => [level]
  | l :: rest =>
    if l < level then level :: l :: rest
    else if l = level then l :: rest
    else l :: insertLevel level rest

/-- The levels that occur, the deepest first. -/
def levels : List Int := t.decls.foldl (fun ls d => insertLevel d.level ls) []

/-- All declarations, the deepest level first and in order of first report inside a level. -/
def byLevel : List Decl := t.levels.flatMap t.bucket

end Table

end Indirection
