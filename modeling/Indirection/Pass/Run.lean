import Indirection.Edit.Splice
import Indirection.Pass.Settings
import Indirection.Reduction.Plan
import Indirection.Table.Candidates

/-!
# Running the pass

Main definitions:

* `Status`, `Result` — how a run ended and what it did;
* `Run` — the result, or the fault that reached the caller, with what was told on the way;
* `Program.reduce` — one run: collect, choose the candidate of a number, and lower its level; a
  query only counts the candidates.

Every run analyses the program anew. A diagnostic of kind internal becomes the result of the run,
and then no text is changed; every other fault reaches the caller.
-/

namespace Indirection

/-- How a run ended. -/
inductive Status where
  | ok
  /-- there is no candidate of the number asked for -/
  | noInstance
  | internalError
  deriving DecidableEq

/-- The word for a status. -/
def Status.name : Status → String
  | ok => "ok"
  | noInstance => "no-instance"
  | internalError => "internal-error"

/-- What a run did, or why it did nothing. -/
structure Result where
  transformation : String := "reduce-pointer-level"
  status : Status := .ok
  /-- the number of the candidate asked for; it may have been left out -/
  counter : Option Int := some 1
  instances : Int := 0
  queryOnly : Bool := false
  target : Option Decl := none
  candidates : List Decl := []
  /-- the new text of every changed file -/
  rewritten : List (String × String) := []
  error : Option Diagnostic := none
  table : Option Table := none

namespace Result

/-- The same result, ended by a diagnostic: nothing is rewritten. -/
def fail (r : Result) (d : Diagnostic) : Result :=
  { r with status := .internalError, error := some d, rewritten := [] }

/-- The paths of the changed files in order of their names. -/
def files (r : Result) : List String :=
  (r.rewritten.map Prod.fst).foldr insertName []
where
  /-- Puts a name into a list that is in order. -/
  insertName (name : String) : List String → List String
    | [] => [name]
    | n :: rest => if name < n then name :: n :: rest else n :: insertName name rest

end Result

/-- The outcome of a run and what was told on the way. -/
structure Run where
  events : List Event
  outcome : Except Fault Result

/-- A run that ended in a fault, after which it stood at `r`. -/
def Run.ofFault (events : List Event) (r : Result) : Fault → Run
  | .refused d =>
    if d.kind.isA .internal then
      { events := events ++ [.failed r.transformation d], outcome := .ok (r.fail d) }
    else { events, outcome := .error (.refused d) }
  | f => { events, outcome := .error f }

namespace Program

variable (u : Program)

/-- Lowers the level of the declaration `d`, which the run `r` has chosen. -/
def reduceTarget (sources : Sources) (events : List Event) (r : Result) (d : Decl) : Run :=
  let r := { r with target := some d }
  let p := u.performPlan sources d
  let events := events ++ p.events
  match p.fault with
  | some f => .ofFault events r f
  | none =>
    match p.script.apply sources with
    | .ok texts => { events, outcome := .ok { r with rewritten := texts } }
    | .error f => .ofFault events r f

/-- Chooses the candidate of number `r.counter` in the tables `t`, and reduces it. -/
def reduceChosen (sources : Sources) (events : List Event) (r : Result) (t : Table) : Run :=
  match r.counter with
  | none => .ofFault events r .leftOut
  | some counter =>
    match t.select counter with
    | .error f => .ofFault events r f
    | .ok s =>
      match s.target with
      | none =>
        { events := events ++ [.counterExceeds s.counter s.instances]
          outcome := .ok { r with status := .noInstance } }
      | some d =>
        u.reduceTarget sources (events ++ [.selected d s.counter s.instances]) r d

/-- One run of the pass on a program. Only a query does without a counter. -/
def reduce (scoping : Scoping) (sources : Sources) (counter : Option Int) (queryOnly : Bool) :
    Run :=
  let r : Result := { counter, queryOnly }
  let c := u.collect scoping
  match c.fault with
  | some f => .ofFault c.events r f
  | none =>
    let candidates := c.table.candidates
    let r := { r with table := some c.table, candidates, instances := candidates.length }
    if queryOnly then
      { events := c.events ++ [.available candidates.length], outcome := .ok r }
    else u.reduceChosen sources c.events r c.table

end Program

end Indirection
