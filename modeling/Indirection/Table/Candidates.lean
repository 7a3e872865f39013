import Indirection.Table.Basic

/-!
# Candidates for a reduction

Main definitions:

* `Table.candidates` — the declarations that may be reduced, in the order they are counted;
* `Tally.count` — one more candidate is counted;
* `Table.select` — the candidate of a given number.

At the deepest level every valid declaration is a candidate. Below it, one whose address is taken is
not: some shallower pointer may hold that address. Taking the deepest declarations first means that
a chosen one is never the operand of an `&` whose result another pointer holds.
-/

namespace Indirection

namespace Table

variable (t : Table)

/-- The levels below the deepest one, from there down to one. -/
def lowerLevels : List Int :=
  ((List.range (t.maxLevel - 1).toNat).map (fun n => Int.ofNat n + 1)).reverse

/-- The declarations that may be reduced: the deepest level, then level by level down. -/
def candidates : List Decl :=
  (t.bucket t.maxLevel).filter (t.isValid ·.key) ++
    t.lowerLevels.flatMap (fun level =>
      (t.bucket level).filter (fun d => t.isValid d.key && !t.isTaken d.key))

end Table

/-- The outcome of counting candidates up to a number. -/
structure Selection where
  counter : Int
  target : Option Decl
  instances : Nat
  deriving DecidableEq

/-- How far candidates have been counted, and the target, if it has been passed. -/
structure Tally where
  instances : Nat := 0
  target : Option Decl := none

/-- Counts the candidate `d`, which is the target if its number is `counter`. -/
def Tally.count (counter : Int) (tally : Tally) (d : Decl) : Tally :=
  let instances := tally.instances + 1
  { instances, target := if (instances : Int) = counter then some d else tally.target }

namespace Table

/-- The candidate of number `counter`, counted from one. Only positive numbers count. All candidates
    are counted, also those behind the target. -/
def select (t : Table) (counter : Int) : Except Fault Selection :=
  if counter < 1 then .error (.of (.badCounter counter) {})
  else
    let tally := t.candidates.foldl (Tally.count counter) {}
    .ok { counter, target := tally.target, instances := tally.instances }

end Table

end Indirection
