import Indirection.Fault
import Indirection.Program.Basic

/-!
# Configurations of a dump

A dump holds the program once for each preprocessor configuration. Main definitions:

* `Label` — the name of a configuration, which may be missing in two ways;
* `Configuration` — a label and a program;
* `Wanted` — which configuration is asked for: the first one, or one by its name;
* `choose` — the configuration asked for.
-/

namespace Indirection

/-- The name of a configuration. -/
inductive Label where
  /-- the dump gives none -/
  | missing
  /-- the dump gives an empty value -/
  | unnamed
  | named (s : String)
  deriving DecidableEq

/-- A label in messages. -/
def Label.display : Label → String
  | missing => Text.quote ""
  | unnamed => "None"
  | named s => Text.quote s

/-- A program as one preprocessor configuration gives it. -/
structure Configuration where
  label : Label
  program : Program

/-- Which configuration is asked for. -/
inductive Wanted where
  | first
  | named (s : String)
  /-- one by its name, which was left out -/
  | leftOut
  deriving DecidableEq

/-- The place of the configuration asked for. No configuration has the name that was left out. -/
def chooseIndex (cs : List Configuration) (w : Wanted) : Except Fault Nat :=
  let unknown (shown : String) : Except Fault Nat :=
    .error (.of (.unknownConfiguration shown (cs.map (·.label.display))) {})
  if cs.isEmpty then .error (.of .noConfiguration {})
  else
    match w with
    | .first => .ok 0
    | .named s =>
      match cs.findIdx? (·.label = .named s) with
      | some i => .ok i
      | none => unknown (Text.quote s)
    | .leftOut => unknown Text.leftOut

/-- The configuration asked for. -/
def choose (cs : List Configuration) (w : Wanted) : Except Fault Configuration :=
  match chooseIndex cs w with
  | .error f => .error f
  | .ok i =>
    match cs[i]? with
    | some c => .ok c
    | none => .error (.of .noConfiguration {})

end Indirection
