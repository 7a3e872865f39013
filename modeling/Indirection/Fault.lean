import Indirection.Diagnostic.Cause
import Indirection.Files.Obstacle

/-!
# Faults

Main definitions:

* `Misuse` — a request that the library turns down;
* `Fault` — what can end an operation early: a diagnostic, a misuse, a file that cannot be read as
  text, or tokens so malformed that the analysis has no answer;
* `Fault.isInternal` — the faults that a run turns into its own outcome; all others reach the
  caller.
-/

namespace Indirection

/-- What a table, a report, a registry or a path turns down. -/
inductive Misuse where
  /-- a change to tables that are final -/
  | frozenTables
  /-- no form of a report has the name, which is given as messages show it -/
  | unknownFormat (shown : String) (known : List String)
  | registeredTwice (name : String)
  /-- a path begins at the home directory of a user who has none -/
  | noHome
  /-- a path holds the character of code point zero -/
  | zeroInPath
  deriving DecidableEq

namespace Misuse

/-- The wording of a misuse. -/
def message : Misuse → String
  | frozenTables => "classification tables are frozen"
  | unknownFormat shown known =>
    "unknown report format " ++ shown ++ "; expected one of " ++ ", ".intercalate known
  | registeredTwice name => "transformation " ++ Text.quote name ++ " registered twice"
  | noHome => "Could not determine home directory."
  | zeroInPath => "embedded null byte"

end Misuse

/-- What ends an operation early. -/
inductive Fault where
  /-- a diagnostic of the library -/
  | refused (d : Diagnostic)
  /-- a request that the library turns down -/
  | misused (m : Misuse)
  /-- a value that was left out is needed -/
  | leftOut
  /-- something stands in the way of an operation on files -/
  | obstructed (o : Obstacle)
  /-- the texts at hand have no such file -/
  | noText (file : String)
  /-- the bytes of a file are no text in its encoding -/
  | undecodable
  /-- the encoding asked for does not exist -/
  | unknownEncoding
  /-- an initializer refers to a member of a record that has none -/
  | noMember
  /-- the operands of a chain of dereferences lead back into the chain -/
  | endlessChain
  deriving DecidableEq

namespace Fault

/-- The fault of a cause at a position. -/
def of (c : Cause) (p : Position) : Fault := .refused (c.diagnostic p)

/-- Whether a run may report the fault as its own outcome. -/
def isInternal : Fault → Bool
  | refused d => d.kind.isA .internal
  | _ => false

end Fault

end Indirection
