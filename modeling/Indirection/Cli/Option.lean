import Indirection.Dump.Configuration
import Indirection.Report.Summary

/-!
# The options of the command

Main definitions:

* `Opt` — the options, with their spellings and whether they take a value;
* `Request` — what an invocation asks for;
* `Stop` — why the reading of arguments may end early: help, the version, or a refusal.
-/

namespace Indirection.Cli

/-- The options. -/
inductive Opt where
  | help
  | version
  | verbose
  | transformation
  | transformations
  | counter
  | queryInstances
  | listCandidates
  | configuration
  | analyser
  | sourceRoot
  | output
  | inPlace
  | format
  deriving DecidableEq

namespace Opt

/-- All options in the order in which help shows them. -/
def all : List Opt := [
  help, version, verbose, transformation, transformations, counter, queryInstances, listCandidates,
  configuration, analyser, sourceRoot, output, inPlace, format]

/-- The spellings of an option. -/
def spellings : Opt → List String
  | help => ["-h", "--help"]
  | version => ["--version"]
  | verbose => ["-v", "--verbose"]
  | transformation => ["--transformation"]
  | transformations => ["--transformations"]
  | counter => ["--counter"]
  | queryInstances => ["--query-instances"]
  | listCandidates => ["--list-candidates"]
  | configuration => ["--configuration"]
  | analyser => ["--cppcheck"]
  | sourceRoot => ["--source-root"]
  | output => ["-o", "--output"]
  | inPlace => ["--in-place"]
  | format => ["--format"]

/-- Whether an option is followed by a value. -/
def takesValue : Opt → Bool
  | transformation | counter | configuration | analyser | sourceRoot | output | format => true
  | _ => false

/-- An option in messages: all its spellings. -/
def display (o : Opt) : String := "/".intercalate o.spellings

/-- Every spelling with its option. -/
def table : List (String × Opt) := all.flatMap fun o => o.spellings.map (·, o)

/-- The option of a spelling. -/
def ofSpelling? (s : String) : Option Opt := table.lookup s

end Opt

/-- What an invocation asks for. Where an option may be given and its value left out, `none` stands
    for that value. -/
structure Request where
  dump : Option String := none
  verbosity : Nat := 0
  transformation : Option String := some Catalogue.defaultName
  listTransformations : Bool := false
  counter : Option Int := some 1
  queryInstances : Bool := false
  listCandidates : Bool := false
  configuration : Wanted := .first
  /-- the analyser to run first, if any -/
  analyser : Option String := none
  sourceRoots : List (Option String) := []
  output : Option String := some "-"
  inPlace : Bool := false
  format : Option Format := some .text

/-- Why the reading of arguments ends early. -/
inductive Stop where
  | help
  | version
  | refused (text : String)
  deriving DecidableEq

/-- The refusal of an option. -/
def Stop.ofOption (o : Opt) (text : String) : Stop :=
  .refused ("argument " ++ o.display ++ ": " ++ text)

end Indirection.Cli
