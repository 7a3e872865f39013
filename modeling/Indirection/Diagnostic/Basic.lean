import Indirection.Diagnostic.Code
import Indirection.Position

/-!
# Diagnostics

Main definitions:

* `Kind` — the kinds of diagnostic and the kinds each of them is also counted as;
* `Diagnostic` — a kind, a message, a code, a position and a severity;
* `Diagnostic.text` — the one-line form `POSITION: severity: message [CODE]`.

Running out of candidates is not among the diagnostics: a run reports that as one of its outcomes.
-/

namespace Indirection

/-- The kinds of diagnostic. -/
inductive Kind where
  /-- no kind in particular -/
  | general
  /-- a dump, a source file or the analyser is unusable -/
  | frontend
  /-- the invocation asks for something impossible -/
  | usage
  /-- the run cannot go on without risking an unsound edit -/
  | internal
  /-- the tokens break an assumption of the analysis -/
  | invariant
  /-- an edit could not be placed in the text -/
  | rewrite
  deriving DecidableEq, Inhabited

namespace Kind

/-- All kinds, the general ones first. -/
def all : List Kind := [general, frontend, usage, internal, invariant, rewrite]

/-- Whether a diagnostic of kind `k` is also counted as one of the other kind. -/
def isA (k : Kind) : Kind → Bool
  | general => true
  | internal => k = internal || k = invariant || k = rewrite
  | other => k = other

/-- The code of a diagnostic that names none. -/
def defaultCode : Kind → Code
  | general | internal => .internalError
  | frontend => .dumpUnreadable
  | usage => .badCounter
  | invariant => .unresolvedTarget
  | rewrite => .unexpectedShape

end Kind

/-- One diagnostic. -/
structure Diagnostic where
  kind : Kind
  message : String
  code : Code
  position : Position
  severity : Severity
  deriving DecidableEq

namespace Diagnostic

/-- A diagnostic from the parts given: the code falls back to that of the kind and the severity to
    that of the code. -/
def ofParts (kind : Kind) (message : String) (code? : Option Code) (position : Position)
    (severity? : Option Severity) : Diagnostic :=
  let code := code?.getD kind.defaultCode
  { kind, message, code, position, severity := severity?.getD code.severity }

/-- The phase of its code. -/
def phase (d : Diagnostic) : Phase := d.code.phase

/-- The one-line form. -/
def text (d : Diagnostic) : String :=
  d.position.text ++ ": " ++ d.severity.name ++ ": " ++ d.message ++ " [" ++ d.code.text ++ "]"

end Diagnostic

end Indirection
