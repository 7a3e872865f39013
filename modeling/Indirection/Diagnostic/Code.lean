import Indirection.Text.Decimal
import Indirection.Text.Quoted

/-!
# Diagnostic codes

Main definitions:

* `Severity`, `Phase` — how grave a diagnostic is and which part of a run it comes from;
* `Code` — a family and a number, with the phase and the severity that go with it;
* `Code.text` — the form `FAMILY-NNNN`;
* `Code.same` — equality of codes: family and number alone decide;
* `Code.known` — the codes in use, under the names they are published by.

Numbers below 1000 belong to the front end, those from 1000 on to the invocation, and those from
9000 on to faults inside a run.
-/

namespace Indirection

/-- How grave a diagnostic is. -/
inductive Severity where
  | fatal
  | error
  | warning
  deriving DecidableEq, Inhabited

namespace Severity

/-- The word for a severity. -/
def name : Severity → String
  | fatal => "fatal"
  | error => "error"
  | warning => "warning"

/-- Anything but a warning is an error. -/
def isError : Severity → Bool
  | warning => false
  | _ => true

end Severity

/-- The part of a run that a diagnostic comes from. -/
inductive Phase where
  | frontend
  | collect
  | select
  | rewrite
  | internal
  deriving DecidableEq, Inhabited

namespace Phase

/-- The word for a phase. -/
def name : Phase → String
  | frontend => "frontend"
  | collect => "collect"
  | select => "select"
  | rewrite => "rewrite"
  | internal => "internal"

/-- The same word in capitals. -/
def capitals : Phase → String
  | frontend => "FRONTEND"
  | collect => "COLLECT"
  | select => "SELECT"
  | rewrite => "REWRITE"
  | internal => "INTERNAL"

end Phase

/-- A diagnostic code. -/
structure Code where
  family : String
  number : Int
  phase : Phase
  severity : Severity := .error
  deriving DecidableEq, Inhabited

namespace Code

/-- The form `FAMILY-NNNN`; the number has at least four characters, its sign included. -/
def text (c : Code) : String :=
  c.family ++ "-" ++ Text.zeroPadded 4 c.number

/-- The form that shows the text and the phase. -/
def display (c : Code) : String :=
  "ErrorCode(" ++ Text.quote c.text ++ ", " ++ c.phase.capitals ++ ")"

/-- Two codes are the same when family and number agree; phase and severity play no part. -/
def same (a b : Code) : Bool :=
  a.family = b.family && a.number = b.number

/-- A code is named by a text when that is its own text. -/
def isNamedBy (c : Code) (s : String) : Bool :=
  c.text = s

/-! ### The codes in use -/

/-- The reader for dump files is not installed. -/
def readerMissing : Code := ⟨"RPL", 1, .frontend, .error⟩
/-- The dump file does not exist. -/
def dumpNotFound : Code := ⟨"RPL", 2, .frontend, .error⟩
/-- The dump file cannot be parsed. -/
def dumpUnreadable : Code := ⟨"RPL", 3, .frontend, .error⟩
/-- The dump has no configuration, or none of the name asked for. -/
def noConfiguration : Code := ⟨"RPL", 4, .frontend, .error⟩
/-- The analyser that writes dumps is missing or failed. -/
def analyserFailed : Code := ⟨"RPL", 5, .frontend, .error⟩
/-- A source file named by a token does not exist. -/
def sourceNotFound : Code := ⟨"RPL", 6, .frontend, .error⟩
/-- The counter is not a positive number. -/
def badCounter : Code := ⟨"RPL", 1000, .select, .error⟩
/-- No transformation has the name asked for. -/
def unknownTransformation : Code := ⟨"RPL", 1001, .frontend, .error⟩
/-- A fault without a code of its own. -/
def internalError : Code := ⟨"RPL", 9000, .internal, .fatal⟩
/-- The left side of an assignment leads to no declaration. -/
def unresolvedTarget : Code := ⟨"RPL", 9001, .collect, .fatal⟩
/-- The operand of an address-of leads to no declaration. -/
def unresolvedOperand : Code := ⟨"RPL", 9002, .collect, .fatal⟩
/-- A declarator of the selected declaration is missing or has no star. -/
def noPointerDeclarator : Code := ⟨"RPL", 9003, .rewrite, .fatal⟩
/-- The tokens have a shape for which no edit is known. -/
def unexpectedShape : Code := ⟨"RPL", 9004, .rewrite, .fatal⟩
/-- A token's spelling does not stand where the dump says. -/
def textMismatch : Code := ⟨"RPL", 9005, .rewrite, .fatal⟩
/-- Two edits overlap. -/
def overlappingEdits : Code := ⟨"RPL", 9006, .rewrite, .fatal⟩

/-- The codes in use, in the order of their numbers, under their published names. -/
def known : List (String × Code) := [
  ("CPPCHECKDATA_MISSING", readerMissing),
  ("DUMP_NOT_FOUND", dumpNotFound),
  ("DUMP_UNREADABLE", dumpUnreadable),
  ("NO_CONFIGURATION", noConfiguration),
  ("CPPCHECK_FAILED", analyserFailed),
  ("SOURCE_NOT_FOUND", sourceNotFound),
  ("BAD_COUNTER", badCounter),
  ("UNKNOWN_TRANSFORMATION", unknownTransformation),
  ("INTERNAL_ERROR", internalError),
  ("UNRESOLVED_LHS", unresolvedTarget),
  ("UNRESOLVED_OPERAND", unresolvedOperand),
  ("NO_POINTER_DECLARATOR", noPointerDeclarator),
  ("UNEXPECTED_SHAPE", unexpectedShape),
  ("TEXT_MISMATCH", textMismatch),
  ("OVERLAPPING_EDITS", overlappingEdits)]

/-- The code published under a name. -/
def ofName? (name : String) : Option Code :=
  known.lookup name

end Code

end Indirection
