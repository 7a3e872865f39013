import Indirection.Pass.Catalogue
import Indirection.Report.Document
import Indirection.Text.Padding
import Indirection.Text.Wrap

/-!
# Reports

Main definitions:

* `Result.summary` — one line on what a run did;
* `candidateLines` — one numbered line for each candidate;
* `Format`, `Result.report` — the three forms of a report;
* `listing` — the names of transformations with their descriptions in lines of 72 characters.
-/

namespace Indirection

open Text

/-! ### Text -/

/-- The changed files in order, or that there is none with a name. -/
def Result.fileList (r : Result) : String :=
  let names := ", ".intercalate r.files
  if names.isEmpty then "no file" else names

/-- One line on what a run did. -/
def Result.summary (r : Result) : String :=
  let counter := (r.counter.map decimal).getD leftOut
  if r.queryOnly then "Available transformation instances: " ++ decimal r.instances
  else
    match r.status, r.target with
    | .ok, some d =>
      r.transformation ++ ": reduced " ++ d.qualifiedName ++ " from level " ++ decimal d.level ++
        " to " ++ decimal (d.level - 1) ++ " (instance " ++ counter ++ " of " ++
        decimal r.instances ++ "; " ++ r.fileList ++ ")"
    | .ok, none => r.transformation ++ ": nothing chosen"
    | .noInstance, _ =>
      r.transformation ++ ": no instance for counter " ++ counter ++ " (" ++
        decimal r.instances ++ " available); no modification made"
    | .internalError, _ =>
      r.transformation ++ ": internal error: " ++ (r.error.map Diagnostic.text).getD "None"

/-- The line of the candidate of number `n`. -/
def candidateLine (n : Nat) (d : Decl) : String :=
  padLeft 4 (decimal n) ++ "  " ++ padRight 24 d.qualifiedName ++ " level " ++ decimal d.level ++
    "  " ++ (if d.isField then "field" else "variable") ++ "  " ++ d.position.text

/-- A numbered line for each candidate, counted from one. -/
def candidateLines (ds : List Decl) : String :=
  "\n".intercalate (ds.zipIdx.map fun (d, i) => candidateLine (i + 1) d)

/-! ### Formats -/

/-- The forms of a report. -/
inductive Format where
  | text
  | json
  | sexp
  deriving DecidableEq

namespace Format

/-- The name of a form. -/
def name : Format → String
  | text => "text"
  | json => "json"
  | sexp => "sexp"

/-- All forms. -/
def all : List Format := [text, json, sexp]

/-- What is said of a name that no form has, given as messages show it. -/
def unknown (shown : String) : Misuse := .unknownFormat shown (all.map name)

/-- The form of a name. -/
def ofName (s : String) : Except Misuse Format :=
  match all.find? (·.name = s) with
  | some f => .ok f
  | none => .error (unknown (quote s))

end Format

/-- The report on a run. -/
def Result.report (r : Result) (format : Format) (withCandidates : Bool) : String :=
  match format with
  | .text =>
    if withCandidates && !r.candidates.isEmpty then
      r.summary ++ "\n" ++ candidateLines r.candidates
    else r.summary
  | .json => (r.toJson withCandidates).render
  | .sexp => (r.toSExpr withCandidates).render

/-! ### Transformations -/

/-- The lines on one transformation: its name, and its description indented by four. -/
def Entry.lines (e : Entry) : List String :=
  (e.name ++ ":") :: (wrap 72 e.description).map ("    " ++ ·)

/-- The names of transformations with their descriptions. -/
def listing (es : List Entry) : String := "\n".intercalate (es.flatMap Entry.lines)

end Indirection
