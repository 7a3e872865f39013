import Indirection.Pass.Run
import Indirection.Report.Json
import Indirection.Report.SExpr

/-!
# Results as documents

Main definitions:

* `Result.toJson` — a result as a JSON object;
* `Table.toSExprs` — the classification tables: the declarations of each level, those that are not
  valid, and those whose address is taken;
* `Result.toSExpr` — a result with its tables as an S-expression.
-/

namespace Indirection

open Report

/-! ### JSON -/

/-- A position as a JSON object. -/
def Position.toJson (p : Position) : Json :=
  .obj [("file", .str p.file), ("line", .int p.line), ("column", .int p.column)]

/-- A declaration as a JSON object. -/
def Decl.toJson (d : Decl) : Json :=
  .obj [
    ("name", .str d.name),
    ("qualified_name", .str d.qualifiedName),
    ("level", .int d.level),
    ("is_field", .bool d.isField),
    ("record", (d.record.map Json.str).getD .null),
    ("array_rank", .int d.rank),
    ("location", d.position.toJson)]

/-- A diagnostic as a JSON object. -/
def Diagnostic.toJson (d : Diagnostic) : Json :=
  .obj [
    ("code", .str d.code.text),
    ("message", .str d.message),
    ("severity", .str d.severity.name),
    ("phase", .str d.phase.name),
    ("location", d.position.toJson)]

/-- A result as a JSON object. The error is there when the result has one, and the candidates when
    they are asked for. A counter that was left out is an empty list. -/
def Result.toJson (r : Result) (withCandidates : Bool) : Json :=
  .obj ([
    ("transformation", .str r.transformation),
    ("status", .str r.status.name),
    ("counter", (r.counter.map Json.int).getD (.list [])),
    ("instances", .int r.instances),
    ("query_only", .bool r.queryOnly),
    ("target", (r.target.map Decl.toJson).getD .null),
    ("files", .list (r.files.map Json.str))] ++
    (r.error.map fun d => ("error", d.toJson)).toList ++
    (if withCandidates then [("candidates", .list (r.candidates.map Decl.toJson))] else []))

/-! ### S-expressions -/

/-- A declaration as a symbol. -/
def Decl.symbol (d : Decl) : SExpr := .symbol d.qualifiedName

/-- A list that begins with a word. -/
def Report.SExpr.tagged (tag : String) (items : List SExpr) : SExpr := .list (.symbol tag :: items)

/-- The classification tables. -/
def Table.toSExprs (t : Table) : List SExpr :=
  [ .tagged "levels" (t.levels.map fun l => .list (.int l :: (t.bucket l).map Decl.symbol)),
    .tagged "invalid" ((t.byLevel.filter (!t.isValid ·.key)).map Decl.symbol),
    .tagged "address-taken" ((t.byLevel.filter (t.isTaken ·.key)).map Decl.symbol)]

/-- A result with its tables. Parts that the result does not have are not shown, and a counter that
    was left out is an empty list. -/
def Result.toSExpr (r : Result) (withCandidates : Bool) : SExpr :=
  .tagged "result" ([
    .tagged "transformation" [.str r.transformation],
    .tagged "status" [.symbol r.status.name],
    .tagged "counter" [(r.counter.map SExpr.int).getD (.list [])],
    .tagged "instances" [.int r.instances]] ++
    (r.target.map fun d => SExpr.tagged "target" [d.symbol, .int d.level]).toList ++
    (if r.rewritten.isEmpty then [] else [.tagged "files" (r.files.map SExpr.str)]) ++
    (r.error.map fun d => SExpr.tagged "error" [.str d.code.text, .str d.message]).toList ++
    (if withCandidates then [.tagged "candidates" (r.candidates.map Decl.symbol)] else []) ++
    (r.table.map Table.toSExprs).getD [])

end Indirection
