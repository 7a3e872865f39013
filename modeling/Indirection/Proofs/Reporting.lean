import Indirection.Proofs.JsonReading
import Indirection.Proofs.SymbolicReading

/-!
# What reports show

A reader of a report looks for its data by their names. Main definitions:

* `Json.field?` — the value of a field of an object;
* `SExpr.part?` — what stands behind a word, in the part of a list that begins with it.

Main statements: `Decl.field?_toJson`, `Result.field?_toJson` and `Result.part?_toSExpr` — under
each name stand the data of that name; `Result.part?_tables` — what the tables in a report list;
`Result.eq_of_report_json` — a report as JSON tells all that it shows; `Result.files_perm` and
`Result.pairwise_files` — the files are those that were rewritten, in the order of their names.
-/

namespace Indirection

open Report

/-! ### Documents by name -/

namespace Report

/-- The value of the field `name` of an object. -/
def Json.field? (name : String) : Json → Option Json
  | .obj fields => fields.lookup name
  | _ => none

/-- What stands behind the word `tag`, if a list begins with it. -/
def SExpr.behind? (tag : String) : SExpr → Option (List SExpr)
  | .list (.symbol word :: items) => if word = tag then some items else none
  | _ => none

/-- What stands behind the word `tag` in the first part of a list that begins with it. -/
def SExpr.part? (tag : String) : SExpr → Option (List SExpr)
  | .list parts => parts.findSome? (SExpr.behind? tag)
  | _ => none

/-- Different documents have different texts. -/
theorem Json.render_injective {j k : Json} (h : j.render = k.render) : j = k := by
  have hread := congrArg Json.read h
  rw [Json.read_render, Json.read_render] at hread
  exact Option.some.inj hread

/-- Lists of strings are told apart by their JSON values. -/
theorem Json.map_str_injective : Function.Injective (List.map Json.str) :=
  List.map_injective_iff.2 fun _ _ h => Json.str.inj h

end Report

/-! ### Declarations and statuses -/

/-- Under each name stand the data of a declaration. Its key is not shown. -/
theorem Decl.field?_toJson (d : Decl) :
    d.toJson.field? "name" = some (.str d.name) ∧
      d.toJson.field? "qualified_name" = some (.str d.qualifiedName) ∧
      d.toJson.field? "level" = some (.int d.level) ∧
      d.toJson.field? "is_field" = some (.bool d.isField) ∧
      d.toJson.field? "record" = some ((d.record.map Json.str).getD .null) ∧
      d.toJson.field? "array_rank" = some (.int d.rank) ∧
      ∃ location, d.toJson.field? "location" = some location ∧
        location.field? "file" = some (.str d.position.file) ∧
        location.field? "line" = some (.int d.position.line) ∧
        location.field? "column" = some (.int d.position.column) :=
  ⟨rfl, rfl, rfl, rfl, rfl, rfl, _, rfl, rfl, rfl, rfl⟩

/-- Two declarations that are shown alike differ in their keys only. -/
theorem Decl.eq_of_toJson {d e : Decl} (h : d.toJson = e.toJson) : { d with key := e.key } = e := by
  obtain ⟨key, name, level, ⟨file, line, column⟩, isField, record, rank⟩ := d
  obtain ⟨key', name', level', ⟨file', line', column'⟩, isField', record', rank'⟩ := e
  simp only [toJson, Position.toJson, Json.obj.injEq, List.cons.injEq, Prod.mk.injEq,
    Json.str.injEq, Json.int.injEq, Json.bool.injEq, true_and, and_true] at h
  obtain ⟨rfl, -, rfl, rfl, hrecord, rfl, rfl, rfl, rfl⟩ := h
  cases record with
  | none => cases record' <;> simp_all
  | some r => cases record' <;> simp_all

/-- The word for a status tells which one it is. -/
theorem Status.name_injective : Function.Injective Status.name := by
  intro s t h
  cases s <;> cases t <;> first | rfl | exact absurd h (by decide)

namespace Result

/-! ### Files -/

/-- Inserting a name adds that name and drops none. -/
theorem insertName_perm (name : String) (names : List String) :
    (files.insertName name names).Perm (name :: names) := by
  induction names with
  | nil => exact List.Perm.refl _
  | cons n rest ih =>
    unfold files.insertName
    split
    · exact List.Perm.refl _
    · exact (ih.cons n).trans (List.Perm.swap name n rest)

/-- Inserting a name keeps names in order. -/
theorem pairwise_insertName {name : String} {names : List String} (h : names.Pairwise (· ≤ ·)) :
    (files.insertName name names).Pairwise (· ≤ ·) := by
  induction names with
  | nil => exact List.pairwise_singleton _ _
  | cons n rest ih =>
    obtain ⟨hn, hrest⟩ := List.pairwise_cons.1 h
    unfold files.insertName
    split
    · rename_i hlt
      have hle : name ≤ n := String.not_lt.1 (String.lt_asymm hlt)
      refine List.pairwise_cons.2 ⟨fun m hm => ?_, h⟩
      rcases List.mem_cons.1 hm with rfl | hm
      · exact hle
      · exact String.le_trans hle (hn m hm)
    · rename_i hle
      refine List.pairwise_cons.2 ⟨fun m hm => ?_, ih hrest⟩
      rcases List.mem_cons.1 ((insertName_perm name rest).mem_iff.1 hm) with rfl | hm
      · exact String.not_lt.1 hle
      · exact hn m hm

/-- The files of a report are those that were rewritten. -/
theorem files_perm (r : Result) : r.files.Perm (r.rewritten.map Prod.fst) := by
  unfold files
  induction r.rewritten.map Prod.fst with
  | nil => exact List.Perm.refl _
  | cons name rest ih => exact (insertName_perm name _).trans (ih.cons name)

/-- They stand in the order of their names. -/
theorem pairwise_files (r : Result) : r.files.Pairwise (· ≤ ·) := by
  unfold files
  induction r.rewritten.map Prod.fst with
  | nil => exact List.Pairwise.nil
  | cons name rest ih => exact pairwise_insertName ih

/-! ### Reports as JSON -/

variable (r : Result) (withCandidates : Bool)

/-- Under each name stand the data of a result. The error stands there if there is one, and the
    candidates if they are asked for. -/
theorem field?_toJson :
    let shown := fun name => (r.toJson withCandidates).field? name
    shown "transformation" = some (.str r.transformation) ∧
      shown "status" = some (.str r.status.name) ∧
      shown "counter" = some ((r.counter.map Json.int).getD (.list [])) ∧
      shown "instances" = some (.int r.instances) ∧
      shown "query_only" = some (.bool r.queryOnly) ∧
      shown "target" = some ((r.target.map Decl.toJson).getD .null) ∧
      shown "files" = some (.list (r.files.map Json.str)) ∧
      shown "error" = r.error.map Diagnostic.toJson ∧
      shown "candidates" =
        if withCandidates then some (.list (r.candidates.map Decl.toJson)) else none := by
  obtain ⟨transformation, status, counter, instances, query, target, candidates, rewritten, error,
    table⟩ := r
  refine ⟨rfl, rfl, rfl, rfl, rfl, rfl, rfl, ?_⟩
  -- the fields that may be missing decide the shape
  cases error <;> cases withCandidates <;> exact ⟨rfl, rfl⟩

variable {r withCandidates} {r' : Result} {withCandidates' : Bool}

/-- **What reports as JSON tell.** Two results with the same report have the same status, counter,
    number of instances and files, and are both queries or both none. Their targets and, if they are
    asked for, their candidates are the same, but for the keys. -/
theorem eq_of_report_json (h : r.report .json withCandidates = r'.report .json withCandidates') :
    r.transformation = r'.transformation ∧ r.status = r'.status ∧ r.counter = r'.counter ∧
      r.instances = r'.instances ∧ r.queryOnly = r'.queryOnly ∧ r.files = r'.files ∧
      r.target.map Decl.toJson = r'.target.map Decl.toJson ∧ withCandidates = withCandidates' ∧
      (withCandidates = true →
        r.candidates.map Decl.toJson = r'.candidates.map Decl.toJson) := by
  have hdocument : r.toJson withCandidates = r'.toJson withCandidates' := Json.render_injective h
  obtain ⟨transformation, status, counter, instances, query, target, files, -, candidates⟩ :=
    field?_toJson r withCandidates
  obtain ⟨transformation', status', counter', instances', query', target', files', -,
    candidates'⟩ := field?_toJson r' withCandidates'
  simp only [hdocument] at transformation status counter instances query target files candidates
  refine ⟨?_, ?_, ?_, ?_, ?_, ?_, ?_, ?_⟩
  · simpa using transformation.symm.trans transformation'
  · exact Status.name_injective (by simpa using status.symm.trans status')
  · have := counter.symm.trans counter'
    cases hcounter : r.counter <;> cases hcounter' : r'.counter <;> simp_all
  · simpa using instances.symm.trans instances'
  · simpa using query.symm.trans query'
  · exact Json.map_str_injective (by simpa using files.symm.trans files')
  · have := target.symm.trans target'
    cases htarget : r.target <;> cases htarget' : r'.target <;> simp_all [Decl.toJson]
  · have := candidates.symm.trans candidates'
    cases withCandidates <;> cases withCandidates' <;> simp_all

/-! ### Reports as S-expressions -/

/-- Behind each word stand the data of a result, if it has them; the files if any was rewritten, and
    the candidates if they are asked for. -/
theorem part?_toSExpr (r : Result) (withCandidates : Bool) :
    let shown := fun tag => (r.toSExpr withCandidates).part? tag
    shown "transformation" = some [.str r.transformation] ∧
      shown "status" = some [.symbol r.status.name] ∧
      shown "counter" = some [(r.counter.map SExpr.int).getD (.list [])] ∧
      shown "instances" = some [.int r.instances] ∧
      shown "target" = r.target.map (fun d => [.symbol d.qualifiedName, .int d.level]) ∧
      shown "files" = (if r.rewritten = [] then none else some (r.files.map SExpr.str)) ∧
      shown "error" = r.error.map (fun d => [.str d.code.text, .str d.message]) ∧
      shown "candidates" =
        (if withCandidates then some (r.candidates.map Decl.symbol) else none) ∧
      shown "levels" = r.table.map (fun t =>
        t.levels.map fun l => .list (.int l :: (t.bucket l).map Decl.symbol)) ∧
      shown "invalid" = r.table.map (fun t =>
        (t.byLevel.filter (!t.isValid ·.key)).map Decl.symbol) ∧
      shown "address-taken" = r.table.map (fun t =>
        (t.byLevel.filter (t.isTaken ·.key)).map Decl.symbol) := by
  obtain ⟨transformation, status, counter, instances, query, target, candidates, rewritten, error,
    table⟩ := r
  refine ⟨rfl, rfl, rfl, rfl, ?_⟩
  -- the parts that may be missing decide the shape
  cases target <;> cases rewritten <;> cases error <;> cases withCandidates <;> cases table <;>
    exact ⟨rfl, rfl, rfl, rfl, rfl, rfl, rfl⟩

/-- **What the tables in a report list.** The levels that occur, from the deepest on, each with the
    names of its declarations in the order of first report; the names of the declarations that are
    not valid; and the names of those whose address is taken. -/
theorem part?_tables {t : Table} (h : r.table = some t) :
    ∃ invalid taken : List Decl,
      (r.toSExpr withCandidates).part? "levels" =
        some (t.levels.map fun l => .list (.int l :: (t.bucket l).map Decl.symbol)) ∧
      (r.toSExpr withCandidates).part? "invalid" = some (invalid.map Decl.symbol) ∧
      (r.toSExpr withCandidates).part? "address-taken" = some (taken.map Decl.symbol) ∧
      t.levels.Pairwise (· > ·) ∧ (∀ l, l ∈ t.levels ↔ ∃ d ∈ t.decls, d.level = l) ∧
      (∀ d, d ∈ invalid ↔ d ∈ t.decls ∧ t.isValid d.key = false) ∧
      ∀ d, d ∈ taken ↔ d ∈ t.decls ∧ t.isTaken d.key = true := by
  obtain ⟨-, -, -, -, -, -, -, -, levels, invalid, taken⟩ := part?_toSExpr r withCandidates
  simp only [h, Option.map_some] at levels invalid taken
  refine ⟨_, _, levels, invalid, taken, Table.pairwise_levels t, fun l => Table.mem_levels,
    fun d => ?_, fun d => ?_⟩
  · rw [List.mem_filter, Table.mem_byLevel]
    simp
  · rw [List.mem_filter, Table.mem_byLevel]

end Result

end Indirection
