import Indirection.Pass.Run
import Indirection.Proofs.Collecting
import Indirection.Proofs.Enumerating
import Indirection.Proofs.Performance
import Indirection.Proofs.Simultaneous

/-!
# What a run of the pass answers

Main definitions:

* `Result.IsFailedCollection` — the result of a program that cannot be classified;
* `Result.IsExhausted`, `Result.IsReduction` — the result for a number beyond the last candidate,
  and for the number of a candidate.

Main statements: `ofFault_eq_ok`, `ofFault_eq_error` — what becomes of a fault;
`reduceTarget_eq_ok` — what lowering a chosen declaration answers; `reduce_failed`,
`reduce_exhausted`, `reduce_candidate` — the three ways that a run can go; `reduce_outcome` — how a
run for a number and a query of the same program agree.
-/

namespace Indirection

/-! ### Faults of a run -/

/-- A run that has an answer turns its fault, a diagnostic, into an internal error. -/
theorem Run.ofFault_eq_ok {events : List Event} {r r' : Result} {f : Fault}
    (h : (Run.ofFault events r f).outcome = .ok r') : ∃ d, f = .refused d ∧ r' = r.fail d := by
  cases f with
  | refused d =>
    refine ⟨d, rfl, ?_⟩
    by_cases hd : d.kind.isA .internal = true
    · simp only [Run.ofFault, hd, if_true] at h
      exact (Except.ok.inj h).symm
    · simp [Run.ofFault, hd] at h
  | _ => cases h

/-- A run without an answer ended in a fault that is no internal one. -/
theorem Run.ofFault_eq_error {events : List Event} {r : Result} {f g : Fault}
    (h : (Run.ofFault events r f).outcome = .error g) : f = g ∧ f.isInternal = false := by
  cases f with
  | refused d =>
    by_cases hd : d.kind.isA .internal = true
    · simp [Run.ofFault, hd] at h
    · simp only [Run.ofFault, hd] at h
      exact ⟨Except.error.inj h, by simpa [Fault.isInternal] using hd⟩
  | _ => exact ⟨Except.error.inj h, rfl⟩

/-- A treated fault that is not internal is one of a malformed dump. -/
theorem Fault.IsTreated.isMalformed {f : Fault} (h : f.IsTreated) (hf : f.isInternal = false) :
    f.IsMalformed :=
  h.resolve_left (by simp [hf])

/-! ### Lowering a chosen declaration -/

namespace Program

variable {u : Program} {sources : Sources}

/-- Applying what a reduction recorded gives new texts, of one file at least, or reports an
    overlap. -/
theorem performPlan_apply {d : Decl} (h : (u.performPlan sources d).fault = none) :
    (∃ texts, texts ≠ [] ∧ (u.performPlan sources d).script.apply sources = .ok texts) ∨
      ∃ path offset, (u.performPlan sources d).script.apply sources =
        .error (.of (.overlap path offset) { file := path }) := by
  rcases (performPlan_sound h).apply with ⟨-, texts, happly, hpaths, -⟩ | ⟨p, -, -, offset, happly⟩
  · refine .inl ⟨texts, ?_, happly⟩
    rintro rfl
    exact performPlan_paths_ne_nil h hpaths.symm
  · exact .inr ⟨p, offset, happly⟩

/-- Lowering a chosen declaration ends well with the new texts of at least one file, or in an
    internal error that leaves every text alone. -/
theorem reduceTarget_eq_ok {events : List Event} {r r' : Result} {d : Decl}
    (h : (u.reduceTarget sources events r d).outcome = .ok r') :
    (∃ texts, texts ≠ [] ∧ (u.performPlan sources d).fault = none ∧
        (u.performPlan sources d).script.apply sources = .ok texts ∧
        r' = { r with target := some d, rewritten := texts }) ∨
      ∃ e, r' = { r with target := some d }.fail e := by
  unfold reduceTarget at h
  dsimp only at h
  cases hfault : (u.performPlan sources d).fault with
  | some f =>
    simp only [hfault] at h
    obtain ⟨e, -, rfl⟩ := Run.ofFault_eq_ok h
    exact .inr ⟨e, rfl⟩
  | none =>
    -- all changes are recorded: applying them decides
    simp only [hfault] at h
    rcases performPlan_apply hfault with ⟨texts, hne, happly⟩ | ⟨path, offset, happly⟩
    · simp only [happly] at h
      exact .inl ⟨texts, hne, rfl, happly, (Except.ok.inj h).symm⟩
    · simp only [happly] at h
      obtain ⟨e, -, rfl⟩ := Run.ofFault_eq_ok h
      exact .inr ⟨e, rfl⟩

/-- Lowering a chosen declaration has no answer only for malformed tokens, or for a file that has
    no text. -/
theorem reduceTarget_eq_error {events : List Event} {r : Result} {d : Decl} {f : Fault}
    (h : (u.reduceTarget sources events r d).outcome = .error f) :
    f.IsMalformed ∨ u.IsAnswerOf sources f := by
  unfold reduceTarget at h
  dsimp only at h
  cases hfault : (u.performPlan sources d).fault with
  | some g =>
    simp only [hfault] at h
    obtain ⟨rfl, hnot⟩ := Run.ofFault_eq_error h
    exact (performPlan_faults hfault).imp_left fun ht => ht.isMalformed hnot
  | none =>
    simp only [hfault] at h
    rcases performPlan_apply hfault with ⟨texts, -, happly⟩ | ⟨path, offset, happly⟩
    · simp only [happly] at h
      cases h
    · simp only [happly] at h
      obtain ⟨rfl, hnot⟩ := Run.ofFault_eq_error h
      cases hnot

end Program

/-! ### Runs -/

/-- The result of a run whose program cannot be classified, for the reason `d`. -/
structure Result.IsFailedCollection (r : Result) (d : Diagnostic) : Prop where
  status : r.status = .internalError
  error : r.error = some d
  instances : r.instances = 0
  candidates : r.candidates = []
  target : r.target = none
  table : r.table = none
  rewritten : r.rewritten = []

/-- The result of a run that asks for a candidate beyond the last one. -/
structure Result.IsExhausted (r : Result) : Prop where
  status : r.status = .noInstance
  error : r.error = none
  target : r.target = none
  rewritten : r.rewritten = []

/-- The result of a run that asks for the candidate `d`: the texts that the edits of `d` give, or an
    internal error. -/
structure Result.IsReduction (r : Result) (u : Program) (sources : Sources) (d : Decl) : Prop where
  target : r.target = some d
  outcome :
    (r.status = .ok ∧ r.error = none ∧ r.rewritten ≠ [] ∧
      (u.performPlan sources d).fault = none ∧
      (u.performPlan sources d).script.apply sources = .ok r.rewritten) ∨
    (r.status = .internalError ∧ r.error ≠ none ∧ r.rewritten = [])

namespace Program

variable {u : Program} {sources : Sources} {scoping : Scoping}

/-- A run on a program that cannot be classified ends alike whatever it is for. -/
theorem reduce_of_collect_fault {f : Fault} (h : (u.collect scoping).fault = some f)
    (counter : Option Int) (queryOnly : Bool) :
    u.reduce scoping sources counter queryOnly =
      .ofFault (u.collect scoping).events { counter, queryOnly } f := by
  simp only [reduce, h]

/-- What is known of a run when the program is classified and nothing is chosen yet. -/
def classified (u : Program) (scoping : Scoping) (counter : Option Int) (queryOnly : Bool) :
    Result :=
  let candidates := (u.collect scoping).table.candidates
  { counter, queryOnly, table := some (u.collect scoping).table, candidates,
    instances := candidates.length }

/-- A query counts the candidates. -/
theorem reduce_query (h : (u.collect scoping).fault = none) (counter : Option Int) :
    (u.reduce scoping sources counter true).outcome = .ok (u.classified scoping counter true) := by
  simp only [reduce, h]
  rfl

/-- A run for a positive number reduces the candidate of that number, if there is one. -/
theorem reduce_of_classified (h : (u.collect scoping).fault = none) {counter : Int}
    (hpos : 1 ≤ counter) :
    u.reduce scoping sources (some counter) false =
      match (u.collect scoping).table.candidates[(counter - 1).toNat]? with
      | none =>
        { events := (u.collect scoping).events ++
            [.counterExceeds counter (u.collect scoping).table.candidates.length]
          outcome := .ok { u.classified scoping (some counter) false with status := .noInstance } }
      | some d =>
        u.reduceTarget sources ((u.collect scoping).events ++
            [.selected d counter (u.collect scoping).table.candidates.length])
          (u.classified scoping (some counter) false) d := by
  simp only [reduce, h, reduceChosen, Table.select_eq_ok hpos]
  rfl

/-- A run on a program that cannot be classified has no result but the reason. -/
theorem reduce_failed {f : Fault} (h : (u.collect scoping).fault = some f) {counter : Option Int}
    {queryOnly : Bool} {r : Result}
    (hr : (u.reduce scoping sources counter queryOnly).outcome = .ok r) :
    ∃ d, f = .refused d ∧ r.IsFailedCollection d := by
  rw [reduce_of_collect_fault h] at hr
  obtain ⟨d, rfl, rfl⟩ := Run.ofFault_eq_ok hr
  exact ⟨d, rfl, rfl, rfl, rfl, rfl, rfl, rfl, rfl⟩

/-- A run for a number beyond the last candidate does not ask for a text. -/
theorem reduce_exhausted (h : (u.collect scoping).fault = none) {counter : Int}
    (hpos : 1 ≤ counter)
    (hnone : (u.collect scoping).table.candidates[(counter - 1).toNat]? = none) :
    (u.reduce scoping sources (some counter) false).outcome =
      .ok { u.classified scoping (some counter) false with status := .noInstance } := by
  rw [reduce_of_classified h hpos, hnone]

/-- A run for the number of a candidate reports all candidates and reduces this one. -/
theorem reduce_candidate (h : (u.collect scoping).fault = none) {counter : Int}
    (hpos : 1 ≤ counter) {d : Decl}
    (hd : (u.collect scoping).table.candidates[(counter - 1).toNat]? = some d) {r : Result}
    (hr : (u.reduce scoping sources (some counter) false).outcome = .ok r) :
    r.candidates = (u.collect scoping).table.candidates ∧
      r.instances = (u.collect scoping).table.candidates.length ∧
      r.IsReduction u sources d ∧ r.status ≠ .noInstance := by
  rw [reduce_of_classified h hpos, hd] at hr
  rcases reduceTarget_eq_ok hr with ⟨texts, hne, hplan, happly, rfl⟩ | ⟨e, rfl⟩
  · refine ⟨rfl, rfl, ⟨rfl, .inl ⟨rfl, rfl, hne, hplan, happly⟩⟩, ?_⟩
    intro hstatus
    cases hstatus
  · refine ⟨rfl, rfl, ⟨rfl, .inr ⟨rfl, Option.some_ne_none e, rfl⟩⟩, ?_⟩
    intro hstatus
    cases hstatus

/-- A query has no answer only for malformed tokens. -/
theorem reduce_query_eq_error {counter : Option Int} {f : Fault}
    (h : (u.reduce scoping sources counter true).outcome = .error f) : f.IsMalformed := by
  cases hfault : (u.collect scoping).fault with
  | some g =>
    rw [reduce_of_collect_fault hfault] at h
    obtain ⟨rfl, hnot⟩ := Run.ofFault_eq_error h
    exact (collect_faults hfault).isMalformed hnot
  | none =>
    rw [reduce_query hfault] at h
    cases h

/-- A run for a positive number has no answer only for malformed tokens, or for a file that has no
    text. -/
theorem reduce_eq_error {counter : Int} (hpos : 1 ≤ counter) {f : Fault}
    (h : (u.reduce scoping sources (some counter) false).outcome = .error f) :
    f.IsMalformed ∨ u.IsAnswerOf sources f := by
  cases hfault : (u.collect scoping).fault with
  | some g =>
    rw [reduce_of_collect_fault hfault] at h
    obtain ⟨rfl, hnot⟩ := Run.ofFault_eq_error h
    exact .inl ((collect_faults hfault).isMalformed hnot)
  | none =>
    rw [reduce_of_classified hfault hpos] at h
    split at h
    · cases h
    · exact reduceTarget_eq_error h

/-- **How a run and a query agree.** A query has no answer only for malformed tokens, and a run for
    a number only for these or for a file that has no text. Let both have an answer.

    If the program cannot be classified, both end in an internal error for the same reason, without
    instances, target, tables or new texts. Otherwise the run reports the candidates of the query.
    For a number beyond the last of them it has no instance; for any other it has the candidate of
    that number as target, and ends well with the new texts that the edits of the target give, one
    at least, or in an internal error without new texts. Queries, failed collections and runs
    without an instance do not depend on the texts. -/
theorem reduce_outcome (u : Program) (scoping : Scoping) (sources : Sources)
    (queried : Option Int) {counter : Int} (hpos : 1 ≤ counter) :
    (∀ f, (u.reduce scoping sources queried true).outcome = .error f → f.IsMalformed) ∧
    (∀ f, (u.reduce scoping sources (some counter) false).outcome = .error f →
      f.IsMalformed ∨ u.IsAnswerOf sources f) ∧
    ∀ q r, (u.reduce scoping sources queried true).outcome = .ok q →
      (u.reduce scoping sources (some counter) false).outcome = .ok r →
      (∀ f, (u.collect scoping).fault = some f →
        ∃ d, f = .refused d ∧ q.IsFailedCollection d ∧ r.IsFailedCollection d) ∧
      ((u.collect scoping).fault = none →
        r.candidates = q.candidates ∧ r.instances = q.candidates.length ∧
        (q.candidates.length < counter → r.IsExhausted) ∧
        (counter ≤ q.candidates.length →
          ∃ d, q.candidates[(counter - 1).toNat]? = some d ∧ r.IsReduction u sources d)) ∧
      ∀ other : Sources,
        (u.reduce scoping other queried true).outcome = .ok q ∧
        ((u.collect scoping).fault ≠ none ∨ r.status = .noInstance →
          (u.reduce scoping other (some counter) false).outcome = .ok r) := by
  refine ⟨fun f => reduce_query_eq_error, fun f => reduce_eq_error hpos, ?_⟩
  intro q r hq hr
  cases hfault : (u.collect scoping).fault with
  | some f =>
    -- the texts are never asked for, so that both runs are the same for other texts
    have hother (other : Sources) (k : Option Int) (b : Bool) :
        u.reduce scoping other k b = u.reduce scoping sources k b := by
      rw [reduce_of_collect_fault hfault, reduce_of_collect_fault hfault]
    refine ⟨?_, by simp, fun other => ⟨hother other _ _ ▸ hq, fun _ => hother other _ _ ▸ hr⟩⟩
    intro g hg
    obtain rfl := Option.some.inj hg
    obtain ⟨d, rfl, hfailed⟩ := reduce_failed hfault hq
    obtain ⟨e, he, hfailed'⟩ := reduce_failed hfault hr
    obtain rfl := Fault.refused.inj he
    exact ⟨d, rfl, hfailed, hfailed'⟩
  | none =>
    have hquery (other : Sources) : (u.reduce scoping other queried true).outcome =
        .ok (u.classified scoping queried true) := reduce_query hfault queried
    obtain rfl := Except.ok.inj (hq.symm.trans (hquery sources))
    -- from here on the candidates of the query are those of the tables
    have hlength : (u.classified scoping queried true).candidates.length =
        (u.collect scoping).table.candidates.length := rfl
    rw [hlength]
    cases htarget : (u.collect scoping).table.candidates[(counter - 1).toNat]? with
    | none =>
      obtain rfl := Except.ok.inj (hr.symm.trans (reduce_exhausted hfault hpos htarget))
      refine ⟨by simp, fun _ => ⟨rfl, rfl, fun _ => ⟨rfl, rfl, rfl, rfl⟩, ?_⟩, ?_⟩
      · intro hle
        have := List.getElem?_eq_none_iff.1 htarget
        omega
      · exact fun other => ⟨hquery other, fun _ => reduce_exhausted hfault hpos htarget⟩
    | some d =>
      obtain ⟨hcands, hinstances, hreduction, hstatus⟩ := reduce_candidate hfault hpos htarget hr
      have hwithin := (List.getElem?_eq_some_iff.1 htarget).1
      refine ⟨by simp, fun _ => ⟨hcands, hinstances, ?_, fun _ => ⟨d, htarget, hreduction⟩⟩, ?_⟩
      · intro hlt
        omega
      · exact fun other => ⟨hquery other, fun h => absurd rfl (h.resolve_right hstatus)⟩

/-- The tokens of the text `int *p;`. -/
def onePointer : Program where
  tokens := #[{ text := "int", file := "a.c", line := 1, column := 1 },
    { text := "*", file := "a.c", line := 1, column := 5 },
    { text := "p", file := "a.c", line := 1, column := 6, varId := 1, var := some 0,
      isName := true },
    { text := ";", file := "a.c", line := 1, column := 7 }]
  vars := #[{ nameToken := some 2, typeStart := some 0 }]

/-- The only candidate of `int *p;` loses its star. -/
theorem reduce_outcome_onePointer :
    ∃ q r, (onePointer.reduce {} (fun _ => .ok "int *p;") none true).outcome = .ok q ∧
      (onePointer.reduce {} (fun _ => .ok "int *p;") (some 1) false).outcome = .ok r ∧
      q.candidates.length = 1 ∧ r.rewritten = [("a.c", "int p;")] ∧
      ∃ d, q.candidates[0]? = some d ∧ r.IsReduction onePointer (fun _ => .ok "int *p;") d := by
  have hquery : (onePointer.reduce {} (fun _ => .ok "int *p;") none true).outcome.toOption.map
      (fun q => q.candidates.length) = some 1 := by decide +kernel
  have hrun : (onePointer.reduce {} (fun _ => .ok "int *p;") (some 1) false).outcome.toOption.map
      Result.rewritten = some [("a.c", "int p;")] := by decide +kernel
  have hcollect : (onePointer.collect {}).fault = none := by decide +kernel
  cases hq : (onePointer.reduce {} (fun _ => .ok "int *p;") none true).outcome with
  | error f => simp [hq, Except.toOption] at hquery
  | ok q =>
    cases hr : (onePointer.reduce {} (fun _ => .ok "int *p;") (some 1) false).outcome with
    | error f => simp [hr, Except.toOption] at hrun
    | ok r =>
      simp only [hq, hr, Except.toOption, Option.map_some, Option.some.injEq] at hquery hrun
      obtain ⟨-, hanswers, -⟩ :=
        (reduce_outcome onePointer {} (fun _ => .ok "int *p;") none (Int.le_refl 1)).2.2 q r hq hr
      obtain ⟨-, -, -, hwithin⟩ := hanswers hcollect
      exact ⟨q, r, rfl, rfl, hquery, hrun, hwithin (by omega)⟩

end Program

end Indirection
