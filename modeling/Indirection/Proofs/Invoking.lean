import Indirection.Cli.Command
import Indirection.Proofs.Outcome
import Indirection.Proofs.SourceFiles

/-!
# What an invocation comes down to

Before anything is written, a command has at most an analyser run, reads a dump, chooses a program
and runs the pass on it. Main definitions:

* `Cli.Job` — a program, and where its sources are looked for;
* `Request.job` — the world after the analyser, and the job of a request, or why it has none;
* `Request.attempt` — the same with the result of the run on the program;
* `Fault.isUnusable`, `Fault.Escapes` — the faults that end a command with an exit code, and those
  that nothing handles.

Main statements: `reduce_faults`, `reduce_query_result`, `reduce_run_result` — how a run of the pass
ends; `attempt_faults` — an attempt fails because something is unusable, or by a fault that nothing
handles; `run_eq` — a command is its attempt, and then the end that the outcome brings about.
-/

namespace Indirection

/-! ### Runs of the pass -/

/-- Each text that is applied is a new one of a file that has a text. -/
theorem Script.sources_of_applyTo {s : Script} {sources : Sources} {paths : List String}
    {texts : List (String × String)} (h : s.applyTo sources paths = .ok texts) :
    ∀ r ∈ texts, ∃ old, sources r.1 = .ok old := by
  induction paths generalizing texts with
  | nil =>
    obtain rfl := Except.ok.inj h
    simp
  | cons path rest ih =>
    simp only [applyTo, bind, Except.bind] at h
    split at h
    · cases h
    · rename_i text htext
      split at h
      · cases h
      · split at h
        · cases h
        · rename_i others hothers
          obtain rfl := Except.ok.inj h
          intro r hr
          rcases List.mem_cons.1 hr with rfl | hr
          · exact ⟨text, htext⟩
          · exact ih hothers r hr

namespace Program

variable {u : Program} {scoping : Scoping} {sources : Sources} {counter : Option Int} {r : Result}
  {f : Fault}

/-- A run has no result only for malformed tokens, for a file that has no text, or for a counter
    that counts nothing. -/
theorem reduce_faults {queryOnly : Bool}
    (h : (u.reduce scoping sources counter queryOnly).outcome = .error f) :
    f.IsMalformed ∨ u.IsAnswerOf sources f ∨ (f = .leftOut ∧ counter = none) ∨
      ∃ n, f = .of (.badCounter n) {} := by
  cases queryOnly with
  | true => exact .inl (reduce_query_eq_error h)
  | false =>
    cases hfault : (u.collect scoping).fault with
    | some g =>
      rw [reduce_of_collect_fault hfault] at h
      obtain ⟨rfl, hnot⟩ := Run.ofFault_eq_error h
      exact .inl ((collect_faults hfault).isMalformed hnot)
    | none =>
      cases counter with
      | none =>
        simp only [reduce, hfault, reduceChosen, Bool.false_eq_true, if_false] at h
        exact .inr (.inr (.inl ⟨(Run.ofFault_eq_error h).1.symm, rfl⟩))
      | some n =>
        by_cases hpos : 1 ≤ n
        · exact (reduce_eq_error hpos h).imp_right .inl
        · have hlt : n < 1 := by omega
          simp only [reduce, hfault, reduceChosen, Table.select_eq_error _ hlt, Bool.false_eq_true,
            if_false] at h
          exact .inr (.inr (.inr ⟨n, (Run.ofFault_eq_error h).1.symm⟩))

/-- A query rewrites nothing and asks for no text. It ends in an internal error exactly if the
    program cannot be classified. -/
theorem reduce_query_result (h : (u.reduce scoping sources counter true).outcome = .ok r) :
    r.queryOnly = true ∧ r.rewritten = [] ∧ r.status ≠ .noInstance ∧
      (r.status = .internalError ↔ (u.collect scoping).fault ≠ none) ∧
      ∀ other : Sources, (u.reduce scoping other counter true).outcome = .ok r := by
  cases hfault : (u.collect scoping).fault with
  | some g =>
    have hother (other : Sources) : u.reduce scoping other counter true =
        .ofFault (u.collect scoping).events { counter, queryOnly := true } g :=
      reduce_of_collect_fault hfault counter true
    rw [hother] at h
    obtain ⟨d, rfl, rfl⟩ := Run.ofFault_eq_ok h
    refine ⟨rfl, rfl, by simp [Result.fail], by simp [Result.fail], fun other => ?_⟩
    rw [hother]
    exact h
  | none =>
    rw [reduce_query hfault] at h
    obtain rfl := Except.ok.inj h
    exact ⟨rfl, rfl, by simp [classified], by simp [classified], fun other => reduce_query hfault _⟩

/-- Any other run ends well with the texts that the edits of a candidate give, or rewrites
    nothing. -/
theorem reduce_run_result (h : (u.reduce scoping sources counter false).outcome = .ok r) :
    r.queryOnly = false ∧
      ((r.status = .ok ∧ ∃ d ∈ (u.collect scoping).table.candidates, r.target = some d ∧
          (u.performPlan sources d).fault = none ∧
          (u.performPlan sources d).script.apply sources = .ok r.rewritten) ∨
        (r.status ≠ .ok ∧ r.rewritten = [])) := by
  cases hfault : (u.collect scoping).fault with
  | some g =>
    rw [reduce_of_collect_fault hfault] at h
    obtain ⟨d, rfl, rfl⟩ := Run.ofFault_eq_ok h
    exact ⟨rfl, .inr ⟨by simp [Result.fail], rfl⟩⟩
  | none =>
    cases counter with
    | none =>
      simp [reduce, hfault, reduceChosen, Run.ofFault] at h
    | some n =>
      by_cases hpos : 1 ≤ n
      · rw [reduce_of_classified hfault hpos] at h
        split at h
        · obtain rfl := Except.ok.inj h
          exact ⟨rfl, .inr ⟨by simp, rfl⟩⟩
        · rename_i d hd
          rcases reduceTarget_eq_ok h with ⟨texts, -, hplan, happly, rfl⟩ | ⟨e, rfl⟩
          · exact ⟨rfl, .inl ⟨rfl, d, List.mem_of_getElem? hd, rfl, hplan, happly⟩⟩
          · exact ⟨rfl, .inr ⟨by simp [Result.fail], rfl⟩⟩
      · have hlt : n < 1 := by omega
        simp only [reduce, hfault, reduceChosen, Table.select_eq_error _ hlt, Bool.false_eq_true,
          if_false] at h
        obtain ⟨d, hd, -⟩ := Run.ofFault_eq_ok h
        obtain rfl := Fault.refused.inj hd
        simp [Fault.of, Run.ofFault, Cause.diagnostic, Cause.kind, Kind.isA] at h

end Program

/-! ### Faults of a command -/

/-- Whether a fault says that the input or the invocation is unusable, or that something stands in
    the way. -/
def Fault.isUnusable : Fault → Bool
  | .refused d => d.kind.isA .frontend || d.kind.isA .usage
  | .obstructed _ => true
  | _ => false

namespace Cli

/-! ### Jobs -/

/-- Whether a request only asks what could be done. -/
def Request.isQuery (q : Request) : Bool := q.queryInstances || q.listCandidates

/-- A program, and where its sources are looked for. -/
structure Job where
  search : SearchPath
  program : Program

namespace Request

variable (q : Request)

/-- Whether a value was left out that is needed before the end. -/
def leavesOut : Bool :=
  q.transformation.isNone || q.sourceRoots.contains none || q.counter.isNone

/-- The job in the dump at a path. -/
def jobIn (w : World) (dump : Path) : Except Fault Job :=
  match (w.loadDump dump.text).outcome with
  | .error f => .error f
  | .ok cs =>
    match choose cs q.configuration with
    | .error f => .error f
    | .ok c =>
      match Session.searchPath { world := w, clock := "" } q dump with
      | .error f => .error f
      | .ok search => .ok { search, program := c.program }

/-- The world after the analyser that is asked for, and the job in the dump. -/
def job (w : World) (input : String) : World × Except Fault Job :=
  match q.transformation.map Catalogue.builtin.get with
  | none => (w, .error .leftOut)
  | some (.error f) => (w, .error f)
  | some (.ok _) =>
    match q.analyser with
    | none | some "" => (w, q.jobIn w (Path.ofString input))
    | some name =>
      let (after, told) := w.runAnalyser input name []
      match told.outcome with
      | .error f => (after, .error f)
      | .ok dump => (after, q.jobIn after dump)

/-- What the run of a job on the files of a world gives. -/
def resultOf (w : World) (job : Job) : Except Fault Result :=
  (job.program.reduce {} (job.search.sources w.tree) q.counter q.isQuery).outcome

/-- The world after the analyser, and the job with its result. -/
def attempt (w : World) (input : String) : World × Except Fault (Job × Result) :=
  match q.job w input with
  | (after, .error f) => (after, .error f)
  | (after, .ok job) =>
    match q.resultOf after job with
    | .error f => (after, .error f)
    | .ok r => (after, .ok (job, r))

end Request

variable {q : Request} {w : World} {input : String} {job : Job} {f : Fault}

/-- The sources of a job are looked for as texts in the common encoding. -/
theorem encoding_of_jobIn {dump : Path} (h : q.jobIn w dump = .ok job) :
    job.search.encoding = "utf-8" := by
  unfold Request.jobIn at h
  split at h
  · cases h
  · split at h
    · cases h
    · split at h
      · cases h
      · rename_i search hsearch
        obtain rfl := Except.ok.inj h
        unfold Session.searchPath at hsearch
        split at hsearch
        · cases hsearch
        · obtain rfl := Except.ok.inj hsearch
          rfl

/-- A dump that cannot be used is refused as unusable. -/
theorem loadDump_faults {path : String} (h : (w.loadDump path).outcome = .error f) :
    f.isUnusable = true := by
  unfold World.loadDump at h
  dsimp only at h
  split at h
  · obtain rfl := Except.error.inj h
    rfl
  · obtain rfl := Except.error.inj h
    rfl
  · split at h
    · obtain rfl := Except.error.inj h
      rfl
    · dsimp only at h
      split at h
      · cases h
      · obtain rfl := Except.error.inj h
        rfl

/-- A configuration that cannot be chosen makes the input unusable. -/
theorem choose_faults {cs : List Configuration} {wanted : Wanted}
    (h : choose cs wanted = .error f) : f.isUnusable = true := by
  unfold choose at h
  split at h
  · rename_i g hindex
    obtain rfl := Except.error.inj h
    unfold chooseIndex at hindex
    dsimp only at hindex
    split at hindex
    · obtain rfl := Except.error.inj hindex
      rfl
    · split at hindex
      · cases hindex
      · split at hindex
        · cases hindex
        · obtain rfl := Except.error.inj hindex
          rfl
      · obtain rfl := Except.error.inj hindex
        rfl
  · split at h
    · cases h
    · obtain rfl := Except.error.inj h
      rfl

/-- A job fails for something unusable, or because its source is left out. -/
theorem jobIn_faults {dump : Path} (h : q.jobIn w dump = .error f) :
    f.isUnusable = true ∨ (f = .leftOut ∧ q.leavesOut = true) := by
  unfold Request.jobIn at h
  split at h
  · rename_i hload
    obtain rfl := Except.error.inj h
    exact .inl (loadDump_faults hload)
  · split at h
    · rename_i hchoose
      obtain rfl := Except.error.inj h
      exact .inl (choose_faults hchoose)
    · split at h
      · rename_i hsearch
        obtain rfl := Except.error.inj h
        unfold Session.searchPath at hsearch
        split at hsearch
        · rename_i hroot
          refine .inr ⟨(Except.error.inj hsearch).symm, ?_⟩
          rw [Request.leavesOut, hroot, Bool.or_true, Bool.true_or]
        · cases hsearch
      · cases h

/-- An analyser that fails makes the input unusable. -/
theorem runAnalyser_faults {source name : String} {extra : List String}
    (h : (w.runAnalyser source name extra).2.outcome = .error f) : f.isUnusable = true := by
  unfold World.runAnalyser at h
  split at h
  · obtain rfl := Except.error.inj h
    rfl
  · dsimp only at h
    split at h
    · obtain rfl := Except.error.inj h
      rfl
    · split at h
      · obtain rfl := Except.error.inj h
        rfl
      · obtain rfl := Except.error.inj h
        rfl
      · cases h

/-- A request has no job because something is unusable, or a value was left out. -/
theorem job_faults (h : (q.job w input).2 = .error f) :
    f.isUnusable = true ∨ (f = .leftOut ∧ q.leavesOut = true) := by
  unfold Request.job at h
  split at h
  · rename_i hget
    refine .inr ⟨(Except.error.inj h).symm, ?_⟩
    rw [Request.leavesOut, Option.map_eq_none_iff.1 hget]
    rfl
  · rename_i g hget
    obtain rfl := Except.error.inj h
    obtain ⟨name, -, hname⟩ := Option.map_eq_some_iff.1 hget
    unfold Catalogue.get at hname
    split at hname
    · cases hname
    · obtain rfl := Except.error.inj hname
      exact .inl rfl
  · split at h
    · dsimp only at h
      exact jobIn_faults h
    · dsimp only at h
      exact jobIn_faults h
    · dsimp only at h
      split at h
      · rename_i hrun
        obtain rfl := Except.error.inj h
        exact .inl (runAnalyser_faults hrun)
      · exact jobIn_faults h

/-- The texts of a job are read as UTF-8. -/
theorem encoding_of_job (h : (q.job w input).2 = .ok job) : job.search.encoding = "utf-8" := by
  unfold Request.job at h
  split at h
  · cases h
  · cases h
  · split at h
    · dsimp only at h
      exact encoding_of_jobIn h
    · dsimp only at h
      exact encoding_of_jobIn h
    · dsimp only at h
      split at h
      · cases h
      · exact encoding_of_jobIn h

/-! ### Attempts -/

/-- An attempt with a result is that of a job. -/
theorem attempt_eq_ok {r : Result} (h : (q.attempt w input).2 = .ok (job, r)) :
    (q.job w input).2 = .ok job ∧ q.resultOf (q.attempt w input).1 job = .ok r := by
  unfold Request.attempt at h ⊢
  split at h
  · cases h
  · rename_i after job' hjob
    split at h
    · cases h
    · rename_i r' hr'
      obtain ⟨rfl, rfl⟩ := Prod.mk.inj (Except.ok.inj h)
      simp only [hjob, hr']
      exact ⟨trivial, trivial⟩

/-- The faults that nothing handles, in the world in which they arise: a value that was left out, a
    file that is no text, and malformed tokens. -/
inductive Escapes (q : Request) (w : World) : Fault → Prop
  | leftOut (value : q.leavesOut = true) : Escapes q w .leftOut
  | undecodable {l : Location} {bytes : ByteArray} (file : w.tree.contents? l = some bytes)
    (text : String.fromUTF8? bytes = none) : Escapes q w .undecodable
  | malformed {f : Fault} (tokens : f.IsMalformed) : Escapes q w f

/-- A fault of the sources says that a file is unusable, unless it is no text. -/
theorem sources_faults_of_job (hjob : (q.job w input).2 = .ok job) {after : World} {name : String}
    (h : job.search.sources after.tree name = .error f) :
    f.isUnusable = true ∨ Escapes q after f := by
  have hutf8 : Encoding.ofName? job.search.encoding = some .utf8 := by
    rw [encoding_of_job hjob]
    decide
  obtain ⟨hfiles, hknown, htext⟩ := SearchPath.sources_faults h
  cases hfiles with
  | sourceNotFound name p => exact .inl rfl
  | obstructed o => exact .inl rfl
  | unknownEncoding => simp [hutf8] at hknown
  | undecodable =>
    obtain ⟨l, bytes, e, -, hbytes, he, hdecode⟩ := htext rfl
    obtain rfl := Option.some.inj (hutf8.symm.trans he)
    refine .inr (.undecodable hbytes ?_)
    cases hunicode : String.fromUTF8? bytes with
    | none => rfl
    | some text => simp [Encoding.decode, hunicode] at hdecode

/-- An attempt has no result because something is unusable, or by a fault that nothing handles. -/
theorem attempt_faults (h : (q.attempt w input).2 = .error f) :
    f.isUnusable = true ∨ Escapes q (q.attempt w input).1 f := by
  unfold Request.attempt at h ⊢
  split at h
  · rename_i after g hjob
    obtain rfl := Except.error.inj h
    rcases job_faults (congrArg Prod.snd hjob) with hunusable | ⟨rfl, hleft⟩
    · exact .inl hunusable
    · exact .inr (.leftOut hleft)
  · rename_i after job hjob
    split at h
    · rename_i g hg
      obtain rfl := Except.error.inj h
      rcases Program.reduce_faults hg with hmal | ⟨t, ht⟩ | ⟨rfl, hcounter⟩ | ⟨n, rfl⟩
      · exact .inr (.malformed hmal)
      · exact sources_faults_of_job (congrArg Prod.snd hjob) ht
      · refine .inr (.leftOut ?_)
        rw [Request.leavesOut, hcounter, Option.isNone_none, Bool.or_true]
      · exact .inl rfl
    · cases h

/-! ### Commands -/

/-- A command tells about the reading of a dump on its error stream only. -/
theorem transformDump_eq (s : Session) (q : Request) (dump : Path) : ∃ err,
    s.transformDump q dump =
      match q.jobIn s.world dump with
      | .error f => Session.stop { s with err } f
      | .ok job => Session.transformProgram { s with err } q job.search job.program := by
  unfold Session.transformDump Request.jobIn
  cases hload : (s.world.loadDump dump.text).outcome with
  | error f => exact ⟨_, by simp only [hload]; rfl⟩
  | ok cs =>
    cases hchoose : choose cs q.configuration with
    | error f => exact ⟨_, by simp only [hload, hchoose]; rfl⟩
    | ok c =>
      -- where sources are looked for depends on the world alone
      have hsearch : (s.tell (s.world.loadDump dump.text).events).searchPath q dump =
          Session.searchPath { world := s.world, clock := "" } q dump := rfl
      refine ⟨(s.tell (s.world.loadDump dump.text).events).err, ?_⟩
      simp only [hload, hchoose, hsearch]
      cases Session.searchPath { world := s.world, clock := "" } q dump with
      | error f => rfl
      | ok search => rfl

/-- A command tells about the run of the pass on its error stream only. -/
theorem transformProgram_eq (s : Session) (q : Request) (job : Job) : ∃ err,
    s.transformProgram q job.search job.program =
      match q.resultOf s.world job with
      | .error f => Session.stop { s with err } f
      | .ok r => Session.conclude { s with err } q job.search r := by
  let settings : Settings := {}
  let run := job.program.reduce {} (job.search.sources s.world.tree) q.counter q.isQuery
  exact ⟨((s.tell (settings.warnings.map .doubtfulSetting)).tell run.events).err, rfl⟩

/-- A session with nothing on its output, in the world that an attempt leaves behind. -/
def Request.sessionAfter (q : Request) (w : World) (input clock err : String) : Session :=
  { world := (q.attempt w input).1, clock, verbosity := q.verbosity, err }

/-- A job that is found and run ends a command in the world after the analyser. -/
theorem transform_of_jobIn {s : Session} {after : World} {dump : Path} (hs : s.world = after)
    (hjob : q.job w input = (after, q.jobIn after dump)) (hout : s.out = "")
    (hverbosity : s.verbosity = q.verbosity) : ∃ err,
    s.transformDump q dump =
      match (q.attempt w input).2 with
      | .error f => (q.sessionAfter w input s.clock err).stop f
      | .ok (job, r) => (q.sessionAfter w input s.clock err).conclude q job.search r := by
  obtain ⟨world, clock, verbosity, out, err⟩ := s
  obtain rfl : world = after := hs
  obtain rfl : out = "" := hout
  obtain rfl : verbosity = q.verbosity := hverbosity
  obtain ⟨err, hdump⟩ := transformDump_eq ⟨world, clock, q.verbosity, "", err⟩ q dump
  rw [hdump]
  unfold Request.sessionAfter Request.attempt
  rw [hjob]
  cases q.jobIn world dump with
  | error f => exact ⟨err, rfl⟩
  | ok job =>
    obtain ⟨err, hprogram⟩ := transformProgram_eq ⟨world, clock, q.verbosity, "", err⟩ q job
    refine ⟨err, ?_⟩
    dsimp only at hprogram ⊢
    rw [hprogram]
    cases q.resultOf world job with
    | error f => rfl
    | ok r => rfl

/-- **A command is its attempt.** A command that names a dump ends as the outcome of its attempt
    has it, in the world that the attempt leaves behind, with nothing on its output so far. -/
theorem run_eq {clock : String} {args : List String} (hparse : parse args = .ok q)
    (hlist : q.listTransformations = false) (hdump : q.dump = some input) : ∃ err,
    run w clock args =
      match (q.attempt w input).2 with
      | .error f => (q.sessionAfter w input clock err).stop f
      | .ok (job, r) => (q.sessionAfter w input clock err).conclude q job.search r := by
  let s : Session := { world := w, clock, verbosity := q.verbosity }
  have hrun : run w clock args = s.transform q input := by
    simp only [run, hparse, Session.answer, hlist, hdump]
    rfl
  rw [hrun]
  unfold Session.transform
  split
  · rename_i hget
    have hattempt : q.attempt w input = (w, .error .leftOut) := by
      simp only [Request.attempt, Request.job, hget]
    exact ⟨"", by rw [Request.sessionAfter, hattempt]⟩
  · rename_i g hget
    have hattempt : q.attempt w input = (w, .error g) := by
      simp only [Request.attempt, Request.job, hget]
    exact ⟨"", by rw [Request.sessionAfter, hattempt]⟩
  · rename_i e hget
    split
    · rename_i hanalyser
      have hjob : q.job w input = (w, q.jobIn w (Path.ofString input)) := by
        simp only [Request.job, hget, hanalyser]
      exact transform_of_jobIn rfl hjob rfl rfl
    · rename_i hanalyser
      have hjob : q.job w input = (w, q.jobIn w (Path.ofString input)) := by
        simp only [Request.job, hget, hanalyser]
      exact transform_of_jobIn rfl hjob rfl rfl
    · rename_i name hnonempty hanalyser
      cases htool : (w.runAnalyser input name []).2.outcome with
      | error f =>
        have hattempt : q.attempt w input = ((w.runAnalyser input name []).1, .error f) := by
          simp only [Request.attempt, Request.job, hget, hanalyser, htool]
        refine ⟨(s.tell (w.runAnalyser input name []).2.events).err, ?_⟩
        rw [Request.sessionAfter, hattempt]
        simp only [s, htool]
        rfl
      | ok dump =>
        have hjob : q.job w input = ((w.runAnalyser input name []).1,
            q.jobIn (w.runAnalyser input name []).1 dump) := by
          simp only [Request.job, hget, hanalyser, htool]
        simp only [s, htool]
        exact transform_of_jobIn rfl hjob rfl rfl

end Cli

end Indirection
