import Indirection.Proofs.Invoking

/-!
# How a command ends

The exit code of a command, what it writes to files and what it leaves on its output, by the outcome
of its attempt. Main definitions:

* `World.send`, `World.IsSent` — the world after a text is sent to an output, and what of it stands
  on the standard output; where the text stands then;
* `Ending.Leaves`, `Request.Reports` — what the end of a session leaves behind; an exit code that
  stands behind a report;
* `Job.IsRewritten` — texts were written to the files that they were read from, and nothing else;
* `Accounts` — what an exit code says about a result.

Main statements: one for each way to end — `stop_of_isUnusable`, `stop_of_escapes`,
`conclude_query`, `conclude_failed`, `deliver_inPlace`, `deliver_several`, `deliver_single` — and
`accounts_run` and `run_ending`, which put them together. A query of a program that cannot be
classified ends in an internal error and still has the exit code of an answer
(`query_of_unclassified`).
-/

namespace Indirection

/-! ### Sending a text to an output -/

/-- The world after a text is sent to an output, and what of it stands on the standard output. -/
def World.send (w : World) (output : Option String) (text : String) :
    Except Fault (World × String) :=
  match output with
  | none => .error .leftOut
  | some "-" => .ok (w, text)
  | some path =>
    match w.outputLocation (Path.ofString path) with
    | .error m => .error (.misused m)
    | .ok l =>
      match w.tree.create l text.toUTF8 with
      | .ok tree => .ok ({ w with tree }, "")
      | .error o => .error (.obstructed o)

/-- A text for a file is created at the place its name leads to. -/
theorem World.send_path {w : World} {path text : String} (h : path ≠ "-") :
    w.send (some path) text =
      match w.outputLocation (Path.ofString path) with
      | .error m => .error (.misused m)
      | .ok l =>
        match w.tree.create l text.toUTF8 with
        | .ok tree => .ok ({ w with tree }, "")
        | .error o => .error (.obstructed o) := by
  unfold send
  split
  · rename_i heq
    cases heq
  · rename_i heq
    exact absurd (Option.some.inj heq) h
  · rename_i heq
    rw [Option.some.inj heq]

/-- Whether a text stands, behind a world, on the standard output alone, or in the one file that the
    output leads to. -/
def World.IsSent (w w' : World) (output : Option String) (text out : String) : Prop :=
  (output = some "-" ∧ w' = w ∧ out = text) ∨
    ∃ path l, output = some path ∧ w.outputLocation (Path.ofString path) = .ok l ∧ out = "" ∧
      w' = { w with tree := w.tree.write l text.toUTF8 } ∧
      ∀ k, w'.tree.contents? k = if k = l then some text.toUTF8 else w.tree.contents? k

/-- What is sent has arrived. -/
theorem World.isSent_of_send {w w' : World} {output : Option String} {text out : String}
    (h : w.send output text = .ok (w', out)) : w.IsSent w' output text out := by
  unfold send at h
  split at h
  · cases h
  · obtain ⟨rfl, rfl⟩ := Prod.mk.inj (Except.ok.inj h)
    exact .inl ⟨rfl, rfl, rfl⟩
  · rename_i path _
    split at h
    · cases h
    · rename_i l hl
      split at h
      · rename_i tree hcreate
        obtain ⟨rfl, rfl⟩ := Prod.mk.inj (Except.ok.inj h)
        have htree : tree = w.tree.write l text.toUTF8 := by
          unfold FileTree.create at hcreate
          split at hcreate
          · cases hcreate
          · split at hcreate
            · cases hcreate
            · split at hcreate
              · cases hcreate
              · exact (Except.ok.inj hcreate).symm
        subst htree
        exact .inr ⟨path, l, rfl, hl, rfl, rfl, FileTree.contents?_write _ _ _⟩
      · cases h

namespace Cli

variable {q : Request} {s : Session} {search : SearchPath} {r : Result} {f : Fault}

/-! ### Faults and reports -/

/-- Whether an end leaves a world and an output behind. -/
def Ending.Leaves (e : Ending) (w : World) (out : String) : Prop :=
  e.session.world = w ∧ e.session.out = out

/-- What is unusable ends a session with the exit code 2. -/
theorem stop_of_isUnusable (h : f.isUnusable = true) :
    (s.stop f).exit = .ok 2 ∧ (s.stop f).Leaves s.world s.out := by
  cases f with
  | refused d =>
    have hkind : (d.kind.isA .frontend || d.kind.isA .usage) = true := h
    simp only [Session.stop, hkind, if_true]
    exact ⟨rfl, rfl, rfl⟩
  | obstructed o => exact ⟨rfl, rfl, rfl⟩
  | _ => cases h

/-- A fault that nothing handles ends a session without an exit code. -/
theorem stop_of_escapes {w : World} (h : Escapes q w f) :
    (s.stop f).exit = .error f ∧ (s.stop f).Leaves s.world s.out := by
  cases h with
  | leftOut => exact ⟨rfl, rfl, rfl⟩
  | undecodable => exact ⟨rfl, rfl, rfl⟩
  | malformed htokens =>
    rcases htokens with rfl | rfl
    · exact ⟨rfl, rfl, rfl⟩
    · exact ⟨rfl, rfl, rfl⟩

/-- Whether a session ends with an exit code, or without one because the form of its report was left
    out. -/
def Request.Reports (q : Request) (code : Int) (exit : Except Fault Int) : Prop :=
  exit = .ok code ∨ (q.format = none ∧ ∃ m, exit = .error (.misused m))

/-- A report ends with the code it is given, and leaves the world and the output as they are. -/
theorem warnReport_ends (q : Request) (s : Session) (r : Result) (code : Int) :
    q.Reports code (s.warnReport q r code).exit ∧
      (s.warnReport q r code).Leaves s.world s.out := by
  unfold Session.warnReport Request.reportOn
  cases hformat : q.format with
  | none => exact ⟨.inr ⟨hformat, _, rfl⟩, rfl, rfl⟩
  | some format => exact ⟨.inl rfl, rfl, rfl⟩

/-! ### Results that change nothing -/

/-- A query ends with a report on the output. -/
theorem conclude_query (hquery : r.queryOnly = true) :
    (∃ format, q.format = some format ∧ (s.conclude q search r).exit = .ok 0 ∧
      (s.conclude q search r).Leaves s.world
        (s.out ++ (r.report format q.listCandidates ++ "\n"))) ∨
    (q.format = none ∧ (∃ m, (s.conclude q search r).exit = .error (.misused m)) ∧
      (s.conclude q search r).Leaves s.world s.out) := by
  unfold Session.conclude Session.printReport Request.reportOn
  rw [if_pos hquery]
  cases hformat : q.format with
  | none => exact .inr ⟨rfl, ⟨_, rfl⟩, rfl, rfl⟩
  | some format => exact .inl ⟨format, rfl, rfl, rfl, rfl⟩

/-- A run that rewrites nothing ends with a report on the error stream. -/
theorem conclude_failed (hquery : r.queryOnly = false) (hstatus : r.status ≠ .ok) :
    q.Reports (if r.status = .noInstance then 3 else 1) (s.conclude q search r).exit ∧
      (s.conclude q search r).Leaves s.world s.out := by
  cases hr : r.status with
  | ok => exact absurd hr hstatus
  | noInstance =>
    simp only [Session.conclude, hquery, hr, Bool.false_eq_true, if_false, if_true]
    exact warnReport_ends q s r 3
  | internalError =>
    simp only [Session.conclude, hquery, hr, Bool.false_eq_true, if_false, reduceCtorEq]
    exact warnReport_ends q s r 1

/-- A reduction that went well and is no query is delivered. -/
theorem conclude_of_ok (hquery : r.queryOnly = false) (hstatus : r.status = .ok) :
    s.conclude q search r = s.deliver q search r := by
  simp only [Session.conclude, hquery, hstatus, Bool.false_eq_true, if_false]

/-! ### Texts -/

/-- A report behind texts that are written is given only where it is asked for. -/
theorem report_ends (q : Request) (s : Session) (r : Result) :
    let e := if q.format ≠ some .text || q.verbosity ≠ 0 then s.warnReport q r 0 else s.exit 0
    q.Reports 0 e.exit ∧ e.Leaves s.world s.out := by
  dsimp only
  split
  · exact warnReport_ends q s r 0
  · exact ⟨.inl rfl, rfl, rfl⟩

/-- Writing texts in place changes the file tree, and tells about it on the error stream only. -/
theorem writeInPlace_eq (search : SearchPath) (s : Session) (texts : List (String × String)) :
    (s.writeInPlace search texts).world =
        { s.world with tree := search.rewrite s.world.tree texts } ∧
      (s.writeInPlace search texts).out = s.out := by
  induction texts generalizing s with
  | nil => exact ⟨rfl, rfl⟩
  | cons r rest ih =>
    obtain ⟨name, text⟩ := r
    rw [Session.writeInPlace, SearchPath.rewrite]
    exact ih _

/-- Texts that are written in place end a session with the exit code 0. -/
theorem deliver_inPlace (h : q.inPlace = true) :
    q.Reports 0 (s.deliver q search r).exit ∧
      (s.deliver q search r).Leaves
        { s.world with tree := search.rewrite s.world.tree r.rewritten } s.out := by
  obtain ⟨hworld, hout⟩ := writeInPlace_eq search s r.rewritten
  unfold Session.deliver
  rw [if_pos h, ← hworld, ← hout]
  exact report_ends q _ r

/-- Several texts, or none, cannot be sent to one output. -/
theorem deliver_several (h : q.inPlace = false) (hlength : r.rewritten.length ≠ 1) :
    (s.deliver q search r).exit = .ok 2 ∧ (s.deliver q search r).Leaves s.world s.out := by
  unfold Session.deliver
  rw [if_neg (by simp [h])]
  split
  · rename_i name text htexts
    simp [htexts] at hlength
  · exact ⟨rfl, rfl, rfl⟩

/-- A session sends its single text as its world does. -/
theorem writeSingle_eq (s : Session) (output : Option String) (text : String) :
    s.writeSingle output text =
      (s.world.send output text).map fun sent =>
        { s with world := sent.1, out := s.out ++ sent.2 } := by
  cases output with
  | none => rfl
  | some path =>
    by_cases hpath : path = "-"
    · subst hpath
      rfl
    · have hwrite : s.writeSingle (some path) text = s.writeFile (Path.ofString path) text := by
        unfold Session.writeSingle
        split
        · rename_i heq
          cases heq
        · rename_i heq
          exact absurd (Option.some.inj heq) hpath
        · rename_i heq
          rw [Option.some.inj heq]
      rw [hwrite, World.send_path hpath, Session.writeFile]
      cases s.world.outputLocation (Path.ofString path) with
      | error m => rfl
      | ok l =>
        dsimp only
        cases s.world.tree.create l text.toUTF8 with
        | error o => rfl
        | ok tree => simp [Except.map]

/-- A single text ends a session with the exit code 0 when it can be sent, and as the obstacle or
    the fault has it otherwise. -/
theorem deliver_single (h : q.inPlace = false) {name text : String}
    (htexts : r.rewritten = [(name, text)]) :
    (∃ sent, s.world.send q.output text = .ok sent ∧ q.Reports 0 (s.deliver q search r).exit ∧
      (s.deliver q search r).Leaves sent.1 (s.out ++ sent.2)) ∨
    ∃ f, s.world.send q.output text = .error f ∧ (s.deliver q search r).Leaves s.world s.out ∧
      ((∃ o, f = .obstructed o ∧ (s.deliver q search r).exit = .ok 2) ∨
        ((∀ o, f ≠ .obstructed o) ∧ (s.deliver q search r).exit = .error f)) := by
  unfold Session.deliver
  rw [if_neg (by simp [h])]
  simp only [htexts, writeSingle_eq]
  cases hsend : s.world.send q.output text with
  | ok sent =>
    exact .inl ⟨sent, rfl, report_ends q { s with world := sent.1, out := s.out ++ sent.2 } r⟩
  | error f =>
    refine .inr ⟨f, rfl, ?_⟩
    unfold World.send at hsend
    split at hsend
    · obtain rfl := Except.error.inj hsend
      exact ⟨⟨rfl, rfl⟩, .inr ⟨nofun, rfl⟩⟩
    · cases hsend
    · split at hsend
      · obtain rfl := Except.error.inj hsend
        exact ⟨⟨rfl, rfl⟩, .inr ⟨nofun, rfl⟩⟩
      · split at hsend
        · cases hsend
        · rename_i o _
          obtain rfl := Except.error.inj hsend
          exact ⟨⟨rfl, rfl⟩, .inl ⟨o, rfl, rfl⟩⟩

/-! ### What an exit code says -/

/-- Whether texts were written to the files that they were read from, and nothing else was. -/
structure Job.IsRewritten (job : Job) (w w' : World) (texts : List (String × String)) : Prop where
  world : w' = { w with tree := job.search.rewrite w.tree texts }
  /-- each text is one for a file that was read, at the path that a loader has for its name -/
  read : ∀ r ∈ texts, ∃ p l old, job.search.find w.tree r.1 = .ok p ∧
    w.tree.locate? p = some l ∧ job.search.textAt w.tree p = .ok old ∧
    ∀ names, r.1 ∈ names →
      (Loader.loadAll { search := job.search } w.tree names).found.lookup r.1 = some p
  /-- a file holds the last of the texts that are written to it -/
  contents : ∀ l, w'.tree.contents? l =
    ((texts.filter fun r => job.search.location? w.tree r.1 = some l).getLast?.map
      (·.2.toUTF8)).or (w.tree.contents? l)

/-- What an exit code says about the result of a run, in the world behind the analyser. -/
structure Accounts (q : Request) (w : World) (job : Job) (r : Result) (e : Ending) (code : Int) :
    Prop where
  success : code = 0 ↔ q.isQuery = true ∨ (r.status = .ok ∧ (q.inPlace = true ∨
    ∃ name text sent, r.rewritten = [(name, text)] ∧ w.send q.output text = .ok sent))
  internal : code = 1 ↔ q.isQuery = false ∧ r.status = .internalError
  unusable : code = 2 ↔ q.isQuery = false ∧ r.status = .ok ∧ q.inPlace = false ∧
    (r.rewritten.length ≠ 1 ∨
      ∃ name text o, r.rewritten = [(name, text)] ∧
        w.send q.output text = .error (.obstructed o))
  exhausted : code = 3 ↔ q.isQuery = false ∧ r.status = .noInstance
  /-- the code is that of an internal error where there is one, unless a query is for a program that
      cannot be classified -/
  agrees : (code = 1 ↔ r.status = .internalError) ↔
    (q.isQuery = true → (job.program.collect {}).fault = none)
  untouched : code ≠ 0 ∨ q.isQuery = true → e.session.world = w
  silent : code ≠ 0 → e.session.out = ""
  /-- the output of a query is a report, which no text has a part in -/
  query : q.isQuery = true → r.rewritten = [] ∧
    (∀ other : Sources, (job.program.reduce {} other q.counter true).outcome = .ok r) ∧
    ∃ format, q.format = some format ∧
      e.session.out = r.report format q.listCandidates ++ "\n"
  inPlace : code = 0 → q.isQuery = false → q.inPlace = true →
    e.session.out = "" ∧ job.IsRewritten w e.session.world r.rewritten
  single : code = 0 → q.isQuery = false → q.inPlace = false →
    ∃ name text, r.rewritten = [(name, text)] ∧
      w.IsSent e.session.world q.output text e.session.out

/-- Texts whose names have texts are written to the files of these. -/
theorem Job.isRewritten {job : Job} {w : World} {texts : List (String × String)}
    (h : ∀ r ∈ texts, ∃ old, job.search.sources w.tree r.1 = .ok old) :
    job.IsRewritten w { w with tree := job.search.rewrite w.tree texts } texts where
  world := rfl
  read r hr := by
    obtain ⟨old, hold⟩ := h r hr
    obtain ⟨p, hfind, htext⟩ := SearchPath.sources_eq_ok.1 hold
    obtain ⟨l, hl, -⟩ := SearchPath.exists_location hfind
    refine ⟨p, l, old, hfind, hl, htext, fun names hname => ?_⟩
    obtain ⟨p', hfound, hfind'⟩ := Loader.found_loadAll hname hold
    rw [hfound, ← Except.ok.inj (hfind.symm.trans hfind')]
  contents := by
    refine (SearchPath.contents?_rewrite fun r hr => ?_).2
    obtain ⟨old, hold⟩ := h r hr
    obtain ⟨l, -, -, hl, -⟩ := SearchPath.text_of_location hold
    rw [hl, Option.isSome_some]

/-- A report ends with one code at most. -/
theorem Request.Reports.eq {exit : Except Fault Int} {c code : Int} (h : q.Reports c exit)
    (hexit : exit = .ok code) : code = c := by
  rcases h with h | ⟨-, m, h⟩
  · exact Except.ok.inj (hexit.symm.trans h)
  · cases hexit.symm.trans h

variable {job : Job} {code : Int}

/-- A query accounts for its end. -/
theorem accounts_query (hquery : q.isQuery = true) (hout : s.out = "")
    (hrun : q.resultOf s.world job = .ok r)
    (hexit : (s.conclude q job.search r).exit = .ok code) :
    Accounts q s.world job r (s.conclude q job.search r) code := by
  rw [Request.resultOf, hquery] at hrun
  obtain ⟨honly, htexts, -, hstatus, hother⟩ := Program.reduce_query_result hrun
  rcases conclude_query honly with ⟨format, hformat, hcode, hworld, hreport⟩ | ⟨-, ⟨m, hm⟩, -⟩
  · obtain rfl := Except.ok.inj (hcode.symm.trans hexit)
    rw [hout, String.empty_append] at hreport
    exact {
      success := by simp [hquery]
      internal := by simp [hquery]
      unusable := by simp [hquery]
      exhausted := by simp [hquery]
      agrees := by simp [hquery, hstatus]
      untouched := fun _ => hworld
      silent := fun h => absurd rfl h
      query := fun _ => ⟨htexts, hother, format, hformat, hreport⟩
      inPlace := by simp [hquery]
      single := by simp [hquery] }
  · cases hexit.symm.trans hm

/-- A reduction that failed accounts for its end. -/
theorem accounts_failed (hquery : q.isQuery = false) (honly : r.queryOnly = false)
    (hstatus : r.status ≠ .ok) (hout : s.out = "")
    (hexit : (s.conclude q job.search r).exit = .ok code) :
    Accounts q s.world job r (s.conclude q job.search r) code := by
  have hends : q.Reports (if r.status = .noInstance then 3 else 1)
        (s.conclude q job.search r).exit ∧
      (s.conclude q job.search r).Leaves s.world s.out := conclude_failed honly hstatus
  obtain ⟨hreports, hworld, hsilent⟩ := hends
  have hcode := hreports.eq hexit
  have hne : code ≠ 0 := by
    rw [hcode]
    split
    · decide
    · decide
  cases hr : r.status with
  | ok => exact absurd hr hstatus
  | noInstance | internalError =>
    simp only [hr, reduceCtorEq, if_true, if_false] at hcode
    subst hcode
    exact {
      success := by simp [hquery, hr]
      internal := by simp [hquery, hr]
      unusable := by simp [hr]
      exhausted := by simp [hquery, hr]
      agrees := by simp [hquery, hr]
      untouched := fun _ => hworld
      silent := fun _ => hsilent.trans hout
      query := by simp [hquery]
      inPlace := fun h => absurd h hne
      single := fun h => absurd h hne }

/-- A reduction that is written back accounts for its end. -/
theorem accounts_inPlace (hquery : q.isQuery = false) (honly : r.queryOnly = false)
    (hstatus : r.status = .ok) (hplace : q.inPlace = true) (hout : s.out = "")
    (htexts : ∀ text ∈ r.rewritten, ∃ old, job.search.sources s.world.tree text.1 = .ok old)
    (hexit : (s.conclude q job.search r).exit = .ok code) :
    Accounts q s.world job r (s.conclude q job.search r) code := by
  rw [conclude_of_ok honly hstatus] at hexit ⊢
  have hends : q.Reports 0 (s.deliver q job.search r).exit ∧
      (s.deliver q job.search r).Leaves
        { s.world with tree := job.search.rewrite s.world.tree r.rewritten } s.out :=
    deliver_inPlace hplace
  obtain ⟨hreports, hworld, hsilent⟩ := hends
  obtain rfl := hreports.eq hexit
  exact {
    success := by simp [hstatus, hplace]
    internal := by simp [hstatus]
    unusable := by simp [hplace]
    exhausted := by simp [hstatus]
    agrees := by simp [hquery, hstatus]
    untouched := by simp [hquery]
    silent := fun h => absurd rfl h
    query := by simp [hquery]
    inPlace := fun _ _ _ => ⟨hsilent.trans hout, hworld ▸ Job.isRewritten htexts⟩
    single := by simp [hplace] }

/-- A reduction of several texts that are not written back accounts for its end. -/
theorem accounts_several (hquery : q.isQuery = false) (honly : r.queryOnly = false)
    (hstatus : r.status = .ok) (hplace : q.inPlace = false) (hout : s.out = "")
    (hlength : r.rewritten.length ≠ 1)
    (hexit : (s.conclude q job.search r).exit = .ok code) :
    Accounts q s.world job r (s.conclude q job.search r) code := by
  rw [conclude_of_ok honly hstatus] at hexit ⊢
  have hends : (s.deliver q job.search r).exit = .ok 2 ∧
      (s.deliver q job.search r).Leaves s.world s.out := deliver_several hplace hlength
  obtain ⟨hcode, hworld, hsilent⟩ := hends
  obtain rfl := Except.ok.inj (hcode.symm.trans hexit)
  have hsingle : ∀ name text, r.rewritten ≠ [(name, text)] := by
    rintro name text htexts
    simp [htexts] at hlength
  exact {
    success := by simp [hquery, hplace, hsingle]
    internal := by simp [hstatus]
    unusable := by simp [hquery, hstatus, hplace, hlength]
    exhausted := by simp [hstatus]
    agrees := by simp [hquery, hstatus]
    untouched := fun _ => hworld
    silent := fun _ => hsilent.trans hout
    query := by simp [hquery]
    inPlace := by simp [hplace]
    single := by simp }

/-- A reduction of one text that is not written back accounts for its end. -/
theorem accounts_single (hquery : q.isQuery = false) (honly : r.queryOnly = false)
    (hstatus : r.status = .ok) (hplace : q.inPlace = false) (hout : s.out = "")
    {name text : String} (htexts : r.rewritten = [(name, text)])
    (hexit : (s.conclude q job.search r).exit = .ok code) :
    Accounts q s.world job r (s.conclude q job.search r) code := by
  rw [conclude_of_ok honly hstatus] at hexit ⊢
  rcases deliver_single hplace htexts with ⟨⟨w, out⟩, hsent, hreports, hworld, hsent'⟩ |
    ⟨f, hsend, ⟨hworld, hsilent⟩, ⟨o, rfl, hcode⟩ | ⟨-, hcode⟩⟩
  · obtain rfl := hreports.eq hexit
    rw [hout, String.empty_append] at hsent'
    exact {
      success := by simp [hstatus, htexts, hsent]
      internal := by simp [hstatus]
      unusable := by simp [htexts, hsent]
      exhausted := by simp [hstatus]
      agrees := by simp [hquery, hstatus]
      untouched := by simp [hquery]
      silent := fun h => absurd rfl h
      query := by simp [hquery]
      inPlace := by simp [hplace]
      single := fun _ _ _ =>
        ⟨name, text, htexts, World.isSent_of_send (by rw [hworld, hsent', hsent])⟩ }
  · obtain rfl := Except.ok.inj (hcode.symm.trans hexit)
    exact {
      success := by simp [hquery, hplace, htexts, hsend]
      internal := by simp [hstatus]
      unusable := by simp [hquery, hstatus, hplace, htexts, hsend]
      exhausted := by simp [hstatus]
      agrees := by simp [hquery, hstatus]
      untouched := fun _ => hworld
      silent := fun _ => hsilent.trans hout
      query := by simp [hquery]
      inPlace := by simp [hplace]
      single := by simp }
  · cases hexit.symm.trans hcode

/-- The exit code of a session that ends with a result says what it should about the result. -/
theorem accounts_conclude (hout : s.out = "") (hrun : q.resultOf s.world job = .ok r)
    (hexit : (s.conclude q job.search r).exit = .ok code) :
    Accounts q s.world job r (s.conclude q job.search r) code := by
  cases hquery : q.isQuery with
  | true => exact accounts_query hquery hout hrun hexit
  | false =>
    rw [Request.resultOf, hquery] at hrun
    obtain ⟨honly, ⟨hstatus, d, -, -, -, happly⟩ | ⟨hstatus, -⟩⟩ := Program.reduce_run_result hrun
    · cases hplace : q.inPlace with
      | true =>
        have htexts := Script.sources_of_applyTo happly
        exact accounts_inPlace hquery honly hstatus hplace hout htexts hexit
      | false =>
        by_cases hlength : r.rewritten.length = 1
        · obtain ⟨⟨name, text⟩, htexts⟩ := List.length_eq_one_iff.1 hlength
          exact accounts_single hquery honly hstatus hplace hout htexts hexit
        · exact accounts_several hquery honly hstatus hplace hout hlength hexit
    · exact accounts_failed hquery honly hstatus hout hexit

/-- A session that ends with a result has an exit code, unless the form of its report was left out
    or its output leads nowhere. -/
theorem conclude_exits (hrun : q.resultOf s.world job = .ok r)
    (hexit : (s.conclude q job.search r).exit = .error f) :
    q.format = none ∨ (q.isQuery = false ∧ q.inPlace = false ∧ ∃ name text,
      r.rewritten = [(name, text)] ∧ s.world.send q.output text = .error f ∧
        ∀ o, f ≠ .obstructed o) := by
  have reports {c : Int} {exit : Except Fault Int} (h : q.Reports c exit)
      (hexit : exit = .error f) : q.format = none := by
    rcases h with h | ⟨hformat, -⟩
    · cases h.symm.trans hexit
    · exact hformat
  unfold Request.resultOf at hrun
  cases hquery : q.isQuery with
  | true =>
    rw [hquery] at hrun
    rcases conclude_query (Program.reduce_query_result hrun).1 with ⟨_, _, hcode, -⟩ | ⟨hformat, -⟩
    · cases hcode.symm.trans hexit
    · exact .inl hformat
  | false =>
    rw [hquery] at hrun
    obtain ⟨honly, ⟨hstatus, -⟩ | ⟨hstatus, -⟩⟩ := Program.reduce_run_result hrun
    · rw [conclude_of_ok honly hstatus] at hexit
      cases hplace : q.inPlace with
      | true => exact .inl (reports (deliver_inPlace hplace).1 hexit)
      | false =>
        by_cases hlength : r.rewritten.length = 1
        · obtain ⟨⟨name, text⟩, htexts⟩ := List.length_eq_one_iff.1 hlength
          rcases deliver_single hplace htexts with ⟨sent, -, hreports, -⟩ |
            ⟨g, hsend, -, ⟨o, -, hcode⟩ | ⟨hne, hcode⟩⟩
          · exact .inl (reports hreports hexit)
          · cases hcode.symm.trans hexit
          · obtain rfl := Except.error.inj (hcode.symm.trans hexit)
            exact .inr ⟨rfl, rfl, name, text, htexts, hsend, hne⟩
        · cases (deliver_several hplace hlength).1.symm.trans hexit
    · exact .inl (reports (conclude_failed honly hstatus).1 hexit)

section

variable {w : World} {clock : String} {args : List String} {input : String}
  (hparse : parse args = .ok q) (hlist : q.listTransformations = false)
  (hdump : q.dump = some input)

include hparse hlist hdump

/-- The exit code of a command says what it should about the result of its attempt. -/
theorem accounts_run (hr : (q.attempt w input).2 = .ok (job, r))
    (hexit : (run w clock args).exit = .ok code) :
    Accounts q (q.attempt w input).1 job r (run w clock args) code := by
  obtain ⟨err, hrun⟩ : ∃ err, run w clock args = _ := run_eq hparse hlist hdump
  simp only [hr] at hrun
  rw [hrun] at hexit ⊢
  have hout : (q.sessionAfter w input clock err).out = "" := rfl
  have hresult : q.resultOf (q.sessionAfter w input clock err).world job = .ok r :=
    (attempt_eq_ok hr).2
  exact accounts_conclude hout hresult hexit

/-- A command whose attempt has no result leaves nothing behind, and has the exit code 2 or none. -/
theorem run_of_attempt_error (hf : (q.attempt w input).2 = .error f) :
    (run w clock args).Leaves (q.attempt w input).1 "" ∧
      ((f.isUnusable = true ∧ (run w clock args).exit = .ok 2) ∨
        (Escapes q (q.attempt w input).1 f ∧ (run w clock args).exit = .error f)) := by
  obtain ⟨err, hrun⟩ : ∃ err, run w clock args = _ := run_eq hparse hlist hdump
  simp only [hf] at hrun
  rw [hrun]
  rcases attempt_faults hf with hunusable | hescapes
  · obtain ⟨hcode, hleaves⟩ := stop_of_isUnusable hunusable
    exact ⟨hleaves, .inl ⟨hunusable, hcode⟩⟩
  · obtain ⟨hcode, hleaves⟩ := stop_of_escapes hescapes
    exact ⟨hleaves, .inr ⟨hescapes, hcode⟩⟩

/-- A run that ends with another code than that of wrong use comes to a result. -/
theorem exists_result_of_exit (hexit : (run w clock args).exit = .ok code) (hcode : code ≠ 2) :
    ∃ job r, (q.attempt w input).2 = .ok (job, r) := by
  cases hr : (q.attempt w input).2 with
  | error f =>
    obtain ⟨-, ⟨-, htwo⟩ | ⟨-, hnone⟩⟩ := run_of_attempt_error hparse hlist hdump hr
    · exact absurd (Except.ok.inj (hexit.symm.trans htwo)) hcode
    · cases hexit.symm.trans hnone
  | ok jr => exact ⟨jr.1, jr.2, rfl⟩

end

/-- **How a command ends.** Let a command name a dump and ask for no list of transformations.

    * If its attempt has no result, then nothing is written and nothing stands on the output. The
      exit code is 2 where something is unusable or in the way; no exit code there is only for a
      value that was left out, a file that is no text, and malformed tokens.
    * If it has a result, then the command has an exit code, unless the form of its report was left
      out or its single text has no output to go to, and the code accounts for the result: 0 for a
      query, for texts written in place and for a single text that was sent; 1 for an internal
      error, 2 for several texts, or one that is obstructed, and 3 for a number without a candidate,
      in each case if the command is no query. With another code than 0, and for a query, no file is
      written; a query leaves a report on the output, in which no text has a part, and another code
      than 0 nothing. Texts written in place go to the files that they were read from, and to no
      other, and a single text goes to the output asked for.
    * So the code tells of an internal error exactly if there is one, unless the command is a query
      of a program that cannot be classified. -/
theorem run_ending {w : World} {clock : String} {args : List String} {q : Request}
    {input : String} (hparse : parse args = .ok q) (hlist : q.listTransformations = false)
    (hdump : q.dump = some input) :
    let e := run w clock args
    let after := (q.attempt w input).1
    (∀ f, (q.attempt w input).2 = .error f → e.Leaves after "" ∧
      ((f.isUnusable = true ∧ e.exit = .ok 2) ∨ (Escapes q after f ∧ e.exit = .error f))) ∧
    ∀ job r, (q.attempt w input).2 = .ok (job, r) →
      (∀ code, e.exit = .ok code → Accounts q after job r e code) ∧
      ∀ f, e.exit = .error f → q.format = none ∨ (q.isQuery = false ∧ q.inPlace = false ∧
        ∃ name text, r.rewritten = [(name, text)] ∧ after.send q.output text = .error f ∧
          ∀ o, f ≠ .obstructed o) := by
  intro e after
  refine ⟨fun f hf => run_of_attempt_error hparse hlist hdump hf, fun job r hr =>
    ⟨fun code hexit => accounts_run hparse hlist hdump hr hexit, fun f hexit => ?_⟩⟩
  obtain ⟨err, hrun⟩ : ∃ err, e = _ := run_eq hparse hlist hdump
  simp only [hr] at hrun
  rw [hrun] at hexit
  have hresult : q.resultOf (q.sessionAfter w input clock err).world job = .ok r :=
    (attempt_eq_ok hr).2
  exact conclude_exits hresult hexit

/-- A file `a.c` with the text `int *p;` beside its dump. -/
def besideDump : World where
  tree := { base := ["w"], files := [(["w", "d"], "".toUTF8), (["w", "a.c"], "int *p;".toUTF8)] }
  dumps := [("d", .ok [{ label := .missing, program := .onePointer }])]

/-- The command takes the star off in the file. -/
theorem run_ending_besideDump :
    ∃ q job r, parse ["d", "--in-place"] = .ok q ∧
      (q.attempt besideDump "d").2 = .ok (job, r) ∧
      Accounts q (q.attempt besideDump "d").1 job r (run besideDump "" ["d", "--in-place"]) 0 ∧
      (run besideDump "" ["d", "--in-place"]).session.world.tree.contents? ["w", "a.c"] =
        some "int p;".toUTF8 := by
  let q : Request := { dump := some "d", inPlace := true }
  have hparse : parse ["d", "--in-place"] = .ok q := rfl
  have hattempt : (q.attempt besideDump "d").2.toOption.isSome = true := by decide +kernel
  have hexit : (run besideDump "" ["d", "--in-place"]).exit = .ok 0 := by decide +kernel
  have hcontents : (run besideDump "" ["d", "--in-place"]).session.world.tree.contents?
      ["w", "a.c"] = some "int p;".toUTF8 := by decide +kernel
  cases hr : (q.attempt besideDump "d").2 with
  | error f => simp [hr, Except.toOption] at hattempt
  | ok jr =>
    obtain ⟨job, r⟩ := jr
    have haccounts := ((run_ending hparse rfl rfl).2 job r hr).1 0 hexit
    exact ⟨q, job, r, hparse, hr, haccounts, hcontents⟩

/-- The tokens of the text `f() = 0;`, where the call of `f` gives a pointer. -/
def calledTarget : Program where
  tokens := #[{ text := "f", isName := true, parent := some 1 },
    { text := "(", valueType := some 0, link := some 2, operand1 := some 0, parent := some 3 },
    { text := ")", link := some 1 },
    { text := "=", operand1 := some 1, operand2 := some 4, isAssignmentOp := true },
    { text := "0", parent := some 3, isNumber := true }, { text := ";" }]
  valueTypes := #[{ type := some "int", pointer := 1 }]

/-- The dump of this program. -/
def unclassified : World where
  tree := { base := ["w"], files := [(["w", "d"], "".toUTF8)] }
  dumps := [("d", .ok [{ label := .missing, program := calledTarget }])]

/-- A query of the program ends in an internal error, and has the exit code 0 of an answer. -/
theorem query_of_unclassified :
    ∃ q job r, parse ["d", "--query-instances"] = .ok q ∧
      (q.attempt unclassified "d").2 = .ok (job, r) ∧ r.status = .internalError ∧
      (run unclassified "" ["d", "--query-instances"]).exit = .ok 0 := by
  let q : Request := { dump := some "d", queryInstances := true }
  have hstatus : (q.attempt unclassified "d").2.toOption.map (fun jr => jr.2.status) =
      some .internalError := by decide +kernel
  have hexit : (run unclassified "" ["d", "--query-instances"]).exit = .ok 0 := by decide +kernel
  cases hr : (q.attempt unclassified "d").2 with
  | error f => simp [hr, Except.toOption] at hstatus
  | ok jr =>
    obtain ⟨job, r⟩ := jr
    simp only [hr, Except.toOption, Option.map_some, Option.some.injEq] at hstatus
    exact ⟨q, job, r, rfl, hr, hstatus, hexit⟩

end Cli

end Indirection
