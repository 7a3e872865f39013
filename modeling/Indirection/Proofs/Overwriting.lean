import Indirection.Proofs.Ending
import Indirection.Proofs.Reordering

/-!
# Files with several names

Edits are recorded under the names that tokens have for files, and two names can be found at one
file. Each name has a text of its own, so that of the texts that are written to one file the last
one stays. Main definitions:

* `Script.newText?` — the text of a file with the edits recorded under one name;
* `Replacement.inOne`, `Replacement.jointText?` — the replacements under several names as ones under
  a single name, and the text of a file with all of them applied together;
* `SearchPath.HasAllEdits` — the file at a location has all edits recorded under its names.

Main statements: `jointText?_eq` — which single name that is does not matter; `newText?_eq` — a file
has the same text behind a reordering; `lastWins_of_written` and `run_overwriting` — what becomes of
each file, and when it has all of its edits. It has when one name leads to it, but when two names
do, it may lack the edits of the first one (`twoNames_edit_lost`).
-/

namespace Indirection

/-! ### The text of a file under a name -/

/-- One pass through a text does not depend on the name that an overlap is reported with. -/
theorem splice_toOption (path other : String) (cs : List Char) (cursor : Nat) (es : List Edit) :
    (splice path cs cursor es).toOption = (splice other cs cursor es).toOption := by
  induction es generalizing cursor with
  | nil => rfl
  | cons e rest ih =>
    have ih := ih e.stop
    rw [splice, splice]
    split
    · rfl
    · cases hpath : splice path cs e.stop rest with
      | ok tail =>
        cases hother : splice other cs e.stop rest with
        | ok tail' =>
          rw [hpath, hother] at ih
          rw [Option.some.inj ih]
        | error g =>
          rw [hpath, hother] at ih
          cases ih
      | error f =>
        cases hother : splice other cs e.stop rest with
        | ok tail' =>
          rw [hpath, hother] at ih
          cases ih
        | error g => rfl

/-- A replacement in another file. -/
def Replacement.inFile (r : Replacement) (path : String) : Replacement := { r with path }

namespace Script

variable {sources : Sources} {s : Script} {rs : List Replacement} {path text new : String}

/-- The text of a file with the edits recorded under a name, unless they overlap. -/
def newText? (s : Script) (path text : String) : Option String :=
  (splice path text.toList 0 (s.edits path)).toOption.map String.ofList

/-- The script that records a list of replacements. -/
def ofReplacements (rs : List Replacement) : Script := rs.foldl add {}

/-- A script of replacements holds these. -/
theorem holds_ofReplacements (rs : List Replacement) : (ofReplacements rs).Holds rs :=
  Holds.empty.foldl_add rs

/-- A script of replacements that fit is sound. -/
theorem sound_ofReplacements (h : ∀ r ∈ rs, r.Fits sources) : Sound sources (ofReplacements rs) :=
  (Sound.empty sources).foldl_add h

/-- What is recorded for a single file does not depend on the name of the file. -/
theorem recorded_inFile (path other : String) (rs : List Replacement) :
    (ofReplacements (rs.map (·.inFile path))).recorded path =
      (ofReplacements (rs.map (·.inFile other))).recorded other := by
  have step (s s' : Script) (hrecorded : s.recorded path = s'.recorded other)
      (hattempts : s.attempts = s'.attempts) :
      ((rs.map (·.inFile path)).foldl add s).recorded path =
        ((rs.map (·.inFile other)).foldl add s').recorded other := by
    induction rs generalizing s s' with
    | nil => exact hrecorded
    | cons r rest ih =>
      have hcontains : s.contains (r.inFile path) = s'.contains (r.inFile other) :=
        congrArg (fun es : List Edit => es.any fun e => e.agrees r) hrecorded
      have hnext : s.nextEdit (r.inFile path) = s'.nextEdit (r.inFile other) := by
        simp only [nextEdit, Replacement.inFile, hattempts]
      refine ih _ _ ?_ (by rw [attempts_add, attempts_add, hattempts])
      rw [recorded_add, recorded_add, hrecorded, hcontains, hnext]
      simp only [Replacement.inFile, true_and]
  exact step {} {} rfl rfl

/-- A file has a new text exactly if it is clean. -/
theorem Sound.newText?_eq_some_iff (h : Sound sources s) (hp : path ∈ s.paths)
    (htext : sources path = .ok text) :
    s.newText? path text = some new ↔ s.IsClean path ∧ s.IsNewText sources path new := by
  obtain ⟨text', htext', hfile⟩ := h.splice_file hp
  obtain rfl := Except.ok.inj (htext.symm.trans htext')
  rcases hfile with ⟨hclean, cs, hsplice, hnew⟩ | ⟨hbad, offset, hsplice⟩
  · have hsome : s.newText? path text = some (String.ofList cs) := by
      rw [newText?, hsplice]
      rfl
    rw [hsome, Option.some.injEq]
    constructor
    · rintro rfl
      exact ⟨hclean, hnew⟩
    · rintro ⟨-, text', htext', hlist, -⟩
      obtain ⟨text'', htext'', hlist', -⟩ := hnew
      obtain rfl := Except.ok.inj (htext'.symm.trans htext'')
      exact String.toList_inj.1 (hlist'.trans hlist.symm)
  · have hnone : s.newText? path text = none := by
      rw [newText?, hsplice]
      rfl
    simp [hnone, hbad]

end Script

/-- Scripts whose recordings in a file are reorderings of each other give it the same text. -/
theorem ReordersIn.newText?_eq {sources : Sources} {path text : String}
    {rs₁ rs₂ : List Replacement} {s₁ s₂ : Script} (h : ReordersIn path rs₁ rs₂)
    (h₁ : s₁.Holds rs₁) (h₂ : s₂.Holds rs₂) (hs₁ : s₁.Sound sources) (hs₂ : s₂.Sound sources)
    (hp : path ∈ s₁.paths) (htext : sources path = .ok text) :
    s₁.newText? path text = s₂.newText? path text := by
  have hp₂ := (h.mem_paths_iff h₁ h₂ hs₁ hs₂).1 hp
  have hclean := h.isClean_iff h₁ h₂
  cases hnew₁ : s₁.newText? path text with
  | none =>
    cases hnew₂ : s₂.newText? path text with
    | none => rfl
    | some new₂ =>
      -- a clean file has a new text behind the first script, too
      obtain ⟨hclean₂, -⟩ := (hs₂.newText?_eq_some_iff hp₂ htext).1 hnew₂
      obtain ⟨text', htext', ⟨-, cs, -, hcs⟩ | ⟨hbad, -⟩⟩ := hs₁.splice_file hp
      · rw [(hs₁.newText?_eq_some_iff hp htext).2 ⟨hclean.2 hclean₂, hcs⟩] at hnew₁
        cases hnew₁
      · exact absurd (hclean.2 hclean₂) hbad
  | some new₁ =>
    obtain ⟨hclean₁, hnew₁⟩ := (hs₁.newText?_eq_some_iff hp htext).1 hnew₁
    obtain ⟨text', htext', ⟨hclean₂, cs, -, hcs⟩ | ⟨hbad, -⟩⟩ := hs₂.splice_file hp₂
    · rw [h.newText_eq h₁ h₂ hs₁ hs₂ hclean₁ hnew₁ hcs]
      exact ((hs₂.newText?_eq_some_iff hp₂ htext).2 ⟨hclean₂, hcs⟩).symm
    · exact absurd (hclean.1 hclean₁) hbad

/-! ### Several names as one -/

/-- Keeping some elements of a list does not change which of two of them comes first. -/
theorem idxOf_filter_lt_iff {α : Type} [DecidableEq α] {p : α → Bool} {a b : α} {l : List α}
    (ha : p a = true) (hb : p b = true) :
    (l.filter p).idxOf a < (l.filter p).idxOf b ↔ l.idxOf a < l.idxOf b := by
  induction l with
  | nil => simp
  | cons x rest ih =>
    by_cases hxa : x = a
    · subst hxa
      by_cases hxb : x = b
      · subst hxb
        simp
      · simp [ha, hxb]
    · by_cases hxb : x = b
      · subst hxb
        simp [hb, hxa]
      · cases hx : p x with
        | true => simp [hx, hxa, hxb, ih]
        | false => simp [hx, hxa, hxb, ih]

/-- A file has its replacements in the same order when those of other files are left out. -/
theorem ReordersIn.filter {path : String} {rs : List Replacement} {p : Replacement → Bool}
    (h : ∀ r ∈ rs, r.path = path → p r = true) : ReordersIn path rs (rs.filter p) where
  mem_iff r hpath := by
    rw [List.mem_filter]
    exact ⟨fun hr => ⟨hr, h r hr hpath⟩, And.left⟩
  first_iff q hq r hr hqpath hrpath _ :=
    (idxOf_filter_lt_iff (h q hq hqpath) (h r hr hrpath)).symm

namespace Replacement

variable {leads : String → Bool} {rs : List Replacement}

/-- The replacements in the files with a property, as replacements in a single file. -/
def inOne (leads : String → Bool) (path : String) (rs : List Replacement) : List Replacement :=
  (rs.filter (leads ·.path)).map (·.inFile path)

/-- A text with all replacements that are in the files with a property, applied together, unless
    they overlap. -/
def jointText? (leads : String → Bool) (rs : List Replacement) (text : String) : Option String :=
  (Script.ofReplacements (inOne leads "" rs)).newText? "" text

/-- What is applied together does not depend on the name of the single file. -/
theorem jointText?_eq (leads : String → Bool) (rs : List Replacement) (path text : String) :
    jointText? leads rs text =
      (Script.ofReplacements (inOne leads path rs)).newText? path text := by
  have hedits : (Script.ofReplacements (inOne leads "" rs)).edits "" =
      (Script.ofReplacements (inOne leads path rs)).edits path :=
    congrArg Edit.inOrder (Script.recorded_inFile "" path _)
  rw [jointText?, Script.newText?, Script.newText?, hedits, splice_toOption "" path]

/-- Replacements in one file only stay as they are. -/
theorem inOne_of_forall {path : String} (h : ∀ r ∈ rs, leads r.path = true → r.path = path) :
    inOne leads path rs = rs.filter (leads ·.path) := by
  refine (List.map_congr_left fun r hr => ?_).trans (List.map_id _)
  obtain ⟨hmem, hleads⟩ := List.mem_filter.1 hr
  rw [inFile, ← h r hmem hleads]
  rfl

end Replacement

/-! ### Texts that are written in place -/

namespace SearchPath

/-- Whether a name leads to the file at a location. -/
def leadsTo (search : SearchPath) (t : FileTree) (l : Location) (name : String) : Bool :=
  search.location? t name = some l

/-- The names under which a script has edits of the file at a location, in the order of their first
    edits. -/
def namesOf (search : SearchPath) (t : FileTree) (s : Script) (l : Location) : List String :=
  s.paths.filter (search.leadsTo t l)

/-- Whether the file at a location has all edits that were recorded under the names that lead to it:
    it holds its old text with all of them, applied together. -/
def HasAllEdits (search : SearchPath) (t t' : FileTree) (rs : List Replacement) (l : Location) :
    Prop :=
  ∀ r ∈ rs, search.leadsTo t l r.path = true → ∃ old new, search.sources t r.path = .ok old ∧
    Replacement.jointText? (search.leadsTo t l) rs old = some new ∧
    t'.contents? l = some new.toUTF8

/-- Whether the file at a location holds its old text with the edits recorded under one name. -/
def HasEditsOf (search : SearchPath) (t t' : FileTree) (s : Script) (l : Location) (name : String) :
    Prop :=
  ∃ old new, (∀ n ∈ search.namesOf t s l, search.sources t n = .ok old) ∧
    s.newText? name old = some new ∧ s.IsNewText (search.sources t) name new ∧
    t'.contents? l = some new.toUTF8

/-- What becomes of the file at a location when the texts that a script gives are written in
    place. -/
structure LastWins (search : SearchPath) (t t' : FileTree) (rs : List Replacement) (s : Script)
    (l : Location) : Prop where
  untouched : search.namesOf t s l = [] → t'.contents? l = t.contents? l
  written : ∀ name, (search.namesOf t s l).getLast? = some name →
    search.HasEditsOf t t' s l name
  /-- the file has all edits exactly if they make of it what those under its last name make of it -/
  complete_iff : search.HasAllEdits t t' rs l ↔
    ∀ name, (search.namesOf t s l).getLast? = some name →
      ∀ old, search.sources t name = .ok old →
        Replacement.jointText? (search.leadsTo t l) rs old = s.newText? name old
  /-- so it does if what was recorded under the other names was recorded under the last one, too,
      with what is inserted at one offset in the same order -/
  repeated : ∀ name, (search.namesOf t s l).getLast? = some name →
    ReordersIn name rs (Replacement.inOne (search.leadsTo t l) name rs) →
      search.HasAllEdits t t' rs l
  alone : ∀ name, search.namesOf t s l = [name] → search.HasAllEdits t t' rs l

variable {search : SearchPath} {t t' : FileTree} {rs : List Replacement} {s : Script}
  {texts : List (String × String)} {l : Location} {name old : String} {r : Replacement}

/-- The names of a location are those in the script that lead to it. -/
theorem mem_namesOf : name ∈ search.namesOf t s l ↔
    name ∈ s.paths ∧ search.leadsTo t l name = true :=
  List.mem_filter

section

variable (hsound : s.Sound (search.sources t)) (hholds : s.Holds rs)

include hsound hholds

/-- A replacement that leads to a location gives it one of its names. -/
theorem mem_namesOf_of_leadsTo (hr : r ∈ rs) (hleads : search.leadsTo t l r.path = true) :
    r.path ∈ search.namesOf t s l :=
  mem_namesOf.2 ⟨(hholds.mem_paths_iff hsound).2 ⟨r, hr, rfl⟩, hleads⟩

/-- All edits of a file in the order of those under one name make of it what these make of it. -/
theorem jointText?_of_reordersIn (hname : name ∈ search.namesOf t s l)
    (hold : ∀ n ∈ search.namesOf t s l, search.sources t n = .ok old)
    (h : ReordersIn name rs (Replacement.inOne (search.leadsTo t l) name rs)) :
    Replacement.jointText? (search.leadsTo t l) rs old = s.newText? name old := by
  -- all edits lie inside the one text of the file
  have hfits : ∀ r ∈ Replacement.inOne (search.leadsTo t l) name rs,
      r.Fits (search.sources t) := by
    intro r hr
    obtain ⟨q, hq, rfl⟩ := List.mem_map.1 hr
    obtain ⟨hmem, hleads⟩ := List.mem_filter.1 hq
    obtain ⟨hle, text, htext, hstop⟩ := hholds.fits hsound hmem
    have htext' := hold q.path (mem_namesOf_of_leadsTo hsound hholds hmem hleads)
    obtain rfl := Except.ok.inj (htext.symm.trans htext')
    exact ⟨hle, text, hold name hname, hstop⟩
  rw [Replacement.jointText?_eq _ _ name]
  exact (h.newText?_eq hholds (Script.holds_ofReplacements _) hsound
    (Script.sound_ofReplacements hfits) (mem_namesOf.1 hname).1 (hold name hname)).symm

/-- The edits of a file with one name are those under this name. -/
theorem reordersIn_of_alone (hsingle : search.namesOf t s l = [name]) :
    ReordersIn name rs (Replacement.inOne (search.leadsTo t l) name rs) := by
  have honly : ∀ r ∈ rs, search.leadsTo t l r.path = true → r.path = name := by
    intro r hr hleads
    have hmem := mem_namesOf_of_leadsTo hsound hholds hr hleads
    rw [hsingle] at hmem
    exact List.mem_singleton.1 hmem
  have hleads : search.leadsTo t l name = true :=
    (mem_namesOf.1 (hsingle ▸ List.mem_singleton_self name)).2
  rw [Replacement.inOne_of_forall honly]
  exact .filter fun r _ hpath => hpath ▸ hleads

/-- A file that holds the edits of one name has all edits exactly if these make the same of it. -/
theorem HasEditsOf.hasAllEdits_iff (h : search.HasEditsOf t t' s l name)
    (hname : name ∈ search.namesOf t s l) :
    search.HasAllEdits t t' rs l ↔ ∀ old, search.sources t name = .ok old →
      Replacement.jointText? (search.leadsTo t l) rs old = s.newText? name old := by
  obtain ⟨old, new, hold, hnew, -, hcontents⟩ := h
  constructor
  · intro hall old' hold'
    obtain rfl := Except.ok.inj ((hold name hname).symm.trans hold')
    obtain ⟨hpath, hleads⟩ := mem_namesOf.1 hname
    obtain ⟨r, hr, rfl⟩ := (hholds.mem_paths_iff hsound).1 hpath
    obtain ⟨old', new', hold', hjoint, hcontents'⟩ := hall r hr hleads
    obtain rfl := Except.ok.inj ((hold r.path hname).symm.trans hold')
    rw [hjoint, hnew, String.toByteArray_inj.1 (Option.some.inj (hcontents'.symm.trans hcontents))]
  · intro hjoint r hr hleads
    exact ⟨old, new, hold r.path (mem_namesOf_of_leadsTo hsound hholds hr hleads),
      (hjoint old (hold name hname)).trans hnew, hcontents⟩

end

/-- The texts of a script that are written to a file are those for its names. -/
theorem map_filter_texts (hpaths : texts.map Prod.fst = s.paths) :
    (texts.filter fun r => search.location? t r.1 = some l).map Prod.fst =
      search.namesOf t s l := by
  rw [namesOf, ← hpaths, List.filter_map]
  rfl

/-- Of the texts that are written to a file, the one for its last name stays. -/
theorem hasEditsOf_of_getLast? (hsound : s.Sound (search.sources t))
    (happly : s.apply (search.sources t) = .ok texts)
    (hcontents : t'.contents? l =
      ((texts.filter fun r => search.location? t r.1 = some l).getLast?.map (·.2.toUTF8)).or
        (t.contents? l))
    (hlast : (search.namesOf t s l).getLast? = some name) :
    search.HasEditsOf t t' s l name := by
  obtain ⟨hclean, hpaths, hnew⟩ := hsound.apply_eq_ok happly
  have hname := List.mem_of_getLast? hlast
  rw [← map_filter_texts hpaths, List.getLast?_map, Option.map_eq_some_iff] at hlast
  obtain ⟨⟨name, new⟩, hlast, rfl⟩ := hlast
  have hnew := hnew _ (List.mem_filter.1 (List.mem_of_getLast? hlast)).1
  obtain ⟨old, hold, -⟩ := id hnew
  obtain ⟨hpath, hleads⟩ := mem_namesOf.1 hname
  refine ⟨old, new, fun n hn => ?_, ?_, hnew, by rw [hcontents, hlast]; rfl⟩
  · -- names of one file have one text
    obtain ⟨hn, hleads'⟩ := mem_namesOf.1 hn
    obtain ⟨old', hold', -⟩ := hsound.text hn
    have hl : search.location? t name = search.location? t n :=
      (of_decide_eq_true hleads).trans (of_decide_eq_true hleads').symm
    rw [hold', sources_congr hold hl hold']
  · exact (hsound.newText?_eq_some_iff hpath hold).2 ⟨hclean name hpath, hnew⟩

/-- **Writing in place.** When the texts that a script gives are written one after the other to the
    files that their names are found at, each file gets the edits of the last one of its names. -/
theorem lastWins_of_written (hsound : s.Sound (search.sources t)) (hholds : s.Holds rs)
    (happly : s.apply (search.sources t) = .ok texts)
    (hcontents : t'.contents? l =
      ((texts.filter fun r => search.location? t r.1 = some l).getLast?.map (·.2.toUTF8)).or
        (t.contents? l)) : search.LastWins t t' rs s l := by
  have hwritten : ∀ name, (search.namesOf t s l).getLast? = some name →
      search.HasEditsOf t t' s l name :=
    fun _ hlast => hasEditsOf_of_getLast? hsound happly hcontents hlast
  have hrepeated : ∀ name, (search.namesOf t s l).getLast? = some name →
      ReordersIn name rs (Replacement.inOne (search.leadsTo t l) name rs) →
        search.HasAllEdits t t' rs l := by
    intro name hlast hreorders
    have hname := List.mem_of_getLast? hlast
    refine ((hwritten name hlast).hasAllEdits_iff hsound hholds hname).2 fun old hold => ?_
    obtain ⟨old', -, hsame, -⟩ := hwritten name hlast
    obtain rfl := Except.ok.inj (hold.symm.trans (hsame name hname))
    exact jointText?_of_reordersIn hsound hholds hname hsame hreorders
  refine ⟨fun hnone => ?_, hwritten, ?_, hrepeated, fun name hsingle => ?_⟩
  · obtain ⟨-, hpaths, -⟩ := hsound.apply_eq_ok happly
    rw [← map_filter_texts hpaths, List.map_eq_nil_iff] at hnone
    rw [hcontents, hnone]
    rfl
  · cases hlast : (search.namesOf t s l).getLast? with
    | none =>
      -- a file without names has all of no edits
      refine iff_of_true (fun r hr hleads => ?_) (by simp)
      have hmem := mem_namesOf_of_leadsTo hsound hholds hr hleads
      rw [List.getLast?_eq_none_iff.1 hlast] at hmem
      cases hmem
    | some name =>
      rw [(hwritten name hlast).hasAllEdits_iff hsound hholds (List.mem_of_getLast? hlast)]
      simp
  · exact hrepeated name (by rw [hsingle, List.getLast?_singleton])
      (reordersIn_of_alone hsound hholds hsingle)

end SearchPath

namespace Cli

/-- **Writing in place may lose edits.** A command that is to write in place and ends with the exit
    code 0 lists the transformations or answers a query, and then nothing is written; or it has a
    candidate whose changes are all recorded, and then

    * a file to which no name with edits leads stays as it was;
    * any other file holds its old text with the edits recorded under the last one of its names, in
      the order of first edits, and nothing of those under the others;
    * so it has the edits under all of its names, applied together, exactly if they make of its old
      text what those under the last name make of it: always if it has one name with edits, or if
      what was recorded under the others was recorded under the last one, too. -/
theorem run_overwriting {w : World} {clock : String} {args : List String} {q : Request}
    (hparse : parse args = .ok q) (hplace : q.inPlace = true)
    (hexit : (run w clock args).exit = .ok 0) :
    let w' := (run w clock args).session.world
    (q.listTransformations = true ∧ w' = w) ∨
      ∃ input job r, q.dump = some input ∧ (q.attempt w input).2 = .ok (job, r) ∧
        let after := (q.attempt w input).1
        let sources := job.search.sources after.tree
        (q.isQuery = true ∧ w' = after) ∨
          ∃ d ∈ (job.program.collect {}).table.candidates, r.target = some d ∧
            (job.program.performPlan sources d).fault = none ∧
            let rs := job.program.replacements sources (job.program.plan d).items
            let s := (job.program.performPlan sources d).script
            s.Holds rs ∧ ∀ l, job.search.LastWins after.tree w'.tree rs s l := by
  intro w'
  cases hlist : q.listTransformations with
  | true =>
    refine .inl ⟨rfl, ?_⟩
    show (run w clock args).session.world = w
    simp only [run, hparse, Session.answer, hlist, if_true]
    rfl
  | false =>
    refine .inr ?_
    cases hdump : q.dump with
    | none =>
      simp [run, hparse, Session.answer, hlist, hdump, Session.exit] at hexit
    | some input =>
      obtain ⟨job, r, hr⟩ := exists_result_of_exit hparse hlist hdump hexit (by decide)
      refine ⟨input, job, r, rfl, hr, ?_⟩
      have haccounts := accounts_run hparse hlist hdump hr hexit
      cases hquery : q.isQuery with
      | true => exact .inl ⟨rfl, haccounts.untouched (.inr hquery)⟩
      | false =>
        refine .inr ?_
        obtain ⟨-, hresult⟩ := attempt_eq_ok hr
        rw [Request.resultOf, hquery] at hresult
        obtain ⟨-, ⟨-, d, hd, htarget, hfault, happly⟩ | ⟨hstatus, -⟩⟩ :=
          Program.reduce_run_result hresult
        · obtain ⟨-, hwritten⟩ := haccounts.inPlace rfl hquery hplace
          obtain ⟨hholds, -⟩ := Program.performPlan_holds hfault
          exact ⟨d, hd, htarget, hfault, hholds, fun l => SearchPath.lastWins_of_written
            (Program.performPlan_sound hfault) hholds happly (hwritten.contents l)⟩
        · rcases haccounts.success.1 rfl with hq | ⟨hok, -⟩
          · cases hquery.symm.trans hq
          · exact absurd hok hstatus

/-- The one file of a program has all of its edits. -/
theorem run_overwriting_besideDump :
    ∃ q job r d, parse ["d", "--in-place"] = .ok q ∧
      (q.attempt besideDump "d").2 = .ok (job, r) ∧ r.target = some d ∧
      job.search.HasAllEdits (q.attempt besideDump "d").1.tree
        (run besideDump "" ["d", "--in-place"]).session.world.tree
        (job.program.replacements (job.search.sources (q.attempt besideDump "d").1.tree)
          (job.program.plan d).items) ["w", "a.c"] ∧
      (run besideDump "" ["d", "--in-place"]).session.world.tree.contents? ["w", "a.c"] =
        some "int p;".toUTF8 := by
  let q : Request := { dump := some "d", inPlace := true }
  have hparse : parse ["d", "--in-place"] = .ok q := rfl
  have hexit : (run besideDump "" ["d", "--in-place"]).exit = .ok 0 := by decide +kernel
  have hnames : (q.attempt besideDump "d").2.toOption.bind (fun jr => jr.2.target.map fun d =>
      let tree := (q.attempt besideDump "d").1.tree
      jr.1.search.namesOf tree (jr.1.program.performPlan (jr.1.search.sources tree) d).script
        ["w", "a.c"]) = some ["a.c"] := by decide +kernel
  have hcontents : (run besideDump "" ["d", "--in-place"]).session.world.tree.contents?
      ["w", "a.c"] = some "int p;".toUTF8 := by decide +kernel
  rcases run_overwriting hparse rfl hexit with ⟨hlist, -⟩ | ⟨input, job, r, hdump, hr, hrest⟩
  · cases hlist
  · obtain rfl := Option.some.inj hdump
    rcases hrest with ⟨hquery, -⟩ | ⟨d, -, htarget, -, -, hlast⟩
    · cases hquery
    · simp only [hr, htarget, Except.toOption, Option.bind_some, Option.map_some,
        Option.some.injEq] at hnames
      exact ⟨q, job, r, d, hparse, hr, htarget, (hlast ["w", "a.c"]).alone "a.c" hnames, hcontents⟩

/-- The tokens of a file with the text `int *p;` on two lines that is included twice: the first line
    with the name `p.h`, the second one with the name `inc/p.h`. -/
def twiceIncluded : Program where
  tokens := #[{ text := "int", file := "p.h", line := 1, column := 1 },
    { text := "*", file := "p.h", line := 1, column := 5 },
    { text := "p", file := "p.h", line := 1, column := 6, varId := 1, var := some 0,
      isName := true },
    { text := ";", file := "p.h", line := 1, column := 7 },
    { text := "int", file := "inc/p.h", line := 2, column := 1 },
    { text := "*", file := "inc/p.h", line := 2, column := 5 },
    { text := "p", file := "inc/p.h", line := 2, column := 6, varId := 1, var := some 0,
      isName := true },
    { text := ";", file := "inc/p.h", line := 2, column := 7 }]
  vars := #[{ nameToken := some 2, typeStart := some 0 }]

/-- The dump of this program, and the file. -/
def twoNames : World where
  tree := { base := ["w"], dirs := [["w", "inc"]], files := [(["w", "d"], "".toUTF8),
    (["w", "inc", "p.h"], "int *p;\nint *p;\n".toUTF8)] }
  dumps := [("d", .ok [{ label := .missing, program := twiceIncluded }])]

/-- The edit of the first line is lost when the text with that of the second one is written. -/
theorem twoNames_edit_lost :
    let args := ["d", "--source-root", "inc", "--in-place"]
    ∃ q job r d, parse args = .ok q ∧ q.inPlace = true ∧
      (q.attempt twoNames "d").2 = .ok (job, r) ∧ r.target = some d ∧
      (run twoNames "" args).exit = .ok 0 ∧
      ¬ job.search.HasAllEdits (q.attempt twoNames "d").1.tree
        (run twoNames "" args).session.world.tree
        (job.program.replacements (job.search.sources (q.attempt twoNames "d").1.tree)
          (job.program.plan d).items) ["w", "inc", "p.h"] := by
  intro args
  let q : Request := { dump := some "d", sourceRoots := [some "inc"], inPlace := true }
  have hparse : parse args = .ok q := rfl
  have hexit : (run twoNames "" args).exit = .ok 0 := by decide +kernel
  let l : Location := ["w", "inc", "p.h"]
  have hcontents : (run twoNames "" args).session.world.tree.contents? l =
      some "int *p;\nint p;\n".toUTF8 := by decide +kernel
  -- the text with both edits has no star
  have hjoint : (q.attempt twoNames "d").2.toOption.bind (fun jr => jr.2.target.map fun d =>
      let tree := (q.attempt twoNames "d").1.tree
      let sources := jr.1.search.sources tree
      let rs := jr.1.program.replacements sources (jr.1.program.plan d).items
      (rs.any fun r => jr.1.search.leadsTo tree l r.path &&
          (sources r.path).toOption = some "int *p;\nint *p;\n",
        Replacement.jointText? (jr.1.search.leadsTo tree l) rs "int *p;\nint *p;\n")) =
      some (true, some "int p;\nint p;\n") := by decide +kernel
  cases hr : (q.attempt twoNames "d").2 with
  | error f => simp [hr, Except.toOption] at hjoint
  | ok jr =>
    obtain ⟨job, r⟩ := jr
    obtain ⟨d, htarget⟩ : ∃ d, r.target = some d := by
      cases htarget : r.target with
      | none => simp [hr, htarget, Except.toOption] at hjoint
      | some d => exact ⟨d, rfl⟩
    simp only [hr, htarget, Except.toOption, Option.bind_some, Option.map_some, Option.some.injEq,
      Prod.mk.injEq, List.any_eq_true, Bool.and_eq_true] at hjoint
    obtain ⟨⟨e, he, hleads, hold⟩, hjoint⟩ := hjoint
    refine ⟨q, job, r, d, hparse, rfl, hr, htarget, hexit, fun hall => ?_⟩
    obtain ⟨old, new, hsources, hnew, hcontents'⟩ := hall e he hleads
    rw [hsources] at hold
    obtain rfl : old = "int *p;\nint *p;\n" := Option.some.inj (of_decide_eq_true hold)
    obtain rfl := Option.some.inj (hnew.symm.trans hjoint)
    have hne : "int *p;\nint p;\n" = "int p;\nint p;\n" :=
      String.toByteArray_inj.1 (Option.some.inj (hcontents.symm.trans hcontents'))
    exact absurd hne (by decide)

end Cli

end Indirection
