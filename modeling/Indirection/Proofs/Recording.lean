import Indirection.Proofs.Anchoring

/-!
# Scripts that recordings build

A script is built by recording one change after the other. Main definitions:

* `Script.recordAll` — records a list of changes, each of tokens of some program;
* `Script.Sound` — what holds of every script that is built like this: its edits lie inside their
  files and are numbered in the order of their recording, and its files are those with an edit, in
  the order of their first one;
* `Sound.add`, `Sound.change`, `Sound.recordAll` — a replacement, a change and a list of changes
  keep it;
* `Script.Holds` — a script has the edits of a list of replacements, each with the number of its
  first recording; `Holds.add` and `Holds.foldl_add` add to the list.

`recorded_add` and `paths_add` say what a recording does to the two views `recorded` and `paths` of
a script; behind them nothing looks at the list of files again.
-/

namespace Indirection

/-- What an edit of the file `path` does. -/
def Edit.replacement (path : String) (e : Edit) : Replacement := ⟨path, e.start, e.stop, e.text⟩

namespace Script

/-! ### What a recording does -/

/-- An edit put behind those of its file changes no other file. -/
theorem lookup_append (path : String) (e : Edit) (files : List (String × List Edit)) (p : String) :
    (append path e files).lookup p =
      if p = path then some ((files.lookup path).getD [] ++ [e]) else files.lookup p := by
  induction files with
  | nil =>
    by_cases hp : p = path
    · simp [append, hp]
    · have hb : (p == path) = false := beq_eq_false_iff_ne.2 hp
      simp [append, hp, hb, List.lookup_cons]
  | cons f rest ih =>
    obtain ⟨q, es⟩ := f
    unfold append
    by_cases hq : q = path
    · subst hq
      by_cases hp : p = q
      · simp [hp]
      · have hb : (p == q) = false := beq_eq_false_iff_ne.2 hp
        simp [List.lookup_cons, hp, hb]
    · have hqb : (path == q) = false := beq_eq_false_iff_ne.2 (fun h => hq h.symm)
      by_cases hp : p = q
      · subst hp
        simp [hq]
      · have hb : (p == q) = false := beq_eq_false_iff_ne.2 hp
        simp only [hq, if_false, List.lookup_cons, hb, hqb, ih]

/-- A file gets into the list of files with its first edit, behind those that are there. -/
theorem map_fst_append (path : String) (e : Edit) (files : List (String × List Edit)) :
    (append path e files).map Prod.fst =
      if path ∈ files.map Prod.fst then files.map Prod.fst else files.map Prod.fst ++ [path] := by
  induction files with
  | nil => simp [append]
  | cons f rest ih =>
    obtain ⟨q, es⟩ := f
    unfold append
    by_cases hq : q = path
    · simp [hq]
    · have hq' : ¬ path = q := fun h => hq h.symm
      simp only [hq, if_false, List.map_cons, ih, List.mem_cons, hq', false_or]
      split <;> simp

/-- The edit that a recording makes of a replacement. -/
def nextEdit (s : Script) (r : Replacement) : Edit := ⟨r.start, r.stop, r.text, s.attempts + 1⟩

/-- A recording that is not there already comes behind the edits of its file. -/
theorem recorded_add (s : Script) (r : Replacement) (p : String) :
    (s.add r).recorded p =
      if p = r.path ∧ s.contains r = false then s.recorded p ++ [s.nextEdit r]
      else s.recorded p := by
  unfold add
  by_cases hc : s.contains r = true
  · simp [hc, recorded]
  · simp only [hc, recorded]
    by_cases hp : p = r.path
    · subst hp
      simp [lookup_append, nextEdit]
    · simp [lookup_append, hp]

/-- Adding a replacement counts one attempt. -/
theorem attempts_add (s : Script) (r : Replacement) : (s.add r).attempts = s.attempts + 1 := by
  unfold add
  split <;> rfl

/-- Only a file of the list has edits. -/
theorem mem_paths_of_mem_recorded {s : Script} {p : String} {e : Edit} (h : e ∈ s.recorded p) :
    p ∈ s.paths := by
  obtain ⟨attempts, files⟩ := s
  simp only [recorded, paths] at h ⊢
  induction files with
  | nil => simp at h
  | cons f rest ih =>
    rw [List.lookup_cons] at h
    by_cases hp : p = f.1
    · simp [hp]
    · have hb : (p == f.1) = false := by simpa using hp
      simp only [hb] at h
      exact List.mem_cons_of_mem _ (ih h)

/-- A recording adds its file to the list, unless it is there. -/
theorem paths_add (s : Script) (r : Replacement) :
    (s.add r).paths = if r.path ∈ s.paths then s.paths else s.paths ++ [r.path] := by
  unfold add
  by_cases hc : s.contains r = true
  · -- what is recorded already is recorded for a file of the list
    have hmem : r.path ∈ s.paths := by
      obtain ⟨e, he, -⟩ := List.any_eq_true.1 hc
      exact mem_paths_of_mem_recorded he
    rw [if_pos hc, if_pos hmem]
    rfl
  · rw [if_neg hc]
    exact map_fst_append r.path _ s.files

/-! ### What every recording keeps -/

/-- The edits of a script lie inside their files and are numbered as they were recorded, and the
    script lists the files with an edit, each once, in the order of their first edit. -/
structure Sound (sources : Sources) (s : Script) : Prop where
  /-- each edit replaces a stretch of its file -/
  fits : ∀ p, ∀ e ∈ s.recorded p, Replacement.Fits sources ⟨p, e.start, e.stop, e.text⟩
  /-- no edit has a number that is still to come -/
  counted : ∀ p, ∀ e ∈ s.recorded p, e.seq ≤ s.attempts
  /-- the numbers of a file's edits increase -/
  numbered : ∀ p, (s.recorded p).Pairwise (·.seq < ·.seq)
  /-- each file of the list has an edit -/
  edited : ∀ p ∈ s.paths, s.recorded p ≠ []
  nodup : s.paths.Nodup
  /-- a file comes before another one when some edit of it is older than all of the other's -/
  ordered : s.paths.Pairwise fun p q => ∃ e ∈ s.recorded p, ∀ f ∈ s.recorded q, e.seq < f.seq

/-- The script that records nothing yet. -/
theorem Sound.empty (sources : Sources) : Sound sources {} where
  fits := by simp [recorded]
  counted := by simp [recorded]
  numbered := by simp [recorded]
  edited := by simp [paths]
  nodup := by simp [paths]
  ordered := by simp [paths]

variable {sources : Sources} {s : Script}

/-- An edit behind a recording is the one recorded or was there before. -/
theorem mem_recorded_add {r : Replacement} {p : String} {e : Edit}
    (h : e ∈ (s.add r).recorded p) :
    e ∈ s.recorded p ∨ (p = r.path ∧ e = s.nextEdit r) := by
  rw [recorded_add] at h
  split at h
  · rename_i hr
    rcases List.mem_append.1 h with h | h
    · exact .inl h
    · exact .inr ⟨hr.1, List.mem_singleton.1 h⟩
  · exact .inl h

/-- No recorded edit is dropped. -/
theorem mem_recorded_add_of_mem {r : Replacement} {p : String} {e : Edit}
    (h : e ∈ s.recorded p) : e ∈ (s.add r).recorded p := by
  rw [recorded_add]
  split
  · exact List.mem_append_left _ h
  · exact h

/-- The file of a recording has an edit behind it. -/
theorem recorded_add_ne_nil (r : Replacement) : (s.add r).recorded r.path ≠ [] := by
  rw [recorded_add]
  by_cases hc : s.contains r = true
  · obtain ⟨e, he, -⟩ := List.any_eq_true.1 hc
    simpa [hc] using List.ne_nil_of_mem he
  · simp [hc]

/-- Recording a replacement that fits into its file keeps a script sound. -/
theorem Sound.add (h : Sound sources s) {r : Replacement} (hr : r.Fits sources) :
    Sound sources (s.add r) where
  fits := by
    intro p e he
    rcases mem_recorded_add he with he | ⟨rfl, rfl⟩
    · exact h.fits p e he
    · exact hr
  counted := by
    intro p e he
    rw [attempts_add]
    rcases mem_recorded_add he with he | ⟨rfl, rfl⟩
    · have := h.counted p e he
      omega
    · exact Nat.le_refl _
  numbered := by
    intro p
    rw [recorded_add]
    split
    · rw [List.pairwise_append]
      refine ⟨h.numbered p, List.pairwise_singleton _ _, ?_⟩
      intro e he f hf
      obtain rfl := List.mem_singleton.1 hf
      exact Nat.lt_succ_of_le (h.counted p e he)
    · exact h.numbered p
  edited := by
    intro p hp
    by_cases heq : p = r.path
    · subst heq
      exact recorded_add_ne_nil r
    · rw [recorded_add, if_neg (fun hc => heq hc.1)]
      refine h.edited p ?_
      rw [paths_add] at hp
      split at hp
      · exact hp
      · simpa [heq] using hp
  nodup := by
    rw [paths_add]
    split
    · exact h.nodup
    · rename_i hnew
      rw [List.nodup_append]
      exact ⟨h.nodup, by simp, by rintro a ha b hb rfl; exact hnew (List.mem_singleton.1 hb ▸ ha)⟩
  ordered := by
    -- a pair in the old list keeps its oldest edit: what is added has the largest number
    have keep : s.paths.Pairwise fun p q =>
        ∃ e ∈ (s.add r).recorded p, ∀ f ∈ (s.add r).recorded q, e.seq < f.seq := by
      refine h.ordered.imp ?_
      rintro p q ⟨e, he, hlt⟩
      refine ⟨e, mem_recorded_add_of_mem he, ?_⟩
      intro f hf
      rcases mem_recorded_add hf with hf | ⟨-, rfl⟩
      · exact hlt f hf
      · exact Nat.lt_succ_of_le (h.counted p e he)
    rw [paths_add]
    split
    · exact keep
    · -- a new file comes last: its only edit is younger than all others
      rename_i hnew
      rw [List.pairwise_append]
      refine ⟨keep, List.pairwise_singleton _ _, ?_⟩
      intro p hp q hq
      obtain rfl := List.mem_singleton.1 hq
      obtain ⟨e, he⟩ := List.exists_mem_of_ne_nil _ (h.edited p hp)
      refine ⟨e, mem_recorded_add_of_mem he, ?_⟩
      intro f hf
      rcases mem_recorded_add hf with hf | ⟨-, rfl⟩
      · exact absurd (mem_paths_of_mem_recorded hf) hnew
      · exact Nat.lt_succ_of_le (h.counted p e he)

/-- Recording a change is recording the replacement behind it. -/
theorem change_eq_ok {s' : Script} {u : Program} {c : Change}
    (h : s.change u sources c = .ok s') : ∃ r, u.place? sources c = .ok r ∧ s' = s.add r := by
  simp only [Script.change, bind, Except.bind] at h
  split at h
  · cases h
  · rename_i r hr
    exact ⟨r, hr, (Except.ok.inj h).symm⟩

/-- Recording a change keeps a script sound. -/
theorem Sound.change (h : Sound sources s) {s' : Script} {u : Program} {c : Change}
    (hc : s.change u sources c = .ok s') : Sound sources s' := by
  obtain ⟨r, hr, rfl⟩ := change_eq_ok hc
  exact h.add (place?_fits hr)

/-! ### Lists of changes -/

/-- Records changes one after the other, each of tokens of some program. The first one whose tokens
    are not found ends it. -/
def recordAll (sources : Sources) : Script → List (Program × Change) → Except Fault Script
  | s, [] => .ok s
  | s, (u, c) :: rest =>
    match s.change u sources c with
    | .ok s => recordAll sources s rest
    | .error f => .error f

/-- Every script that recordings build is sound. -/
theorem Sound.recordAll (h : Sound sources s) {changes : List (Program × Change)} {s' : Script}
    (hr : s.recordAll sources changes = .ok s') : Sound sources s' := by
  induction changes generalizing s with
  | nil =>
    obtain rfl := Except.ok.inj hr
    exact h
  | cons uc rest ih =>
    simp only [Script.recordAll] at hr
    split at hr
    · rename_i s₁ hs₁
      exact ih (h.change hs₁) hr
    · simp at hr

/-- Files stay in the list of files. -/
theorem paths_subset_recordAll {changes : List (Program × Change)} {s' : Script}
    (h : s.recordAll sources changes = .ok s') : s.paths ⊆ s'.paths := by
  induction changes generalizing s with
  | nil =>
    obtain rfl := Except.ok.inj h
    exact List.Subset.refl _
  | cons uc rest ih =>
    simp only [Script.recordAll] at h
    split at h
    · rename_i s₁ hs₁
      obtain ⟨r, -, rfl⟩ := change_eq_ok hs₁
      have hadd : s.paths ⊆ (s.add r).paths := by
        rw [paths_add]
        split
        · exact List.Subset.refl _
        · exact List.subset_append_left _ _
      exact List.Subset.trans hadd (ih h)
    · cases h

/-- Recording anything at all leaves a file with an edit. -/
theorem paths_ne_nil_of_recordAll {changes : List (Program × Change)} {s' : Script}
    (h : s.recordAll sources changes = .ok s') (hne : changes ≠ []) : s'.paths ≠ [] := by
  cases changes with
  | nil => exact absurd rfl hne
  | cons uc rest =>
    simp only [Script.recordAll] at h
    split at h
    · rename_i s₁ hs₁
      obtain ⟨r, -, rfl⟩ := change_eq_ok hs₁
      obtain ⟨e, he⟩ := List.exists_mem_of_ne_nil _ (recorded_add_ne_nil (s := s) r)
      exact List.ne_nil_of_mem (paths_subset_recordAll h (mem_paths_of_mem_recorded he))
    · cases h

/-! ### Edits by the number of their recording -/

/-- Whether a script holds the replacements `rs`, recorded in this order: each once, with the number
    of its first recording. -/
structure Holds (s : Script) (rs : List Replacement) : Prop where
  attempts : s.attempts = rs.length
  mem_recorded : ∀ path e, e ∈ s.recorded path ↔
    e.replacement path ∈ rs ∧ e.seq = rs.idxOf (e.replacement path) + 1

/-- The empty script holds no replacement. -/
theorem Holds.empty : Holds {} [] where
  attempts := rfl
  mem_recorded := by simp [recorded]

/-- An edit agrees with a replacement of its file when it is that replacement. -/
theorem agrees_iff {path : String} {e : Edit} {r : Replacement} (h : path = r.path) :
    e.agrees r = true ↔ e.replacement path = r := by
  obtain ⟨rpath, start, stop, text⟩ := r
  obtain rfl : path = rpath := h
  simp [Edit.agrees, Edit.replacement, and_assoc]

/-- Edits of a file are told by what they do. -/
theorem Holds.eq_of_replacement_eq {s : Script} {rs : List Replacement} (h : s.Holds rs)
    {path : String} {e f : Edit} (he : e ∈ s.recorded path) (hf : f ∈ s.recorded path)
    (heq : e.replacement path = f.replacement path) : e = f := by
  have hseq : e.seq = f.seq := by
    rw [((h.mem_recorded path e).1 he).2, ((h.mem_recorded path f).1 hf).2, heq]
  obtain ⟨start, stop, text, seq⟩ := e
  obtain ⟨start', stop', text', seq'⟩ := f
  simp only [Edit.replacement, Replacement.mk.injEq] at heq
  simp only at hseq
  rw [heq.2.1, heq.2.2.1, heq.2.2.2, hseq]

/-- A script has the replacements that were recorded. -/
theorem Holds.contains_iff {s : Script} {rs : List Replacement} (h : s.Holds rs)
    (r : Replacement) : s.contains r = true ↔ r ∈ rs := by
  rw [contains, List.any_eq_true]
  constructor
  · rintro ⟨e, he, hagrees⟩
    rw [agrees_iff rfl] at hagrees
    exact hagrees ▸ ((h.mem_recorded _ _).1 he).1
  · intro hr
    exact ⟨⟨r.start, r.stop, r.text, rs.idxOf r + 1⟩, (h.mem_recorded _ _).2 ⟨hr, rfl⟩,
      (agrees_iff rfl).2 rfl⟩

/-- The edit that is added next is the replacement that is added. -/
theorem replacement_nextEdit (s : Script) (r : Replacement) :
    (s.nextEdit r).replacement r.path = r := rfl

/-- A recording adds its replacement behind the others; a repetition is only counted. -/
theorem Holds.add {s : Script} {rs : List Replacement} (h : s.Holds rs) (r : Replacement) :
    (s.add r).Holds (rs ++ [r]) where
  attempts := by rw [attempts_add, h.attempts, List.length_append, List.length_singleton]
  mem_recorded := by
    intro path e
    rw [recorded_add, List.mem_append, List.mem_singleton, List.idxOf_append]
    by_cases hmem : e.replacement path ∈ rs
    · -- the number of an edit that was there is not changed
      rw [if_pos hmem]
      have hold : e ∈ s.recorded path ↔ e.seq = rs.idxOf (e.replacement path) + 1 := by
        rw [h.mem_recorded, and_iff_right hmem]
      split
      · rename_i hnew
        have hne : e ≠ s.nextEdit r := by
          rintro rfl
          rw [hnew.1, replacement_nextEdit, ← h.contains_iff, hnew.2] at hmem
          cases hmem
        rw [List.mem_append, List.mem_singleton, or_iff_left hne, hold]
        simp [hmem]
      · rw [hold]
        simp [hmem]
    · rw [if_neg hmem]
      have hold : e ∉ s.recorded path := fun he => hmem ((h.mem_recorded _ _).1 he).1
      by_cases heq : e.replacement path = r
      · -- what is recorded now has the next number
        have hpath : path = r.path := congrArg Replacement.path heq
        have hnew : s.contains r = false := by
          rw [← heq, Bool.eq_false_iff, ne_eq, h.contains_iff]
          exact hmem
        rw [if_pos ⟨hpath, hnew⟩, List.mem_append, List.mem_singleton, or_iff_right hold, heq]
        have hnext : e = s.nextEdit r ↔ e.seq = s.attempts + 1 := by
          constructor
          · rintro rfl
            rfl
          · intro hseq
            obtain ⟨start, stop, text, seq⟩ := e
            subst heq hseq
            rfl
        rw [hnext, h.attempts]
        simp
      · constructor
        · intro he
          split at he
          · rename_i hpath
            rcases List.mem_append.1 he with he | he
            · exact absurd he hold
            · obtain rfl := List.mem_singleton.1 he
              exact absurd (by rw [hpath.1, replacement_nextEdit]) heq
          · exact absurd he hold
        · rintro ⟨hin, -⟩
          exact absurd hin (by simp [hmem, heq])

/-- What a list of recordings adds to a script. -/
theorem Holds.foldl_add {s : Script} {rs : List Replacement} (h : s.Holds rs)
    (more : List Replacement) : (more.foldl Script.add s).Holds (rs ++ more) := by
  induction more generalizing s rs with
  | nil => simpa using h
  | cons r rest ih => simpa using ih (h.add r)

end Script

end Indirection
