import Indirection.Proofs.Attempting
import Mathlib.Data.List.Sort

/-!
# The order of recordings

Edits apply by their offsets, and only those of one stretch by their numbers. Main definitions:

* `Reorders` — two lists have the same replacements, and what they insert at one offset of a file
  comes first in the same order in both; `ReordersIn` — they do so for one file;
* `Repeats` — a list is another one with repetitions of what stands before them;
* `Script.SameOutcome` — two scripts give the same texts, or both of them fail.

Main statements: `Holds.pairwise_edits` — the order in which edits apply, in terms of first
recordings; `ReordersIn.edits_eq` — so a file without clashes has the same edits in the same order
behind a reordering; `Reorders.sameOutcome` — and all files have the same texts; `apply_reordered` —
the same for all scripts that attempts build, with two ways to reorder them.
-/

namespace Indirection

/-! ### Reorderings -/

/-- Whether two replacements insert something at one offset of a file. -/
def Replacement.SharesOffset (q r : Replacement) : Prop :=
  q.path = r.path ∧ q.start = r.start ∧ q.stop = q.start ∧ r.stop = r.start

instance (q r : Replacement) : Decidable (q.SharesOffset r) := inferInstanceAs (Decidable (_ ∧ _))

/-- Whether two lists have the same replacements, and what is inserted at one offset comes first in
    the same order in both. -/
structure Reorders (rs rs' : List Replacement) : Prop where
  mem_iff : ∀ r, r ∈ rs ↔ r ∈ rs'
  first_iff : ∀ q ∈ rs, ∀ r ∈ rs, q.SharesOffset r →
    (rs.idxOf q < rs.idxOf r ↔ rs'.idxOf q < rs'.idxOf r)

/-- Whether two lists have the same replacements in a file, and what is inserted at one offset of it
    comes first in the same order in both. -/
structure ReordersIn (path : String) (rs rs' : List Replacement) : Prop where
  mem_iff : ∀ r, r.path = path → (r ∈ rs ↔ r ∈ rs')
  first_iff : ∀ q ∈ rs, ∀ r ∈ rs, q.path = path → r.path = path → q.SharesOffset r →
    (rs.idxOf q < rs.idxOf r ↔ rs'.idxOf q < rs'.idxOf r)

/-- What is reordered is reordered in each file. -/
theorem Reorders.reordersIn {rs rs' : List Replacement} (h : Reorders rs rs') (path : String) :
    ReordersIn path rs rs' where
  mem_iff r _ := h.mem_iff r
  first_iff q hq r hr _ _ hshare := h.first_iff q hq r hr hshare

namespace Reorders

variable {rs rs' rs'' : List Replacement}

/-- Leaving replacements as they are reorders them. -/
theorem refl (rs : List Replacement) : Reorders rs rs where
  mem_iff _ := Iff.rfl
  first_iff _ _ _ _ _ := Iff.rfl

/-- Reordering twice is reordering. -/
theorem trans (h : Reorders rs rs') (h' : Reorders rs' rs'') : Reorders rs rs'' where
  mem_iff r := (h.mem_iff r).trans (h'.mem_iff r)
  first_iff q hq r hr hshare := (h.first_iff q hq r hr hshare).trans
    (h'.first_iff q ((h.mem_iff q).1 hq) r ((h.mem_iff r).1 hr) hshare)

/-- Lists of the same replacements are reorderings when nothing different is inserted at one
    offset. -/
theorem of_eq_of_sharesOffset (hmem : ∀ r, r ∈ rs ↔ r ∈ rs')
    (h : ∀ q ∈ rs, ∀ r ∈ rs, q.SharesOffset r → q = r) : Reorders rs rs' where
  mem_iff := hmem
  first_iff q hq r hr hshare := by
    rw [h q hq r hr hshare]
    exact iff_of_false (lt_irrefl _) (lt_irrefl _)

/-- A repetition does not change what comes first. -/
theorem of_mem {before : List Replacement} {r : Replacement} (hr : r ∈ before)
    (after : List Replacement) : Reorders (before ++ after) (before ++ r :: after) where
  mem_iff q := by
    by_cases hq : q = r
    · simp [hq, hr]
    · simp [hq]
  first_iff p _ q _ _ := by
    -- places inside of `before` stay, and all others get greater by one
    have hin (q : Replacement) (hq : q ∈ before) (rest : List Replacement) :
        (before ++ rest).idxOf q = before.idxOf q ∧ before.idxOf q < before.length :=
      ⟨by rw [List.idxOf_append, if_pos hq], List.idxOf_lt_length_of_mem hq⟩
    have hout (q : Replacement) (hq : q ∉ before) :
        (before ++ after).idxOf q = before.length + after.idxOf q ∧
          (before ++ r :: after).idxOf q = before.length + after.idxOf q + 1 := by
      have hne : r ≠ q := by
        rintro rfl
        exact hq hr
      rw [List.idxOf_append_of_notMem hq, List.idxOf_append_of_notMem hq,
        List.idxOf_cons_ne _ hne]
      exact ⟨rfl, rfl⟩
    by_cases hp : p ∈ before
    · obtain ⟨hp₁, hlt⟩ := hin p hp after
      obtain ⟨hp₂, -⟩ := hin p hp (r :: after)
      by_cases hq : q ∈ before
      · rw [hp₁, hp₂, (hin q hq after).1, (hin q hq (r :: after)).1]
      · rw [hp₁, hp₂, (hout q hq).1, (hout q hq).2]
        omega
    · by_cases hq : q ∈ before
      · obtain ⟨hq₁, hlt⟩ := hin q hq after
        obtain ⟨hq₂, -⟩ := hin q hq (r :: after)
        rw [hq₁, hq₂, (hout p hp).1, (hout p hp).2]
        omega
      · rw [(hout p hp).1, (hout p hp).2, (hout q hq).1, (hout q hq).2]
        omega

end Reorders

/-- Whether a list is another one with repetitions in it, each of something before it. -/
inductive Repeats {α : Type} (l : List α) : List α → Prop
  | refl : Repeats l l
  | again {before after : List α} {a : α} :
    Repeats l (before ++ after) → a ∈ before → Repeats l (before ++ a :: after)

/-! ### Edits in terms of first recordings -/

/-- The order in which replacements apply that a list of recordings has: by start, by end, and then
    by first recording. -/
def Replacement.Precedes (rs : List Replacement) (q r : Replacement) : Prop :=
  q.start < r.start ∨
    (q.start = r.start ∧ (q.stop < r.stop ∨ (q.stop = r.stop ∧ rs.idxOf q < rs.idxOf r)))

instance (rs : List Replacement) : Std.Asymm (Replacement.Precedes rs) where
  asymm q r hqr hrq := by
    unfold Replacement.Precedes at *
    omega

/-- What edits make of a text does not depend on their numbers. -/
theorem Edit.replaceAll_congr {path : String} {es es' : List Edit}
    (h : es.map (Edit.replacement path) = es'.map (Edit.replacement path)) (cs : List Char) :
    replaceAll es cs = replaceAll es' cs := by
  have hmap (es : List Edit) : replaceAll es cs = (es.map (Edit.replacement path)).foldr
      (fun r cs => cs.take r.start ++ (r.text.toList ++ cs.drop r.stop)) cs := by
    rw [List.foldr_map]
    rfl
  rw [hmap, hmap, h]

namespace Script

variable {sources : Sources} {s : Script} {rs : List Replacement}

/-- A replacement is recorded as an edit of its file. -/
theorem Holds.exists_edit (h : s.Holds rs) {path : String} {r : Replacement} (hr : r ∈ rs)
    (hpath : r.path = path) : ∃ e ∈ s.recorded path, e.replacement path = r := by
  subst hpath
  exact ⟨⟨r.start, r.stop, r.text, rs.idxOf r + 1⟩, (h.mem_recorded _ _).2 ⟨hr, rfl⟩, rfl⟩

/-- What a sound script holds fits into the texts. -/
theorem Holds.fits (h : s.Holds rs) (hs : Sound sources s) {r : Replacement} (hr : r ∈ rs) :
    r.Fits sources := by
  obtain ⟨e, he, heq⟩ := h.exists_edit hr rfl
  rw [← heq]
  exact hs.fits r.path e he

/-- A sound script names the files of the replacements it holds. -/
theorem Holds.mem_paths_iff (h : s.Holds rs) (hs : Sound sources s) {path : String} :
    path ∈ s.paths ↔ ∃ r ∈ rs, r.path = path := by
  constructor
  · intro hp
    obtain ⟨e, he⟩ := List.exists_mem_of_ne_nil _ (hs.edited path hp)
    exact ⟨_, ((h.mem_recorded path e).1 he).1, rfl⟩
  · rintro ⟨r, hr, hpath⟩
    obtain ⟨e, he, -⟩ := h.exists_edit hr hpath
    exact mem_paths_of_mem_recorded he

/-- A file is clean when no two different replacements in it overlap. -/
theorem Holds.isClean_iff (h : s.Holds rs) (path : String) :
    s.IsClean path ↔ ∀ q ∈ rs, ∀ r ∈ rs, q.path = path → r.path = path → q ≠ r →
      q.stop ≤ r.start ∨ r.stop ≤ q.start := by
  constructor
  · intro hclean q hq r hr hqpath hrpath hne
    obtain ⟨e, he, rfl⟩ := h.exists_edit hq hqpath
    obtain ⟨f, hf, rfl⟩ := h.exists_edit hr hrpath
    have hapart := hclean e he f hf (fun heq => hne (by rw [heq]))
    rwa [Edit.Clashes, not_and_or, not_not, not_not] at hapart
  · intro hapart e he f hf hne hclash
    have := hapart _ ((h.mem_recorded path e).1 he).1 _ ((h.mem_recorded path f).1 hf).1 rfl rfl
      (fun heq => hne (h.eq_of_replacement_eq he hf heq))
    exact this.elim hclash.1 hclash.2

/-- The edits of a file do what was recorded for it. -/
theorem Holds.mem_map_edits (h : s.Holds rs) {path : String} {r : Replacement} :
    r ∈ (s.edits path).map (Edit.replacement path) ↔ r ∈ rs ∧ r.path = path := by
  rw [List.mem_map]
  constructor
  · rintro ⟨e, he, rfl⟩
    exact ⟨((h.mem_recorded path e).1 ((s.edits_perm path).mem_iff.1 he)).1, rfl⟩
  · rintro ⟨hr, hpath⟩
    obtain ⟨e, he, heq⟩ := h.exists_edit hr hpath
    exact ⟨e, (s.edits_perm path).mem_iff.2 he, heq⟩

/-- Edits apply in the order of their first recordings. -/
theorem Holds.pairwise_edits (h : s.Holds rs) (hs : Sound sources s) (path : String) :
    ((s.edits path).map (Edit.replacement path)).Pairwise (Replacement.Precedes rs) := by
  rw [List.pairwise_map]
  refine (hs.pairwise_precedes_edits path).imp_of_mem fun {e f} he hf hprec => ?_
  have he := ((h.mem_recorded path e).1 ((s.edits_perm path).mem_iff.1 he)).2
  have hf := ((h.mem_recorded path f).1 ((s.edits_perm path).mem_iff.1 hf)).2
  rw [Edit.precedes_iff, he, hf] at hprec
  unfold Replacement.Precedes
  simp only [Edit.replacement] at hprec ⊢
  omega

/-- Whether two scripts give the same texts, or both of them fail. -/
def SameOutcome (sources : Sources) (s₁ s₂ : Script) : Prop :=
  ((∃ f, s₁.apply sources = .error f) ↔ ∃ f, s₂.apply sources = .error f) ∧
    ∀ texts₁ texts₂, s₁.apply sources = .ok texts₁ → s₂.apply sources = .ok texts₂ →
      ∀ path, texts₁.lookup path = texts₂.lookup path

/-- A script fails when one of its files is not clean. -/
theorem Sound.apply_eq_error_iff (h : Sound sources s) :
    (∃ f, s.apply sources = .error f) ↔ ∃ path ∈ s.paths, ¬ s.IsClean path := by
  rcases h.apply with ⟨hclean, texts, happly, -⟩ | ⟨path, hp, hbad, offset, happly⟩
  · simpa [happly] using hclean
  · exact iff_of_true ⟨_, happly⟩ ⟨path, hp, hbad⟩

/-- A script that does not fail gives a text for each file with an edit: the new one of a clean
    file. -/
theorem Sound.lookup_texts (h : Sound sources s) {texts : List (String × String)}
    (happly : s.apply sources = .ok texts) (path : String) :
    ((texts.lookup path).isSome = true ↔ path ∈ s.paths) ∧
      ∀ new, texts.lookup path = some new → s.IsClean path ∧ s.IsNewText sources path new := by
  obtain ⟨hclean, hpaths, hnew⟩ := h.apply_eq_ok happly
  constructor
  · rw [List.lookup_isSome_iff, ← hpaths, List.mem_map]
    refine exists_congr fun f => and_congr_right fun _ => ?_
    rw [beq_iff_eq, eq_comm]
  · intro new hlookup
    obtain ⟨before, after, rfl, -⟩ := List.lookup_eq_some_iff.1 hlookup
    have hmem : (path, new) ∈ before ++ (path, new) :: after :=
      List.mem_append_right _ List.mem_cons_self
    refine ⟨hclean path ?_, hnew _ hmem⟩
    rw [← hpaths]
    exact List.mem_map_of_mem hmem

end Script

section

open Script

variable {sources : Sources} {path : String} {rs₁ rs₂ : List Replacement} {s₁ s₂ : Script}
  (h : ReordersIn path rs₁ rs₂) (h₁ : s₁.Holds rs₁) (h₂ : s₂.Holds rs₂)

include h h₁ h₂

/-- Whether a file is clean does not depend on the order of recordings. -/
theorem ReordersIn.isClean_iff : s₁.IsClean path ↔ s₂.IsClean path := by
  rw [h₁.isClean_iff, h₂.isClean_iff]
  constructor
  · intro hclean q hq r hr hqpath hrpath
    exact hclean q ((h.mem_iff q hqpath).2 hq) r ((h.mem_iff r hrpath).2 hr) hqpath hrpath
  · intro hclean q hq r hr hqpath hrpath
    exact hclean q ((h.mem_iff q hqpath).1 hq) r ((h.mem_iff r hrpath).1 hr) hqpath hrpath

variable (hs₁ : s₁.Sound sources) (hs₂ : s₂.Sound sources)

include hs₁ hs₂

/-- Reordering changes no file's being named. -/
theorem ReordersIn.mem_paths_iff : path ∈ s₁.paths ↔ path ∈ s₂.paths := by
  rw [h₁.mem_paths_iff hs₁, h₂.mem_paths_iff hs₂]
  constructor
  · rintro ⟨r, hr, hpath⟩
    exact ⟨r, (h.mem_iff r hpath).1 hr, hpath⟩
  · rintro ⟨r, hr, hpath⟩
    exact ⟨r, (h.mem_iff r hpath).2 hr, hpath⟩

/-- In a clean file, the same edits apply in the same order. -/
theorem ReordersIn.edits_eq (hclean : s₁.IsClean path) :
    (s₁.edits path).map (Edit.replacement path) = (s₂.edits path).map (Edit.replacement path) := by
  have horder₁ := h₁.pairwise_edits hs₁ path
  -- the edits of the second script are in the order of the first recordings, too
  have horder₂ : ((s₂.edits path).map (Edit.replacement path)).Pairwise
      (Replacement.Precedes rs₁) := by
    refine (h₂.pairwise_edits hs₂ path).imp_of_mem fun {q r} hq hr hprec => ?_
    rw [h₂.mem_map_edits] at hq hr
    have hq₁ := (h.mem_iff q hq.2).2 hq.1
    have hr₁ := (h.mem_iff r hr.2).2 hr.1
    have hne : q ≠ r := ne_of_irrefl hprec
    rcases hprec with hstart | ⟨hstart, hstop | ⟨hstop, hlt⟩⟩
    · exact .inl hstart
    · exact .inr ⟨hstart, .inl hstop⟩
    · -- two edits of one stretch of a clean file are insertions
      have hapart := (h₁.isClean_iff path).1 hclean q hq₁ r hr₁ hq.2 hr.2 hne
      have hle := (h₁.fits hs₁ hq₁).1
      have hshare : q.SharesOffset r := ⟨hq.2.trans hr.2.symm, hstart, by omega, by omega⟩
      exact .inr ⟨hstart, .inr ⟨hstop, (h.first_iff q hq₁ r hr₁ hq.2 hr.2 hshare).2 hlt⟩⟩
  refine horder₁.eq_of_mem_iff horder₂ fun r => ?_
  rw [h₁.mem_map_edits, h₂.mem_map_edits]
  exact and_congr_left fun hpath => h.mem_iff r hpath

/-- Reordering changes no new text of a file whose edits do not overlap. -/
theorem ReordersIn.newText_eq {new₁ new₂ : String} (hclean : s₁.IsClean path)
    (hnew₁ : s₁.IsNewText sources path new₁) (hnew₂ : s₂.IsNewText sources path new₂) :
    new₁ = new₂ := by
  obtain ⟨text, htext, hlist₁, -⟩ := hnew₁
  obtain ⟨text', htext', hlist₂, -⟩ := hnew₂
  obtain rfl := Except.ok.inj (htext.symm.trans htext')
  rw [← String.toList_inj, hlist₁, hlist₂]
  exact Edit.replaceAll_congr (h.edits_eq h₁ h₂ hs₁ hs₂ hclean) _

omit h in
/-- Scripts that hold reorderings of each other have the same outcome. -/
theorem Reorders.sameOutcome (h : Reorders rs₁ rs₂) : s₁.SameOutcome sources s₂ := by
  have hpaths (path : String) : path ∈ s₁.paths ↔ path ∈ s₂.paths :=
    (h.reordersIn path).mem_paths_iff h₁ h₂ hs₁ hs₂
  have hclean (path : String) : s₁.IsClean path ↔ s₂.IsClean path :=
    (h.reordersIn path).isClean_iff h₁ h₂
  constructor
  · rw [hs₁.apply_eq_error_iff, hs₂.apply_eq_error_iff]
    simp only [hpaths, hclean]
  · intro texts₁ texts₂ happly₁ happly₂ path
    obtain ⟨hsome₁, hnew₁⟩ := hs₁.lookup_texts happly₁ path
    obtain ⟨hsome₂, hnew₂⟩ := hs₂.lookup_texts happly₂ path
    have hsome := hsome₁.trans ((hpaths path).trans hsome₂.symm)
    cases hlookup₁ : texts₁.lookup path with
    | none =>
      cases hlookup₂ : texts₂.lookup path with
      | none => rfl
      | some new₂ => simp [hlookup₁, hlookup₂] at hsome
    | some new₁ =>
      cases hlookup₂ : texts₂.lookup path with
      | none => simp [hlookup₁, hlookup₂] at hsome
      | some new₂ =>
        obtain ⟨hclean₁, hnew₁⟩ := hnew₁ new₁ hlookup₁
        rw [(h.reordersIn path).newText_eq h₁ h₂ hs₁ hs₂ hclean₁ hnew₁ (hnew₂ new₂ hlookup₂).2]

end

namespace Script

/-! ### Attempts in another order -/

/-- Attempts to record with repetitions record a reordering. -/
theorem reorders_placed_of_repeats {sources : Sources} {calls₁ calls₂ : List (Program × Change)}
    (h : Repeats calls₁ calls₂) : Reorders (placed sources calls₁) (placed sources calls₂) := by
  induction h with
  | refl => exact .refl _
  | @again before after call _ hmem ih =>
    refine ih.trans ?_
    have happend (rest : List (Program × Change)) :
        placed sources (before ++ rest) = placed sources before ++ placed sources rest :=
      List.filterMap_append
    rw [happend, happend]
    cases hplace : call.1.place? sources call.2 with
    | ok r =>
      rw [placed_cons_of_ok hplace]
      exact .of_mem (mem_placed.2 ⟨call, hmem, hplace⟩) _
    | error f =>
      rw [placed_cons_of_error hplace]
      exact .refl _

/-- **The order of recordings does not matter.** Of two lists of attempts to record changes, those
    that fail aside, the scripts have the same outcome — both fail, or both give the same text for
    every file —

    * if the same is replaced by the same, and what is inserted at one offset of a file is recorded
      first in the same order;
    * so if one list is the other one with repetitions in it, each behind what it repeats;
    * or with everything in another order, if nothing different is inserted at one offset. -/
theorem apply_reordered (sources : Sources) (calls₁ calls₂ : List (Program × Change)) :
    let s₁ := attemptAll sources {} calls₁
    let s₂ := attemptAll sources {} calls₂
    (Reorders (placed sources calls₁) (placed sources calls₂) → s₁.SameOutcome sources s₂) ∧
      (Repeats calls₁ calls₂ → s₁.SameOutcome sources s₂) ∧
      (calls₁.Perm calls₂ →
        (∀ q ∈ placed sources calls₁, ∀ r ∈ placed sources calls₁, q.SharesOffset r → q = r) →
        s₁.SameOutcome sources s₂) := by
  intro s₁ s₂
  have reordered (h : Reorders (placed sources calls₁) (placed sources calls₂)) :
      s₁.SameOutcome sources s₂ :=
    h.sameOutcome (holds_attemptAll sources calls₁) (holds_attemptAll sources calls₂)
      (sound_attemptAll sources calls₁) (sound_attemptAll sources calls₂)
  refine ⟨reordered, fun h => reordered (reorders_placed_of_repeats h), ?_⟩
  intro hperm hshare
  exact reordered (.of_eq_of_sharesOffset (fun r => (hperm.filterMap _).mem_iff) hshare)

-- Insertions at one offset may not change places.
example :
    let sources : Sources := fun _ => .ok "int **p;"
    let call (text : String) : Program × Change := (twoStars, .insertBefore (some 3) text)
    (attemptAll sources {} [call "&", call "*"]).apply sources = .ok [("a.c", "int **&*p;")] ∧
      (attemptAll sources {} [call "*", call "&"]).apply sources =
        .ok [("a.c", "int ***&p;")] := by
  decide +kernel

/-- The removal of a star comes first or last and is repeated; what is inserted behind it is not
    recorded in another order. -/
theorem apply_reordered_removalFirst :
    let sources : Sources := fun _ => .ok "int **p;"
    let calls₁ : List (Program × Change) := [(twoStars, .insertBefore (some 3) "&"),
      (twoStars, .insertAfter (some 2) "*"), (twoStars, .remove (some 2))]
    let calls₂ : List (Program × Change) := [(twoStars, .remove (some 2)),
      (twoStars, .insertBefore (some 3) "&"), (twoStars, .remove (some 2)),
      (twoStars, .insertAfter (some 2) "*"), (twoStars, .insertBefore (some 3) "&")]
    Reorders (placed sources calls₁) (placed sources calls₂) ∧
      (attemptAll sources {} calls₁).apply sources = .ok [("a.c", "int *&*p;")] ∧
      (attemptAll sources {} calls₁).SameOutcome sources (attemptAll sources {} calls₂) := by
  intro sources calls₁ calls₂
  have hplaced₁ : placed sources calls₁ =
      [⟨"a.c", 6, 6, "&"⟩, ⟨"a.c", 6, 6, "*"⟩, ⟨"a.c", 5, 6, ""⟩] := by decide +kernel
  have hplaced₂ : placed sources calls₂ = [⟨"a.c", 5, 6, ""⟩, ⟨"a.c", 6, 6, "&"⟩,
      ⟨"a.c", 5, 6, ""⟩, ⟨"a.c", 6, 6, "*"⟩, ⟨"a.c", 6, 6, "&"⟩] := by decide +kernel
  have hreorders : Reorders (placed sources calls₁) (placed sources calls₂) := by
    rw [hplaced₁, hplaced₂]
    refine ⟨fun r => ?_, by decide +kernel⟩
    simp only [List.mem_cons, List.not_mem_nil, or_false]
    tauto
  exact ⟨hreorders, by decide +kernel, (apply_reordered sources calls₁ calls₂).1 hreorders⟩

end Script

end Indirection
