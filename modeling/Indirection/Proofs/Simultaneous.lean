import Indirection.Edit.Splice
import Indirection.Proofs.Recording
import Mathlib.Data.List.Pairwise

/-!
# Applying a script is replacing at once

`splice` walks through a text once, from left to right, and compares each edit only with the end of
the one before it. This file shows what that amounts to. Main definitions:

* `Edit.Clashes` — neither of two edits ends where the other one begins, or before;
* `Edit.replaceIn`, `Edit.replaceAll` — an edit made in a text, and a list of edits made one at a
  time, the last one first, so that the offsets of those still to come stay right;
* `Edit.keptOffsets` — the offsets of a text that no edit replaces;
* `Interleaves` — a text made of characters of another one, in order, and of added characters.

Main statements: `pairwise_precedes_edits` — the order in which edits apply; `splice_eq_ok_iff` —
the one pass succeeds when consecutive edits are apart, and then it replaces at once;
`apply_simultaneous` — the same for all scripts that recordings build.
-/

namespace Indirection

namespace Edit

/-! ### The order of edits -/

/-- The order goes by start, then by end, then by number. -/
theorem precedes_iff {a b : Edit} :
    a.precedes b = true ↔ a.start < b.start ∨
      (a.start = b.start ∧ (a.stop < b.stop ∨ (a.stop = b.stop ∧ a.seq < b.seq))) := by
  simp [precedes]

/-- Putting an edit into an ordered list leaves the list ordered. -/
theorem pairwise_insertOrdered {e : Edit} {es : List Edit}
    (h : es.Pairwise fun a b => ¬ b.precedes a = true) :
    (insertOrdered e es).Pairwise fun a b => ¬ b.precedes a = true := by
  induction es with
  | nil => simp [insertOrdered]
  | cons d rest ih =>
    obtain ⟨hd, hrest⟩ := List.pairwise_cons.1 h
    unfold insertOrdered
    split
    · -- the new edit stands in front of all others
      rename_i hed
      refine List.pairwise_cons.2 ⟨?_, h⟩
      intro a ha
      rw [precedes_iff] at hed ⊢
      rcases List.mem_cons.1 ha with rfl | ha
      · omega
      · have := hd a ha
        rw [precedes_iff] at this
        omega
    · rename_i hed
      refine List.pairwise_cons.2 ⟨?_, ih hrest⟩
      intro a ha
      rcases mem_insertOrdered.1 ha with rfl | ha
      · exact hed
      · exact hd a ha

/-- Edits in order precede those behind them, or stand at the same place. -/
theorem pairwise_inOrder (es : List Edit) :
    (inOrder es).Pairwise fun a b => ¬ b.precedes a = true := by
  induction es with
  | nil => exact List.Pairwise.nil
  | cons e rest ih => exact pairwise_insertOrdered ih

/-- Putting an edit into a list only adds it. -/
theorem insertOrdered_perm (e : Edit) (es : List Edit) : (insertOrdered e es).Perm (e :: es) := by
  induction es with
  | nil => exact List.Perm.refl _
  | cons d rest ih =>
    unfold insertOrdered
    split
    · exact List.Perm.refl _
    · exact (ih.cons d).trans (List.Perm.swap e d rest)

/-- Ordering a list of edits changes nothing but their order. -/
theorem inOrder_perm (es : List Edit) : (inOrder es).Perm es := by
  induction es with
  | nil => exact List.Perm.refl _
  | cons e rest ih => exact (insertOrdered_perm e (inOrder rest)).trans (ih.cons e)

/-! ### Edits that clash -/

/-- Whether two edits overlap: neither ends where the other one begins, or before. -/
def Clashes (e f : Edit) : Prop := ¬ e.stop ≤ f.start ∧ ¬ f.stop ≤ e.start

/-- Clashing goes both ways. -/
theorem Clashes.symm {e f : Edit} (h : e.Clashes f) : f.Clashes e := ⟨h.2, h.1⟩

/-- An insertion clashes only with an edit that it stands strictly inside of. -/
theorem clashes_insertion {e f : Edit} (he : e.isInsertion = true) :
    e.Clashes f ↔ f.start < e.start ∧ e.start < f.stop := by
  have : e.start = e.stop := by simpa [isInsertion] using he
  unfold Clashes
  omega

/-- Two edits of one stretch clash unless they are insertions. -/
theorem clashes_same_stretch {e f : Edit} (hstart : e.start = f.start) (hstop : e.stop = f.stop) :
    e.Clashes f ↔ e.start < e.stop := by
  unfold Clashes
  omega

/-- Of two edits in order that do not clash, the first one ends before the second one begins. -/
theorem stop_le_start_iff {e f : Edit} (hf : f.start ≤ f.stop) (h : e.precedes f = true) :
    e.stop ≤ f.start ↔ ¬ e.Clashes f := by
  rw [precedes_iff] at h
  unfold Clashes
  omega

/-! ### Edits made one at a time -/

/-- A text with one edit made in it. -/
def replaceIn (e : Edit) (cs : List Char) : List Char :=
  cs.take e.start ++ (e.text.toList ++ cs.drop e.stop)

/-- A text with edits made in it one at a time, the last one of the list first. -/
def replaceAll (es : List Edit) (cs : List Char) : List Char := es.foldr replaceIn cs

/-- In front of all edits the text stays as it is. -/
theorem take_replaceAll {es : List Edit} {cs : List Char} {k : Nat} (hk : k ≤ cs.length)
    (h : ∀ e ∈ es, k ≤ e.start) : (replaceAll es cs).take k = cs.take k := by
  induction es with
  | nil => rfl
  | cons e rest ih =>
    have ih := ih (fun f hf => h f (List.mem_cons_of_mem _ hf))
    have hstart : k ≤ e.start := h e List.mem_cons_self
    have hlen : k ≤ (replaceAll rest cs).length := by
      have := congrArg List.length ih
      simp only [List.length_take] at this
      omega
    show (replaceIn e (replaceAll rest cs)).take k = _
    rw [replaceIn, List.take_append_of_le_length (by simp only [List.length_take]; omega),
      List.take_take, Nat.min_eq_left hstart, ih]

/-- Behind a place in front of all edits, an edit leaves what stands up to it, and then its own
    text follows. -/
theorem drop_replaceIn {e : Edit} {cs : List Char} {k : Nat} (hk : k ≤ e.start)
    (hlen : e.start ≤ cs.length) :
    (e.replaceIn cs).drop k =
      (cs.take e.start).drop k ++ (e.text.toList ++ cs.drop e.stop) := by
  rw [replaceIn, List.drop_append_of_le_length (by simp only [List.length_take]; omega)]

/-! ### The characters that stay -/

/-- Whether an edit replaces the character at an offset. -/
def covers (e : Edit) (i : Nat) : Bool := e.start ≤ i && i < e.stop

/-- The offsets of a text of length `n` that no edit covers, in order. -/
def keptOffsets (n : Nat) (es : List Edit) : List Nat :=
  (List.range n).filter fun i => es.all fun e => !e.covers i

/-- The kept offsets from `cursor` on are those in front of the first edit and those behind it. -/
theorem filter_range'_cons {e : Edit} {es : List Edit} {cursor n : Nat}
    (hcursor : cursor ≤ e.start) (hstop : e.start ≤ e.stop) (hn : e.stop ≤ n)
    (h : ∀ f ∈ es, e.stop ≤ f.start) :
    (List.range' cursor (n - cursor)).filter (fun i => (e :: es).all fun f => !f.covers i) =
      List.range' cursor (e.start - cursor) ++
        (List.range' e.stop (n - e.stop)).filter (fun i => es.all fun f => !f.covers i) := by
  -- the offsets fall into those in front of the edit, those inside of it and those behind it
  have hsplit : List.range' cursor (n - cursor) = List.range' cursor (e.start - cursor) ++
      (List.range' e.start (e.stop - e.start) ++ List.range' e.stop (n - e.stop)) := by
    have h₁ : cursor + (e.start - cursor) = e.start := by omega
    have h₂ : e.start + (e.stop - e.start) = e.stop := by omega
    have h₃ := List.range'_append_1 (s := e.start) (m := e.stop - e.start) (n := n - e.stop)
    have h₄ := List.range'_append_1 (s := cursor) (m := e.start - cursor)
      (n := e.stop - e.start + (n - e.stop))
    rw [h₂] at h₃
    rw [h₁] at h₄
    rw [h₃, h₄]
    congr 1
    omega
  have hbefore : (List.range' cursor (e.start - cursor)).filter
      (fun i => (e :: es).all fun f => !f.covers i) = List.range' cursor (e.start - cursor) := by
    rw [List.filter_eq_self]
    intro i hi
    have hi := List.mem_range'_1.1 hi
    rw [List.all_eq_true]
    intro f hf
    rcases List.mem_cons.1 hf with rfl | hf
    · simp [covers]; omega
    · have := h f hf
      simp [covers]; omega
  have hinside : (List.range' e.start (e.stop - e.start)).filter
      (fun i => (e :: es).all fun f => !f.covers i) = [] := by
    rw [List.filter_eq_nil_iff]
    intro i hi
    have hi := List.mem_range'_1.1 hi
    simp only [List.all_cons, covers]
    simp; omega
  have hbehind : (List.range' e.stop (n - e.stop)).filter
      (fun i => (e :: es).all fun f => !f.covers i) =
      (List.range' e.stop (n - e.stop)).filter (fun i => es.all fun f => !f.covers i) := by
    refine List.filter_congr ?_
    intro i hi
    have hi := List.mem_range'_1.1 hi
    have : e.covers i = false := by simp [covers]; omega
    simp [this]
  rw [hsplit, List.filter_append, List.filter_append, hbefore, hinside, hbehind, List.nil_append]

end Edit

/-- `out` consists of the characters of `cs` at the offsets `kept` and of the characters `added`,
    each of the two in order. -/
inductive Interleaves (cs : List Char) : (kept : List Nat) → (added out : List Char) → Prop
  | nil : Interleaves cs [] [] []
  | keep {i : Nat} {c : Char} {kept : List Nat} {added out : List Char} :
    cs[i]? = some c → Interleaves cs kept added out → Interleaves cs (i :: kept) added (c :: out)
  | add {c : Char} {kept : List Nat} {added out : List Char} :
    Interleaves cs kept added out → Interleaves cs kept (c :: added) (c :: out)

namespace Interleaves

variable {cs : List Char}

/-- Texts that are interleaved one behind the other are interleaved as a whole. -/
theorem append {kept₁ kept₂ : List Nat} {added₁ added₂ out₁ out₂ : List Char}
    (h₁ : Interleaves cs kept₁ added₁ out₁) (h₂ : Interleaves cs kept₂ added₂ out₂) :
    Interleaves cs (kept₁ ++ kept₂) (added₁ ++ added₂) (out₁ ++ out₂) := by
  induction h₁ with
  | nil => exact h₂
  | keep hc _ ih => exact .keep hc ih
  | add _ ih => exact .add ih

/-- Added characters alone. -/
theorem ofAdded (cs added : List Char) : Interleaves cs [] added added := by
  induction added with
  | nil => exact .nil
  | cons c rest ih => exact .add ih

/-- A stretch of the text alone. -/
theorem ofStretch {i n : Nat} (h : i + n ≤ cs.length) :
    Interleaves cs (List.range' i n) [] ((cs.drop i).take n) := by
  induction n generalizing i with
  | zero => simpa using Interleaves.nil
  | succ n ih =>
    have hi : i < cs.length := by omega
    rw [List.drop_eq_getElem_cons hi, List.take_succ_cons, List.range'_succ]
    exact .keep (List.getElem?_eq_getElem hi) (ih (by omega))

end Interleaves

/-! ### One pass through a text -/

section Splice

variable {path : String} {cs : List Char}

/-- The one pass succeeds exactly when no edit begins before the cursor or before the end of an
    earlier one, and then it makes the edits one at a time. -/
theorem splice_eq_ok_iff {es : List Edit} {cursor : Nat} {out : List Char}
    (h : ∀ e ∈ es, e.start ≤ e.stop ∧ e.stop ≤ cs.length) :
    splice path cs cursor es = .ok out ↔
      (∀ e ∈ es, cursor ≤ e.start) ∧ (es.Pairwise fun e f => e.stop ≤ f.start) ∧
        out = (Edit.replaceAll es cs).drop cursor := by
  induction es generalizing cursor out with
  | nil => simp [splice, Edit.replaceAll, eq_comm]
  | cons e rest ih =>
    obtain ⟨hstop, hlen⟩ := h e List.mem_cons_self
    have ih (tail : List Char) : splice path cs e.stop rest = .ok tail ↔
        (∀ f ∈ rest, e.stop ≤ f.start) ∧ (rest.Pairwise fun e f => e.stop ≤ f.start) ∧
          tail = (Edit.replaceAll rest cs).drop e.stop :=
      ih (fun f hf => h f (List.mem_cons_of_mem _ hf))
    -- the text of the whole when the edits of the rest stand behind this one
    have whole (hcursor : cursor ≤ e.start) (hrest : ∀ f ∈ rest, e.stop ≤ f.start) :
        (Edit.replaceAll (e :: rest) cs).drop cursor = (cs.drop cursor).take (e.start - cursor) ++
          (e.text.toList ++ (Edit.replaceAll rest cs).drop e.stop) := by
      have htake : (Edit.replaceAll rest cs).take e.start = cs.take e.start :=
        Edit.take_replaceAll (by omega) (fun f hf => by have := hrest f hf; omega)
      have hle : e.start ≤ (Edit.replaceAll rest cs).length := by
        have := congrArg List.length htake
        simp only [List.length_take] at this
        omega
      show (e.replaceIn (Edit.replaceAll rest cs)).drop cursor = _
      rw [Edit.drop_replaceIn hcursor hle, htake, List.drop_take]
    rw [splice]
    by_cases hcursor : e.start < cursor
    · -- the edit begins in what is written already
      rw [if_pos hcursor]
      constructor
      · intro hbad
        cases hbad
      · rintro ⟨hall, -, -⟩
        have := hall e List.mem_cons_self
        omega
    · rw [if_neg hcursor]
      have hcursor : cursor ≤ e.start := by omega
      constructor
      · intro hok
        split at hok
        · rename_i tail htail
          obtain ⟨hall, hpair, rfl⟩ := (ih tail).1 htail
          obtain rfl := Except.ok.inj hok
          refine ⟨?_, List.pairwise_cons.2 ⟨hall, hpair⟩, (whole hcursor hall).symm⟩
          intro f hf
          rcases List.mem_cons.1 hf with rfl | hf
          · exact hcursor
          · have := hall f hf
            omega
        · cases hok
      · rintro ⟨-, hpair, rfl⟩
        obtain ⟨hall, hpair⟩ := List.pairwise_cons.1 hpair
        rw [(ih _).2 ⟨hall, hpair, rfl⟩, whole hcursor hall]

/-- When the one pass fails, it is because two edits overlap. -/
theorem splice_eq_error {es : List Edit} {cursor : Nat} {f : Fault}
    (h : splice path cs cursor es = .error f) :
    ∃ offset, f = .of (.overlap path offset) { file := path } := by
  induction es generalizing cursor with
  | nil => simp [splice] at h
  | cons e rest ih =>
    rw [splice] at h
    split at h
    · exact ⟨e.start, by simpa using h.symm⟩
    · split at h
      · cases h
      · rename_i g hg
        obtain rfl := (Except.error.inj h)
        exact ih hg

/-- The one pass keeps what no edit covers, once and in order, and adds the texts of the edits. -/
theorem splice_interleaves {es : List Edit} {cursor : Nat} {out : List Char}
    (h : ∀ e ∈ es, e.start ≤ e.stop ∧ e.stop ≤ cs.length) (hcursor : cursor ≤ cs.length)
    (hok : splice path cs cursor es = .ok out) :
    Interleaves cs
      ((List.range' cursor (cs.length - cursor)).filter fun i => es.all fun e => !e.covers i)
      (es.flatMap fun e => e.text.toList) out := by
  induction es generalizing cursor out with
  | nil =>
    obtain rfl := Except.ok.inj hok
    have hrest : Interleaves cs (List.range' cursor (cs.length - cursor)) []
        ((cs.drop cursor).take (cs.length - cursor)) := .ofStretch (by omega)
    rw [List.take_of_length_le (by simp)] at hrest
    simpa using hrest
  | cons e rest ih =>
    obtain ⟨hstop, hlen⟩ := h e List.mem_cons_self
    have hfits := fun f hf => h f (List.mem_cons_of_mem _ hf)
    rw [splice] at hok
    split at hok
    · cases hok
    · split at hok
      · rename_i hstart tail htail
        obtain rfl := Except.ok.inj hok
        have hbehind := ((splice_eq_ok_iff hfits).1 htail).1
        rw [Edit.filter_range'_cons (by omega) hstop hlen hbehind, List.flatMap_cons]
        have hkept : Interleaves cs (List.range' cursor (e.start - cursor)) []
            ((cs.drop cursor).take (e.start - cursor)) := .ofStretch (by omega)
        have hadded := (Interleaves.ofAdded cs e.text.toList).append (ih hfits hlen htail)
        exact hkept.append hadded
      · cases hok

end Splice

/-! ### Scripts -/

namespace Script

variable {sources : Sources} {s : Script}

/-- The edits of a file in the order they apply are those recorded for it. -/
theorem edits_perm (s : Script) (path : String) : (s.edits path).Perm (s.recorded path) :=
  Edit.inOrder_perm _

/-- Each edit precedes all that apply after it. -/
theorem Sound.pairwise_precedes_edits (h : Sound sources s) (path : String) :
    (s.edits path).Pairwise fun e f => e.precedes f = true := by
  have hne : (s.recorded path).Pairwise (fun e f => e.seq ≠ f.seq) :=
    (h.numbered path).imp Nat.ne_of_lt
  have hne : (s.edits path).Pairwise (fun e f => e.seq ≠ f.seq) :=
    (s.edits_perm path).symm.pairwise hne Ne.symm
  refine ((Edit.pairwise_inOrder (s.recorded path)).and hne).imp ?_
  rintro e f ⟨hnot, hseq⟩
  rw [Edit.precedes_iff] at hnot ⊢
  omega

/-- The edits of a file are apart in the order they apply exactly when no two of them clash. -/
theorem Sound.pairwise_apart_iff (h : Sound sources s) (path : String) :
    ((s.edits path).Pairwise fun e f => e.stop ≤ f.start) ↔
      ∀ e ∈ s.recorded path, ∀ f ∈ s.recorded path, e ≠ f → ¬ e.Clashes f := by
  have hmem {e : Edit} : e ∈ s.edits path ↔ e ∈ s.recorded path := (s.edits_perm path).mem_iff
  have horder := h.pairwise_precedes_edits path
  constructor
  · intro hapart e he f hf hne
    -- clashing has no direction, so that what holds of the edits in order holds of any two
    have hclash : (s.edits path).Pairwise fun e f => ¬ e.Clashes f := by
      refine (hapart.and horder).imp_of_mem ?_
      rintro a b - hb ⟨hle, hprec⟩
      exact (Edit.stop_le_start_iff (h.fits path b (hmem.1 hb)).1 hprec).1 hle
    have : Std.Symm fun e f : Edit => ¬ e.Clashes f := ⟨fun a b hab hba => hab hba.symm⟩
    exact hclash.forall (hmem.2 he) (hmem.2 hf) hne
  · intro hclash
    refine horder.imp_of_mem ?_
    intro a b ha hb hprec
    have hne : a ≠ b := by
      rintro rfl
      rw [Edit.precedes_iff] at hprec
      omega
    exact (Edit.stop_le_start_iff (h.fits path b (hmem.1 hb)).1 hprec).2
      (hclash a (hmem.1 ha) b (hmem.1 hb) hne)

/-- A file of a script that recordings built has a text, and all its edits lie inside. -/
theorem Sound.text (h : Sound sources s) {path : String} (hp : path ∈ s.paths) :
    ∃ text, sources path = .ok text ∧
      ∀ e ∈ s.edits path, e.start ≤ e.stop ∧ e.stop ≤ text.toList.length := by
  obtain ⟨e, he⟩ := List.exists_mem_of_ne_nil _ (h.edited path hp)
  obtain ⟨-, text, htext, -⟩ := h.fits path e he
  refine ⟨text, htext, ?_⟩
  intro f hf
  obtain ⟨hle, text', htext', hlen⟩ := h.fits path f ((s.edits_perm path).mem_iff.1 hf)
  obtain rfl : text = text' := by
    have := htext.symm.trans htext'
    simpa using this
  exact ⟨hle, hlen⟩

/-- Whether no two edits of a file clash. -/
def IsClean (s : Script) (path : String) : Prop :=
  ∀ e ∈ s.recorded path, ∀ f ∈ s.recorded path, e ≠ f → ¬ e.Clashes f

/-- What is new in a file: the edits made one at a time, from the last one to the first. What no
    edit covers stays, once and in order. -/
def IsNewText (s : Script) (sources : Sources) (path new : String) : Prop :=
  ∃ text, sources path = .ok text ∧
    new.toList = Edit.replaceAll (s.edits path) text.toList ∧
    Interleaves text.toList (Edit.keptOffsets text.toList.length (s.edits path))
      ((s.edits path).flatMap fun e => e.text.toList) new.toList

/-- A file gets a new text when its edits do not clash, and an overlap is reported otherwise. -/
theorem Sound.splice_file (h : Sound sources s) {path : String} (hp : path ∈ s.paths) :
    ∃ text, sources path = .ok text ∧
      ((s.IsClean path ∧ ∃ cs, splice path text.toList 0 (s.edits path) = .ok cs ∧
          s.IsNewText sources path (String.ofList cs)) ∨
        (¬ s.IsClean path ∧ ∃ offset, splice path text.toList 0 (s.edits path) =
          .error (.of (.overlap path offset) { file := path }))) := by
  obtain ⟨text, htext, hfits⟩ := h.text hp
  refine ⟨text, htext, ?_⟩
  cases hsplice : splice path text.toList 0 (s.edits path) with
  | ok cs =>
    obtain ⟨-, hapart, hcs⟩ := (splice_eq_ok_iff hfits).1 hsplice
    have hkeep := splice_interleaves hfits (Nat.zero_le _) hsplice
    refine .inl ⟨(h.pairwise_apart_iff path).1 hapart, cs, rfl, text, htext, ?_, ?_⟩
    · simpa using hcs
    · simpa [Edit.keptOffsets, List.range_eq_range'] using hkeep
  | error f =>
    obtain ⟨offset, rfl⟩ := splice_eq_error hsplice
    refine .inr ⟨?_, offset, rfl⟩
    -- the pass through a clean file would have succeeded
    intro hclean
    have hok : splice path text.toList 0 (s.edits path) = .ok _ := (splice_eq_ok_iff hfits).2
      ⟨fun e _ => Nat.zero_le _, (h.pairwise_apart_iff path).2 hclean, rfl⟩
    rw [hsplice] at hok
    cases hok

/-- Some files of a script applied: either all of them are clean and have their new texts, or an
    overlap in one that is not clean is reported. -/
theorem Sound.applyTo (h : Sound sources s) {paths : List String} (hp : ∀ p ∈ paths, p ∈ s.paths) :
    ((∀ p ∈ paths, s.IsClean p) ∧ ∃ texts, s.applyTo sources paths = .ok texts ∧
        texts.map Prod.fst = paths ∧ ∀ f ∈ texts, s.IsNewText sources f.1 f.2) ∨
      ∃ p ∈ paths, ¬ s.IsClean p ∧ ∃ offset, s.applyTo sources paths =
        .error (.of (.overlap p offset) { file := p }) := by
  induction paths with
  | nil => exact .inl ⟨by simp, [], rfl, rfl, by simp⟩
  | cons p rest ih =>
    have ih := ih (fun q hq => hp q (List.mem_cons_of_mem _ hq))
    obtain ⟨text, htext, ⟨hclean, cs, hsplice, hnew⟩ | ⟨hbad, offset, hsplice⟩⟩ :=
      h.splice_file (hp p List.mem_cons_self)
    · rcases ih with ⟨hall, texts, happly, hpaths, htexts⟩ | ⟨q, hq, hbad, offset, happly⟩
      · refine .inl ⟨List.forall_mem_cons.2 ⟨hclean, hall⟩, (p, String.ofList cs) :: texts, ?_, ?_,
          List.forall_mem_cons.2 ⟨hnew, htexts⟩⟩
        · simp [Script.applyTo, htext, hsplice, happly, bind, Except.bind]
        · simp [hpaths]
      · -- the file is clean, but a later one is not
        refine .inr ⟨q, List.mem_cons_of_mem _ hq, hbad, offset, ?_⟩
        simp [Script.applyTo, htext, hsplice, happly, bind, Except.bind]
    · refine .inr ⟨p, List.mem_cons_self, hbad, offset, ?_⟩
      simp [Script.applyTo, htext, hsplice, bind, Except.bind]

/-- A script applied: all its files are clean and have their new texts, or an overlap is
    reported. -/
theorem Sound.apply (h : Sound sources s) :
    ((∀ p ∈ s.paths, s.IsClean p) ∧ ∃ texts, s.apply sources = .ok texts ∧
        texts.map Prod.fst = s.paths ∧ ∀ f ∈ texts, s.IsNewText sources f.1 f.2) ∨
      ∃ p ∈ s.paths, ¬ s.IsClean p ∧ ∃ offset, s.apply sources =
        .error (.of (.overlap p offset) { file := p }) :=
  h.applyTo fun _ hp => hp

/-- A script that gives texts gives each of its files, all of them clean, its new one. -/
theorem Sound.apply_eq_ok (h : Sound sources s) {texts : List (String × String)}
    (happly : s.apply sources = .ok texts) :
    (∀ p ∈ s.paths, s.IsClean p) ∧ texts.map Prod.fst = s.paths ∧
      ∀ f ∈ texts, s.IsNewText sources f.1 f.2 := by
  rcases h.apply with ⟨hclean, texts', happly', htexts⟩ | ⟨_, -, -, _, happly'⟩
  · obtain rfl := Except.ok.inj (happly.symm.trans happly')
    exact ⟨hclean, htexts⟩
  · cases happly.symm.trans happly'

/-- **Applying a script replaces at once.** Of a script that recordings built, `apply` fails exactly
    when two different edits of one file clash, and only by reporting an overlap: an insertion
    clashes with what it stands strictly inside of, and two edits of one stretch that is not empty
    clash. Otherwise it gives a text for each file with an edit, in the order of their first edits,
    and this text is the old one with the edits made one at a time, from the last one to the first
    in the order of start, end and number. -/
theorem apply_simultaneous {sources : Sources} {changes : List (Program × Change)} {s : Script}
    (h : recordAll sources {} changes = .ok s) :
    ((∃ path offset, s.apply sources = .error (.of (.overlap path offset) { file := path })) ↔
        ∃ path, ∃ e ∈ s.recorded path, ∃ f ∈ s.recorded path, e ≠ f ∧ e.Clashes f) ∧
      (∀ f, s.apply sources = .error f →
        ∃ path offset, f = .of (.overlap path offset) { file := path }) ∧
      (∀ e f : Edit,
        (e.isInsertion = true → (e.Clashes f ↔ f.start < e.start ∧ e.start < f.stop)) ∧
        (e.start = f.start → e.stop = f.stop → (e.Clashes f ↔ e.start < e.stop))) ∧
      (∀ texts, s.apply sources = .ok texts → texts.map Prod.fst = s.paths ∧
        ∀ f ∈ texts, s.IsNewText sources f.1 f.2) ∧
      (s.paths.Nodup ∧ (∀ path, path ∈ s.paths ↔ s.recorded path ≠ []) ∧
        s.paths.Pairwise fun p q => ∃ e ∈ s.recorded p, ∀ f ∈ s.recorded q, e.seq < f.seq) ∧
      ∀ path, (s.edits path).Perm (s.recorded path) ∧
        (s.edits path).Pairwise fun e f => e.precedes f = true := by
  have hs : Sound sources s := (Sound.empty sources).recordAll h
  have hmem (path : String) : path ∈ s.paths ↔ s.recorded path ≠ [] := by
    refine ⟨hs.edited path, ?_⟩
    intro hne
    obtain ⟨e, he⟩ := List.exists_mem_of_ne_nil _ hne
    exact mem_paths_of_mem_recorded he
  refine ⟨⟨?_, ?_⟩, ?_, ?_, ?_, ⟨hs.nodup, hmem, hs.ordered⟩,
    fun path => ⟨s.edits_perm path, hs.pairwise_precedes_edits path⟩⟩
  · rintro ⟨path, offset, herr⟩
    rcases hs.apply with ⟨-, texts, happly, -⟩ | ⟨q, -, hbad, -⟩
    · rw [happly] at herr
      cases herr
    · simp only [IsClean, not_forall, not_not] at hbad
      obtain ⟨e, he, f, hf, hne, hclash⟩ := hbad
      exact ⟨q, e, he, f, hf, hne, hclash⟩
  · rintro ⟨path, e, he, f, hf, hne, hclash⟩
    rcases hs.apply with ⟨hclean, -⟩ | ⟨q, -, -, offset, happly⟩
    · exact absurd hclash (hclean path (mem_paths_of_mem_recorded he) e he f hf hne)
    · exact ⟨q, offset, happly⟩
  · intro f herr
    rcases hs.apply with ⟨-, texts, happly, -⟩ | ⟨q, -, -, offset, happly⟩
    · rw [happly] at herr
      cases herr
    · exact ⟨q, offset, Except.error.inj (herr.symm.trans happly)⟩
  · exact fun e f => ⟨Edit.clashes_insertion, Edit.clashes_same_stretch⟩
  · exact fun texts hok => (hs.apply_eq_ok hok).2

/-- The tokens of the text `int **p;`. -/
def twoStars : Program where
  tokens := #[{ text := "int", file := "a.c", line := 1, column := 1 },
    { text := "*", file := "a.c", line := 1, column := 5 },
    { text := "*", file := "a.c", line := 1, column := 6 },
    { text := "p", file := "a.c", line := 1, column := 7 },
    { text := ";", file := "a.c", line := 1, column := 8 }]

/-- The second star is removed, and something is inserted where it ends. -/
theorem apply_simultaneous_twoStars :
    ∃ s, recordAll (fun _ => .ok "int **p;") {}
        [(twoStars, .insertBefore (some 3) "&"), (twoStars, .remove (some 2))] = .ok s ∧
      s.apply (fun _ => .ok "int **p;") = .ok [("a.c", "int *&p;")] ∧
      s.IsNewText (fun _ => .ok "int **p;") "a.c" "int *&p;" := by
  let s : Script := ⟨2, [("a.c", [⟨6, 6, "&", 1⟩, ⟨5, 6, "", 2⟩])]⟩
  have hrecord : recordAll (fun _ => .ok "int **p;") {}
      [(twoStars, .insertBefore (some 3) "&"), (twoStars, .remove (some 2))] = .ok s := by
    decide +kernel
  have happly : s.apply (fun _ => .ok "int **p;") = .ok [("a.c", "int *&p;")] := by decide +kernel
  obtain ⟨-, -, -, hnew, -⟩ := apply_simultaneous hrecord
  exact ⟨s, hrecord, happly, (hnew _ happly).2 _ List.mem_cons_self⟩

end Script

end Indirection
