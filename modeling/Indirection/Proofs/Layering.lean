import Indirection.Proofs.Frame

/-!
# Which of two insertions at one offset comes first

Where a narrowed value begins with a use whose address is taken, a text goes in front of both.
Main definitions:

* `Program.ReferencesAt` — the use at a token gets its `&` at an offset;
* `Program.OpensAt` — a value narrowed at a token gets its opening at an offset.

Main statements: `idxOf_lt_idxOf_flatMap` — the order of two elements in a concatenation;
`opening_precedes_iff` — the opening of a narrowed value comes before the `&` exactly when a
declarator or an assignment in front of the use has written it. `memberCopy_reference_first` shows
that it comes behind it where only the brace initializer of a record supplies the value.
-/

namespace Indirection

/-- Which of two elements comes first in two lists, one behind the other. -/
theorem idxOf_lt_idxOf_append {α : Type} [DecidableEq α] {a b : α} {xs ys : List α} :
    (xs ++ ys).idxOf b < (xs ++ ys).idxOf a ↔
      if a ∈ xs then xs.idxOf b < xs.idxOf a else b ∈ xs ∨ ys.idxOf b < ys.idxOf a := by
  rw [List.idxOf_append, List.idxOf_append]
  by_cases ha : a ∈ xs
  · have halt := List.idxOf_lt_length_iff.2 ha
    by_cases hb : b ∈ xs
    · simp only [ha, hb, if_true]
    · simp only [ha, hb, if_true, if_false, List.idxOf_eq_length_iff.2 hb]
      omega
  · by_cases hb : b ∈ xs
    · have hblt := List.idxOf_lt_length_iff.2 hb
      simp only [ha, hb, if_true, if_false, true_or, iff_true]
      omega
    · simp only [ha, hb, if_false, false_or, Nat.add_lt_add_iff_right]

/-- Of two elements that a list does not share, `b` comes first exactly when it is the one there. -/
theorem idxOf_lt_idxOf_of_apart {α : Type} [DecidableEq α] {a b : α} {ys : List α}
    (hapart : a ∈ ys → b ∉ ys) : ys.idxOf b < ys.idxOf a ↔ b ∈ ys ∧ a ∉ ys := by
  by_cases ha : a ∈ ys
  · have hle := List.idxOf_le_length (a := a) (l := ys)
    rw [List.idxOf_eq_length_iff.2 (hapart ha)]
    simp only [hapart ha, false_and, iff_false]
    omega
  · rw [List.idxOf_eq_length_iff.2 ha, List.idxOf_lt_length_iff]
    simp only [ha, not_false_iff, and_true]

/-- Of two elements that no part of a concatenation shares, `b` comes first exactly when it occurs
    in a part in front of all parts with `a`. -/
theorem idxOf_lt_idxOf_flatMap {α : Type} [DecidableEq α] {a b : α} {f : Nat → List α}
    {n : Nat} (hapart : ∀ i < n, a ∈ f i → b ∉ f i) :
    ((List.range n).flatMap f).idxOf b < ((List.range n).flatMap f).idxOf a ↔
      ∃ i < n, b ∈ f i ∧ ∀ j < n, a ∈ f j → i < j := by
  have hmem (c : α) (n : Nat) : c ∈ (List.range n).flatMap f ↔ ∃ i < n, c ∈ f i := by
    simp [List.mem_flatMap]
  induction n with
  | zero => simp
  | succ n ih =>
    have hbefore := ih fun i hi => hapart i (by omega)
    rw [List.range_succ, List.flatMap_append, List.flatMap_singleton, idxOf_lt_idxOf_append,
      idxOf_lt_idxOf_of_apart (hapart n (by omega))]
    split
    · -- the parts so far have `a`, and the last one tells nothing
      rename_i ha
      obtain ⟨j, hj, haj⟩ := (hmem a n).1 ha
      refine hbefore.trans ?_
      constructor
      · rintro ⟨i, hi, hbi, hfirst⟩
        refine ⟨i, by omega, hbi, fun k hk hak => ?_⟩
        rcases Nat.lt_succ_iff_lt_or_eq.1 hk with hk | rfl
        · exact hfirst k hk hak
        · exact hi
      · rintro ⟨i, -, hbi, hfirst⟩
        exact ⟨i, (hfirst j (by omega) haj).trans hj, hbi,
          fun k hk hak => hfirst k (by omega) hak⟩
    · rename_i ha
      have hlast : ∀ j < n + 1, a ∈ f j → j = n := fun j hj haj =>
        (Nat.lt_succ_iff_lt_or_eq.1 hj).resolve_left fun hj => ha ((hmem a n).2 ⟨j, hj, haj⟩)
      rw [hmem b n]
      constructor
      · rintro (⟨i, hi, hbi⟩ | ⟨hbn, han⟩)
        · exact ⟨i, by omega, hbi, fun j hj haj => hlast j hj haj ▸ hi⟩
        · exact ⟨n, by omega, hbn, fun j hj haj => absurd (hlast j hj haj ▸ haj) han⟩
      · rintro ⟨i, hi, hbi, hfirst⟩
        rcases Nat.lt_succ_iff_lt_or_eq.1 hi with hin | rfl
        · exact .inl ⟨i, hin, hbi⟩
        · exact .inr ⟨hbi, fun hai => absurd (hfirst i hi hai) (Nat.lt_irrefl i)⟩

/-- What a change writes. -/
def Change.text : Change → String
  | .insertBefore _ text | .insertAfter _ text | .replace _ text => text
  | .removeRange .. => ""

namespace Program

variable {u : Program} {sources : Sources} {d : Decl}

/-- Whether the use of `d` at `i` gets its `&` at the offset `offset` of the file `path`. -/
def ReferencesAt (u : Program) (sources : Sources) (d : Decl) (i : Nat) (path : String)
    (offset : Nat) : Prop :=
  ∃ node first last span, u.IsValueSite d i node ∧ u.use node = .other ∧
    u.bounds node = some (first, last) ∧ u.locate sources (some first) = .ok span ∧
    span.path = path ∧ span.start = offset

/-- Whether a value that the declarator or the assignment at `i` narrows gets the text `text` in
    front of it, at the offset `offset` of the file `path`. -/
def OpensAt (u : Program) (sources : Sources) (d : Decl) (i : Nat) (path : String) (offset : Nat)
    (text : String) : Prop :=
  ∃ root range span, u.NarrowsAt d i root range ∧
    (u.narrowing (u.knownBefore d (i + 1)).type? (some root)).opening = some text ∧
    u.locate sources range.first = .ok span ∧ span.path = path ∧ span.start = offset

/-! ### Texts of changes -/

/-- What is inserted in front of a token stands at the token's start and covers nothing. -/
theorem place?_insertBefore {t : Ref} {text : String} {r : Replacement} :
    u.place? sources (.insertBefore t text) = .ok r ↔
      ∃ span, u.locate sources t = .ok span ∧ r = ⟨span.path, span.start, span.start, text⟩ := by
  simp only [place?, bind, Except.bind]
  cases u.locate sources t with
  | error f => simp
  | ok span => simp [eq_comm]

/-- A replacement has the text of its change. -/
theorem place?_text {c : Change} {r : Replacement} (h : u.place? sources c = .ok r) :
    r.text = c.text := by
  cases c with
  | removeRange first last =>
    simp only [place?, bind, Except.bind] at h
    split at h
    · cases h
    · split at h
      · cases h
      · split at h
        · cases h
        · rw [← Except.ok.inj h, Change.text]
  | insertBefore t w | insertAfter t w | replace t w =>
    simp only [place?, bind, Except.bind] at h
    split at h
    · cases h
    · rw [← Except.ok.inj h, Change.text]

/-- A text that begins with a star is none of the others that a reduction writes. -/
def BeginsWithStar (text : String) : Prop := text.toList.head? = some '*'

/-- What begins with a star is none of the other texts that are written. -/
theorem BeginsWithStar.ne {text : String} (h : BeginsWithStar text) :
    text ≠ "" ∧ text ≠ "." ∧ text ≠ "&" ∧ text ≠ ")" := by
  refine ⟨?_, ?_, ?_, ?_⟩ <;>
  · rintro rfl
    simp [BeginsWithStar] at h

/-- What a narrowing writes in front begins with a star. -/
theorem beginsWithStar_of_opening {kind : Narrowing} {text : String}
    (h : kind.opening = some text) : BeginsWithStar text := by
  cases kind with
  | dropAddress | keep => cases h
  | dereference cast wrap =>
    obtain rfl := Option.some.inj h
    simp [BeginsWithStar]

/-- Every opening of a plan begins with a star. -/
theorem beginsWithStar_of_mem_openings {text : String} (h : text ∈ u.openings d) :
    BeginsWithStar text := by
  unfold openings at h
  cases htype : u.declaredType d with
  | none =>
    simp only [htype, Option.map_none, Option.getD_none, List.append_nil, List.mem_cons,
      List.not_mem_nil, or_false] at h
    rcases h with rfl | rfl <;> rfl
  | some type =>
    simp only [htype, Option.map_some, Option.getD_some, List.cons_append, List.nil_append,
      List.mem_cons, List.not_mem_nil, or_false] at h
    rcases h with rfl | rfl | rfl | rfl
    · rfl
    · rfl
    · simp [BeginsWithStar]
    · simp [BeginsWithStar]

/-- The changes of a narrowing: none writes `&`, and what begins with a star is its opening. -/
theorem text_of_mem_narrow {type? : Option String} {root : Ref} {range : Range} {c : Change}
    (hc : .change c ∈ (u.narrow type? root range).items) :
    c.text ≠ "&" ∧ (BeginsWithStar c.text →
      (u.narrowing type? root).opening = some c.text ∧ c = .insertBefore range.first c.text) := by
  rcases mem_narrow.1 hc with ⟨-, rfl⟩ | ⟨text, hopening, rfl⟩ | ⟨cast, -, rfl⟩
  · exact ⟨by simp [Change.text, Change.remove], fun hstar => absurd rfl hstar.ne.1⟩
  · exact ⟨(beginsWithStar_of_opening hopening).ne.2.2.1, fun _ => ⟨hopening, rfl⟩⟩
  · exact ⟨by simp [Change.text], fun hstar => absurd rfl hstar.ne.2.2.2⟩

/-- Only a use whose address is taken writes `&`. -/
theorem ArisesAt.reference {i : Nat} {c : Change} (h : u.ArisesAt d i c) (htext : c.text = "&") :
    ∃ node first last, u.IsValueSite d i node ∧ u.use node = .other ∧
      u.bounds node = some (first, last) ∧ c = .insertBefore (some first) "&" := by
  cases h with
  | other hsite huse hbounds => exact ⟨_, _, _, hsite, huse, hbounds, rfl⟩
  | narrowed _ hc => exact absurd htext (text_of_mem_narrow hc).1
  | star | dereferenced | indexed | arrow => simp [Change.text, Change.remove] at htext

/-- Only a narrowed value gets a text that begins with a star. -/
theorem ArisesAt.opening {i : Nat} {c : Change} (h : u.ArisesAt d i c)
    (hstar : BeginsWithStar c.text) :
    ∃ root range, u.NarrowsAt d i root range ∧
      (u.narrowing (u.knownBefore d (i + 1)).type? (some root)).opening = some c.text ∧
      c = .insertBefore range.first c.text := by
  cases h with
  | narrowed hvalue hc =>
    obtain ⟨hopening, hchange⟩ := (text_of_mem_narrow hc).2 hstar
    exact ⟨_, _, hvalue, hopening, hchange⟩
  -- the other changes write nothing, a `.` or an `&`
  | star | dereferenced | indexed => exact absurd rfl hstar.ne.1
  | arrow => exact absurd rfl hstar.ne.2.1
  | other => exact absurd rfl hstar.ne.2.2.1

/-! ### What the plan writes at a token -/

/-- The replacements of one token are the changes that arise there and find their place. -/
theorem mem_replacements_stepAt {i : Nat} (h : (u.stepAt d i).fault = none) {r : Replacement} :
    r ∈ u.replacements sources (u.stepAt d i).items ↔
      ∃ c, u.ArisesAt d i c ∧ u.place? sources c = .ok r := by
  rw [mem_replacements]
  constructor
  · rintro ⟨c, hc, hr⟩
    exact ⟨c, (mem_stepAt h).1 hc, hr⟩
  · rintro ⟨c, hc, hr⟩
    exact ⟨c, (mem_stepAt h).2 hc, hr⟩

/-- One token writes a reference where it references, and nowhere else. -/
theorem reference_mem_stepAt {i : Nat} (h : (u.stepAt d i).fault = none) {path : String}
    {offset : Nat} :
    ⟨path, offset, offset, "&"⟩ ∈ u.replacements sources (u.stepAt d i).items ↔
      u.ReferencesAt sources d i path offset := by
  rw [mem_replacements_stepAt h]
  constructor
  · rintro ⟨c, hc, hr⟩
    obtain ⟨node, first, last, hsite, huse, hbounds, rfl⟩ := hc.reference (place?_text hr).symm
    obtain ⟨span, hspan, heq⟩ := place?_insertBefore.1 hr
    obtain ⟨rfl, rfl, -, -⟩ := Replacement.mk.inj heq
    exact ⟨node, first, last, span, hsite, huse, hbounds, hspan, rfl, rfl⟩
  · rintro ⟨node, first, last, span, hsite, huse, hbounds, hspan, rfl, rfl⟩
    exact ⟨_, .other hsite huse hbounds, place?_insertBefore.2 ⟨span, hspan, rfl⟩⟩

/-- One token writes an opening where it opens, and nowhere else. -/
theorem opening_mem_stepAt {i : Nat} (h : (u.stepAt d i).fault = none) {path text : String}
    {offset : Nat} (hstar : BeginsWithStar text) :
    ⟨path, offset, offset, text⟩ ∈ u.replacements sources (u.stepAt d i).items ↔
      u.OpensAt sources d i path offset text := by
  rw [mem_replacements_stepAt h]
  constructor
  · rintro ⟨c, hc, hr⟩
    obtain rfl : text = c.text := place?_text hr
    obtain ⟨root, range, hvalue, hopening, hchange⟩ := hc.opening hstar
    rw [hchange] at hr
    obtain ⟨span, hspan, heq⟩ := place?_insertBefore.1 hr
    obtain ⟨rfl, rfl, -, -⟩ := Replacement.mk.inj heq
    exact ⟨root, range, span, hvalue, hopening, hspan, rfl, rfl⟩
  · rintro ⟨root, range, span, hvalue, hopening, hspan, rfl, rfl⟩
    exact ⟨_, .narrowed hvalue (mem_narrow.2 (.inr (.inl ⟨text, hopening, rfl⟩))),
      place?_insertBefore.2 ⟨span, hspan, rfl⟩⟩

/-- No token gets both. -/
theorem not_opensAt_of_referencesAt {i : Nat} {path text : String} {offset : Nat}
    (h : u.ReferencesAt sources d i path offset) : ¬ u.OpensAt sources d i path offset text := by
  obtain ⟨node, first, last, span, hsite, huse, -⟩ := h
  rintro ⟨root, range, span', hvalue, -⟩
  obtain ⟨operator, first, last, huse', -⟩ := (narrowsAt_iff hsite).1 hvalue
  rw [huse] at huse'
  cases huse'

/-- No value that braces supply gets an `&`. -/
theorem reference_not_mem_planEnd {known : Known} (h : (u.planEnd d known).fault = none)
    {path : String} {offset : Nat} :
    ⟨path, offset, offset, "&"⟩ ∉ u.replacements sources (u.planEnd d known).items := by
  intro hmem
  obtain ⟨c, hc, hr⟩ := mem_replacements.1 hmem
  obtain ⟨root, range, -, hc⟩ := (mem_planEnd h).1 hc
  exact (text_of_mem_narrow hc).1 (place?_text hr).symm

/-- **Which insertion comes first.** Where a reduction that runs through writes an `&` and the
    opening of a narrowed value at one offset, the opening comes first exactly when a declarator or
    an assignment has written it whose name stands in front of all uses that get their `&` there.
    Otherwise the `&` comes first: what only the brace initializers of records supply is narrowed
    when all uses are rewritten. -/
theorem opening_precedes_iff (h : (u.performPlan sources d).fault = none) {path text : String}
    {offset k l : Nat} (htext : text ∈ u.openings d)
    (hreference : ⟨offset, offset, "&", k⟩ ∈ (u.performPlan sources d).script.recorded path)
    (hopening : ⟨offset, offset, text, l⟩ ∈ (u.performPlan sources d).script.recorded path) :
    (Edit.precedes ⟨offset, offset, text, l⟩ ⟨offset, offset, "&", k⟩ = true ↔
      ∃ i < u.size, u.OpensAt sources d i path offset text ∧
        ∀ j < u.size, u.ReferencesAt sources d j path offset → i < j) ∧
    (Edit.precedes ⟨offset, offset, "&", k⟩ ⟨offset, offset, text, l⟩ = true ↔
      ¬ ∃ i < u.size, u.OpensAt sources d i path offset text ∧
        ∀ j < u.size, u.ReferencesAt sources d j path offset → i < j) := by
  obtain ⟨hholds, -⟩ := performPlan_holds h
  obtain ⟨hsteps, hend, hitems⟩ := plan_of_fault_none (performPlan_recordAll h).1
  have hstar := beginsWithStar_of_mem_openings htext
  obtain ⟨hmem, hk⟩ := (hholds.mem_recorded _ _).1 hreference
  obtain ⟨-, hl⟩ := (hholds.mem_recorded _ _).1 hopening
  simp only [Edit.replacement] at hmem hk hl
  rw [hitems, replacements_append, replacements_flatMap] at hmem hk hl
  -- the `&` is written at a token, so that only the tokens tell whether something is in front
  have hfront := (List.mem_append.1 hmem).resolve_right (reference_not_mem_planEnd hend)
  have hseq : l < k ↔ ∃ i < u.size, u.OpensAt sources d i path offset text ∧
      ∀ j < u.size, u.ReferencesAt sources d j path offset → i < j := by
    rw [hk, hl, Nat.add_lt_add_iff_right, idxOf_lt_idxOf_append, if_pos hfront, places,
      idxOf_lt_idxOf_flatMap fun i hi hreference hopening =>
        not_opensAt_of_referencesAt ((reference_mem_stepAt (hsteps i hi)).1 hreference)
          ((opening_mem_stepAt (hsteps i hi) hstar).1 hopening)]
    constructor
    · rintro ⟨i, hi, hopens, hbefore⟩
      exact ⟨i, hi, (opening_mem_stepAt (hsteps i hi) hstar).1 hopens,
        fun j hj hrefers => hbefore j hj ((reference_mem_stepAt (hsteps j hj)).2 hrefers)⟩
    · rintro ⟨i, hi, hopens, hbefore⟩
      exact ⟨i, hi, (opening_mem_stepAt (hsteps i hi) hstar).2 hopens,
        fun j hj hrefers => hbefore j hj ((reference_mem_stepAt (hsteps j hj)).1 hrefers)⟩
  have hne : l ≠ k := by
    rintro rfl
    -- one number is that of one replacement, but the texts differ
    have hsame := (List.idxOf_inj hmem).1 (Nat.succ.inj (hk.symm.trans hl))
    exact hstar.ne.2.2.1 (Replacement.mk.inj hsame).2.2.2.symm
  -- at one offset the number of the recording decides
  have hprecedes (a b : String) (m n : Nat) :
      Edit.precedes ⟨offset, offset, a, m⟩ ⟨offset, offset, b, n⟩ = true ↔ m < n := by
    simp [Edit.precedes]
  rw [hprecedes, hprecedes, ← hseq]
  exact ⟨Iff.rfl, by omega⟩

/-- The tokens of the text `int **q; q = q + 1;`. -/
def pointerAdvance : Program where
  tokens := #[{ text := "int", file := "a.c", line := 1, column := 1, isName := true },
    { text := "*", file := "a.c", line := 1, column := 5 },
    { text := "*", file := "a.c", line := 1, column := 6 },
    { text := "q", file := "a.c", line := 1, column := 7, varId := 1, var := some 0,
      isName := true },
    { text := ";", file := "a.c", line := 1, column := 8 },
    { text := "q", file := "a.c", line := 1, column := 10, varId := 1, var := some 0,
      parent := some 6, isName := true },
    { text := "=", file := "a.c", line := 1, column := 12, operand1 := some 5, operand2 := some 8,
      isAssignmentOp := true, isSplit := some false },
    { text := "q", file := "a.c", line := 1, column := 14, varId := 1, var := some 0,
      parent := some 8, isName := true },
    { text := "+", file := "a.c", line := 1, column := 16, operand1 := some 7, operand2 := some 9,
      parent := some 6 },
    { text := "1", file := "a.c", line := 1, column := 18, parent := some 8, isNumber := true },
    { text := ";", file := "a.c", line := 1, column := 19 }]
  vars := #[{ nameToken := some 3, typeStart := some 0 }]

/-- The reduction of `q` to `int *q; q = *(&q + 1);` dereferences what takes the address. -/
theorem opening_precedes_iff_pointerAdvance :
    let d : Decl := { key := 1, name := "q", level := 2 }
    let sources : Sources := fun _ => .ok "int **q; q = q + 1;"
    (pointerAdvance.performPlan sources d).script.recorded "a.c" =
        [⟨5, 6, "", 1⟩, ⟨13, 13, "*(", 2⟩, ⟨18, 18, ")", 3⟩, ⟨13, 13, "&", 4⟩] ∧
      Edit.precedes ⟨13, 13, "*(", 2⟩ ⟨13, 13, "&", 4⟩ = true ∧
      ∃ i < pointerAdvance.size, pointerAdvance.OpensAt sources d i "a.c" 13 "*(" ∧
        ∀ j < pointerAdvance.size, pointerAdvance.ReferencesAt sources d j "a.c" 13 → i < j := by
  intro d sources
  have hfault : (pointerAdvance.performPlan sources d).fault = none := by decide +kernel
  have hrecorded : (pointerAdvance.performPlan sources d).script.recorded "a.c" =
      [⟨5, 6, "", 1⟩, ⟨13, 13, "*(", 2⟩, ⟨18, 18, ")", 3⟩, ⟨13, 13, "&", 4⟩] := by decide +kernel
  have hprecedes : Edit.precedes ⟨13, 13, "*(", 2⟩ ⟨13, 13, "&", 4⟩ = true := by decide
  have htext : "*(" ∈ pointerAdvance.openings d := by decide +kernel
  have hreference : (⟨13, 13, "&", 4⟩ : Edit) ∈
      (pointerAdvance.performPlan sources d).script.recorded "a.c" := by rw [hrecorded]; decide
  have hopening : (⟨13, 13, "*(", 2⟩ : Edit) ∈
      (pointerAdvance.performPlan sources d).script.recorded "a.c" := by rw [hrecorded]; decide
  have hiff := (opening_precedes_iff hfault htext hreference hopening).1
  exact ⟨hrecorded, hprecedes, hiff.1 hprecedes⟩

/-- The tokens of the text `struct S { int *f; } t;` and, on a line of its own,
    `void u(void) { struct S s = { t.f }; }`, with the declaration of `s` split in two. -/
def memberCopy : Program where
  tokens := #[{ text := "struct", file := "a.c", line := 1, column := 1, isName := true },
    { text := "S", file := "a.c", line := 1, column := 8, isName := true },
    { text := "\x7b", file := "a.c", line := 1, column := 10, link := some 7 },
    { text := "int", file := "a.c", line := 1, column := 12, isName := true },
    { text := "*", file := "a.c", line := 1, column := 16 },
    { text := "f", file := "a.c", line := 1, column := 17, varId := 1, var := some 0,
      valueType := some 0, isName := true },
    { text := ";", file := "a.c", line := 1, column := 18 },
    { text := "\x7d", file := "a.c", line := 1, column := 20, link := some 2 },
    { text := "t", file := "a.c", line := 1, column := 22, varId := 2, var := some 1,
      valueType := some 1, isName := true },
    { text := ";", file := "a.c", line := 1, column := 23 },
    { text := "void", file := "a.c", line := 2, column := 1, isName := true },
    { text := "u", file := "a.c", line := 2, column := 6, isName := true },
    { text := "(", file := "a.c", line := 2, column := 7, link := some 14 },
    { text := "void", file := "a.c", line := 2, column := 8, isName := true },
    { text := ")", file := "a.c", line := 2, column := 12, link := some 12 },
    { text := "\x7b", file := "a.c", line := 2, column := 14, link := some 28 },
    { text := "struct", file := "a.c", line := 2, column := 16, isName := true },
    { text := "S", file := "a.c", line := 2, column := 23, isName := true },
    { text := "s", file := "a.c", line := 2, column := 25, varId := 3, var := some 2,
      valueType := some 1, isName := true },
    { text := ";", file := "a.c", line := 2, column := 25 },
    { text := "s", file := "a.c", line := 2, column := 25, varId := 3, var := some 2,
      valueType := some 1, parent := some 21, isName := true },
    { text := "=", file := "a.c", line := 2, column := 27, valueType := some 1, operand1 := some 20,
      operand2 := some 22, isAssignmentOp := true, isSplit := some true },
    { text := "\x7b", file := "a.c", line := 2, column := 29, link := some 26, parent := some 21 },
    { text := "t", file := "a.c", line := 2, column := 31, varId := 2, var := some 1,
      valueType := some 1, parent := some 24, isName := true },
    { text := ".", file := "a.c", line := 2, column := 32, valueType := some 0, operand1 := some 23,
      operand2 := some 25 },
    { text := "f", file := "a.c", line := 2, column := 33, varId := 4, var := some 0,
      valueType := some 0, parent := some 24, isName := true },
    { text := "\x7d", file := "a.c", line := 2, column := 35, link := some 22 },
    { text := ";", file := "a.c", line := 2, column := 36 },
    { text := "\x7d", file := "a.c", line := 2, column := 38, link := some 15 }]
  vars := #[{ nameToken := some 5, typeStart := some 3, scope := some 1 },
    { nameToken := some 8, typeStart := some 0, scope := some 0 },
    { nameToken := some 18, typeStart := some 16, scope := some 2, isLocal := true }]
  scopes := #[{ type := some "Global", className := some "", members := [1] },
    { type := some "Struct", className := some "S", members := [0] },
    { type := some "Function", className := some "u", members := [2] }]
  valueTypes := #[{ type := some "int", pointer := 1 },
    { type := some "record", scope := some 1 }]

/-- The reduction of `S::f` writes `&*t.f` into the braces: the `&` of the use `t.f` comes first. -/
theorem memberCopy_reference_first :
    let d : Decl := { key := 1, name := "f", level := 1, isField := true, record := some "S" }
    let sources : Sources := fun _ => .ok
      "struct S \x7b int *f; \x7d t;\nvoid u(void) \x7b struct S s = \x7b t.f \x7d; \x7d\n"
    (memberCopy.performPlan sources d).fault = none ∧
      (memberCopy.performPlan sources d).script.recorded "a.c" =
        [⟨15, 16, "", 1⟩, ⟨54, 54, "&", 2⟩, ⟨54, 54, "*", 3⟩] ∧
      "*" ∈ memberCopy.openings d ∧
      Edit.precedes ⟨54, 54, "*", 3⟩ ⟨54, 54, "&", 2⟩ = false := by
  intro d sources
  exact ⟨by decide +kernel, by decide +kernel, by decide +kernel, by decide⟩

end Program

end Indirection
