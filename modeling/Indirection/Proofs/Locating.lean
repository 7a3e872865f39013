import Indirection.Proofs.Searching

/-!
# Which tokens are found where they stand

A token is found at the column that is reported, and else at the closest place on its line. Main
definitions:

* `Program.MissesText` — a token is refused because its spelling is not where it should be;
* `Program.StandsReported` — its spelling is at the column that is reported;
* `expandedColumn` — the column of an offset where each tab takes up a number of columns.

Main statements: `locate_finds` — what is found is the spelling of the token, a token is found
where it is reported, and of a plain spelling no whole occurrence on the line is missed;
`locate_expandedColumn_iff` — which tokens are found in spite of tabs that count as several columns.
A tab may move the reported column closer to another occurrence of the same spelling, which is found
then: `expandedStar_misplaced`.
-/

namespace Indirection

namespace Program

variable {u : Program} {sources : Sources} {t : Ref} {text : String}

/-- Whether a token is refused because it is not where it is reported. -/
def MissesText (u : Program) (sources : Sources) (t : Ref) : Prop :=
  ∃ d, u.locate sources t = .error (.refused d) ∧ d.code = .textMismatch

/-- A token with a spelling is looked for on the line that is reported. -/
theorem locate_eq (htext : sources (u.place t).file = .ok text)
    (hword : (u.sourceText t).toList ≠ []) {start : Nat}
    (hstart : lineStart? text.toList (u.place t).line = some start) :
    u.locate sources t =
      match anchor? text.toList start (u.place t).column (u.sourceText t).toList with
      | none => .error (.of (.notOnLine (u.sourceText t) (u.place t).line) (u.position t))
      | some o => .ok ⟨(u.place t).file, o, o + (u.sourceText t).toList.length⟩ := by
  have hspelling : u.sourceText t ≠ "" := fun h => hword (by simp [h])
  cases hanchor : anchor? text.toList start (u.place t).column (u.sourceText t).toList with
  | none => simp only [locate, htext, bind, Except.bind, if_neg hspelling, hstart, hanchor]
  | some o => simp only [locate, htext, bind, Except.bind, if_neg hspelling, hstart, hanchor]

/-- A token whose line the text does not have misses its text. -/
theorem missesText_of_lineStart? (htext : sources (u.place t).file = .ok text)
    (hstart : lineStart? text.toList (u.place t).line = none) : u.MissesText sources t := by
  refine ⟨Cause.diagnostic (.outsideFile (u.sourceText t)) (u.position t), ?_, rfl⟩
  simp only [locate, htext, bind, Except.bind, hstart]
  split <;> rfl

/-- A token whose line the text has misses its text just when it has no anchor. -/
theorem missesText_iff_of_lineStart? (htext : sources (u.place t).file = .ok text)
    (hword : (u.sourceText t).toList ≠ []) {start : Nat}
    (hstart : lineStart? text.toList (u.place t).line = some start) :
    u.MissesText sources t ↔
      anchor? text.toList start (u.place t).column (u.sourceText t).toList = none := by
  rw [MissesText, locate_eq htext hword hstart]
  cases anchor? text.toList start (u.place t).column (u.sourceText t).toList with
  | none => exact ⟨fun _ => rfl, fun _ => ⟨_, rfl, rfl⟩⟩
  | some o =>
    constructor
    · rintro ⟨d, ⟨⟩, -⟩
    · rintro ⟨⟩

/-- A span is that of an anchor on the line that is reported. -/
theorem anchor?_of_locate {s : Span} (htext : sources (u.place t).file = .ok text)
    (h : u.locate sources t = .ok s) :
    (u.sourceText t).toList ≠ [] ∧ ∃ start,
      lineStart? text.toList (u.place t).line = some start ∧
      anchor? text.toList start (u.place t).column (u.sourceText t).toList = some s.start ∧
      s = ⟨(u.place t).file, s.start, s.start + (u.sourceText t).toList.length⟩ := by
  obtain ⟨-, hne, -⟩ := locate_eq_ok h
  have hword : (u.sourceText t).toList ≠ [] := by simpa using hne
  refine ⟨hword, ?_⟩
  cases hstart : lineStart? text.toList (u.place t).line with
  | none =>
    obtain ⟨d, herror, -⟩ := missesText_of_lineStart? htext hstart
    rw [h] at herror
    cases herror
  | some start =>
    refine ⟨start, rfl, ?_⟩
    rw [locate_eq htext hword hstart] at h
    cases hanchor : anchor? text.toList start (u.place t).column (u.sourceText t).toList with
    | none => simp [hanchor] at h
    | some o =>
      rw [hanchor] at h
      obtain rfl := Except.ok.inj h
      exact ⟨rfl, rfl⟩

/-- A token is found where it is reported, if its spelling stands there as a whole word. -/
theorem locate_of_standsWhole (htext : sources (u.place t).file = .ok text) {o : Nat}
    (hwhole : StandsWhole text.toList (u.sourceText t).toList o)
    (hline : (u.place t).line = lineOf text.toList o)
    (hcolumn : (u.place t).column = columnOf text.toList o) :
    u.locate sources t = .ok ⟨(u.place t).file, o, o + (u.sourceText t).toList.length⟩ := by
  have ho := (lt_length_of_stands hwhole.ne_nil hwhole.stands).le
  obtain ⟨start, hstart, hsum, -⟩ := lineStart?_lineOf ho
  have hwanted : start + ((u.place t).column - 1).toNat = o := by
    rw [hcolumn, columnOf]
    omega
  rw [← hline] at hstart
  rw [locate_eq htext hwhole.ne_nil hstart, anchor?_of_standsWhole (hwanted.symm ▸ hwhole), hwanted]

/-- What holds of all anchors holds of where a token is found. -/
theorem forall_locate_iff {P : Nat → Prop} (htext : sources (u.place t).file = .ok text)
    (hword : (u.sourceText t).toList ≠ []) {start : Nat}
    (hstart : lineStart? text.toList (u.place t).line = some start) :
    (∀ s, u.locate sources t = .ok s → P s.start) ↔
      ∀ o, anchor? text.toList start (u.place t).column (u.sourceText t).toList = some o → P o := by
  rw [locate_eq htext hword hstart]
  cases anchor? text.toList start (u.place t).column (u.sourceText t).toList with
  | none => simp
  | some o =>
    constructor
    · rintro h p ⟨⟩
      exact h _ rfl
    · rintro h s ⟨⟩
      exact h _ rfl

/-- A span that is found holds the spelling of its token, as a whole word. -/
theorem span_of_locate {s : Span} (htext : sources (u.place t).file = .ok text)
    (h : u.locate sources t = .ok s) : s.path = (u.place t).file ∧ s.start < s.stop ∧
      s.stop ≤ text.toList.length ∧
      (text.toList.drop s.start).take (s.stop - s.start) = (u.sourceText t).toList ∧
      StandsWhole text.toList (u.sourceText t).toList s.start := by
  obtain ⟨hword, start, hstart, hanchor, hspan⟩ := anchor?_of_locate htext h
  have hwhole := standsWhole_of_anchor? hword hstart hanchor
  have hpath : s.path = (u.place t).file := congrArg Span.path hspan
  have hstop : s.stop = s.start + (u.sourceText t).toList.length := congrArg Span.stop hspan
  obtain ⟨hlt, text', htext', hle⟩ := locate_bounds h
  obtain rfl := Except.ok.inj (htext'.symm.trans (hpath ▸ htext))
  refine ⟨hpath, hlt, hle, ?_, hwhole⟩
  rw [hstop, Nat.add_sub_cancel_left]
  exact (List.prefix_iff_eq_take.1 hwhole.stands).symm

/-- Whether the spelling of a token stands at the column that is reported, as a whole word. -/
def StandsReported (u : Program) (text : String) (t : Ref) : Prop :=
  ∃ start ≤ text.toList.length, (lineOf text.toList start : Int) = (u.place t).line ∧
    columnOf text.toList start = 1 ∧
    StandsWhole text.toList (u.sourceText t).toList (start + ((u.place t).column - 1).toNat)

instance : Decidable (u.StandsReported text t) :=
  inferInstanceAs (Decidable (∃ start, start ≤ text.toList.length ∧ _))

/-- The reported column counts from the beginning of the line. -/
theorem standsReported_iff {start : Nat}
    (hstart : lineStart? text.toList (u.place t).line = some start) :
    u.StandsReported text t ↔
      StandsWhole text.toList (u.sourceText t).toList (start + ((u.place t).column - 1).toNat) := by
  obtain ⟨hle, hline, hbegin⟩ := lineStart?_eq_some_iff.1 hstart
  constructor
  · rintro ⟨start', hle', hline', hcolumn, hwhole⟩
    have hbegin' : lineBefore text.toList start' = [] :=
      List.length_eq_zero_iff.1 (Nat.succ.inj hcolumn)
    have hstart' := lineStart?_eq_some_iff.2 ⟨hle', hline', hbegin'⟩
    obtain rfl := Option.some.inj (hstart.symm.trans hstart')
    exact hwhole
  · intro hwhole
    exact ⟨start, hle, hline, by rw [columnOf, hbegin]; rfl, hwhole⟩

/-- A plain spelling that is not at its column is refused if it is nowhere on its line. -/
theorem missesText_iff_of_not_standsReported (htext : sources (u.place t).file = .ok text)
    (hword : (u.sourceText t).toList ≠ []) (hplain : IsPlain (u.sourceText t).toList)
    (hnot : ¬ u.StandsReported text t) :
    u.MissesText sources t ↔
      ((u.place t).line < 1 ∨ (lineOf text.toList text.toList.length : Int) < (u.place t).line) ∨
        ∀ p, ¬ IsWholeOnLine text.toList (u.sourceText t).toList (u.place t).line p := by
  rw [← lineStart?_eq_none_iff]
  cases hstart : lineStart? text.toList (u.place t).line with
  | none => exact ⟨fun _ => .inl rfl, fun _ => missesText_of_lineStart? htext hstart⟩
  | some start =>
    rw [standsReported_iff hstart] at hnot
    rw [missesText_iff_of_lineStart? htext hword hstart,
      (anchor?_of_not_standsWhole hword hstart hnot).1, or_iff_right (Option.some_ne_none _)]
    exact forall_congr' fun p => not_congr (isCandidate_iff hplain)

/-- A plain spelling that is not at its column is found at the closest one on its line. -/
theorem exists_locate_closest (htext : sources (u.place t).file = .ok text)
    (hplain : IsPlain (u.sourceText t).toList) (hnot : ¬ u.StandsReported text t) {p : Nat}
    (hp : IsWholeOnLine text.toList (u.sourceText t).toList (u.place t).line p) :
    ∃ s, u.locate sources t = .ok s ∧
      IsClosest (fun p => ((columnOf text.toList p : Int) - (u.place t).column).natAbs)
        (IsWholeOnLine text.toList (u.sourceText t).toList (u.place t).line) s.start := by
  have hword := hp.1.ne_nil
  obtain ⟨start, hstart⟩ := hp.exists_lineStart?
  rw [standsReported_iff hstart] at hnot
  obtain ⟨hnone, hclosest⟩ := anchor?_of_not_standsWhole hword hstart hnot
  cases hanchor : anchor? text.toList start (u.place t).column (u.sourceText t).toList with
  | none => exact absurd ((isCandidate_iff hplain).2 hp) (hnone.1 hanchor p)
  | some o =>
    obtain ⟨ho, hbest⟩ := hclosest o hanchor
    have hthere := (isCandidate_iff hplain).1 ho
    refine ⟨_, (locate_eq htext hword hstart).trans (by rw [hanchor]), hthere, fun q hq => ?_⟩
    -- distances in the text are those in the line
    have hcolumn : o + 1 = start + columnOf text.toList o := hthere.2.columnOf_eq hword hstart
    have hcolumn' : q + 1 = start + columnOf text.toList q := hq.2.columnOf_eq hword hstart
    have hfirst : 1 ≤ columnOf text.toList o := Nat.le_add_left _ _
    have hfirst' : 1 ≤ columnOf text.toList q := Nat.le_add_left _ _
    have hq' := hbest q ((isCandidate_iff hplain).2 hq)
    simp only [distance] at hq'
    dsimp only
    omega

/-- **Where a token is found.** In a text that can be read,

    * a span that is found lies inside the text and holds the spelling of the token, and is no part
      of a longer word;
    * a token whose spelling stands where it is reported is found there;
    * any other token of a plain spelling is refused exactly if the text does not have its line, or
      the line has no whole occurrence of the spelling; otherwise it is found at the occurrence that
      is closest to its column, the first of two that are at the same distance. -/
theorem locate_finds (htext : sources (u.place t).file = .ok text) :
    let cs := text.toList
    let word := (u.sourceText t).toList
    let place := u.place t
    (∀ s, u.locate sources t = .ok s → s.path = place.file ∧ s.start < s.stop ∧
      s.stop ≤ cs.length ∧ (cs.drop s.start).take (s.stop - s.start) = word ∧
      StandsWhole cs word s.start) ∧
    (∀ o, StandsWhole cs word o → place.line = lineOf cs o → place.column = columnOf cs o →
      u.locate sources t = .ok ⟨place.file, o, o + word.length⟩) ∧
    (word ≠ [] → IsPlain word → ¬ u.StandsReported text t →
      (u.MissesText sources t ↔ (place.line < 1 ∨ (lineOf cs cs.length : Int) < place.line) ∨
        ∀ p, ¬ IsWholeOnLine cs word place.line p) ∧
      ∀ p, IsWholeOnLine cs word place.line p → ∃ s, u.locate sources t = .ok s ∧
        IsClosest (fun p => ((columnOf cs p : Int) - place.column).natAbs)
          (IsWholeOnLine cs word place.line) s.start) := by
  intro cs word place
  refine ⟨fun s => span_of_locate htext, fun o => locate_of_standsWhole htext,
    fun hword hplain hnot => ⟨?_, fun p => exists_locate_closest htext hplain hnot⟩⟩
  exact missesText_iff_of_not_standsReported htext hword hplain hnot

/-- The text `*p = *q;` behind a tab. -/
def tabbedText : String := "\t*p = *q;\n"

/-- Tokens of `tabbedText`, reported as if the tab took up eight columns, except for `q`; `r` is
    nowhere. -/
def tabbed : Program where
  tokens := #[
    { text := "*", file := "a.c", line := 1, column := 9 },
    { text := "p", file := "a.c", line := 1, column := 10, isName := true },
    { text := "q", file := "a.c", line := 1, column := 8, isName := true },
    { text := "r", file := "a.c", line := 1, column := 2, isName := true }]

/-- `q` is found where it is reported, `p` is found in spite of the tab, and `r` is not found. -/
theorem locate_finds_tabbed :
    let sources : Sources := fun _ => .ok tabbedText
    tabbed.locate sources (some 2) = .ok ⟨"a.c", 7, 8⟩ ∧
      (∃ s, tabbed.locate sources (some 1) = .ok s ∧ s.start = 2) ∧
      tabbed.MissesText sources (some 3) := by
  intro sources
  have htext (t : Ref) : sources (tabbed.place t).file = .ok tabbedText := rfl
  have hq := locate_finds (htext (some 2))
  have hp := locate_finds (htext (some 1))
  have hr := locate_finds (htext (some 3))
  refine ⟨?_, ?_, ?_⟩
  · exact hq.2.1 7 (by decide +kernel) (by decide +kernel) (by decide +kernel)
  · have hthere : IsWholeOnLine tabbedText.toList ['p'] 1 2 :=
      ⟨by decide +kernel, by decide +kernel, by decide +kernel, by decide +kernel⟩
    obtain ⟨s, hs, hclosest⟩ :=
      (hp.2.2 (by decide +kernel) (.inl (by decide +kernel)) (by decide +kernel)).2 2 hthere
    refine ⟨s, hs, ?_⟩
    -- no other `p` is in the text
    have honly : ∀ o < tabbedText.toList.length, StandsWhole tabbedText.toList ['p'] o → o = 2 := by
      decide +kernel
    have hwhole : StandsWhole tabbedText.toList ['p'] s.start := hclosest.1.1
    exact honly _ (lt_length_of_stands hwhole.ne_nil hwhole.stands) hwhole
  · have hmisses := (hr.2.2 (by decide +kernel) (.inl (by decide +kernel)) (by decide +kernel)).1
    refine hmisses.2 (.inr fun o ho => ?_)
    have hmem : 'r' ∈ tabbedText.toList :=
      List.mem_of_mem_drop (ho.1.stands.subset (List.mem_singleton_self 'r'))
    exact absurd hmem (by decide +kernel)

end Program

/-! ### Expanded tabs -/

/-- The column of the offset `o` when each tab in front of it takes up `width` columns. -/
def expandedColumn (width : Nat) (cs : List Char) (o : Nat) : Nat :=
  (lineBefore cs o).countP (· ≠ '\t') + width * (lineBefore cs o).count '\t' + 1

/-- Each tab in front adds a column for every blank it is expanded to, except one. -/
theorem expandedColumn_eq {width : Nat} (hwidth : 1 ≤ width) (cs : List Char) (o : Nat) :
    expandedColumn width cs o =
      columnOf cs o + (width - 1) * (lineBefore cs o).count '\t' := by
  have hlength : (lineBefore cs o).length =
      (lineBefore cs o).count '\t' + (lineBefore cs o).countP (· ≠ '\t') := by
    simpa [List.count] using
      List.length_eq_countP_add_countP (p := (· == '\t')) (l := lineBefore cs o)
  obtain ⟨w, rfl⟩ : ∃ w, width = w + 1 := ⟨width - 1, by omega⟩
  rw [expandedColumn, columnOf, hlength, Nat.add_sub_cancel, Nat.succ_mul]
  omega

namespace Program

variable {u : Program} {sources : Sources} {t : Ref} {text : String}

/-- **Which tokens are found in spite of expanded tabs.** A token that stands at `o` is reported at
    the column where each tab takes up `width` columns, which moves it by a drift. It is found
    nowhere else exactly when

    * there is no drift, or
    * its spelling does not stand at the column that is reported, and the search keeps no
      occurrence, or it keeps that of the token and no other one between it and twice the drift.

    Of a plain spelling on one line the search keeps all whole occurrences. -/
theorem locate_expandedColumn_iff (htext : sources (u.place t).file = .ok text) {width o : Nat}
    (hwidth : 1 ≤ width) (hwhole : StandsWhole text.toList (u.sourceText t).toList o)
    (hline : (u.place t).line = lineOf text.toList o)
    (hcolumn : (u.place t).column = expandedColumn width text.toList o) :
    let cs := text.toList
    let word := (u.sourceText t).toList
    let drift := (width - 1) * (lineBefore cs o).count '\t'
    ((∀ s, u.locate sources t = .ok s → s.start = o) ↔
      drift = 0 ∨ (¬ StandsWhole cs word (o + drift) ∧
        ((∀ p, ¬ IsCandidate cs word (lineOf cs o) p) ∨
          (IsCandidate cs word (lineOf cs o) o ∧
            ∀ p, IsCandidate cs word (lineOf cs o) p → p ≤ o ∨ o + 2 * drift ≤ p)))) ∧
    (IsPlain word → '\n' ∉ word →
      ((∀ s, u.locate sources t = .ok s → s.start = o) ↔
        drift = 0 ∨ (¬ StandsWhole cs word (o + drift) ∧
          ∀ p, IsWholeOnLine cs word (lineOf cs o) p → p ≤ o ∨ o + 2 * drift ≤ p))) := by
  intro cs word drift
  have hword : word ≠ [] := hwhole.ne_nil
  obtain ⟨start, hstart, hsum, -⟩ : ∃ start, lineStart? cs (lineOf cs o) = some start ∧
      o = start + (lineBefore cs o).length ∧ _ :=
    lineStart?_lineOf (lt_length_of_stands hword hwhole.stands).le
  have hreported : (u.place t).column = ((lineBefore cs o).length + 1 + drift : Nat) :=
    hcolumn.trans (congrArg Nat.cast (expandedColumn_eq hwidth cs o))
  have hwanted : start + ((u.place t).column - 1).toNat = o + drift := by omega
  have hmain : (∀ s, u.locate sources t = .ok s → s.start = o) ↔
      drift = 0 ∨ (¬ StandsWhole cs word (o + drift) ∧
        ((∀ p, ¬ IsCandidate cs word (lineOf cs o) p) ∨
          (IsCandidate cs word (lineOf cs o) o ∧
            ∀ p, IsCandidate cs word (lineOf cs o) p → p ≤ o ∨ o + 2 * drift ≤ p))) :=
    (forall_locate_iff htext hword (hline ▸ hstart)).trans
      (anchor?_drifted_iff hstart hwhole hwanted)
  refine ⟨hmain, fun hplain hinside => ?_⟩
  have hself : IsWholeOnLine cs word (lineOf cs o) o := ⟨hwhole, hwhole.stands, rfl, hinside⟩
  have hsome : ¬ ∀ p, ¬ IsWholeOnLine cs word (lineOf cs o) p := fun h => h o hself
  rw [hmain]
  simp only [isCandidate_iff hplain, or_iff_right hsome, and_iff_right hself]

/-- `p` is found in spite of the tab, since it is the only one on its line. -/
theorem locate_expandedColumn_iff_tabbed :
    let sources : Sources := fun _ => .ok tabbedText
    StandsWhole tabbedText.toList ['p'] 2 ∧
      ∀ s, tabbed.locate sources (some 1) = .ok s → s.start = 2 := by
  intro sources
  have hwhole : StandsWhole tabbedText.toList ['p'] 2 := by decide +kernel
  have htext : sources (tabbed.place (some 1)).file = .ok tabbedText := rfl
  have hcolumn : (tabbed.place (some 1)).column = expandedColumn 8 tabbedText.toList 2 := by
    decide +kernel
  have hiff := (locate_expandedColumn_iff htext (by decide) hwhole (by decide +kernel) hcolumn).2
    (.inl (by decide +kernel)) (by decide +kernel)
  refine ⟨hwhole, hiff.2 (.inr ⟨by decide +kernel, fun o ho => .inl ?_⟩)⟩
  have honly : ∀ o < tabbedText.toList.length, StandsWhole tabbedText.toList ['p'] o → o ≤ 2 := by
    decide +kernel
  exact honly o (lt_length_of_stands ho.1.ne_nil ho.1.stands) ho.1

/-- The star in front of `p` is found in front of `q`: the tab moves its column there. -/
theorem expandedStar_misplaced :
    let sources : Sources := fun _ => .ok tabbedText
    let cs := tabbedText.toList
    sources (tabbed.place (some 0)).file = .ok tabbedText ∧ tabbed.sourceText (some 0) = "*" ∧
      StandsWhole cs ['*'] 1 ∧ (tabbed.place (some 0)).line = lineOf cs 1 ∧
      (tabbed.place (some 0)).column = expandedColumn 8 cs 1 ∧
      tabbed.locate sources (some 0) = .ok ⟨"a.c", 6, 7⟩ := by
  refine ⟨rfl, by decide +kernel, by decide +kernel, by decide +kernel, by decide +kernel, ?_⟩
  decide +kernel

end Program

end Indirection
