import Indirection.Proofs.Layering
import Indirection.Proofs.Nesting
import Mathlib.Data.Set.Card

/-!
# The parentheses that a reduction writes

A value that is more than a primary expression gets a parenthesis in front of it and one behind it
when it is dereferenced. Main definitions:

* `Program.LosesLevel`, `Program.IsWrapped` — a value loses a level, and gets parentheses for it;
* `Program.wrapStarts`, `Program.wrapStops` — the places in a file where such values begin, each
  with what is written there, and the places where they end;
* `Script.written` — how often the edits of a file write a character.

Main statements: `text_of_mem_plan` — only the changes for wrapped values write a parenthesis at the
end of a text or alone; `written_parentheses` — the parentheses counted by places;
`parentheses_balance_iff` — the edits of a file open as many parentheses as they close exactly when
no two wrapped values that begin at different places end at one. `chainedCopy_parenthesis_lost`
shows two that do: the parenthesis behind both is recorded once.
-/

namespace Indirection

/-! ### Texts -/

/-- Whether a text opens as many parentheses as it closes. -/
def HasPairedParentheses (text : String) : Prop := text.toList.count '(' = text.toList.count ')'

/-- Whether a text ends with a parenthesis that opens. -/
def endsOpen (text : String) : Bool := text.toList.getLast? = some '('

/-- How often the edits of a file write the character `c`. -/
def Script.written (s : Script) (path : String) (c : Char) : Nat :=
  ((s.recorded path).map fun e => e.text.toList.count c).sum

/-- Whether a text opens one parenthesis too many exactly when it ends with it, and closes one too
    many exactly when it is nothing else. -/
def CountsParentheses (text : String) : Prop :=
  text.toList.count '(' + (if text = ")" then 1 else 0) =
    text.toList.count ')' + if endsOpen text then 1 else 0

instance (text : String) : Decidable (CountsParentheses text) :=
  inferInstanceAs (Decidable (_ = _))

/-- The parentheses of texts that count right are told by the numbers of those two kinds. -/
theorem sum_count_parentheses {es : List Edit} (h : ∀ e ∈ es, CountsParentheses e.text) :
    (es.map fun e => e.text.toList.count '(').sum + es.countP (·.text = ")") =
      (es.map fun e => e.text.toList.count ')').sum + es.countP (endsOpen ·.text) := by
  induction es with
  | nil => rfl
  | cons e rest ih =>
    obtain ⟨hfirst, hrest⟩ := List.forall_mem_cons.1 h
    have hothers := ih hrest
    rw [CountsParentheses] at hfirst
    simp only [List.map_cons, List.sum_cons, List.countP_cons, decide_eq_true_eq]
    omega

/-- A set has as many elements as there are entries of a list that name them, each once. -/
theorem ncard_eq_countP {α β : Type} {S : Set β} {l : List α} {p : α → Bool} {f : α → β}
    (hnodup : l.Nodup) (hinj : ∀ a ∈ l, ∀ b ∈ l, p a = true → p b = true → f a = f b → a = b)
    (hmem : ∀ b, b ∈ S ↔ ∃ a ∈ l, p a = true ∧ f a = b) : S.Finite ∧ S.ncard = l.countP p := by
  classical
  have hset : S = ((l.filter p).map f).toFinset := by
    ext b
    simp only [hmem, List.coe_toFinset, List.mem_map, List.mem_filter, Set.mem_ofPred_eq, and_assoc]
  have hnodup' : ((l.filter p).map f).Nodup := by
    refine List.Nodup.map_on ?_ (hnodup.filter p)
    intro a ha b hb
    obtain ⟨ha, hpa⟩ := List.mem_filter.1 ha
    obtain ⟨hb, hpb⟩ := List.mem_filter.1 hb
    exact hinj a ha b hb hpa hpb
  refine ⟨hset ▸ Finset.finite_toSet _, ?_⟩
  rw [hset, Set.ncard_coe_finset, List.toFinset_card_of_nodup hnodup', List.length_map,
    List.countP_eq_length_filter]

namespace Program

variable {u : Program} {sources : Sources} {d : Decl}

/-! ### Values that get parentheses -/

/-- Whether the value at `root`, which the tokens of `range` spell, loses a level for `d` when
    values of its type are written with the cast `type?`. -/
inductive LosesLevel (u : Program) (d : Decl) : (type? : Option String) → (root : Nat) →
    Range → Prop
  | walked {i root : Nat} {range : Range} (lt : i < u.size) (value : u.NarrowsAt d i root range) :
    LosesLevel u d (u.knownBefore d (i + 1)).type? root range
  | supplied {root : Nat} {range : Range} (value : u.Supplied d root range) :
    LosesLevel u d (u.declaredType d) root range

/-- Whether the tokens of `range` spell a value that loses a level for `d` in parentheses, with the
    text `opening` in front of it. -/
def IsWrapped (u : Program) (d : Decl) (range : Range) (opening : String) : Prop :=
  ∃ type? root cast, u.LosesLevel d type? root range ∧
    u.narrowing type? (some root) = .dereference cast true ∧ opening = "*" ++ cast ++ "("

/-- Whether the type of `d`, as it is written in a cast, opens as many parentheses as it closes. -/
def HasPairedType (u : Program) (d : Decl) : Prop :=
  ∀ type, u.declaredType d = some type → HasPairedParentheses type

/-- The places of the file `path` at which wrapped values begin, each with the text in front. -/
def wrapStarts (u : Program) (sources : Sources) (d : Decl) (path : String) :
    Set (Nat × String) :=
  {p | ∃ range span, u.IsWrapped d range p.2 ∧ u.locate sources range.first = .ok span ∧
    span.path = path ∧ span.start = p.1}

/-- The places of the file `path` at which wrapped values end. -/
def wrapStops (u : Program) (sources : Sources) (d : Decl) (path : String) : Set Nat :=
  {stop | ∃ range opening span, u.IsWrapped d range opening ∧
    u.locate sources range.last = .ok span ∧ span.path = path ∧ span.stop = stop}

/-- Whether a wrapped value reaches in the file `path` from a start, with the text in front, to the
    place `stop`. -/
def WrapsFrom (u : Program) (sources : Sources) (d : Decl) (path : String) (start : Nat × String)
    (stop : Nat) : Prop :=
  ∃ range first last, u.IsWrapped d range start.2 ∧ u.locate sources range.first = .ok first ∧
    u.locate sources range.last = .ok last ∧ first.path = path ∧ last.path = path ∧
    first.start = start.1 ∧ last.stop = stop

/-- A type that is known of a value is the declared one. -/
theorem LosesLevel.declaredType {type? : Option String} {root : Nat} {range : Range}
    (h : u.LosesLevel d type? root range) : ∀ type ∈ type?, u.declaredType d = some type := by
  cases h with
  | walked hi => exact fun type htype => declaredType_of_known hi htype
  | supplied => exact fun type htype => htype

/-- A cast is the declared type in parentheses, or nothing. -/
theorem cast_of_narrowing {type? : Option String} {root : Ref} {cast : String} {wrap : Bool}
    (h : u.narrowing type? root = .dereference cast wrap) :
    cast = "" ∨ ∃ type ∈ type?, cast = "(" ++ type ++ ")" := by
  unfold narrowing at h
  grind

/-- The changes for a value that loses a level are changes of the plan. -/
theorem LosesLevel.mem_plan (h : (u.plan d).fault = none) {type? : Option String} {root : Nat}
    {range : Range} (hvalue : u.LosesLevel d type? root range) {c : Change}
    (hc : .change c ∈ (u.narrow type? (some root) range).items) :
    .change c ∈ (u.plan d).items := by
  cases hvalue with
  | walked hi hvalue => exact (Program.mem_plan h).2 (.inl ⟨_, hi, .narrowed hvalue hc⟩)
  | supplied hvalue => exact (Program.mem_plan h).2 (.inr ⟨root, range, hvalue, hc⟩)

/-- All other changes of the plan write nothing, a `.` or an `&`. -/
theorem losesLevel_of_mem_plan (h : (u.plan d).fault = none) {c : Change}
    (hc : .change c ∈ (u.plan d).items) :
    (∃ type? root range, u.LosesLevel d type? root range ∧
      .change c ∈ (u.narrow type? (some root) range).items) ∨ c.text ∈ ["", ".", "&"] := by
  rcases (Program.mem_plan h).1 hc with ⟨i, hi, harises⟩ | ⟨root, range, hvalue, hc⟩
  · cases harises with
    | narrowed hvalue hc => exact .inl ⟨_, _, _, .walked hi hvalue, hc⟩
    | star | dereferenced | indexed | arrow | other =>
      exact .inr (by simp [Change.text, Change.remove])
  · exact .inl ⟨_, root, range, .supplied hvalue, hc⟩

/-! ### What is written for them -/

/-- A cast opens no parenthesis at its end. -/
theorem LosesLevel.cast (hpaired : u.HasPairedType d) {type? : Option String} {root : Nat}
    {range : Range} (h : u.LosesLevel d type? root range) {cast : String} {wrap : Bool}
    (hkind : u.narrowing type? (some root) = .dereference cast wrap) :
    HasPairedParentheses cast ∧ endsOpen ("*" ++ cast) = false := by
  rcases cast_of_narrowing hkind with rfl | ⟨type, htype, rfl⟩
  · exact ⟨rfl, by decide⟩
  · have hcount := hpaired type (h.declaredType type htype)
    refine ⟨?_, ?_⟩
    · simpa [HasPairedParentheses, List.count_cons] using hcount
    · simp [endsOpen, List.getLast?_cons]

/-- What is written in front of a value, with a parenthesis at its end or without. -/
theorem opening_text {cast : String} (hcount : HasPairedParentheses cast)
    (hend : endsOpen ("*" ++ cast) = false) (wrap : Bool) :
    let text := "*" ++ cast ++ if wrap then "(" else ""
    CountsParentheses text ∧ text ≠ ")" ∧ endsOpen text = wrap := by
  intro text
  have hne : text ≠ ")" := by
    have hstar : BeginsWithStar text := by simp [text, BeginsWithStar]
    exact hstar.ne.2.2.2
  have hopen : endsOpen text = wrap := by
    cases wrap with
    | false => simpa [text] using hend
    | true =>
      have hlist : text.toList = ('*' :: cast.toList) ++ ['('] := by simp [text]
      simp only [endsOpen, hlist, List.getLast?_concat, decide_true]
  refine ⟨?_, hne, hopen⟩
  rw [CountsParentheses, hopen, if_neg hne]
  rw [HasPairedParentheses] at hcount
  cases wrap <;> simp [text, hcount]

/-- The texts of the changes for a value: the one that ends with an open parenthesis is in front of
    it, the one that is a closing parenthesis behind it. -/
theorem LosesLevel.text (hpaired : u.HasPairedType d) {type? : Option String} {root : Nat}
    {range : Range} (h : u.LosesLevel d type? root range) {c : Change}
    (hc : .change c ∈ (u.narrow type? (some root) range).items) :
    CountsParentheses c.text ∧
      (endsOpen c.text = true →
        u.IsWrapped d range c.text ∧ c = .insertBefore range.first c.text) ∧
      (c.text = ")" →
        (∃ opening, u.IsWrapped d range opening) ∧ c = .insertAfter range.last ")") := by
  rcases mem_narrow.1 hc with ⟨-, rfl⟩ | ⟨text, hopening, rfl⟩ | ⟨cast, hkind, rfl⟩
  · exact ⟨by simp [Change.text, Change.remove, CountsParentheses, endsOpen],
      fun hopen => absurd hopen (by simp [Change.text, Change.remove, endsOpen]),
      fun hclose => absurd hclose (by simp [Change.text, Change.remove])⟩
  · cases hkind : u.narrowing type? (some root) with
    | dropAddress | keep => simp [hkind, Narrowing.opening] at hopening
    | dereference cast wrap =>
      obtain rfl : "*" ++ cast ++ (if wrap then "(" else "") = text := by
        simpa [hkind, Narrowing.opening] using hopening
      obtain ⟨hcount, hend⟩ := h.cast hpaired hkind
      obtain ⟨hcounts, hne, hopen⟩ := opening_text hcount hend wrap
      refine ⟨hcounts, fun hwrap => ⟨⟨type?, root, cast, h, ?_, ?_⟩, rfl⟩,
        fun hclose => absurd hclose hne⟩
      · rw [hkind, hopen.symm.trans hwrap]
      · rw [hopen.symm.trans hwrap]
        rfl
  · exact ⟨by simp [Change.text, CountsParentheses, endsOpen],
      fun hopen => absurd hopen (by simp [Change.text, endsOpen]),
      fun _ => ⟨⟨_, type?, root, cast, h, hkind, rfl⟩, rfl⟩⟩

/-- The changes for a wrapped value are in the plan. -/
theorem IsWrapped.mem_plan (h : (u.plan d).fault = none) {range : Range} {opening : String}
    (hwrapped : u.IsWrapped d range opening) :
    .change (.insertBefore range.first opening) ∈ (u.plan d).items ∧
      .change (.insertAfter range.last ")") ∈ (u.plan d).items := by
  obtain ⟨type?, root, cast, hvalue, hkind, rfl⟩ := hwrapped
  refine ⟨hvalue.mem_plan h ?_, hvalue.mem_plan h ?_⟩ <;> simp [narrow, hkind]

/-- The texts of the changes of a plan. -/
theorem text_of_mem_plan (h : (u.plan d).fault = none)
    (hpaired : u.HasPairedType d) {c : Change}
    (hc : .change c ∈ (u.plan d).items) :
    CountsParentheses c.text ∧
      (endsOpen c.text = true →
        ∃ range, u.IsWrapped d range c.text ∧ c = .insertBefore range.first c.text) ∧
      (c.text = ")" → ∃ range opening, u.IsWrapped d range opening ∧
        c = .insertAfter range.last ")") := by
  rcases losesLevel_of_mem_plan h hc with ⟨type?, root, range, hvalue, hc⟩ | hplain
  · obtain ⟨hcounts, hopen, hclose⟩ := hvalue.text hpaired hc
    refine ⟨hcounts, fun h => ⟨range, hopen h⟩, fun h => ?_⟩
    obtain ⟨⟨opening, hwrapped⟩, hchange⟩ := hclose h
    exact ⟨range, opening, hwrapped, hchange⟩
  · simp only [List.mem_cons, List.not_mem_nil, or_false] at hplain
    rcases hplain with heq | heq | heq <;>
    · rw [heq]
      exact ⟨by decide, fun h => absurd h (by decide), fun h => absurd h (by decide)⟩

/-! ### Recorded edits -/

/-- What is inserted behind a token stands at the token's end and covers nothing. -/
theorem place?_insertAfter {t : Ref} {text : String} {r : Replacement} :
    u.place? sources (.insertAfter t text) = .ok r ↔
      ∃ span, u.locate sources t = .ok span ∧ r = ⟨span.path, span.stop, span.stop, text⟩ := by
  simp only [place?, bind, Except.bind]
  cases u.locate sources t with
  | error f => simp
  | ok span => simp [eq_comm]

/-- A recorded text that ends with an open parenthesis is inserted where a wrapped value begins. -/
theorem recorded_opening (h : (u.performPlan sources d).fault = none)
    (hpaired : u.HasPairedType d) {path : String}
    {e : Edit} (he : e ∈ (u.performPlan sources d).script.recorded path)
    (hopen : endsOpen e.text = true) :
    e.stop = e.start ∧ (e.start, e.text) ∈ u.wrapStarts sources d path := by
  obtain ⟨c, hc, hr⟩ := (performPlan_recorded_iff h).1 ⟨e, he, rfl, rfl, rfl⟩
  have htext : e.text = c.text := place?_text hr
  obtain ⟨range, hwrapped, hchange⟩ :=
    (text_of_mem_plan (performPlan_recordAll h).1 hpaired hc).2.1 (htext ▸ hopen)
  rw [hchange, ← htext] at hr
  obtain ⟨span, hspan, heq⟩ := place?_insertBefore.1 hr
  obtain ⟨rfl, hstart, hstop, -⟩ := Replacement.mk.inj heq
  exact ⟨hstop.trans hstart.symm, range, span, htext ▸ hwrapped, hspan, rfl, hstart.symm⟩

/-- A recorded closing parenthesis is inserted where a wrapped value ends. -/
theorem recorded_closing (h : (u.performPlan sources d).fault = none)
    (hpaired : u.HasPairedType d) {path : String}
    {e : Edit} (he : e ∈ (u.performPlan sources d).script.recorded path) (hclose : e.text = ")") :
    e.stop = e.start ∧ e.start ∈ u.wrapStops sources d path := by
  obtain ⟨c, hc, hr⟩ := (performPlan_recorded_iff h).1 ⟨e, he, rfl, rfl, rfl⟩
  obtain ⟨range, opening, hwrapped, rfl⟩ :=
    (text_of_mem_plan (performPlan_recordAll h).1 hpaired hc).2.2
      ((place?_text hr).symm.trans hclose)
  obtain ⟨span, hspan, heq⟩ := place?_insertAfter.1 hr
  obtain ⟨rfl, hstart, hstop, -⟩ := Replacement.mk.inj heq
  exact ⟨hstop.trans hstart.symm, range, opening, span, hwrapped, hspan, rfl, hstart.symm⟩

/-- The places where wrapped values begin are those of the recorded texts that end open. -/
theorem mem_wrapStarts_iff (h : (u.performPlan sources d).fault = none)
    (hpaired : u.HasPairedType d) {path : String}
    (p : Nat × String) :
    p ∈ u.wrapStarts sources d path ↔
      ∃ e ∈ (u.performPlan sources d).script.recorded path,
        endsOpen e.text = true ∧ (e.start, e.text) = p := by
  constructor
  · obtain ⟨start, text⟩ := p
    rintro ⟨range, span, hwrapped, hspan, rfl, rfl⟩
    have hopen : endsOpen text = true := by
      obtain ⟨type?, root, cast, hvalue, hkind, rfl⟩ := hwrapped
      obtain ⟨hcount, hend⟩ := hvalue.cast hpaired hkind
      exact (opening_text hcount hend true).2.2
    have hchange := (hwrapped.mem_plan (performPlan_recordAll h).1).1
    obtain ⟨e, he, hstart, -, rfl⟩ := (performPlan_recorded_iff h).2
      ⟨_, hchange, place?_insertBefore.2 ⟨span, hspan, rfl⟩⟩
    exact ⟨e, he, hopen, by rw [hstart]⟩
  · rintro ⟨e, he, hopen, rfl⟩
    exact (recorded_opening h hpaired he hopen).2

/-- The places where wrapped values end are those of the recorded closing parentheses. -/
theorem mem_wrapStops_iff (h : (u.performPlan sources d).fault = none)
    (hpaired : u.HasPairedType d) {path : String}
    (stop : Nat) :
    stop ∈ u.wrapStops sources d path ↔
      ∃ e ∈ (u.performPlan sources d).script.recorded path, e.text = ")" ∧ e.start = stop := by
  constructor
  · rintro ⟨range, opening, span, hwrapped, hspan, rfl, rfl⟩
    have hchange := (hwrapped.mem_plan (performPlan_recordAll h).1).2
    obtain ⟨e, he, hstart, -, htext⟩ := (performPlan_recorded_iff h).2
      ⟨_, hchange, place?_insertAfter.2 ⟨span, hspan, rfl⟩⟩
    exact ⟨e, he, htext, hstart⟩
  · rintro ⟨e, he, hclose, rfl⟩
    exact (recorded_closing h hpaired he hclose).2

/-- The parentheses that a reduction writes into a file, counted by the places where wrapped values
    begin and end. -/
theorem written_parentheses (h : (u.performPlan sources d).fault = none)
    (hpaired : u.HasPairedType d) (path : String) :
    (u.wrapStarts sources d path).Finite ∧ (u.wrapStops sources d path).Finite ∧
      (u.performPlan sources d).script.written path '(' + (u.wrapStops sources d path).ncard =
        (u.performPlan sources d).script.written path ')' +
          (u.wrapStarts sources d path).ncard := by
  obtain ⟨hnodup, hsame⟩ := performPlan_recorded_nodup h path
  -- an insertion is told by its place and its text
  obtain ⟨hstarts, hstartCount⟩ := ncard_eq_countP (p := fun e : Edit => endsOpen e.text)
    (f := fun e => (e.start, e.text)) hnodup (fun e he f hf hopen hopen' heq => by
      obtain ⟨hstart, htext⟩ := Prod.mk.inj heq
      refine hsame e he f hf ?_
      rw [Edit.replacement, Edit.replacement, (recorded_opening h hpaired he hopen).1,
        (recorded_opening h hpaired hf hopen').1, hstart, htext])
    (mem_wrapStarts_iff h hpaired)
  obtain ⟨hstops, hstopCount⟩ := ncard_eq_countP (p := fun e : Edit => e.text = ")")
    (f := Edit.start) hnodup (fun e he f hf hclose hclose' heq => by
      have hclose : e.text = ")" := of_decide_eq_true hclose
      have hclose' : f.text = ")" := of_decide_eq_true hclose'
      refine hsame e he f hf ?_
      rw [Edit.replacement, Edit.replacement, (recorded_closing h hpaired he hclose).1,
        (recorded_closing h hpaired hf hclose').1, heq, hclose, hclose'])
    (fun stop => by simpa using mem_wrapStops_iff h hpaired stop)
  refine ⟨hstarts, hstops, ?_⟩
  rw [hstartCount, hstopCount]
  refine sum_count_parentheses fun e he => ?_
  obtain ⟨c, hc, hr⟩ := (performPlan_recorded_iff h).1 ⟨e, he, rfl, rfl, rfl⟩
  have htext : e.text = c.text := place?_text hr
  rw [htext]
  exact (text_of_mem_plan (performPlan_recordAll h).1 hpaired hc).1

/-- A reduction that runs through finds both ends of every wrapped value. -/
theorem IsWrapped.located (h : (u.performPlan sources d).fault = none) {range : Range}
    {opening : String} (hwrapped : u.IsWrapped d range opening) :
    ∃ first last, u.locate sources range.first = .ok first ∧
      u.locate sources range.last = .ok last := by
  obtain ⟨hopen, hclose⟩ := hwrapped.mem_plan (performPlan_recordAll h).1
  obtain ⟨r, hr⟩ := (performPlan_holds h).2 _ hopen
  obtain ⟨r', hr'⟩ := (performPlan_holds h).2 _ hclose
  obtain ⟨first, hfirst, -⟩ := place?_insertBefore.1 hr
  obtain ⟨last, hlast, -⟩ := place?_insertAfter.1 hr'
  exact ⟨first, last, hfirst, hlast⟩

/-- The starts and the stops of the wrapped values in the file `path`, each start with the text in
    front. -/
def wraps (u : Program) (sources : Sources) (d : Decl) (path : String) :
    Set ((Nat × String) × Nat) :=
  {p | u.WrapsFrom sources d path p.1 p.2}

section OneFile

/-! The wrapped values of a file have their starts and their stops there, if each of them begins and
ends in one file. -/

variable (h : (u.performPlan sources d).fault = none)
  (hfile : ∀ range opening first last, u.IsWrapped d range opening →
    u.locate sources range.first = .ok first → u.locate sources range.last = .ok last →
    first.path = last.path)

include h hfile

/-- The wraps begin where wrapped values begin. -/
theorem image_fst_wraps (path : String) :
    Prod.fst '' u.wraps sources d path = u.wrapStarts sources d path := by
  ext ⟨start, opening⟩
  constructor
  · rintro ⟨⟨_, stop⟩, ⟨range, first, last, hwrapped, hfirst, -, hpath, -, hstart, -⟩, rfl⟩
    exact ⟨range, first, hwrapped, hfirst, hpath, hstart⟩
  · rintro ⟨range, first, hwrapped, hfirst, hpath, hstart⟩
    obtain ⟨-, last, -, hlast⟩ := hwrapped.located h
    have hsame := hfile range opening first last hwrapped hfirst hlast
    exact ⟨((start, opening), last.stop), ⟨range, first, last, hwrapped, hfirst, hlast, hpath,
      hsame.symm.trans hpath, hstart, rfl⟩, rfl⟩

/-- The wraps end where wrapped values end. -/
theorem image_snd_wraps (path : String) :
    Prod.snd '' u.wraps sources d path = u.wrapStops sources d path := by
  ext stop
  constructor
  · rintro ⟨⟨⟨_, opening⟩, _⟩, ⟨range, first, last, hwrapped, -, hlast, -, hpath, -, hstop⟩, rfl⟩
    exact ⟨range, opening, last, hwrapped, hlast, hpath, hstop⟩
  · rintro ⟨range, opening, last, hwrapped, hlast, hpath, hstop⟩
    obtain ⟨first, -, hfirst, -⟩ := hwrapped.located h
    have hsame := hfile range opening first last hwrapped hfirst hlast
    exact ⟨((first.start, opening), stop), ⟨range, first, last, hwrapped, hfirst, hlast,
      hsame.trans hpath, hpath, rfl, hstop⟩, rfl⟩

end OneFile

/-- **Balance of parentheses.** When a reduction runs through, its edits of a file open more
    parentheses than they close by as many as there are more places where wrapped values begin than
    places where they end. If each of these values begins and ends in one file, and no two of them
    begin at one place with one text and end at different places, then the parentheses are balanced
    exactly when no two of them begin at different places and end at one. -/
theorem parentheses_balance_iff (h : (u.performPlan sources d).fault = none)
    (hpaired : u.HasPairedType d) (path : String) :
    (u.performPlan sources d).script.written path '(' + (u.wrapStops sources d path).ncard =
        (u.performPlan sources d).script.written path ')' +
          (u.wrapStarts sources d path).ncard ∧
      ((∀ range opening first last, u.IsWrapped d range opening →
          u.locate sources range.first = .ok first → u.locate sources range.last = .ok last →
          first.path = last.path) →
        (∀ start stop stop', u.WrapsFrom sources d path start stop →
          u.WrapsFrom sources d path start stop' → stop = stop') →
        ((u.performPlan sources d).script.written path '(' =
            (u.performPlan sources d).script.written path ')' ↔
          ∀ start start' stop, u.WrapsFrom sources d path start stop →
            u.WrapsFrom sources d path start' stop → start = start')) := by
  obtain ⟨hfinite, hfinite', hcount⟩ := written_parentheses h hpaired path
  refine ⟨hcount, fun hfile hdetermined => ?_⟩
  have hstarts := image_fst_wraps h hfile path
  have hstops := image_snd_wraps h hfile path
  have hwraps : (u.wraps sources d path).Finite := by
    refine (hfinite.prod hfinite').subset ?_
    rw [← hstarts, ← hstops]
    exact fun p hp => ⟨⟨p, hp, rfl⟩, p, hp, rfl⟩
  have hsame : (u.wrapStarts sources d path).ncard = (u.wraps sources d path).ncard := by
    rw [← hstarts]
    refine Set.InjOn.ncard_image ?_
    rintro ⟨start, stop⟩ hp ⟨start', stop'⟩ hp' rfl
    rw [hdetermined start stop stop' hp hp']
  have hbalanced : (u.performPlan sources d).script.written path '(' =
      (u.performPlan sources d).script.written path ')' ↔
        (Prod.snd '' u.wraps sources d path).ncard = (u.wraps sources d path).ncard := by
    rw [hstops, ← hsame]
    omega
  -- each stop is that of one wrapped value if and only if no stop is lost
  rw [hbalanced, Set.ncard_image_iff hwraps]
  constructor
  · intro hinj start start' stop hp hp'
    have hmem : (start, stop) ∈ u.wraps sources d path := hp
    have hmem' : (start', stop) ∈ u.wraps sources d path := hp'
    exact (Prod.mk.inj (hinj hmem hmem' rfl)).1
  · rintro hdistinct ⟨start, stop⟩ hp ⟨start', stop'⟩ hp' rfl
    rw [hdistinct start start' stop hp hp']

/-- The tokens of the text `int **p = (p = q + 1) + 2;`. -/
def nestedAdvance : Program where
  tokens := #[{ text := "int", file := "a.c", line := 1, column := 1, isName := true },
    { text := "*", file := "a.c", line := 1, column := 5 },
    { text := "*", file := "a.c", line := 1, column := 6 },
    { text := "p", file := "a.c", line := 1, column := 7, varId := 1, var := some 0,
      parent := some 4, isName := true },
    { text := "=", file := "a.c", line := 1, column := 9, operand1 := some 3, operand2 := some 12,
      isAssignmentOp := true },
    { text := "(", file := "a.c", line := 1, column := 11, link := some 11 },
    { text := "p", file := "a.c", line := 1, column := 12, varId := 1, var := some 0,
      parent := some 7, isName := true },
    { text := "=", file := "a.c", line := 1, column := 14, operand1 := some 6, operand2 := some 9,
      parent := some 12, isAssignmentOp := true },
    { text := "q", file := "a.c", line := 1, column := 16, parent := some 9, isName := true },
    { text := "+", file := "a.c", line := 1, column := 18, operand1 := some 8,
      operand2 := some 10, parent := some 7 },
    { text := "1", file := "a.c", line := 1, column := 20, parent := some 9, isNumber := true },
    { text := ")", file := "a.c", line := 1, column := 21, link := some 5 },
    { text := "+", file := "a.c", line := 1, column := 23, operand1 := some 7,
      operand2 := some 13, parent := some 4 },
    { text := "2", file := "a.c", line := 1, column := 25, parent := some 12, isNumber := true },
    { text := ";", file := "a.c", line := 1, column := 26 }]
  vars := #[{ nameToken := some 3, typeStart := some 0 }]

/-- The reduction of `p` to `int *p = *((p = *(q + 1)) + 2);` wraps two values, one inside the
    other, that end at different places. -/
theorem parentheses_balance_iff_nestedAdvance :
    let d : Decl := { key := 1, name := "p", level := 2 }
    let sources : Sources := fun _ => .ok "int **p = (p = q + 1) + 2;"
    (nestedAdvance.performPlan sources d).fault = none ∧ nestedAdvance.HasPairedType d ∧
      (nestedAdvance.performPlan sources d).script.recorded "a.c" =
        [⟨5, 6, "", 1⟩, ⟨10, 10, "*(", 2⟩, ⟨25, 25, ")", 3⟩, ⟨15, 15, "*(", 4⟩,
          ⟨20, 20, ")", 5⟩] ∧
      (nestedAdvance.performPlan sources d).script.written "a.c" '(' = 2 ∧
      (nestedAdvance.performPlan sources d).script.written "a.c" ')' = 2 ∧
      (nestedAdvance.wrapStops sources d "a.c").ncard =
        (nestedAdvance.wrapStarts sources d "a.c").ncard := by
  intro d sources
  have hfault : (nestedAdvance.performPlan sources d).fault = none := by decide +kernel
  have hdeclared : nestedAdvance.declaredType d = some "int **" := by decide +kernel
  have hpaired : nestedAdvance.HasPairedType d := by
    intro type htype
    obtain rfl := Option.some.inj (hdeclared.symm.trans htype)
    rfl
  have hopened : (nestedAdvance.performPlan sources d).script.written "a.c" '(' = 2 := by
    decide +kernel
  have hclosed : (nestedAdvance.performPlan sources d).script.written "a.c" ')' = 2 := by
    decide +kernel
  have hcount := (parentheses_balance_iff hfault hpaired "a.c").1
  exact ⟨hfault, hpaired, by decide +kernel, hopened, hclosed, by omega⟩

/-- The tokens of the text `int **d = g = d = (int **)q;`. -/
def chainedCopy : Program where
  tokens := #[{ text := "int", file := "a.c", line := 1, column := 1, isName := true },
    { text := "*", file := "a.c", line := 1, column := 5 },
    { text := "*", file := "a.c", line := 1, column := 6 },
    { text := "d", file := "a.c", line := 1, column := 7, varId := 1, var := some 0,
      valueType := some 0, parent := some 4, isName := true },
    { text := "=", file := "a.c", line := 1, column := 9, valueType := some 0, operand1 := some 3,
      operand2 := some 6, isAssignmentOp := true },
    { text := "g", file := "a.c", line := 1, column := 11, valueType := some 0, parent := some 6,
      isName := true },
    { text := "=", file := "a.c", line := 1, column := 13, valueType := some 0, operand1 := some 5,
      operand2 := some 8, parent := some 4, isAssignmentOp := true },
    { text := "d", file := "a.c", line := 1, column := 15, varId := 1, var := some 0,
      valueType := some 0, parent := some 8, isName := true },
    { text := "=", file := "a.c", line := 1, column := 17, valueType := some 0, operand1 := some 7,
      operand2 := some 9, parent := some 6, isAssignmentOp := true },
    { text := "(", file := "a.c", line := 1, column := 19, valueType := some 0, link := some 13,
      operand1 := some 14, parent := some 8, isCast := true },
    { text := "int", file := "a.c", line := 1, column := 20, isName := true },
    { text := "*", file := "a.c", line := 1, column := 24 },
    { text := "*", file := "a.c", line := 1, column := 25 },
    { text := ")", file := "a.c", line := 1, column := 26, link := some 9 },
    { text := "q", file := "a.c", line := 1, column := 27, valueType := some 0, parent := some 9,
      isName := true },
    { text := ";", file := "a.c", line := 1, column := 28 }]
  vars := #[{ nameToken := some 3, typeStart := some 0 }]
  valueTypes := #[{ type := some "int", pointer := 2 }]

/-- The reduction of `d` writes `int *d = *(g = d = *((int **)q);`: the values `g = d = (int **)q`
    and `(int **)q` end at one token, and only one of their closing parentheses is kept. All tokens
    stand where they are reported, the brackets are nested, and none is a name. -/
theorem chainedCopy_parenthesis_lost :
    let d : Decl := { key := 1, name := "d", level := 2 }
    let sources : Sources := fun _ => .ok "int **d = g = d = (int **)q;"
    (chainedCopy.performPlan sources d).fault = none ∧ chainedCopy.HasNestedBrackets ∧
      chainedCopy.HasUnnamedBrackets ∧
      (∀ i < chainedCopy.size,
        ((chainedCopy.locate sources (some i)).toOption.map fun s => (s.start : Int) + 1) =
          some (chainedCopy.place (some i)).column) ∧
      (chainedCopy.performPlan sources d).script.recorded "a.c" =
        [⟨5, 6, "", 1⟩, ⟨10, 10, "*(", 2⟩, ⟨27, 27, ")", 3⟩, ⟨18, 18, "*(", 4⟩] ∧
      (chainedCopy.performPlan sources d).script.written "a.c" '(' = 2 ∧
      (chainedCopy.performPlan sources d).script.written "a.c" ')' = 1 := by
  intro d sources
  have hnested : chainedCopy.HasNestedBrackets := by
    refine ⟨?_, by decide +kernel⟩
    constructor <;> decide +kernel
  have hunnamed : chainedCopy.HasUnnamedBrackets := by
    unfold HasUnnamedBrackets
    decide +kernel
  exact ⟨by decide +kernel, hnested, hunnamed, by decide +kernel, by decide +kernel,
    by decide +kernel, by decide +kernel⟩

end Program

end Indirection
