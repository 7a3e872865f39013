import Indirection.Proofs.Initializing

/-!
# What braces spell

A brace initializer is a list of entries, each with or without a designator; an entry is an
expression or a brace initializer itself. Main definitions:

* `Program.Item`, `Program.Run` — a token or a pair of linked brackets; some of them in a row;
* `Entries` — the entries of a brace initializer, as a tree;
* `Program.Designates` — the designator of an entry, if it has one;
* `Program.Spelled` — the tokens up to a closing brace spell a list of entries;
* `Entries.scalars` — the expressions in a list of entries, through all braces.

Main statements: `elements_of_spelled` — a brace initializer is split into its entries, each with
the member that it designates and the beginning of its value; `expressionFrom_of_run` — an
expression is found with its end; `values_of_spelled` — the values in a brace initializer are its
expressions, in the order of the source.
-/

namespace Indirection

/-- The entries of a brace initializer: behind the name that it designates, an expression by its
    first and its last token, or braces with entries of their own. -/
inductive Entries where
  | nil
  | scalar (name? : Option String) (first last : Nat) (rest : Entries)
  | braces (name? : Option String) (opening close : Nat) (inner rest : Entries)
  deriving DecidableEq

/-- What is told of an entry: the name that it designates, and the ends of its value. -/
structure Head where
  name? : Option String
  value : Ref
  last : Nat

namespace Entries

/-- The entries, braces not entered. -/
def heads : Entries → List Head
  | nil => []
  | scalar name? first last rest => ⟨name?, some first, last⟩ :: rest.heads
  | braces name? opening close _ rest => ⟨name?, some opening, close⟩ :: rest.heads

/-- The expressions in a list of entries, through all braces. -/
def scalars : Entries → List (Nat × Nat)
  | nil => []
  | scalar _ first last rest => (first, last) :: rest.scalars
  | braces _ _ _ inner rest => inner.scalars ++ rest.scalars

/-- The braces in a list of entries, and those in them. -/
def openings : Entries → List Nat
  | nil => []
  | scalar _ _ _ rest => rest.openings
  | braces _ opening _ inner rest => opening :: (inner.openings ++ rest.openings)

end Entries

/-- The stretch between two tokens. -/
def Range.between (ends : Nat × Nat) : Range := ⟨some ends.1, some ends.2⟩

namespace Program

variable {u : Program}

/-! ### Rows of tokens -/

/-- Whether the tokens from `i` to `j` are a pair of brackets with all that is between them, or one
    token that is no bracket and separates nothing. -/
def Item (u : Program) (i j : Nat) : Prop :=
  (u.text (some i) ∈ openers ∧ u.link (some i) = some j ∧ i < j) ∨
  (u.text (some i) ∉ openers ∧ u.text (some i) ∉ terminators ∧ j = i)

/-- Whether the tokens from `first` to `last` are items in a row. -/
inductive Run (u : Program) : (first last : Nat) → Prop
  | one {i j : Nat} (item : u.Item i j) : Run u i j
  | cons {i j last : Nat} (item : u.Item i j) (rest : Run u (j + 1) last) : Run u i last

/-- A token that is no bracket and ends nothing is an item by itself. -/
theorem Item.single {i : Nat} {s : String} (h : u.text (some i) = s)
    (hs : s ∉ openers ∧ s ∉ terminators) : u.Item i i :=
  .inr ⟨h ▸ hs.1, h ▸ hs.2, rfl⟩

/-- A bracket with its partner further on is an item. -/
theorem Item.pair {i j : Nat} {s : String} (h : u.text (some i) = s) (hs : s ∈ openers)
    (hlink : u.link (some i) = some j) (hlt : i < j) : u.Item i j :=
  .inl ⟨h ▸ hs, hlink, hlt⟩

/-- An item ends no earlier than it begins. -/
theorem Item.le {i j : Nat} (h : u.Item i j) : i ≤ j := by
  rcases h with ⟨-, -, hlt⟩ | ⟨-, -, rfl⟩
  · exact Nat.le_of_lt hlt
  · exact Nat.le_refl _

/-- The walk over an item ends at its last token. -/
theorem Item.closing_eq {i j : Nat} (h : u.Item i j) : u.closing i = .ok j := by
  rcases h with ⟨hopener, hlink, -⟩ | ⟨hplain, -, rfl⟩
  · simp [closing, hopener, partner, hlink]
  · simp [closing, hplain]

/-- What ends an element does not begin an item. -/
theorem Item.text_not_mem {i j : Nat} (h : u.Item i j) : u.text (some i) ∉ terminators := by
  rcases h with ⟨hopener, -⟩ | ⟨-, hplain, -⟩
  · have hdisjoint : ∀ s ∈ openers, s ∉ terminators := by decide
    exact hdisjoint _ hopener
  · exact hplain

/-- A run of items ends no earlier than it begins. -/
theorem Run.le {i last : Nat} (h : u.Run i last) : i ≤ last := by
  induction h with
  | one hitem => exact hitem.le
  | cons hitem _ ih => exact Nat.le_trans hitem.le (by omega)

/-- What ends an element is a token of the program. -/
theorem lt_size_of_terminator {i : Nat} (h : u.text (some i) ∈ terminators) : i < u.size := by
  refine lt_size_of_text fun hempty => ?_
  rw [hempty] at h
  exact absurd h (by decide)

/-- The end of an expression that is a row of items in front of a token which ends it. -/
theorem expressionEndWithin_of_run {first last : Nat} (h : u.Run first last)
    (hstop : u.text (some (last + 1)) ∈ terminators) {steps : Nat} (hsteps : last - first < steps)
    (so : Ref) : u.expressionEndWithin steps (some first) so = .ok (some last) := by
  have hlt := lt_size_of_terminator hstop
  induction h generalizing steps so with
  | @one i j hitem =>
    obtain ⟨steps, rfl⟩ : ∃ k, steps = k + 1 := ⟨steps - 1, by omega⟩
    rw [expressionEndWithin, if_neg (by simpa using hitem.text_not_mem)]
    simp only [hitem.closing_eq, next_of_lt hlt]
    cases steps with
    | zero => rfl
    | succ steps => rw [expressionEndWithin, if_pos (by simpa using hstop)]
  | @cons i j last hitem hrest ih =>
    obtain ⟨steps, rfl⟩ : ∃ k, steps = k + 1 := ⟨steps - 1, by omega⟩
    have hle := hitem.le
    have hle' := hrest.le
    rw [expressionEndWithin, if_neg (by simpa using hitem.text_not_mem)]
    simp only [hitem.closing_eq, next_of_lt (show j + 1 < u.size by omega)]
    exact ih hstop (by omega) _ hlt

/-- The expression that begins a run ends where the run does, when an end of the element follows. -/
theorem expressionFrom_of_run {first last : Nat} (h : u.Run first last)
    (hstop : u.text (some (last + 1)) ∈ terminators) :
    u.expressionFrom (some first) = .ok (.between (first, last)) := by
  have hlt := lt_size_of_terminator hstop
  have hle := h.le
  rw [expressionFrom, ref_of_lt (by omega), expressionEndWithin_of_run h hstop (by omega)]
  rfl

/-! ### Entries -/

/-- Whether an entry that begins at `start` has its value at `value`, behind the designator of the
    member `name?` or of a place in an array. -/
inductive Designates (u : Program) : (start value : Nat) → (name? : Option String) → Prop
  | none {i : Nat} (expression : u.text (some i) ∉ [".", "["]) : Designates u i i .none
  | member {i : Nat} (dot : u.text (some i) = ".")
    (plain : u.text (some (i + 1)) ∉ openers ++ terminators) (eq : u.text (some (i + 2)) = "=") :
    Designates u i (i + 3) (some (u.text (some (i + 1))))
  | index {i j : Nat} (bracket : u.text (some i) = "[") (link : u.link (some i) = some j)
    (behind : i < j) (eq : u.text (some (j + 1)) = "=") : Designates u i (j + 2) .none

/-- Whether the tokens from `start` up to the closing brace at `close` spell entries. Commas stand
    between them, and may stand elsewhere. -/
inductive Spelled (u : Program) : (start close : Nat) → Entries → Prop
  | done {close : Nat} (brace : u.text (some close) = "\x7d") : Spelled u close close .nil
  | comma {i close : Nat} {es : Entries} (comma : u.text (some i) = ",")
    (rest : Spelled u (i + 1) close es) : Spelled u i close es
  | scalar {i v last close : Nat} {name? : Option String} {es : Entries}
    (designator : u.Designates i v name?) (value : u.Run v last)
    (expression : u.text (some v) ≠ "\x7b")
    (behind : last + 1 = close ∨ u.text (some (last + 1)) = ",")
    (rest : Spelled u (last + 1) close es) : Spelled u i close (.scalar name? v last es)
  | braces {i v c close : Nat} {name? : Option String} {inner es : Entries}
    (designator : u.Designates i v name?) (brace : u.text (some v) = "\x7b")
    (link : u.link (some v) = some c) (entries : Spelled u (v + 1) c inner)
    (behind : c + 1 = close ∨ u.text (some (c + 1)) = ",") (rest : Spelled u (c + 1) close es) :
    Spelled u i close (.braces name? v c inner es)

/-- Designators stand in front of the value. -/
theorem Designates.le {i v : Nat} {name? : Option String} (h : u.Designates i v name?) :
    i ≤ v := by
  cases h <;> omega

/-- A designator and a value are a row of items. -/
theorem Designates.run {i v last : Nat} {name? : Option String} (h : u.Designates i v name?)
    (hvalue : u.Run v last) : u.Run i last := by
  cases h with
  | none => exact hvalue
  | member hdot hplain heq =>
    simp only [List.mem_append, not_or] at hplain
    exact .cons (.single hdot (by decide)) (.cons (.single rfl hplain)
      (.cons (.single heq (by decide)) hvalue))
  | index hbracket hlink hbehind heq =>
    exact .cons (.pair hbracket (by decide) hlink hbehind)
      (.cons (.single heq (by decide)) hvalue)

/-- Braces that are spelled end no earlier than their first element begins. -/
theorem Spelled.le {start close : Nat} {es : Entries} (h : u.Spelled start close es) :
    start ≤ close := by
  induction h with
  | done => exact Nat.le_refl _
  | comma _ _ ih => omega
  | scalar hdesignator hvalue _ _ _ ih =>
    have := hdesignator.le
    have := hvalue.le
    omega
  | braces hdesignator _ _ _ _ _ ih ih' =>
    have := hdesignator.le
    omega

/-- Braces that are spelled end with the closing brace. -/
theorem Spelled.close_text {start close : Nat} {es : Entries} (h : u.Spelled start close es) :
    u.text (some close) = "\x7d" := by
  induction h with
  | done hbrace => exact hbrace
  | comma _ _ ih => exact ih
  | scalar _ _ _ _ _ ih => exact ih
  | braces _ _ _ _ _ _ _ ih => exact ih

/-- The braces in entries stand among the tokens that spell the entries. -/
theorem Spelled.openings_between {start close : Nat} {es : Entries} (h : u.Spelled start close es)
    {b : Nat} (hb : b ∈ es.openings) : start ≤ b ∧ b < close := by
  induction h with
  | done => cases hb
  | comma _ _ ih =>
    have := ih hb
    omega
  | scalar hdesignator hvalue _ _ _ ih =>
    have := hdesignator.le
    have := hvalue.le
    have := ih hb
    omega
  | braces hdesignator _ _ hinner _ hrest ih ih' =>
    have := hdesignator.le
    have := hinner.le
    have := hrest.le
    rcases List.mem_cons.1 hb with rfl | hb
    · omega
    · rcases List.mem_append.1 hb with hb | hb
      · have := ih hb
        omega
      · have := ih' hb
        omega

/-- The expressions in entries stand among the tokens that spell the entries. -/
theorem Spelled.scalars_between {start close : Nat} {es : Entries} (h : u.Spelled start close es)
    {e : Nat × Nat} (he : e ∈ es.scalars) : start ≤ e.1 ∧ e.2 < close := by
  induction h with
  | done => cases he
  | comma _ _ ih =>
    have := ih he
    omega
  | scalar hdesignator hvalue _ _ hrest ih =>
    have := hdesignator.le
    have := hvalue.le
    have := hrest.le
    rcases List.mem_cons.1 he with rfl | he
    · dsimp only
      omega
    · have := ih he
      omega
  | braces hdesignator _ _ hinner _ hrest ih ih' =>
    have := hdesignator.le
    have := hinner.le
    have := hrest.le
    rcases List.mem_append.1 he with he | he
    · have := ih he
      omega
    · have := ih' he
      omega

/-- The expressions in entries stand one behind the other. -/
theorem Spelled.scalars_pairwise {start close : Nat} {es : Entries}
    (h : u.Spelled start close es) : es.scalars.Pairwise fun a b => a.2 < b.1 := by
  induction h with
  | done => exact .nil
  | comma _ _ ih => exact ih
  | scalar _ _ _ _ hrest ih =>
    refine .cons (fun e he => ?_) ih
    have := hrest.scalars_between he
    dsimp only
    omega
  | braces _ _ _ hinner _ hrest ih ih' =>
    refine List.pairwise_append.2 ⟨ih, ih', fun a ha b hb => ?_⟩
    have := hinner.scalars_between ha
    have := hrest.scalars_between hb
    omega

/-- Behind an entry stands a token at which an expression ends. -/
theorem Spelled.stop {start close last : Nat} {es : Entries} (h : u.Spelled start close es)
    (hbehind : last + 1 = close ∨ u.text (some (last + 1)) = ",") :
    u.text (some (last + 1)) ∈ terminators := by
  rcases hbehind with rfl | hcomma
  · rw [h.close_text]
    decide
  · rw [hcomma]
    decide

/-- The head of the element between two tokens. -/
def head (u : Program) (e : Nat × Nat) : Head :=
  ⟨(u.designated e.1 e.2).1, (u.designated e.1 e.2).2, e.2⟩

/-- The value of an element begins with the element, or behind a designator. -/
theorem designated_cases {first last v : Nat} (h : (u.designated first last).2 = some v) :
    (v = first ∧
        (first = last ∨ u.text (some first) ≠ "." ∨ u.text (some (first + 2)) ≠ "=")) ∨
      (first ≠ last ∧ u.text (some first) = "." ∧ u.text (some (first + 2)) = "=" ∧
        v = first + 3) ∨
      ∃ m, u.text (some first) = "[" ∧ u.link (some first) = some m ∧
        u.text (some (m + 1)) = "=" ∧ v = m + 2 := by
  simp only [designated] at h
  split at h
  · rename_i hlast
    exact .inl ⟨(Option.some.inj h).symm, .inl hlast⟩
  · rename_i hlast
    split at h
    · rename_i hdot
      split at h
      · -- `.name = value`
        rename_i heq
        obtain ⟨c, hc, rfl, -⟩ := next_eq_some_iff.1 h
        obtain ⟨a, ha, rfl, -⟩ := next_eq_some_iff.1 hc
        obtain ⟨f, hf, rfl, -⟩ := next_eq_some_iff.1 ha
        obtain rfl := Option.some.inj hf
        rw [hc] at heq
        exact .inr (.inl ⟨hlast, hdot, heq, rfl⟩)
      · rename_i hne
        refine .inl ⟨(Option.some.inj h).symm, .inr (.inr fun heq => hne ?_)⟩
        have hlt : first + 2 < u.size := lt_size_of_text (by simp [heq])
        rw [next_of_lt (by omega), next_of_lt (by omega), heq]
    · rename_i hdot
      split at h
      · rename_i hbracket
        split at h
        · -- `[index] = value`
          rename_i heq
          obtain ⟨c, hc, rfl, -⟩ := next_eq_some_iff.1 h
          obtain ⟨m, hm, rfl, -⟩ := next_eq_some_iff.1 hc
          rw [hc] at heq
          exact .inr (.inr ⟨m, hbracket, hm, heq, rfl⟩)
        · exact .inl ⟨(Option.some.inj h).symm, .inr (.inl hdot)⟩
      · exact .inl ⟨(Option.some.inj h).symm, .inr (.inl hdot)⟩

/-- A designator is taken off a value. -/
theorem Designates.head_eq {i v last : Nat} {name? : Option String} (h : u.Designates i v name?)
    (hle : v ≤ last) (hlt : last < u.size) : u.head (i, last) = ⟨name?, some v, last⟩ := by
  have hdesignated : u.designated i last = (name?, some v) := by
    unfold designated
    cases h with
    | none hexpression =>
      simp only [List.mem_cons, List.not_mem_nil, or_false, not_or] at hexpression
      simp [hexpression]
    | member hdot _ heq =>
      have hname : u.next (some i) = some (i + 1) := next_of_lt (by omega)
      have hnext : u.next (some (i + 1)) = some (i + 2) := next_of_lt (by omega)
      have hvalue : u.next (some (i + 2)) = some (i + 3) := next_of_lt (by omega)
      rw [if_neg (by omega), if_pos hdot]
      simp only [hname, hnext, heq, if_true, hvalue]
    | @index j hbracket hlink hbehind heq =>
      have hnext : u.next (some j) = some (j + 1) := next_of_lt (by omega)
      have hvalue : u.next (some (j + 1)) = some (j + 2) := next_of_lt (by omega)
      rw [if_neg (by omega), if_neg (by simp [hbracket]), if_pos hbracket]
      simp only [hlink, hnext, heq, if_true, hvalue]
  rw [head, hdesignated]

/-! ### Elements -/

/-- The element that goes on with a row of items ends behind them, or later. At most one step is
    taken for each of their tokens. -/
theorem elementsWithin_of_run {i last close : Nat} (h : u.Run i last) (hlast : last < close)
    (hclose : close < u.size) {steps : Nat} (hsteps : last - i < steps)
    (current : Option (Nat × Nat)) :
    ∃ rest, steps ≤ rest + (last + 1 - i) ∧
      u.elementsWithin close steps (some i) current =
        u.elementsWithin close rest (some (last + 1))
          (some ((current.map Prod.fst).getD i, last)) := by
  have hstep {i j steps : Nat} (hitem : u.Item i j) (hj : j < close)
      (current : Option (Nat × Nat)) :
      u.elementsWithin close (steps + 1) (some i) current =
        u.elementsWithin close steps (some (j + 1)) (some ((current.map Prod.fst).getD i, j)) := by
    have hle := hitem.le
    have hcomma : u.text (some i) ≠ "," := by
      intro htext
      have hno := hitem.text_not_mem
      rw [htext] at hno
      exact hno (by decide)
    rw [elementsWithin, if_neg (by omega), if_neg hcomma]
    simp only [hitem.closing_eq, next_of_lt (show j + 1 < u.size by omega)]
  induction h generalizing steps current with
  | @one i j hitem =>
    obtain ⟨steps, rfl⟩ : ∃ k, steps = k + 1 := ⟨steps - 1, by omega⟩
    have hle := hitem.le
    exact ⟨steps, by omega, hstep hitem hlast current⟩
  | @cons i j last hitem hrest ih =>
    obtain ⟨steps, rfl⟩ : ∃ k, steps = k + 1 := ⟨steps - 1, by omega⟩
    have hle := hitem.le
    have hle' := hrest.le
    obtain ⟨rest, hrest, heq⟩ := ih hlast (by omega : last - (j + 1) < steps)
      (some ((current.map Prod.fst).getD i, j))
    refine ⟨rest, by omega, ?_⟩
    -- the element that the first item has begun or gone on with keeps its beginning
    rw [hstep hitem (by omega), heq]
    rfl

/-- In front of a comma and of the closing brace an element is complete. -/
theorem elementsWithin_some {close i : Nat} (h : i = close ∨ u.text (some i) = ",")
    (steps : Nat) (element : Nat × Nat) {rs : List (Nat × Nat)}
    (hrs : u.elementsWithin close steps (some i) none = .ok rs) :
    u.elementsWithin close steps (some i) (some element) = .ok (element :: rs) := by
  -- the walk does here what it does with no element, and puts the element in front
  cases steps with
  | zero =>
    obtain rfl := Except.ok.inj hrs
    rfl
  | succ steps =>
    rw [elementsWithin] at hrs ⊢
    by_cases hclose : i = close
    · rw [if_pos hclose] at hrs ⊢
      obtain rfl := Except.ok.inj hrs
      rfl
    · have hcomma := h.resolve_left hclose
      rw [if_neg hclose, if_pos hcomma] at hrs ⊢
      cases hothers : u.elementsWithin close steps (u.next (some i)) none with
      | error f => simp [hothers] at hrs
      | ok others =>
        simp only [hothers] at hrs ⊢
        obtain rfl := Except.ok.inj hrs
        rfl

/-- The elements up to a closing brace are the entries that are spelled there. -/
theorem elementsWithin_of_spelled {start close : Nat} {es : Entries}
    (h : u.Spelled start close es) (hclose : close < u.size) {steps : Nat}
    (hsteps : close - start ≤ steps) :
    ∃ rs, u.elementsWithin close steps (some start) none = .ok rs ∧ rs.map u.head = es.heads := by
  -- an entry is one element, whatever its value is
  have hentry {i v last close : Nat} {name? : Option String} {es : Entries}
      (hdesignator : u.Designates i v name?) (hvalue : u.Run v last)
      (hbehind : last + 1 = close ∨ u.text (some (last + 1)) = ",")
      (hrest : u.Spelled (last + 1) close es) (hclose : close < u.size)
      (ih : ∀ {steps : Nat}, close - (last + 1) ≤ steps → ∃ rs,
        u.elementsWithin close steps (some (last + 1)) none = .ok rs ∧ rs.map u.head = es.heads)
      {steps : Nat} (hsteps : close - i ≤ steps) :
      ∃ rs, u.elementsWithin close steps (some i) none = .ok rs ∧
        rs.map u.head = ⟨name?, some v, last⟩ :: es.heads := by
    have hle := hdesignator.le
    have hle' := hvalue.le
    have hle'' := hrest.le
    obtain ⟨rest, hsub, heq⟩ := elementsWithin_of_run (hdesignator.run hvalue)
      (by omega : last < close) hclose (by omega : last - i < steps) none
    obtain ⟨rs, hrs, hheads⟩ := ih (by omega : close - (last + 1) ≤ rest)
    refine ⟨(i, last) :: rs, ?_, ?_⟩
    · rw [heq]
      exact elementsWithin_some hbehind rest (i, last) hrs
    · rw [List.map_cons, hdesignator.head_eq hle' (by omega), hheads]
  induction h generalizing steps with
  | @done close hbrace =>
    refine ⟨[], ?_, rfl⟩
    cases steps with
    | zero => rfl
    | succ steps => rw [elementsWithin, if_pos rfl]; rfl
  | @comma i close es hcomma hrest ih =>
    have hle := hrest.le
    obtain ⟨steps, rfl⟩ : ∃ k, steps = k + 1 := ⟨steps - 1, by omega⟩
    obtain ⟨rs, hrs, hheads⟩ := ih hclose (by omega : close - (i + 1) ≤ steps)
    refine ⟨rs, ?_, hheads⟩
    rw [elementsWithin, if_neg (by omega), if_pos hcomma, next_of_lt (by omega), hrs]
    rfl
  | scalar hdesignator hvalue _ hbehind hrest ih =>
    exact hentry hdesignator hvalue hbehind hrest hclose (ih hclose) hsteps
  | @braces i v c close name? inner es hdesignator hbrace hlink hinner hbehind hrest _ ih =>
    have hle := hinner.le
    have hvalue : u.Run v c := .one (.pair hbrace (by decide) hlink (by omega))
    exact hentry hdesignator hvalue hbehind hrest hclose (ih hclose) hsteps

/-- A brace initializer is split into its entries. -/
theorem elements_of_spelled {o c : Nat} {es : Entries} (hlink : u.link (some o) = some c)
    (h : u.Spelled (o + 1) c es) :
    ∃ rs, u.elements o = .ok rs ∧ rs.map u.head = es.heads := by
  have hclose : c < u.size := lt_size_of_text (by simp [h.close_text])
  have hle := h.le
  obtain ⟨rs, hrs, hheads⟩ := elementsWithin_of_spelled h hclose (by omega : c - (o + 1) ≤ u.size)
  refine ⟨rs, ?_, hheads⟩
  rw [elements, partner, hlink]
  simp only [next_of_lt (show o + 1 < u.size by omega), hrs]

/-! ### Values -/

/-- The values in braces, each element by its head. -/
theorem valuesWithin_of_brace {depth o : Nat} (htext : u.text (some o) = "\x7b")
    {rs : List (Nat × Nat)} (hrs : u.elements o = .ok rs) :
    u.valuesWithin (depth + 1) (some o) =
      .concat (fun h : Head =>
        if u.text h.value = "\x7b" then u.valuesWithin depth h.value
        else .one ⟨h.value, some h.last⟩) (rs.map u.head) := by
  rw [valuesWithin, ref_of_lt (lt_size_of_text (by simp [htext]))]
  simp only [htext, if_true, hrs, Trail.ofExcept, Trail.concat_map]
  rfl

/-- The values in entries are their expressions. -/
theorem concat_values_of_spelled {start close : Nat} {es : Entries} (h : u.Spelled start close es)
    {depth : Nat} (hdepth : close - start ≤ depth) :
    Trail.concat (fun h : Head =>
        if u.text h.value = "\x7b" then u.valuesWithin depth h.value
        else .one ⟨h.value, some h.last⟩) es.heads =
      { items := es.scalars.map Range.between } := by
  induction h generalizing depth with
  | done => rfl
  | comma _ hrest ih => exact ih (by omega)
  | scalar hdesignator hvalue hexpression _ hrest ih =>
    have := hdesignator.le
    have := hvalue.le
    rw [Entries.heads, Trail.concat_cons, if_neg hexpression, ih (by omega),
      Trail.append_of_fault_none (Trail.fault_one _)]
    rfl
  | @braces i v c close name? inner es hdesignator hbrace hlink hinner _ hrest ih ih' =>
    have := hdesignator.le
    have := hinner.le
    have := hrest.le
    -- the braces of an entry lie one step deeper, and are shorter by at least two tokens
    obtain ⟨depth, rfl⟩ : ∃ k, depth = k + 1 := ⟨depth - 1, by omega⟩
    obtain ⟨rs, hrs, hheads⟩ := elements_of_spelled hlink hinner
    rw [Entries.heads, Trail.concat_cons, if_pos hbrace, ih' (by omega),
      valuesWithin_of_brace hbrace hrs, hheads, ih (by omega), Trail.append_of_fault_none rfl,
      Entries.scalars, List.map_append]

/-- The values of a brace initializer are the expressions in it, in the order of the source. -/
theorem values_of_spelled {o c : Nat} {es : Entries} (htext : u.text (some o) = "\x7b")
    (hlink : u.link (some o) = some c) (h : u.Spelled (o + 1) c es) :
    u.values (some o) = { items := es.scalars.map Range.between } := by
  have hclose : c < u.size := lt_size_of_text (by simp [h.close_text])
  obtain ⟨rs, hrs, hheads⟩ := elements_of_spelled hlink h
  rw [values, valuesWithin_of_brace htext hrs, hheads, concat_values_of_spelled h (by omega)]

/-- The value that an expression is, found with its end. -/
theorem values_of_run {first last : Nat} (h : u.Run first last)
    (htext : u.text (some first) ≠ "\x7b") (hstop : u.text (some (last + 1)) ∈ terminators) :
    u.values (some first) = .one (.between (first, last)) := by
  have hlt := lt_size_of_terminator hstop
  have hle := h.le
  rw [values, valuesWithin, ref_of_lt (by omega)]
  simp only [if_neg htext, expressionFrom_of_run h hstop, Trail.ofExcept]

end Program

end Indirection
