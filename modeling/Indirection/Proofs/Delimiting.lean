import Indirection.Proofs.Nesting
import Indirection.Proofs.Splitting

/-!
# Where the value of an element ends

The end of an element of braces is known when the braces are split, and it is found once more when
the value behind its designator is walked through as an expression. Main definitions:

* `Program.IsLinked` — the brackets of each pair are linked to each other;
* `Program.Terminates` — a semicolon outside all inner brackets;
* `Program.NamesBracket` — an opening bracket stands where a designator has its name.

Main statements: `run_of_balanced` — between two places outside all inner brackets stands a row of
items, if neither a comma nor a semicolon stands there outside inner brackets;
`expressionFrom_element` — a value that is walked through ends where its element does, unless an
opening bracket is taken for the name of a member. `bracketName_ends_early` shows such a bracket.
-/

namespace Indirection.Program

variable {u : Program} {c e i j k l m o s v : Nat}

/-! ### Linked brackets -/

/-- Whether the brackets of each pair are linked to each other. -/
def IsLinked (u : Program) : Prop :=
  ∀ i j, u.IsPair i j → u.link (some i) = some j ∧ u.link (some j) = some i

/-- In a balanced program whose pairs are linked, the links of openers lead to their partners. -/
theorem IsLinked.linksPairs (h : u.IsLinked) (hbalanced : u.Balanced 0 u.size) :
    u.LinksPairs := by
  intro i j hopener hlink
  obtain ⟨c, -, hpair⟩ := hbalanced.exists_pair (Nat.zero_le i) (lt_size_of_link hlink) hopener
  obtain rfl := Option.some.inj ((h i c hpair).1.symm.trans hlink)
  exact hpair

/-- Where brackets are balanced and linked, no opening bracket is without a partner. -/
theorem IsLinked.not_isUnlinked (h : u.IsLinked) (hbalanced : u.Balanced 0 u.size)
    (hbraces : u.IsPair o c) (k : Nat) : ¬ u.IsUnlinked o c k := by
  rintro (⟨-, hnone⟩ | ⟨-, -, hopener, -, hnone⟩)
  · simp [(h o c hbraces).1] at hnone
  · have hsize : k < u.size := lt_size_of_text fun hempty => by
      rw [hempty] at hopener
      exact absurd hopener (by decide)
    obtain ⟨c', -, hpair⟩ := hbalanced.exists_pair (Nat.zero_le k) hsize hopener
    simp [(h k c' hpair).1] at hnone

/-! ### From a place outside all inner brackets -/

/-- What is left of whole pairs behind a place outside all of them are whole pairs. -/
theorem Balanced.suffix (h : u.Balanced i c) (hiv : i ≤ v) (hvc : v ≤ c) (ho : o < i)
    (hdepth : u.depth o v = u.depth o i) : u.Balanced v c := by
  induction h with
  | nil =>
    obtain rfl : v = _ := Nat.le_antisymm hvc hiv
    exact .nil
  | @plain i c hplain hrest ih =>
    rcases Nat.eq_or_lt_of_le hiv with rfl | hiv
    · exact .plain hplain hrest
    · have hnext := depth_succ (u := u) ho
      rw [turn_plain hplain] at hnext
      exact ih hiv hvc (by omega) (by omega)
  | @pair p i m c hp hopening hinner hclosing hrest _ ih =>
    rcases Nat.eq_or_lt_of_le hiv with rfl | hiv
    · exact .pair hp hopening hinner hclosing hrest
    · have hpair : u.IsPair i m := ⟨p, hp, hopening, hclosing, hinner⟩
      have hwhole : u.Balanced i (m + 1) := .pair hp hopening hinner hclosing .nil
      -- inside the pair one bracket more is open
      have hmv : m < v := by
        by_contra hle
        have := hpair.depth_lt ho hiv (by omega)
        omega
      have := (hwhole.depth_eq ho).1
      have := hpair.lt
      exact ih hmv hvc (by omega) (by omega)

/-- Whether a semicolon stands outside all brackets that are opened behind `o`. -/
def Terminates (u : Program) (o i : Nat) : Prop := u.text (some i) = ";" ∧ u.depth o i = 0

instance (o i : Nat) : Decidable (u.Terminates o i) := inferInstanceAs (Decidable (_ ∧ _))

/-- **A row of items.** From a place outside all inner brackets to another one, items stand in a
    row, if no comma and no semicolon stands there outside inner brackets. -/
theorem run_of_balanced (h : u.Balanced i c) (hlinked : u.IsLinked) (ho : o < i)
    (hstart : u.depth o i = 0) (his : i < s) (hsc : s ≤ c) (hstop : u.depth o s = 0)
    (hplain : ∀ k, i ≤ k → k < s → ¬ u.Separates o k ∧ ¬ u.Terminates o k) :
    u.Run i (s - 1) := by
  induction h with
  | nil => omega
  | @plain i c hbracket hrest ih =>
    obtain ⟨hcomma, hsemicolon⟩ := hplain i (Nat.le_refl i) his
    have hitem : u.Item i i := by
      refine .inr ⟨fun hopener => hbracket (mem_brackets_of_opener hopener), fun hend => ?_, rfl⟩
      have hends : ∀ t ∈ terminators, t = "," ∨ t = ";" ∨ t ∈ brackets := by decide
      rcases hends _ hend with hend | hend | hend
      · exact hcomma ⟨hend, hstart⟩
      · exact hsemicolon ⟨hend, hstart⟩
      · exact hbracket hend
    have hnext := depth_succ (u := u) ho
    rw [turn_plain hbracket] at hnext
    rcases Nat.eq_or_lt_of_le (show i + 1 ≤ s from his) with rfl | hlt
    · exact .one hitem
    · exact .cons hitem (ih (by omega) (by omega) hlt hsc fun k hk => hplain k (by omega))
  | @pair p i m c hp hopening hinner hclosing hrest _ ih =>
    have hpair : u.IsPair i m := ⟨p, hp, hopening, hclosing, hinner⟩
    have hwhole : u.Balanced i (m + 1) := .pair hp hopening hinner hclosing .nil
    have hitem : u.Item i m := .inl ⟨hpair.opener, (hlinked i m hpair).1, hpair.lt⟩
    -- the other place is not inside the pair
    have hms : m < s := by
      by_contra hle
      have := hpair.depth_lt ho his (by omega)
      omega
    have hbehind := (hwhole.depth_eq ho).1
    have := hpair.lt
    rcases Nat.eq_or_lt_of_le (show m + 1 ≤ s from hms) with rfl | hlt
    · exact .one hitem
    · exact .cons hitem (ih (by omega) (by omega) hlt hsc fun k hk => hplain k (by omega))

/-- What whole pairs begin with: a token that is no bracket, or a pair. -/
theorem Balanced.head (h : u.Balanced i c) (hic : i < c) :
    (u.text (some i) ∉ brackets ∧ u.Balanced (i + 1) c) ∨
      ∃ m, u.IsPair i m ∧ u.Balanced (m + 1) c := by
  cases h with
  | nil => omega
  | plain hplain hrest => exact .inl ⟨hplain, hrest⟩
  | pair hp hopening hinner hclosing hrest =>
    exact .inr ⟨_, ⟨_, hp, hopening, hclosing, hinner⟩, hrest⟩

/-- Behind a token that is no opening bracket there are whole pairs as well. -/
theorem Balanced.tail (h : u.Balanced i c) (hic : i < c) (hopener : u.text (some i) ∉ openers) :
    u.Balanced (i + 1) c := by
  rcases h.head hic with ⟨-, hrest⟩ | ⟨m, hpair, -⟩
  · exact hrest
  · exact absurd hpair.opener hopener

/-- In front of a balanced stretch that ends at depth zero, the depth is zero too. -/
theorem Balanced.depth_eq_zero (h : u.Balanced i c) (ho : o < i) (hend : u.depth o c = 0) :
    u.depth o i = 0 :=
  (h.depth_eq ho).1.symm.trans hend

namespace IsPair

/-- The partner of an opening bracket stands at depth zero. -/
theorem depth_end (h : u.IsPair o c) : u.depth o c = 0 := by
  rw [(h.balanced.depth_eq (Nat.lt_succ_self o)).1, depth_start]

/-- The partner of an opening bracket ends an element. -/
theorem terminates (h : u.IsPair o c) : u.text (some c) ∈ terminators := by
  obtain ⟨p, hp, -, hclosing, -⟩ := h
  have hends : ∀ p ∈ bracketPairs, p.2 ∈ terminators := by decide
  exact hclosing ▸ hends p hp

end IsPair

/-- Behind a separator the depth is zero. -/
theorem Separates.depth_succ (h : u.Separates o i) (ho : o < i) : u.depth o (i + 1) = 0 := by
  have hcomma : u.text (some i) ∉ brackets := by
    rw [h.1]
    decide
  rw [Program.depth_succ ho, turn_plain hcomma, h.2, Int.add_zero]

/-! ### Values and their ends -/

/-- Whether an opening bracket stands where the designator that begins at `i` has its name. -/
def NamesBracket (u : Program) (i : Nat) : Prop :=
  u.text (some i) = "." ∧ u.text (some (i + 1)) ∈ openers ∧ u.text (some (i + 2)) = "="

instance (i : Nat) : Decidable (u.NamesBracket i) := inferInstanceAs (Decidable (_ ∧ _ ∧ _))

section Element

variable (hbraces : u.IsPair o c) (hlinked : u.IsLinked) {e : Nat × Nat}
  (he : e ∈ u.segments o c)

include hbraces he

/-- An element begins outside all inner brackets. -/
theorem balanced_first : u.Balanced e.1 c := by
  obtain ⟨hlt, hle, hlast, -, hbefore, -⟩ := mem_segments hbraces.lt he
  refine hbraces.balanced.suffix hlt (by omega) (Nat.lt_succ_self o) ?_
  rw [depth_start]
  rcases hbefore with hbefore | hbefore
  · rw [hbefore, depth_start]
  · have hcomma : o < e.1 - 1 := by
      by_contra hle
      obtain rfl : e.1 - 1 = o := by omega
      have hopener := hbraces.opener
      rw [hbefore.1] at hopener
      exact absurd hopener (by decide)
    have hnext := hbefore.depth_succ hcomma
    rwa [Nat.sub_add_cancel (by omega)] at hnext

/-- Behind an element stands what ends an expression, outside all inner brackets. -/
theorem segment_stop : u.depth o (e.2 + 1) = 0 ∧ u.text (some (e.2 + 1)) ∈ terminators := by
  obtain ⟨-, -, -, -, -, hbehind⟩ := mem_segments hbraces.lt he
  rcases hbehind with hbehind | hbehind
  · rw [hbehind]
    exact ⟨hbraces.depth_end, hbraces.terminates⟩
  · refine ⟨hbehind.2, ?_⟩
    rw [hbehind.1]
    decide

include hlinked in
/-- The value of an element begins outside all inner brackets, unless a bracket stands where a
    designator has its name. -/
theorem balanced_value (hv : (u.designated e.1 e.2).2 = some v) (hve : v ≤ e.2)
    (hname : ¬ u.NamesBracket e.1) : u.Balanced v c := by
  have hfirst := balanced_first hbraces he
  obtain ⟨-, hle, hlast, -⟩ := mem_segments hbraces.lt he
  rcases designated_cases hv with ⟨rfl, -⟩ | ⟨-, hdot, heq, rfl⟩ | ⟨m, hbracket, hm, heq, rfl⟩
  · exact hfirst
  · have hname' : u.text (some (e.1 + 1)) ∉ openers := fun hopener => hname ⟨hdot, hopener, heq⟩
    have hbehind := (hfirst.tail (by omega) (by rw [hdot]; decide)).tail (by omega) hname'
    exact hbehind.tail (by omega) (by rw [heq]; decide)
  · rcases hfirst.head (by omega) with ⟨hplain, -⟩ | ⟨m', hpair, hbehind⟩
    · rw [hbracket] at hplain
      exact absurd hplain (by decide)
    · obtain rfl := Option.some.inj ((hlinked _ _ hpair).1.symm.trans hm)
      exact hbehind.tail (by omega) (by rw [heq]; decide)

include hlinked in
/-- From a place outside all inner brackets an expression goes on to the end of its element. -/
theorem expressionFrom_of_balanced (hplain : ∀ k, o < k → k < c → ¬ u.Terminates o k)
    (hv : u.Balanced v c) (hev : e.1 ≤ v) (hve : v ≤ e.2) :
    u.expressionFrom (some v) = .ok ⟨some v, some e.2⟩ := by
  obtain ⟨hlt, -, hlast, hseparates, -⟩ := mem_segments hbraces.lt he
  obtain ⟨hdepth, hstop⟩ := segment_stop hbraces he
  have hrun : u.Run v (e.2 + 1 - 1) :=
    run_of_balanced hv hlinked (by omega) (hv.depth_eq_zero (by omega) hbraces.depth_end)
      (by omega) hlast hdepth fun k hvk hke =>
        ⟨hseparates k (by omega) (by omega), hplain k (by omega) (by omega)⟩
  exact expressionFrom_of_run hrun hstop

end Element

/-- An expression that begins at what ends one has no other token. -/
theorem expressionFrom_of_terminator (h : u.text (some v) ∈ terminators) :
    u.expressionFrom (some v) = .ok ⟨some v, some v⟩ := by
  have hsize := lt_size_of_terminator h
  obtain ⟨n, hn⟩ : ∃ n, u.size = n + 1 := ⟨u.size - 1, by omega⟩
  rw [expressionFrom, ref_of_lt hsize, hn, expressionEndWithin, if_pos (by simpa using h)]

/-- An expression among whole pairs does not go on to what ends it behind them. -/
theorem Balanced.expressionEnd_lt (h : u.Balanced i m) (hlinked : u.IsLinked)
    (hstop : u.text (some m) ∈ terminators) {steps : Nat} (hk : k < m)
    (hend : u.expressionEndWithin steps (some i) (some k) = .ok (some l)) : l < m := by
  have hsize := lt_size_of_terminator hstop
  have hlast {k : Nat} (hk : k < m) (hend : Except.ok (some k) = Except.ok (ε := Fault) (some l)) :
      l < m := Option.some.inj (Except.ok.inj hend) ▸ hk
  induction h generalizing k steps with
  | nil =>
    cases steps with
    | zero => exact hlast hk hend
    | succ steps =>
      rw [expressionEndWithin, if_pos (by simpa using hstop)] at hend
      exact hlast hk hend
  | @plain i m hplain hrest ih =>
    have hle := hrest.le
    cases steps with
    | zero => exact hlast hk hend
    | succ steps =>
      rw [expressionEndWithin] at hend
      split at hend
      · exact hlast hk hend
      · rename_i hgoes
        have hitem : u.Item i i :=
          .inr ⟨fun hopener => hplain (mem_brackets_of_opener hopener), by simpa using hgoes, rfl⟩
        simp only [hitem.closing_eq, next_of_lt (show i + 1 < u.size by omega)] at hend
        exact ih hstop hle hend hsize hlast
  | @pair p i c m hp hopening hinner hclosing hrest _ ih =>
    have hpair : u.IsPair i c := ⟨p, hp, hopening, hclosing, hinner⟩
    have hle := hrest.le
    cases steps with
    | zero => exact hlast hk hend
    | succ steps =>
      -- the walk jumps to the closing bracket, which stands in front of `m` as well
      have hitem : u.Item i c := .inl ⟨hpair.opener, (hlinked i c hpair).1, hpair.lt⟩
      rw [expressionEndWithin, if_neg (by simpa using hitem.text_not_mem)] at hend
      simp only [hitem.closing_eq, next_of_lt (show c + 1 < u.size by omega)] at hend
      exact ih hstop hle hend hsize hlast

/-- The value behind a bracket that is taken for a name stands in the pair which this opens, or is
    the closing bracket. -/
theorem exists_of_namesBracket (hbraces : u.IsPair o c) {e : Nat × Nat} (he : e ∈ u.segments o c)
    (hname : u.NamesBracket e.1) (hv : (u.designated e.1 e.2).2 = some v) (hve : v ≤ e.2) :
    ∃ m ≤ e.2, u.Balanced v m ∧ u.text (some m) ∈ terminators := by
  obtain ⟨hdot, hopener, heq⟩ := hname
  obtain ⟨-, hle, hlast, -⟩ := mem_segments hbraces.lt he
  obtain ⟨rfl, hsame | hdot' | heq'⟩ | ⟨-, -, -, rfl⟩ | ⟨-, hbracket, -⟩ := designated_cases hv
  · have hstop := (segment_stop hbraces he).2
    rw [← hsame] at hstop
    have hdisjoint : ∀ s ∈ openers, s ∉ terminators := by decide
    exact absurd hstop (hdisjoint _ hopener)
  · exact absurd hdot hdot'
  · exact absurd heq heq'
  · have hbehind := (balanced_first hbraces he).tail (by omega) (by rw [hdot]; decide)
    obtain ⟨m, hpair⟩ : ∃ m, u.IsPair (e.1 + 1) m := by
      rcases hbehind.head (by omega) with ⟨hplain, -⟩ | ⟨m, hpair, -⟩
      · exact absurd (mem_brackets_of_opener hopener) hplain
      · exact ⟨m, hpair⟩
    have hlt : e.1 + 2 < m := by
      have hstop := hpair.terminates
      rcases Nat.eq_or_lt_of_le (show e.1 + 2 ≤ m from hpair.lt) with rfl | hlt
      · rw [heq] at hstop
        exact absurd hstop (by decide)
      · exact hlt
    exact ⟨m, ((segment_whole hbraces he hpair).1 ⟨by omega, by omega⟩).2,
      hpair.balanced.tail hlt (by rw [heq]; decide), hpair.terminates⟩
  · rw [hdot] at hbracket
    exact absurd hbracket (by decide)

/-- An expression that ends with an element is not in a pair of brackets that ends there or before,
    unless it is the closing bracket. -/
theorem eq_of_expressionFrom (hlinked : u.IsLinked) (hin : u.Balanced v m)
    (hstop : u.text (some m) ∈ terminators) (hml : m ≤ l)
    (hend : u.expressionFrom (some v) = .ok ⟨some v, some l⟩) : v = m := by
  rcases Nat.eq_or_lt_of_le hin.le with hvm | hvm
  · exact hvm
  · have hsize := lt_size_of_terminator hstop
    rw [expressionFrom, ref_of_lt (by omega)] at hend
    split at hend
    · rename_i last hscan
      obtain rfl : last = some l := (Range.mk.inj (Except.ok.inj hend)).2
      have := hin.expressionEnd_lt hlinked hstop hvm hscan
      omega
    · cases hend

/-- The changes for the values in an initializer that is no braces are those for its expression. -/
theorem narrowInitializer_of_expressionFrom {r : Range} (hsize : v < u.size)
    (htext : u.text (some v) ≠ "\x7b") (hend : u.expressionFrom (some v) = .ok r)
    (type? : Option String) : u.narrowInitializer type? (some v) = u.narrowRange type? r := by
  have hvalues : u.values (some v) = .one r := by
    rw [values, valuesWithin, ref_of_lt hsize]
    simp only [if_neg htext, hend, Trail.ofExcept]
  rw [narrowInitializer, hvalues, Trail.bind]
  simp only [Trail.items_one, Trail.concat_cons, Trail.concat_nil, Trail.append_nil,
    Trail.fault_one]
  exact Trail.append_nil _

/-- **Both ways to the end of a value agree.** Let the brackets of a program be nested and linked in
    pairs. The elements of any braces are found, and if no semicolon stands in the braces outside
    all inner brackets, then for each element and the beginning of its value, unless this stands
    behind the element:

    * the value begins in the element, and the expression that begins there ends where the element
      does, except when an opening bracket stands behind the `.` of the designator, where its name
      should be, and the value has more tokens than one;
    * where it does so, the changes for the initializer that begins with the value are those for
      the stretch from there to the end of the element, unless they are braces. -/
theorem expressionFrom_element (h : u.Balanced 0 u.size) (hlinked : u.IsLinked)
    (hbrace : u.text (some o) = "\x7b") :
    ∃ c, u.IsPair o c ∧ u.elements o = .ok (u.segments o c) ∧
      ((∀ k, o < k → k < c → ¬ u.Terminates o k) →
        ∀ e ∈ u.segments o c, ∀ v, (u.designated e.1 e.2).2 = some v → v ≤ e.2 →
          e.1 ≤ v ∧
          (u.expressionFrom (some v) = .ok ⟨some v, some e.2⟩ ↔
            ¬ u.NamesBracket e.1 ∨ v = e.2) ∧
          (¬ u.NamesBracket e.1 ∨ v = e.2 → u.text (some v) ≠ "\x7b" → ∀ type?,
            u.narrowInitializer type? (some v) = u.narrowRange type? ⟨some v, some e.2⟩)) := by
  have hopener : u.text (some o) ∈ openers := mem_openers_of_brace hbrace
  obtain ⟨c, hc, hbraces⟩ :=
    h.exists_pair (Nat.zero_le o) (lt_size_of_text (by simp [hbrace])) hopener
  refine ⟨c, hbraces, elements_of_linked hbraces (hlinked.linksPairs h)
    (hlinked.not_isUnlinked h hbraces), fun hplain e he v hv hve => ?_⟩
  obtain ⟨-, -, hlast, -⟩ := mem_segments hbraces.lt he
  have hev : e.1 ≤ v := by
    rcases designated_cases hv with
      ⟨rfl, -⟩ | ⟨-, -, -, rfl⟩ | ⟨m, hbracket, hm, -, rfl⟩
    · exact Nat.le_refl _
    · omega
    · have := (hlinked.linksPairs h e.1 m (hbracket ▸ by decide) hm).lt
      omega
  have hagree : u.expressionFrom (some v) = .ok ⟨some v, some e.2⟩ ↔
      ¬ u.NamesBracket e.1 ∨ v = e.2 := by
    by_cases hname : u.NamesBracket e.1
    · -- the value stands in the pair that is taken for a name, or at its end
      obtain ⟨m, hme, hin, hstop⟩ := exists_of_namesBracket hbraces he hname hv hve
      have hvm := hin.le
      refine ⟨fun hend => .inr ?_, fun hlast => ?_⟩
      · obtain rfl := eq_of_expressionFrom hlinked hin hstop hme hend
        rw [expressionFrom_of_terminator hstop] at hend
        exact Option.some.inj (Range.mk.inj (Except.ok.inj hend)).2
      · obtain rfl := hlast.resolve_left (not_not_intro hname)
        obtain rfl : m = e.2 := Nat.le_antisymm hme hvm
        exact expressionFrom_of_terminator hstop
    · have hvalue := balanced_value hbraces hlinked he hv hve hname
      exact iff_of_true (expressionFrom_of_balanced hbraces hlinked he hplain hvalue hev hve)
        (.inl hname)
  exact ⟨hev, hagree, fun hname htext type? =>
    narrowInitializer_of_expressionFrom (by have := lt_size_of_link (hlinked o c hbraces).2; omega)
      htext (hagree.2 hname) type?⟩

/-- Brackets are linked in pairs when those of some pairs are, and all that open are among them. -/
theorem isLinked_of_pairs (pairs : List (Nat × Nat))
    (hpairs : ∀ p ∈ pairs, u.IsPair p.1 p.2 ∧ u.link (some p.1) = some p.2 ∧
      u.link (some p.2) = some p.1)
    (hall : ∀ i < u.size, u.text (some i) ∈ openers → i ∈ pairs.map Prod.fst) : u.IsLinked := by
  intro i j hpair
  have hsize : i < u.size := lt_size_of_text fun hempty => by
    have hopener := hpair.opener
    rw [hempty] at hopener
    exact absurd hopener (by decide)
  obtain ⟨p, hp, rfl⟩ := List.mem_map.1 (hall i hsize hpair.opener)
  obtain ⟨hpair', hlinks⟩ := hpairs p hp
  exact hpair.unique hpair' ▸ hlinks

/-- The tokens of the text `{ .f = g(a, b), [1] = (x) + y }`. -/
def designatedValues : Program where
  tokens := #[{ text := "\x7b", link := some 20 }, { text := "." }, { text := "f", isName := true },
    { text := "=" }, { text := "g", parent := some 5, isName := true },
    { text := "(", link := some 9, operand1 := some 4, operand2 := some 7 },
    { text := "a", parent := some 7, isName := true },
    { text := ",", operand1 := some 6, operand2 := some 8, parent := some 5 },
    { text := "b", parent := some 7, isName := true }, { text := ")", link := some 5 },
    { text := "," }, { text := "[", link := some 13 }, { text := "1", isNumber := true },
    { text := "]", link := some 11 }, { text := "=" }, { text := "(", link := some 17 },
    { text := "x", parent := some 18, isName := true }, { text := ")", link := some 15 },
    { text := "+", operand1 := some 16, operand2 := some 19 },
    { text := "y", parent := some 18, isName := true }, { text := "\x7d", link := some 0 }]

/-- The values `g(a, b)` and `(x) + y` behind their designators end where the elements do. -/
theorem expressionFrom_element_designatedValues :
    designatedValues.Balanced 0 designatedValues.size ∧ designatedValues.IsLinked ∧
      designatedValues.text (some 0) = "\x7b" ∧
      designatedValues.elements 0 = .ok [(1, 9), (11, 19)] ∧
      designatedValues.expressionFrom (some 4) = .ok ⟨some 4, some 9⟩ ∧
      designatedValues.expressionFrom (some 15) = .ok ⟨some 15, some 19⟩ ∧
      ∀ type?, designatedValues.narrowInitializer type? (some 15) =
        designatedValues.narrowRange type? ⟨some 15, some 19⟩ := by
  have harguments : designatedValues.Balanced 6 9 :=
    .plain (by decide) (.plain (by decide) (.plain (by decide) .nil))
  have hindex : designatedValues.Balanced 12 13 := .plain (by decide) .nil
  have hoperand : designatedValues.Balanced 16 17 := .plain (by decide) .nil
  have hbehind : designatedValues.Balanced 10 20 :=
    .plain (by decide) (.pair (p := ("[", "]")) (by decide) rfl hindex rfl (.plain (by decide)
      (.pair (p := ("(", ")")) (by decide) rfl hoperand rfl
        (.plain (by decide) (.plain (by decide) .nil)))))
  have hinner : designatedValues.Balanced 1 20 :=
    .plain (by decide) (.plain (by decide) (.plain (by decide) (.plain (by decide)
      (.pair (p := ("(", ")")) (by decide) rfl harguments rfl hbehind))))
  have hwhole : designatedValues.Balanced 0 designatedValues.size :=
    .pair (p := ("\x7b", "\x7d")) (by decide) rfl hinner rfl .nil
  have hbraces : designatedValues.IsPair 0 20 := ⟨("\x7b", "\x7d"), by decide, rfl, rfl, hinner⟩
  have hlinked : designatedValues.IsLinked := by
    refine isLinked_of_pairs [(0, 20), (5, 9), (11, 13), (15, 17)] ?_ (by decide +kernel)
    have hlinks : ∀ p ∈ [(0, 20), (5, 9), (11, 13), (15, 17)],
        designatedValues.link (some p.1) = some p.2 ∧
          designatedValues.link (some p.2) = some p.1 := by decide +kernel
    intro p hp
    refine ⟨?_, hlinks p hp⟩
    simp only [List.mem_cons, List.not_mem_nil, or_false] at hp
    rcases hp with rfl | rfl | rfl | rfl
    · exact hbraces
    · exact ⟨("(", ")"), by decide, rfl, rfl, harguments⟩
    · exact ⟨("[", "]"), by decide, rfl, rfl, hindex⟩
    · exact ⟨("(", ")"), by decide, rfl, rfl, hoperand⟩
  have hsegments : designatedValues.segments 0 20 = [(1, 9), (11, 19)] := by decide +kernel
  have hplain : ∀ k < 20, 0 < k → ¬ designatedValues.Terminates 0 k := by decide +kernel
  obtain ⟨c, hpair, helements, hvalues⟩ := expressionFrom_element hwhole hlinked (o := 0) rfl
  obtain rfl := hpair.unique hbraces
  rw [hsegments] at helements hvalues
  have hvalues := hvalues fun k hk hlt => hplain k hlt hk
  obtain ⟨-, hcall, -⟩ := hvalues (1, 9) (by decide) 4 (by decide +kernel) (by decide)
  obtain ⟨-, hsum, hnarrow⟩ := hvalues (11, 19) (by decide) 15 (by decide +kernel) (by decide)
  have hname : ¬ designatedValues.NamesBracket 11 := by decide +kernel
  exact ⟨hwhole, hlinked, rfl, helements, hcall.2 (.inl (by decide +kernel)),
    hsum.2 (.inl hname), hnarrow (.inl hname) (by decide)⟩

/-- The tokens of the text `{ .(= p) + 1 }`. -/
def bracketName : Program where
  tokens := #[{ text := "\x7b", link := some 8 }, { text := "." }, { text := "(", link := some 5 },
    { text := "=" }, { text := "p", parent := some 6, isName := true },
    { text := ")", link := some 2 }, { text := "+", operand1 := some 4, operand2 := some 7 },
    { text := "1", parent := some 6, isNumber := true }, { text := "\x7d", link := some 0 }]

/-- The parenthesis is taken for the name of a member: the value begins at `p`, and as an expression
    it ends there, while the element goes on. What is narrowed is `p` in one way, and the sum with
    `p` as its operand in the other. -/
theorem bracketName_ends_early :
    bracketName.Balanced 0 bracketName.size ∧ bracketName.IsLinked ∧
      bracketName.text (some 0) = "\x7b" ∧ bracketName.elements 0 = .ok [(1, 7)] ∧
      (∀ k, 0 < k → k < 8 → ¬ bracketName.Terminates 0 k) ∧
      (bracketName.designated 1 7).2 = some 4 ∧ 1 ≤ 4 ∧ 4 ≤ 7 ∧
      bracketName.expressionFrom (some 4) = .ok ⟨some 4, some 4⟩ ∧
      bracketName.narrowInitializer none (some 4) =
        .one (.change (.insertBefore (some 4) "*")) ∧
      bracketName.narrowRange none ⟨some 4, some 7⟩ =
        { items := [.change (.insertBefore (some 4) "*("),
            .change (.insertAfter (some 7) ")")] } := by
  have hparentheses : bracketName.Balanced 3 5 := .plain (by decide) (.plain (by decide) .nil)
  have hinner : bracketName.Balanced 1 8 :=
    .plain (by decide) (.pair (p := ("(", ")")) (by decide) rfl hparentheses rfl
      (.plain (by decide) (.plain (by decide) .nil)))
  have hlinked : bracketName.IsLinked := by
    refine isLinked_of_pairs [(0, 8), (2, 5)] ?_ (by decide +kernel)
    have hlinks : ∀ p ∈ [(0, 8), (2, 5)], bracketName.link (some p.1) = some p.2 ∧
        bracketName.link (some p.2) = some p.1 := by decide +kernel
    intro p hp
    refine ⟨?_, hlinks p hp⟩
    simp only [List.mem_cons, List.not_mem_nil, or_false] at hp
    rcases hp with rfl | rfl
    · exact ⟨("\x7b", "\x7d"), by decide, rfl, rfl, hinner⟩
    · exact ⟨("(", ")"), by decide, rfl, rfl, hparentheses⟩
  have hplain : ∀ k < 8, 0 < k → ¬ bracketName.Terminates 0 k := by decide +kernel
  exact ⟨.pair (p := ("\x7b", "\x7d")) (by decide) rfl hinner rfl .nil, hlinked, rfl,
    by decide +kernel, fun k hk hlt => hplain k hlt hk, by decide +kernel, by decide, by decide,
    by decide +kernel, rfl, rfl⟩

end Indirection.Program
