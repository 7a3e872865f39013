import Indirection.Proofs.Anchoring
import Indirection.Proofs.Lines

/-!
# Searching a line for a word

The search through a line goes on behind each occurrence, and drops those that are parts of longer
words only then. A word that it drops might hide one that overlaps it. Main definitions:

* `StandsOnLine`, `StandsWhole` — whether a word stands at an offset inside a line, and whether it
  is no part of a longer one;
* `IsWholeOnLine` — both, which is what a search should find;
* `IsMet` — whether a search without overlap meets an occurrence, and `IsCandidate` — whether it
  goes on to keep it;
* `IsPlain` — words of one character, or of letters, digits and low lines alone;
* `IsClosest` — the first offset with a property among those at the least distance.

Main statements: `mem_occurrences_lineAt` — the search in a line meets what a search without overlap
does; `isCandidate_iff` — no whole occurrence of a plain word is hidden; `closest?_isClosest` — the
one it picks is the closest; `anchor?_of_standsWhole`, `anchor?_of_not_standsWhole` — what the two
searches for a token find; `anchor?_drifted_iff` — when they find a word that is looked for too far
on.
-/

namespace Indirection

variable {cs word : List Char} {start o k : Nat}

/-! ### Occurrences -/

/-- No occurrence stands in what is skipped. -/
theorem le_of_mem_occurrences {p skip offset : Nat} (h : p ∈ occurrences word skip offset cs) :
    offset + skip ≤ p := by
  induction cs generalizing skip offset with
  | nil => cases skip <;> simp [occurrences] at h
  | cons c cs ih =>
    cases skip with
    | succ skip =>
      have := ih (by simpa [occurrences] using h)
      omega
    | zero =>
      rw [occurrences] at h
      split at h
      · rcases List.mem_cons.1 h with rfl | h
        · exact Nat.le_refl _
        · have := ih h
          omega
      · have := ih h
        omega

/-- Occurrences follow each other without overlap. -/
theorem pairwise_occurrences (hword : word ≠ []) {skip offset : Nat} :
    (occurrences word skip offset cs).Pairwise fun q p => q + word.length ≤ p := by
  have hpos : 0 < word.length := List.length_pos_iff.2 hword
  induction cs generalizing skip offset with
  | nil => cases skip <;> simp [occurrences]
  | cons c cs ih =>
    cases skip with
    | succ skip => simpa [occurrences] using ih
    | zero =>
      rw [occurrences]
      split
      · refine List.pairwise_cons.2 ⟨fun p hp => ?_, ih⟩
        have := le_of_mem_occurrences hp
        omega
      · exact ih

/-- Occurrences do not overlap. -/
theorem le_of_lt_occurrences (hword : word ≠ []) {p q skip offset : Nat}
    (hp : p ∈ occurrences word skip offset cs) (hq : q ∈ occurrences word skip offset cs)
    (hlt : q < p) : q + word.length ≤ p := by
  obtain ⟨i, hi, rfl⟩ := List.getElem_of_mem hp
  obtain ⟨j, hj, rfl⟩ := List.getElem_of_mem hq
  have hapart : (occurrences word skip offset cs).Pairwise fun q p => q + word.length ≤ p :=
    pairwise_occurrences hword
  have hpairwise := List.pairwise_iff_getElem.1 hapart
  rcases Nat.lt_trichotomy i j with hij | rfl | hij
  · have := hpairwise i j hi hj hij
    omega
  · omega
  · exact hpairwise j i hj hi hij

/-- An occurrence is left out only if one that begins in front of it reaches into it. -/
theorem occurrences_complete (hword : word ≠ []) (offset : Nat) {skip : Nat} (hk : skip ≤ k)
    (hstands : word <+: cs.drop k) : offset + k ∈ occurrences word skip offset cs ∨
      ∃ q ∈ occurrences word skip offset cs, q < offset + k ∧ offset + k < q + word.length := by
  induction cs generalizing skip offset k with
  | nil => exact absurd (List.prefix_nil.1 (by simpa using hstands)) hword
  | cons c cs ih =>
    -- what stands behind the first character is looked for in the rest
    have later (skip k : Nat) (hk : skip ≤ k) (hstands : word <+: cs.drop k) :
        offset + (k + 1) ∈ occurrences word skip (offset + 1) cs ∨
          ∃ q ∈ occurrences word skip (offset + 1) cs,
            q < offset + (k + 1) ∧ offset + (k + 1) < q + word.length := by
      have h := ih (offset + 1) hk hstands
      rwa [Nat.add_right_comm, Nat.add_assoc] at h
    cases skip with
    | succ skip =>
      obtain ⟨k, rfl⟩ : ∃ m, k = m + 1 := ⟨k - 1, by omega⟩
      rw [occurrences]
      exact later skip k (by omega) hstands
    | zero =>
      rw [occurrences]
      cases k with
      | zero =>
        have hprefix : word.isPrefixOf (c :: cs) = true := by simpa using hstands
        rw [if_pos hprefix]
        exact .inl List.mem_cons_self
      | succ k =>
        split
        · by_cases hover : k + 1 < word.length
          · exact .inr ⟨offset, List.mem_cons_self, by omega, by omega⟩
          · rcases later (word.length - 1) k (by omega) hstands with h | ⟨q, hq, h⟩
            · exact .inl (List.mem_cons_of_mem _ h)
            · exact .inr ⟨q, List.mem_cons_of_mem _ hq, h⟩
        · exact later 0 k (Nat.zero_le k) hstands

/-! ### Occurrences on a line -/

/-- Whether `word` stands at `p` inside the line of number `line`. -/
structure StandsOnLine (cs word : List Char) (line : Int) (p : Nat) : Prop where
  stands : word <+: cs.drop p
  line : (lineOf cs p : Int) = line
  inside : '\n' ∉ word

/-- Whether a search through a line from left to right that goes on behind each occurrence meets
    that at `p`: no occurrence met before reaches into it. -/
def IsMet (cs word : List Char) (line : Int) (p : Nat) : Prop :=
  StandsOnLine cs word line p ∧ ∀ q, q < p → IsMet cs word line q → q + word.length ≤ p
termination_by p

/-- A word stands within the text only. -/
theorem lt_length_of_stands (hword : word ≠ []) (h : word <+: cs.drop o) : o < cs.length := by
  by_contra hle
  rw [List.drop_eq_nil_of_le (by omega)] at h
  exact hword (List.prefix_nil.1 h)

variable {line : Int}

/-- What stands inside a line stands behind its beginning, at the place of its column. -/
theorem StandsOnLine.exists_add (hword : word ≠ []) (hstart : lineStart? cs line = some start)
    {p : Nat} (h : StandsOnLine cs word line p) :
    ∃ k, p = start + k ∧ k ≤ (lineAt cs start).length := by
  have hlt := lt_length_of_stands hword h.stands
  obtain ⟨start', hle, hbegin, hsum, hlen, hline⟩ := exists_start hlt.le
  have hstart' := lineStart?_eq_some_iff.2 ⟨hle, by rw [hline, h.line], hbegin⟩
  obtain rfl := Option.some.inj (hstart'.symm.trans hstart)
  exact ⟨_, hsum, hlen⟩

/-- The column of what stands inside a line counts from the beginning of the line. -/
theorem StandsOnLine.columnOf_eq (hword : word ≠ []) (hstart : lineStart? cs line = some start)
    {p : Nat} (h : StandsOnLine cs word line p) : p + 1 = start + columnOf cs p := by
  obtain ⟨k, rfl, hk⟩ := h.exists_add hword hstart
  obtain ⟨-, -, hbegin⟩ := lineStart?_eq_some_iff.1 hstart
  rw [columnOf, lineBefore_add hbegin hk, List.length_take, Nat.min_eq_left hk]
  omega

/-- A word stands inside a line exactly when it stands among the characters of the line. -/
theorem standsOnLine_add_iff (hword : word ≠ []) (hstart : lineStart? cs line = some start) :
    StandsOnLine cs word line (start + k) ↔ word <+: (lineAt cs start).drop k := by
  obtain ⟨-, hline, -⟩ := lineStart?_eq_some_iff.1 hstart
  constructor
  · intro h
    obtain ⟨k', hsum, hk⟩ := h.exists_add hword hstart
    obtain rfl : k = k' := by omega
    rw [drop_lineAt hk]
    obtain ⟨rest, hrest⟩ := h.stands
    have hall : ∀ c ∈ word, decide (c ≠ '\n') = true := fun c hc =>
      decide_eq_true fun hn => h.inside (hn ▸ hc)
    rw [lineAt, ← hrest, List.takeWhile_append_of_pos hall]
    exact List.prefix_append _ _
  · intro h
    have hk := (lt_length_of_stands hword h).le
    refine ⟨?_, by rw [lineOf_add hk, hline], fun hn => ?_⟩
    · rw [drop_lineAt hk] at h
      exact h.trans (List.takeWhile_prefix _)
    · exact not_mem_lineAt (List.mem_of_mem_drop (h.subset hn))

/-- The search in a line gives the occurrences that a search without overlap meets. -/
theorem mem_occurrences_lineAt (hword : word ≠ []) (hstart : lineStart? cs line = some start)
    {p : Nat} : p ∈ occurrences word 0 start (lineAt cs start) ↔ IsMet cs word line p := by
  induction p using Nat.strong_induction_on with
  | _ p ih =>
    rw [IsMet]
    constructor
    · intro hp
      obtain ⟨k, rfl, hprefix⟩ := mem_occurrences hp
      exact ⟨(standsOnLine_add_iff hword hstart).2 hprefix,
        fun q hq hmet => le_of_lt_occurrences hword hp ((ih q hq).2 hmet) hq⟩
    · rintro ⟨hstands, hfree⟩
      obtain ⟨k, rfl, -⟩ := hstands.exists_add hword hstart
      rcases occurrences_complete hword start (Nat.zero_le k)
        ((standsOnLine_add_iff hword hstart).1 hstands) with h | ⟨q, hq, hlt, hover⟩
      · exact h
      · have := hfree q hlt ((ih q hlt).1 hq)
        omega

/-! ### Whole words -/

/-- Whether `word` stands in `cs` at `o`; a word that begins with a letter, a digit or a low line
    has none of these next to it. -/
structure StandsWhole (cs word : List Char) (o : Nat) : Prop where
  ne_nil : word ≠ []
  stands : word <+: cs.drop o
  left : word.head?.any isWordChar = true → 0 < o → wordCharAt cs (o - 1) = false
  right : word.head?.any isWordChar = true → wordCharAt cs (o + word.length) = false

/-- A word stands whole when it is not empty, stands there, and is cut off at both ends. -/
theorem standsWhole_iff : StandsWhole cs word o ↔
    word ≠ [] ∧ standsAt cs o word = true ∧ isWhole cs o word = true := by
  have hwhole : isWhole cs o word = true ↔ (word.head?.any isWordChar = true →
      (0 < o → wordCharAt cs (o - 1) = false) ∧ wordCharAt cs (o + word.length) = false) := by
    unfold isWhole
    cases word.head?.any isWordChar with
    | false => simp
    | true =>
      cases o with
      | zero => simp
      | succ o => simp
  rw [hwhole, standsAt, List.isPrefixOf_iff_prefix]
  constructor
  · rintro ⟨hne, hstands, hleft, hright⟩
    exact ⟨hne, hstands, fun h => ⟨hleft h, hright h⟩⟩
  · rintro ⟨hne, hstands, h⟩
    exact ⟨hne, hstands, fun hw => (h hw).1, fun hw => (h hw).2⟩

instance : Decidable (StandsWhole cs word o) := decidable_of_iff _ standsWhole_iff.symm

/-- Whether a word is a single character, or is made of letters, digits and low lines. -/
def IsPlain (word : List Char) : Prop := word.length = 1 ∨ ∀ c ∈ word, isWordChar c = true

/-- A search without overlap meets all whole occurrences of a plain word: an occurrence that reaches
    into another one has the character of a word in front of that. -/
theorem isMet_of_standsWhole (hplain : IsPlain word) {p : Nat} (hwhole : StandsWhole cs word p)
    (hline : StandsOnLine cs word line p) : IsMet cs word line p := by
  rw [IsMet]
  refine ⟨hline, fun q hq hmet => ?_⟩
  rw [IsMet] at hmet
  by_contra hover
  -- the character in front of `p` belongs to the occurrence at `q`
  rcases hplain with hone | hchars
  · omega
  · have hfirst : word.head?.any isWordChar = true := by
      rw [List.head?_eq_some_head hwhole.ne_nil, Option.any_some]
      exact hchars _ (List.head_mem _)
    have hchar := List.prefix_iff_getElem?.1 hmet.1.stands (p - 1 - q) (by omega)
    rw [List.getElem?_drop, show q + (p - 1 - q) = p - 1 by omega] at hchar
    have hleft := hwhole.left hfirst (by omega)
    rw [wordCharAt, hchar, Option.any_some, hchars _ (List.getElem_mem _)] at hleft
    cases hleft

/-- The offsets that the closest one is taken of: those of the whole words that the search meets. -/
def IsCandidate (cs word : List Char) (line : Int) (p : Nat) : Prop :=
  IsMet cs word line p ∧ StandsWhole cs word p

/-- Whether a whole occurrence of `word` is at `p` inside the line of number `line`. -/
def IsWholeOnLine (cs word : List Char) (line : Int) (p : Nat) : Prop :=
  StandsWhole cs word p ∧ StandsOnLine cs word line p

/-- All whole occurrences of a plain word on a line are candidates. -/
theorem isCandidate_iff (hplain : IsPlain word) {p : Nat} :
    IsCandidate cs word line p ↔ IsWholeOnLine cs word line p := by
  constructor
  · rintro ⟨hmet, hwhole⟩
    rw [IsMet] at hmet
    exact ⟨hwhole, hmet.1⟩
  · rintro ⟨hwhole, hline⟩
    exact ⟨isMet_of_standsWhole hplain hwhole hline, hwhole⟩

/-- A line with an occurrence in it is one of the text. -/
theorem IsWholeOnLine.exists_lineStart? {p : Nat} (h : IsWholeOnLine cs word line p) :
    ∃ start, lineStart? cs line = some start := by
  obtain ⟨start, hstart, -⟩ :=
    lineStart?_lineOf (lt_length_of_stands h.1.ne_nil h.1.stands).le
  exact ⟨start, h.2.line ▸ hstart⟩

/-! ### The closest occurrence -/

/-- Whether `o` is the first one of those with the property `P` that have the least distance. -/
def IsClosest (dist : Nat → Nat) (P : Nat → Prop) (o : Nat) : Prop :=
  P o ∧ ∀ p, P p → dist o < dist p ∨ (dist o = dist p ∧ o ≤ p)

/-- One place at most is the closest, ties to the left. -/
theorem IsClosest.unique {dist : Nat → Nat} {P : Nat → Prop} {p : Nat} (ho : IsClosest dist P o)
    (hp : IsClosest dist P p) : o = p := by
  have h := ho.2 p hp.1
  have h' := hp.2 o ho.1
  omega

/-- An offset is the closest one to a place `d` further on if the others are not behind it, or at
    least twice as far on. -/
theorem isClosest_add_iff {P : Nat → Prop} {d : Nat} :
    IsClosest (distance · (o + d)) P o ↔ P o ∧ ∀ p, P p → p ≤ o ∨ o + 2 * d ≤ p := by
  refine and_congr_right fun _ => forall₂_congr fun p _ => ?_
  simp only [distance]
  omega

/-- The closest one of a list in ascending order. -/
theorem closest?_isClosest {wanted : Nat} {os : List Nat} (hos : os.Pairwise (· < ·))
    (h : closest? wanted os = some o) : IsClosest (distance · wanted) (· ∈ os) o := by
  refine ⟨mem_of_closest? h, ?_⟩
  show ∀ p ∈ os, distance o wanted < distance p wanted ∨
    (distance o wanted = distance p wanted ∧ o ≤ p)
  cases os with
  | nil => simp [closest?] at h
  | cons a rest =>
    simp only [closest?, Option.some.injEq] at h
    subst h
    -- the best one so far stands in front of what is to come
    induction rest generalizing a with
    | nil =>
      intro p hp
      obtain rfl := List.mem_singleton.1 hp
      exact .inr ⟨rfl, Nat.le_refl _⟩
    | cons b rest ih =>
      rw [List.foldl_cons]
      have hab : a < b := List.rel_of_pairwise_cons hos List.mem_cons_self
      split
      · rename_i hcloser
        have hbest := ih b hos.of_cons
        have hb := hbest b List.mem_cons_self
        intro p hp
        rcases List.mem_cons.1 hp with rfl | hp
        · omega
        · exact hbest p hp
      · rename_i hcloser
        have hbest := ih a (hos.sublist (.cons_cons a (List.sublist_cons_self b rest)))
        have ha := hbest a List.mem_cons_self
        intro p hp
        rcases List.mem_cons.1 hp with rfl | hp
        · exact ha
        · rcases List.mem_cons.1 hp with rfl | hp
          · omega
          · exact hbest p (List.mem_cons_of_mem _ hp)

/-- There is no closest place only among none. -/
theorem closest?_eq_none_iff {wanted : Nat} {os : List Nat} :
    closest? wanted os = none ↔ os = [] := by
  cases os <;> simp [closest?]

/-- A word that stands at the column that is reported is found there. -/
theorem anchor?_of_standsWhole {column : Int}
    (h : StandsWhole cs word (start + (column - 1).toNat)) :
    anchor? cs start column word = some (start + (column - 1).toNat) := by
  obtain ⟨-, hexact⟩ := standsWhole_iff.1 h
  rw [anchor?, if_pos ((Bool.and_eq_true _ _).symm ▸ hexact)]

/-- Any other word is found at the closest of the candidates on its line. -/
theorem anchor?_of_not_standsWhole {column : Int} (hword : word ≠ [])
    (hstart : lineStart? cs line = some start)
    (hnot : ¬ StandsWhole cs word (start + (column - 1).toNat)) :
    (anchor? cs start column word = none ↔ ∀ p, ¬ IsCandidate cs word line p) ∧
      ∀ o, anchor? cs start column word = some o →
        IsClosest (distance · (start + (column - 1).toNat)) (IsCandidate cs word line) o := by
  have hexact : ¬ (standsAt cs (start + (column - 1).toNat) word &&
      isWhole cs (start + (column - 1).toNat) word) = true := fun h =>
    hnot (standsWhole_iff.2 ⟨hword, (Bool.and_eq_true _ _) ▸ h⟩)
  have hanchor : anchor? cs start column word = closest? (start + (column - 1).toNat)
      ((occurrences word 0 start (lineAt cs start)).filter (isWhole cs · word)) := by
    rw [anchor?, if_neg hexact]
  have hmem (p : Nat) :
      p ∈ (occurrences word 0 start (lineAt cs start)).filter (isWhole cs · word) ↔
        IsCandidate cs word line p := by
    rw [List.mem_filter, mem_occurrences_lineAt hword hstart, IsCandidate, standsWhole_iff]
    constructor
    · rintro ⟨hmet, hwhole⟩
      refine ⟨hmet, hword, ?_, hwhole⟩
      rw [IsMet] at hmet
      exact List.isPrefixOf_iff_prefix.2 hmet.1.stands
    · rintro ⟨hmet, -, -, hwhole⟩
      exact ⟨hmet, hwhole⟩
  have hpos : 0 < word.length := List.length_pos_iff.2 hword
  have hsorted : ((occurrences word 0 start (lineAt cs start)).filter
      (isWhole cs · word)).Pairwise (· < ·) :=
    ((pairwise_occurrences hword).imp fun h => by omega).filter _
  rw [hanchor]
  constructor
  · rw [closest?_eq_none_iff, List.eq_nil_iff_forall_not_mem]
    exact forall_congr' fun p => not_congr (hmem p)
  · intro o ho
    obtain ⟨hin, hclosest⟩ := closest?_isClosest hsorted ho
    exact ⟨(hmem o).1 hin, fun p hp => hclosest p ((hmem p).2 hp)⟩

/-- An anchor is a place where the word stands as a whole word. -/
theorem standsWhole_of_anchor? {column : Int} (hword : word ≠ [])
    (hstart : lineStart? cs line = some start) (h : anchor? cs start column word = some o) :
    StandsWhole cs word o := by
  by_cases hexact : StandsWhole cs word (start + (column - 1).toNat)
  · rw [anchor?_of_standsWhole hexact] at h
    exact Option.some.inj h ▸ hexact
  · exact ((anchor?_of_not_standsWhole hword hstart hexact).2 o h).1.2

/-- A word that is looked for `drift` columns behind its place is found nowhere else exactly if it
    is not found there, and no other candidate is closer. -/
theorem anchor?_drifted_iff {column : Int} {drift : Nat}
    (hstart : lineStart? cs line = some start) (hwhole : StandsWhole cs word o)
    (hwanted : start + (column - 1).toNat = o + drift) :
    (∀ p, anchor? cs start column word = some p → p = o) ↔
      drift = 0 ∨ (¬ StandsWhole cs word (o + drift) ∧
        ((∀ p, ¬ IsCandidate cs word line p) ∨ (IsCandidate cs word line o ∧
          ∀ p, IsCandidate cs word line p → p ≤ o ∨ o + 2 * drift ≤ p))) := by
  by_cases hexact : StandsWhole cs word (o + drift)
  · -- the word stands at the column that is reported, too
    rw [anchor?_of_standsWhole (hwanted.symm ▸ hexact), hwanted]
    constructor
    · intro h
      have := h _ rfl
      exact .inl (by omega)
    · rintro (hzero | ⟨hnot, -⟩) p ⟨⟩
      · rw [hzero, Nat.add_zero]
      · exact absurd hexact hnot
  · have hdrift : drift ≠ 0 := by
      intro hzero
      rw [hzero, Nat.add_zero] at hexact
      exact hexact hwhole
    obtain ⟨hnone, hclosest⟩ :=
      anchor?_of_not_standsWhole hwhole.ne_nil hstart (hwanted.symm ▸ hexact)
    rw [or_iff_right hdrift, and_iff_right hexact, ← isClosest_add_iff, ← hwanted, ← hnone]
    constructor
    · intro h
      cases hanchor : anchor? cs start column word with
      | none => exact .inl rfl
      | some p =>
        obtain rfl := h p hanchor
        exact .inr (hclosest p hanchor)
    · rintro (h | h) p hp
      · rw [h] at hp
        cases hp
      · exact (hclosest p hp).unique h

end Indirection
