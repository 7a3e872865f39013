import Indirection.Edit.Anchor
import Mathlib.Data.List.DropRight

/-!
# Lines and columns

A position names an offset of a text by the number of its line and the column in it, both counted
from one. Main definitions:

* `lineBefore` — the characters in front of an offset that belong to its line;
* `lineOf`, `columnOf` — the line and the column of an offset.

Main statements: `lineStart?_eq_some_iff`, `lineStart?_eq_none_iff` — the lines that begin in a
text, and where; an empty line and one that no line feed ends are lines, too; `lineStart?_lineOf` —
the line of an offset begins where its column is one; `lineBefore_add`, `drop_lineAt` — an offset
inside a line splits it in two.
-/

namespace Indirection

/-- What stands in front of the offset `o` in its line. -/
def lineBefore (cs : List Char) (o : Nat) : List Char := (cs.take o).rtakeWhile (· ≠ '\n')

/-- The number of the line that the offset `o` belongs to. -/
def lineOf (cs : List Char) (o : Nat) : Nat := (cs.take o).count '\n' + 1

/-- The column of the offset `o` in its line. -/
def columnOf (cs : List Char) (o : Nat) : Nat := (lineBefore cs o).length + 1

variable {cs : List Char} {start o k n : Nat}

/-- The next offset is in the next line behind a line feed, and else one column further on. -/
theorem lineOf_succ {c : Char} (h : cs[o]? = some c) :
    lineOf cs (o + 1) = if c = '\n' then lineOf cs o + 1 else lineOf cs o := by
  rw [lineOf, List.take_add_one, h, List.count_append, Option.toList_some, List.count_singleton]
  by_cases hc : c = '\n' <;> simp [hc, lineOf]

/-- A line break begins a line anew, and any other character goes on with it. -/
theorem lineBefore_succ {c : Char} (h : cs[o]? = some c) :
    lineBefore cs (o + 1) = if c = '\n' then [] else lineBefore cs o ++ [c] := by
  rw [lineBefore, List.take_add_one, h, Option.toList_some, List.rtakeWhile_concat]
  by_cases hc : c = '\n' <;> simp [hc, lineBefore]

/-- A line begins at the beginning of the text or behind a line feed. -/
theorem lineBefore_eq_nil_iff (ho : o ≤ cs.length) :
    lineBefore cs o = [] ↔ ∀ k, o = k + 1 → cs[k]? = some '\n' := by
  cases o with
  | zero => simp [lineBefore]
  | succ k =>
    obtain ⟨c, hc⟩ : ∃ c, cs[k]? = some c := ⟨_, List.getElem?_eq_getElem ho⟩
    rw [lineBefore_succ hc]
    by_cases hn : c = '\n' <;> simp [hn, hc]

/-- No line holds a line break. -/
theorem not_mem_lineAt : '\n' ∉ lineAt cs start := by
  intro h
  simpa using List.mem_takeWhile_imp h

/-- What stands in front within a line holds no line break. -/
theorem not_mem_lineBefore : '\n' ∉ lineBefore cs o := by
  intro h
  simpa using List.mem_rtakeWhile_imp h

/-- A line takes up the characters behind its beginning. -/
theorem take_lineAt (hk : k ≤ (lineAt cs start).length) :
    (cs.drop start).take k = (lineAt cs start).take k := by
  have hprefix : lineAt cs start <+: cs.drop start := List.takeWhile_prefix _
  obtain ⟨rest, hrest⟩ := hprefix
  rw [← hrest, List.take_append_of_le_length hk]

/-- Offsets inside a line belong to it. -/
theorem lineOf_add (hk : k ≤ (lineAt cs start).length) :
    lineOf cs (start + k) = lineOf cs start := by
  have hnone : ((lineAt cs start).take k).count '\n' = 0 :=
    List.count_eq_zero.2 fun h => not_mem_lineAt (List.mem_of_mem_take h)
  rw [lineOf, lineOf, List.take_add, take_lineAt hk, List.count_append, hnone,
    Nat.add_zero]

/-- Within a line, what stands in front is the line's own beginning. -/
theorem lineBefore_add (hstart : lineBefore cs start = []) (hk : k ≤ (lineAt cs start).length) :
    lineBefore cs (start + k) = (lineAt cs start).take k := by
  have hall : ∀ c ∈ ((lineAt cs start).take k).reverse, decide (c ≠ '\n') = true := by
    intro c hc
    have hmem := List.mem_of_mem_take (List.mem_reverse.1 hc)
    exact decide_eq_true fun h => not_mem_lineAt (h ▸ hmem)
  have hnil : (cs.take start).reverse.takeWhile (· ≠ '\n') = [] := by
    simpa [lineBefore, List.rtakeWhile] using hstart
  rw [lineBefore, List.take_add, take_lineAt hk, List.rtakeWhile, List.reverse_append,
    List.takeWhile_append_of_pos hall, hnil, List.append_nil, List.reverse_reverse]

/-- An offset in a text stands in a line of it, behind the characters in front of it. -/
theorem exists_start (ho : o ≤ cs.length) :
    ∃ start, start ≤ cs.length ∧ lineBefore cs start = [] ∧
      o = start + (lineBefore cs o).length ∧
      (lineBefore cs o).length ≤ (lineAt cs start).length ∧ lineOf cs start = lineOf cs o := by
  obtain ⟨front, hsplit, hfront⟩ : ∃ front, front ++ lineBefore cs o = cs.take o ∧
      front.rtakeWhile (· ≠ '\n') = [] :=
    ⟨_, List.rdropWhile_append_rtakeWhile,
      List.rtakeWhile_eq_nil_iff.2 (List.rdropWhile_last_not _ _)⟩
  -- `front` is all that stands in front of the line
  have htext : front ++ (lineBefore cs o ++ cs.drop o) = cs := by
    rw [← List.append_assoc, hsplit, List.take_append_drop]
  have htake : cs.take front.length = front := by
    simpa using (congrArg (List.take front.length) htext).symm
  have hdrop : cs.drop front.length = lineBefore cs o ++ cs.drop o := by
    simpa using (congrArg (List.drop front.length) htext).symm
  have hlen := congrArg List.length hsplit
  rw [List.length_append, List.length_take, Nat.min_eq_left ho] at hlen
  refine ⟨front.length, by omega, by rw [lineBefore, htake, hfront], hlen.symm, ?_, ?_⟩
  · -- the line goes on at least up to the offset
    rw [lineAt, hdrop, List.takeWhile_append_of_pos, List.length_append]
    · omega
    · intro c hc
      exact decide_eq_true fun h => not_mem_lineBefore (h ▸ hc)
  · rw [lineOf, lineOf, htake, ← hsplit, List.count_append,
      List.count_eq_zero.2 not_mem_lineBefore, Nat.add_zero]

/-! ### The beginnings of lines -/

/-- Lines begin behind the line feeds. -/
theorem getElem?_lineStartsFrom {offset s : Nat} : (lineStartsFrom offset cs)[n]? = some s ↔
    ∃ k, s = offset + k + 1 ∧ cs[k]? = some '\n' ∧ (cs.take k).count '\n' = n := by
  -- the first character moves all line feeds on by one, and may be one itself
  induction cs generalizing offset n with
  | nil => simp [lineStartsFrom]
  | cons c cs ih =>
    rw [lineStartsFrom]
    by_cases hc : c = '\n'
    · rw [if_pos hc]
      subst hc
      cases n with
      | zero =>
        constructor
        · intro h
          exact ⟨0, by simpa using h.symm, rfl, rfl⟩
        · rintro ⟨k, rfl, -, hcount⟩
          cases k with
          | zero => rfl
          | succ k => simp at hcount
      | succ n =>
        rw [List.getElem?_cons_succ, ih]
        constructor
        · rintro ⟨k, rfl, hk, hcount⟩
          exact ⟨k + 1, by omega, hk, by simp [hcount]⟩
        · rintro ⟨k, rfl, hk, hcount⟩
          cases k with
          | zero => simp at hcount
          | succ k => exact ⟨k, by omega, hk, by simpa using hcount⟩
    · rw [if_neg hc, ih]
      constructor
      · rintro ⟨k, rfl, hk, hcount⟩
        exact ⟨k + 1, by omega, hk, by simpa [hc] using hcount⟩
      · rintro ⟨k, rfl, hk, hcount⟩
        cases k with
        | zero => simp [hc] at hk
        | succ k => exact ⟨k, by omega, hk, by simpa [hc] using hcount⟩

/-- There are as many starts as lines. -/
theorem length_lineStarts : (lineStarts cs).length = lineOf cs cs.length := by
  have h (offset : Nat) : (lineStartsFrom offset cs).length = cs.count '\n' := by
    induction cs generalizing offset with
    | nil => rfl
    | cons c cs ih =>
      rw [lineStartsFrom]
      by_cases hc : c = '\n'
      · simp [hc, ih]
      · simp [hc, ih]
  rw [lineStarts, List.length_cons, h, lineOf, List.take_length]

/-- The start of a line is where the line has that number and nothing of it stands in front. -/
theorem getElem?_lineStarts : (lineStarts cs)[n]? = some start ↔
    start ≤ cs.length ∧ lineOf cs start = n + 1 ∧ lineBefore cs start = [] := by
  have hcount {k : Nat} (hk : cs[k]? = some '\n') : lineOf cs (k + 1) = lineOf cs k + 1 := by
    simp [lineOf_succ hk]
  cases n with
  | zero =>
    have hfirst : (lineStarts cs)[0]? = some start ↔ start = 0 := by simp [lineStarts, eq_comm]
    rw [hfirst]
    constructor
    · rintro rfl
      exact ⟨Nat.zero_le _, rfl, rfl⟩
    · rintro ⟨hle, hline, hbegin⟩
      cases start with
      | zero => rfl
      | succ k =>
        have := hcount ((lineBefore_eq_nil_iff hle).1 hbegin k rfl)
        simp only [lineOf] at this hline
        omega
  | succ n =>
    rw [lineStarts, List.getElem?_cons_succ, getElem?_lineStartsFrom]
    constructor
    · rintro ⟨k, rfl, hk, hn⟩
      have hlt : k < cs.length := (List.getElem?_eq_some_iff.1 hk).1
      rw [Nat.zero_add]
      refine ⟨by omega, ?_, ?_⟩
      · rw [hcount hk, lineOf, hn]
      · simp [lineBefore_succ hk]
    · rintro ⟨hle, hline, hbegin⟩
      cases start with
      | zero => simp [lineOf] at hline
      | succ k =>
        have hk := (lineBefore_eq_nil_iff hle).1 hbegin k rfl
        rw [hcount hk, lineOf] at hline
        exact ⟨k, by omega, hk, by omega⟩

/-- The lines of a text begin at column one, and are numbered from one. -/
theorem lineStart?_eq_some_iff {line : Int} : lineStart? cs line = some start ↔
    start ≤ cs.length ∧ (lineOf cs start : Int) = line ∧ lineBefore cs start = [] := by
  rw [lineStart?]
  by_cases hline : line < 1
  · rw [if_pos hline]
    have hpos : 1 ≤ lineOf cs start := Nat.le_add_left _ _
    constructor
    · rintro ⟨⟩
    · rintro ⟨-, h, -⟩
      omega
  · rw [if_neg hline, getElem?_lineStarts]
    have hnumber : lineOf cs start = (line - 1).toNat + 1 ↔ (lineOf cs start : Int) = line := by
      omega
    rw [hnumber]

/-- Only a number that no line has begins nowhere. -/
theorem lineStart?_eq_none_iff {line : Int} :
    lineStart? cs line = none ↔ line < 1 ∨ (lineOf cs cs.length : Int) < line := by
  rw [lineStart?]
  by_cases hline : line < 1
  · simp [hline]
  · rw [if_neg hline, List.getElem?_eq_none_iff, length_lineStarts]
    omega

/-- The line of an offset begins where its column is one. -/
theorem lineStart?_lineOf (ho : o ≤ cs.length) :
    ∃ start, lineStart? cs (lineOf cs o) = some start ∧ o = start + (lineBefore cs o).length ∧
      lineBefore cs o = (lineAt cs start).take (lineBefore cs o).length := by
  obtain ⟨start, hle, hbegin, hsum, hlen, hline⟩ := exists_start ho
  refine ⟨start, lineStart?_eq_some_iff.2 ⟨hle, by rw [hline], hbegin⟩, hsum, ?_⟩
  rw [← lineBefore_add hbegin hlen, ← hsum]

/-- The rest of a line is the line from there on. -/
theorem drop_lineAt (hk : k ≤ (lineAt cs start).length) :
    (lineAt cs start).drop k = lineAt cs (start + k) := by
  have hall : ∀ c ∈ (lineAt cs start).take k, decide (c ≠ '\n') = true := by
    intro c hc
    exact decide_eq_true fun h => not_mem_lineAt (h ▸ List.mem_of_mem_take hc)
  have hsplit : lineAt cs start = (lineAt cs start).take k ++ lineAt cs (start + k) := by
    conv_lhs => rw [lineAt, ← List.take_append_drop k (cs.drop start), take_lineAt hk,
      List.takeWhile_append_of_pos hall, List.drop_drop]
    rfl
  exact List.append_cancel_left ((List.take_append_drop k _).trans hsplit)

end Indirection
