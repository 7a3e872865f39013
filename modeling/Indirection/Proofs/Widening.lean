import Indirection.Proofs.Bounds
import Indirection.Proofs.DepthFirst
import Mathlib.Order.Bounds.Basic

/-!
# What the bounds of an expression take in

Nothing is assumed of the operands and the links here, which may be shared, missing or lead
anywhere. Main definition: `Program.Widens` — a stretch of tokens goes over to the next larger one
by a redundant pair of parentheses around it.

Main statements: `widen_widens` and `not_widens_widen` — parentheses are taken in one pair at a
time, until no pair is left; `bounds_cover` — the bounds of an expression are found from its first
and its last token in this way, and hold all that is reached from it.
-/

namespace Indirection.Program

variable {u : Program}

/-- Whether the tokens from `q.1` to `q.2` are those from `p.1` to `p.2` with a parenthesis in front
    that takes no part in a tree and is linked to the token behind. -/
structure Widens (u : Program) (p q : Nat × Nat) : Prop where
  before : q.1 + 1 = p.1
  behind : q.2 = p.2 + 1
  text : u.text (some q.1) = "("
  link : u.link (some q.1) = some q.2
  treeless : u.hasTree (some q.1) = false

/-- The pair that is looked for around a stretch is one that widens it. -/
theorem widens_iff {i last : Nat} {q : Nat × Nat} :
    u.Widens (i + 1, last) q ↔ q = (i, last + 1) ∧ u.isRedundantPair i (last + 1) = true := by
  rw [isRedundantPair_iff]
  constructor
  · rintro ⟨hbefore, hbehind, htext, hlink, htree⟩
    obtain rfl : q = (i, last + 1) := Prod.ext (Nat.succ.inj hbefore) hbehind
    exact ⟨rfl, htext, hlink, htree⟩
  · rintro ⟨rfl, htext, hlink, htree⟩
    exact ⟨rfl, rfl, htext, hlink, htree⟩

/-- Parentheses are taken in one pair at a time. -/
theorem widen_widens (u : Program) (first last : Nat) :
    Relation.ReflTransGen u.Widens (first, last) (u.widen first last) := by
  induction first generalizing last with
  | zero => exact .refl
  | succ i ih =>
    rw [widen_succ]
    split
    · rename_i hpair
      exact .head (widens_iff.2 ⟨rfl, hpair⟩) (ih (last + 1))
    · exact .refl

/-- Where widening stops no pair is left. -/
theorem not_widens_widen (u : Program) (first last : Nat) (q : Nat × Nat) :
    ¬ u.Widens (u.widen first last) q := by
  induction first generalizing last with
  | zero => exact fun h => Nat.succ_ne_zero _ h.before
  | succ i ih =>
    rw [widen_succ]
    split
    · exact ih (last + 1)
    · rename_i hpair
      exact fun h => hpair (widens_iff.1 h).2

/-- Widening does not lead out of the program. -/
theorem widen_lt_size (first : Nat) {last : Nat} (h : last < u.size) :
    (u.widen first last).2 < u.size := by
  induction first generalizing last with
  | zero => exact h
  | succ i ih =>
    rw [widen_succ]
    split
    · rename_i hpair
      exact ih (u.ref_lt (widens_iff.2 ⟨rfl, hpair⟩).link)
    · exact h

/-- The tokens from one to another are those between them. -/
theorem mem_stretch {first last k : Nat} (hle : first ≤ last) (hlast : last < u.size) :
    k ∈ u.stretch (some first) (some last) ↔ first ≤ k ∧ k ≤ last := by
  rw [stretch, ref_of_lt (by omega)]
  simp only [hle, if_true, List.mem_filter, places, List.mem_range, Bool.and_eq_true,
    decide_eq_true_eq]
  omega

namespace IsOrdered

variable (h : u.IsOrdered) {root : Nat}

include h

/-- The bounds of an expression are found from its first and its last token. -/
theorem bounds_eq_widen_extremes (hroot : root < u.size) :
    ∃ lo hi, IsLeast { k | u.InTree root k } lo ∧ IsGreatest { t | u.Belongs root t } hi ∧
      u.bounds (some root) = some (u.widen lo hi) := by
  obtain ⟨lo, hi, hbounds, hmin, hmax⟩ := h.bounds_extreme hroot
  obtain ⟨hlo, hleast⟩ := List.min?_eq_some_iff.1 hmin
  obtain ⟨hhi, hgreatest⟩ := List.max?_eq_some_iff.1 hmax
  refine ⟨lo, hi, ⟨mem_preorder.1 hlo, fun k hk => hleast k (mem_preorder.2 hk)⟩,
    ⟨(belongs_iff hroot).2 hhi, fun t ht => hgreatest t ((belongs_iff hroot).1 ht)⟩, hbounds⟩

end IsOrdered

/-- The traversal of an expression has nothing in line after one round more than twice the number
    of tokens. -/
theorem advance_iterate_fst (u : Program) (root : Nat) {n : Nat} (hn : 2 * u.size + 1 ≤ n) :
    (u.advance^[n] ([root], [])).1 = [] := by
  have hwork : u.workLeft ([root], []) ≤ n := by
    have hunseen : (u.unseen []).card = u.size := by simp [unseen]
    simp only [workLeft, List.length_singleton, hunseen]
    omega
  rw [advance_iterate hwork]

/-- **Bounds cover the whole expression.** Let the tokens stand in one file in order. Whatever the
    operands and the links of a program refer to, for each of its tokens:

    * the traversal of the expression at the token ends, and the expression has bounds;
    * these come from the first token that is reached through operands, and the last one that is
      reached or linked to one that is, by taking in redundant pairs of parentheses, one after the
      other, and no such pair is left around them;
    * all tokens that are reached stand between them;
    * so does what these are linked to, unless it stands in front of all that is reached. -/
theorem bounds_cover (h : u.IsOrdered) {root : Nat} (hroot : root < u.size) :
    (∀ n, 2 * u.size + 1 ≤ n → (u.advance^[n] ([root], [])).1 = []) ∧
      ∃ lo hi first last, IsLeast { k | u.InTree root k } lo ∧
        IsGreatest { t | u.Belongs root t } hi ∧
        u.bounds (some root) = some (first, last) ∧
        Relation.ReflTransGen u.Widens (lo, hi) (first, last) ∧
        (∀ q, ¬ u.Widens (first, last) q) ∧
        (∀ k, u.InTree root k → k ∈ u.stretch (some first) (some last)) ∧
        ∀ k l, u.InTree root k → u.link (some k) = some l →
          l ∈ u.stretch (some first) (some last) ∨ ∀ j, u.InTree root j → l < j := by
  obtain ⟨lo, hi, hlo, hhi, hbounds⟩ := h.bounds_eq_widen_extremes hroot
  obtain ⟨hfirst, hlast⟩ := widen_bounds (u := u) lo hi
  have hsize := widen_lt_size lo hhi.1.lt_size
  have hmem {t : Nat} (ht : u.Belongs root t) (hle : lo ≤ t) :
      t ∈ u.stretch (some (u.widen lo hi).1) (some (u.widen lo hi).2) := by
    have := hhi.2 ht
    exact (mem_stretch (by omega) hsize).2 ⟨by omega, by omega⟩
  refine ⟨fun n hn => u.advance_iterate_fst root hn, lo, hi, _, _, hlo, hhi, hbounds,
    u.widen_widens lo hi, u.not_widens_widen lo hi, fun k hk => ?_, fun k l hk hlink => ?_⟩
  · exact hmem ⟨k, hk.lt_size hroot, hk, .inl rfl⟩ (hlo.2 hk)
  · have hl : u.Belongs root l := ⟨k, hk.lt_size hroot, hk, .inr hlink⟩
    by_cases hle : lo ≤ l
    · exact .inl (hmem hl hle)
    · exact .inr fun j hj => Nat.lt_of_lt_of_le (Nat.lt_of_not_le hle) (hlo.2 hj)

/-- The tokens of the text `((f(a)));`, where the argument has the call as an operand. -/
def enclosedCall : Program where
  tokens := #[{ text := "(", file := "a.c", line := 1, column := 1, link := some 7 },
    { text := "(", file := "a.c", line := 1, column := 2, link := some 6 },
    { text := "f", file := "a.c", line := 1, column := 3, parent := some 3, isName := true },
    { text := "(", file := "a.c", line := 1, column := 4, link := some 5, operand1 := some 2,
      operand2 := some 4 },
    { text := "a", file := "a.c", line := 1, column := 5, operand1 := some 3, parent := some 3,
      isName := true },
    { text := ")", file := "a.c", line := 1, column := 6, link := some 3 },
    { text := ")", file := "a.c", line := 1, column := 7, link := some 1 },
    { text := ")", file := "a.c", line := 1, column := 8, link := some 0 },
    { text := ";", file := "a.c", line := 1, column := 9 }]

/-- The bounds of the call `f(a)` come from its tokens `f` and `)` by two pairs of parentheses, also
    where the operands lead back. -/
theorem bounds_cover_enclosedCall :
    enclosedCall.IsOrdered ∧ 3 < enclosedCall.size ∧
      enclosedCall.bounds (some 3) = some (0, 7) ∧
      Relation.ReflTransGen enclosedCall.Widens (2, 5) (0, 7) ∧
      ∀ k, enclosedCall.InTree 3 k → k ∈ enclosedCall.stretch (some 0) (some 7) := by
  have hordered : enclosedCall.IsOrdered := by constructor <;> decide +kernel
  have hroot : 3 < enclosedCall.size := by decide
  have hbounds : enclosedCall.bounds (some 3) = some (0, 7) := by decide +kernel
  obtain ⟨-, lo, hi, first, last, hlo, hhi, heq, hwidens, -, hmem, -⟩ :=
    bounds_cover hordered hroot
  obtain ⟨rfl, rfl⟩ := Prod.mk.inj (Option.some.inj (hbounds.symm.trans heq))
  have hleast : IsLeast { k | enclosedCall.InTree 3 k } 2 := by
    have htree : ∀ k < 2, ¬ enclosedCall.InTree 3 k := by decide +kernel
    exact ⟨by decide +kernel, fun k hk => Nat.le_of_not_lt fun hlt => htree k hlt hk⟩
  have hgreatest : IsGreatest { t | enclosedCall.Belongs 3 t } 5 := by
    have hbelongs : ∀ t < enclosedCall.size, 5 < t → ¬ enclosedCall.Belongs 3 t := by
      decide +kernel
    exact ⟨by decide +kernel,
      fun t ht => Nat.le_of_not_lt fun hlt => hbelongs t ht.lt_size hlt ht⟩
  rw [hleast.unique hlo, hgreatest.unique hhi] at *
  exact ⟨hordered, hroot, hbounds, hwidens, hmem⟩

end Indirection.Program
