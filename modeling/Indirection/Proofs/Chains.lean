import Mathlib.Data.Finset.Card
import Mathlib.Data.Finset.Range
import Mathlib.Logic.Relation

/-!
# Chains without cycles

Tokens are numbers below the size of a program, and refer to other tokens. Here `R i j` is any such
reference from `i` to `j`, and `n` is the size. Main definition: `ahead R n i` — the tokens that are
reached from `i`.

Main statements: `card_ahead_lt` and `card_ahead_lt_size` — without cycles, fewer and fewer tokens
are ahead along a chain, and fewer than there are; `not_transGen_of_rank` — there are no cycles when
some number falls along each reference.
-/

namespace Indirection

variable {R : Nat → Nat → Prop} {n i j : Nat}

open Classical in
/-- The tokens that are reached from `i` by one or more references. -/
noncomputable def ahead (R : Nat → Nat → Prop) (n i : Nat) : Finset Nat :=
  (Finset.range n).filter fun j => Relation.TransGen R i j

/-- What is ahead of a place can be reached from it, within the range. -/
theorem mem_ahead : j ∈ ahead R n i ↔ j < n ∧ Relation.TransGen R i j := by
  simp [ahead]

/-- What is ahead lies in the range. -/
theorem ahead_subset_range (R : Nat → Nat → Prop) (n i : Nat) : ahead R n i ⊆ Finset.range n :=
  fun _ hj => Finset.mem_range.2 (mem_ahead.1 hj).1

/-- No more places are ahead than there are in the range. -/
theorem card_ahead_le (R : Nat → Nat → Prop) (n i : Nat) : (ahead R n i).card ≤ n := by
  have hcard := Finset.card_le_card (ahead_subset_range R n i)
  rwa [Finset.card_range] at hcard

/-- A reference leads to a token with less ahead. -/
theorem card_ahead_lt (hac : ∀ i, ¬ Relation.TransGen R i i) (hj : j < n) (h : R i j) :
    (ahead R n j).card < (ahead R n i).card := by
  -- what is ahead of the second token is ahead of the first one, and so is the second one itself
  refine Finset.card_lt_card (Finset.ssubset_iff_subset_ne.2 ⟨fun k hk => ?_, fun heq => ?_⟩)
  · obtain ⟨hkn, hk⟩ := mem_ahead.1 hk
    exact mem_ahead.2 ⟨hkn, .head h hk⟩
  · have hmem : j ∈ ahead R n j := heq ▸ mem_ahead.2 ⟨hj, .single h⟩
    exact hac j (mem_ahead.1 hmem).2

/-- Not all tokens are ahead of one of them. -/
theorem card_ahead_lt_size (hac : ∀ i, ¬ Relation.TransGen R i i) (hi : i < n) :
    (ahead R n i).card < n := by
  have hss : ahead R n i ⊂ Finset.range n := by
    refine Finset.ssubset_iff_subset_ne.2 ⟨ahead_subset_range R n i, fun heq => ?_⟩
    have hmem : i ∈ ahead R n i := heq ▸ Finset.mem_range.2 hi
    exact hac i (mem_ahead.1 hmem).2
  have hcard := Finset.card_lt_card hss
  rwa [Finset.card_range] at hcard

/-- There are no cycles when some number falls along each reference. -/
theorem not_transGen_of_rank (rank : Nat → Nat) (h : ∀ i j, R i j → rank j < rank i) (i : Nat) :
    ¬ Relation.TransGen R i i := by
  have falls {i j : Nat} (hreach : Relation.TransGen R i j) : rank j < rank i := by
    induction hreach with
    | single hstep => exact h _ _ hstep
    | tail _ hstep ih => exact Nat.lt_trans (h _ _ hstep) ih
  intro hreach
  exact Nat.lt_irrefl _ (falls hreach)

end Indirection
