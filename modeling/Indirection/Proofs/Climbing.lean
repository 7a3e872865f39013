import Indirection.Proofs.Chains
import Indirection.Proofs.Widening

/-!
# The root of a stretch of tokens

Nothing is assumed here of the operands, and of the parents only that no token is above itself. Main
definitions:

* `Program.Under` — one token stands directly under another one, its parent;
* `Program.Climbs` — the same, when the parent stands in a stretch of tokens;
* `Program.IsTop` — the parent of a token does not stand in a stretch.

Main statements: `climbWithin_climbs` and `isTop_climbWithin` — a climb goes from parent to parent
inside the stretch, and goes on until the next parent would lead out of it; `eq_of_isTop` — it can
end at one token only; `rangeRoot_top` — the root of a stretch is the top of its expression.
-/

namespace Indirection.Program

variable {u : Program} {first last i j k r s : Nat}

/-- Whether token `j` is the parent of token `i`. -/
def Under (u : Program) (i j : Nat) : Prop := u.parent (some i) = some j

instance (i j : Nat) : Decidable (u.Under i j) := inferInstanceAs (Decidable (_ = _))

/-- Whether token `j` is the parent of token `i` and stands between `first` and `last`. -/
def Climbs (u : Program) (first last i j : Nat) : Prop := u.Under i j ∧ first ≤ j ∧ j ≤ last

/-- Whether the parent of token `i` does not stand between `first` and `last`, if it has one. -/
def IsTop (u : Program) (first last i : Nat) : Prop := ∀ j, ¬ u.Climbs first last i j

/-- What stands above a token is a token of the program. -/
theorem Under.lt_size (h : u.Under i j) : j < u.size := u.ref_lt h

/-- What stands under a token is a token of the program. -/
theorem Under.lt_size_left (h : u.Under i j) : i < u.size := by
  by_contra hout
  simp [Under, parent, token?_eq_none (Nat.le_of_not_lt hout)] at h

/-- A token stands under one token at most. -/
theorem Under.unique (h : u.Under i j) (h' : u.Under i k) : j = k :=
  Option.some.inj (h.symm.trans h')

/-- No token is above itself when some number falls from every token to its parent. -/
theorem not_transGen_under (rank : Nat → Nat)
    (h : ∀ i < u.size, ∀ j < u.size, u.Under i j → rank j < rank i) (i : Nat) :
    ¬ Relation.TransGen u.Under i i :=
  not_transGen_of_rank rank (fun i j hij => h i hij.lt_size_left j hij.lt_size hij) i

/-- One step of a climb, or its end. -/
theorem climbWithin_succ (u : Program) (first last steps i : Nat) (hle : first ≤ last)
    (hlast : last < u.size) :
    (∃ j, u.Climbs first last i j ∧
      u.climbWithin (u.stretch (some first) (some last)) (steps + 1) i =
        u.climbWithin (u.stretch (some first) (some last)) steps j) ∨
      u.IsTop first last i ∧
        u.climbWithin (u.stretch (some first) (some last)) (steps + 1) i = i := by
  rw [climbWithin]
  cases hparent : u.parent (some i) with
  | none =>
    refine .inr ⟨fun j hj => ?_, rfl⟩
    simp [Climbs, Under, hparent] at hj
  | some p =>
    dsimp only
    by_cases hin : first ≤ p ∧ p ≤ last
    · have hmem : p ∈ u.stretch (some first) (some last) := (mem_stretch hle hlast).2 hin
      refine .inl ⟨p, ⟨hparent, hin⟩, by rw [if_pos (by simpa using hmem)]⟩
    · have hmem : p ∉ u.stretch (some first) (some last) := fun hmem =>
        hin ((mem_stretch hle hlast).1 hmem)
      refine .inr ⟨fun j hj => hin ?_, by rw [if_neg (by simpa using hmem)]⟩
      exact hj.1.unique hparent ▸ hj.2

section Climb

variable (hle : first ≤ last) (hlast : last < u.size)

include hle hlast

/-- A climb goes from parent to parent in the stretch. -/
theorem climbWithin_climbs (steps i : Nat) :
    Relation.ReflTransGen (u.Climbs first last) i
      (u.climbWithin (u.stretch (some first) (some last)) steps i) := by
  induction steps generalizing i with
  | zero => exact .refl
  | succ steps ih =>
    rcases u.climbWithin_succ first last steps i hle hlast with ⟨j, hj, heq⟩ | ⟨-, heq⟩
    · rw [heq]
      exact .head hj (ih j)
    · rw [heq]

/-- **A climb goes on to the top.** The tokens above a token become fewer with each step. -/
theorem isTop_climbWithin (hac : ∀ i, ¬ Relation.TransGen u.Under i i) {steps : Nat}
    (hsteps : (ahead u.Under u.size i).card ≤ steps) :
    u.IsTop first last (u.climbWithin (u.stretch (some first) (some last)) steps i) := by
  induction steps generalizing i with
  | zero =>
    -- no step is left, and nothing is ahead of the token
    intro j hj
    have := card_ahead_lt hac hj.1.lt_size hj.1
    rw [climbWithin] at this
    omega
  | succ steps ih =>
    rcases u.climbWithin_succ first last steps i hle hlast with ⟨j, hj, heq⟩ | ⟨htop, heq⟩
    · rw [heq]
      have := card_ahead_lt hac hj.1.lt_size hj.1
      exact ih (by omega)
    · rwa [heq]

end Climb

/-- From a token there is only one top. -/
theorem eq_of_isTop (hr : Relation.ReflTransGen (u.Climbs first last) i r)
    (htop : u.IsTop first last r) (hs : Relation.ReflTransGen (u.Climbs first last) i s)
    (htop' : u.IsTop first last s) : r = s := by
  have hunique : Relator.RightUnique (u.Climbs first last) := fun _ _ _ h h' => h.1.unique h'.1
  have stays {r s : Nat} (hrs : Relation.ReflTransGen (u.Climbs first last) r s)
      (htop : u.IsTop first last r) : r = s := by
    rcases hrs.cases_head with rfl | ⟨j, hj, -⟩
    · rfl
    · exact absurd hj (htop j)
  rcases Relation.ReflTransGen.total_of_right_unique hunique hr hs with hrs | hsr
  · exact stays hrs htop
  · exact (stays hsr htop').symm

/-- A climb does not leave the stretch that it begins in. -/
theorem between_of_climbs (h : Relation.ReflTransGen (u.Climbs first last) i r)
    (hi : first ≤ i ∧ i ≤ last) : first ≤ r ∧ r ≤ last := by
  cases h with
  | refl => exact hi
  | tail _ hstep => exact hstep.2

/-- The root of a stretch is where the climb from its first token with a tree ends. -/
theorem rangeRoot_cases (hle : first ≤ last) (hlast : last < u.size) :
    (u.rangeRoot (some first) (some last) = none ∧
        ∀ k, first ≤ k → k ≤ last → u.hasTree (some k) = false) ∨
      ∃ k, first ≤ k ∧ k ≤ last ∧ u.hasTree (some k) = true ∧
        u.rangeRoot (some first) (some last) =
          some (u.climbWithin (u.stretch (some first) (some last)) u.size k) := by
  rw [rangeRoot]
  cases hfind : (u.stretch (some first) (some last)).find? fun i => u.hasTree (some i) with
  | none =>
    refine .inl ⟨rfl, fun k hk hk' => ?_⟩
    simpa using List.find?_eq_none.1 hfind k ((mem_stretch hle hlast).2 ⟨hk, hk'⟩)
  | some k =>
    obtain ⟨hk, hk'⟩ := (mem_stretch hle hlast).1 (List.mem_of_find?_eq_some hfind)
    exact .inr ⟨k, hk, hk', List.find?_some (p := fun i => u.hasTree (some i)) hfind, rfl⟩

/-- **The root of a stretch is the top of its expression.** Let no token be above itself through
    parents. For a stretch of tokens:

    * if the tokens in it that take part in a tree, at least one, all lead up through parents in the
      stretch to one token of it whose own parent is missing or stands outside, this is the root,
      and the climb from each of them ends there;
    * there is no root exactly when none of the tokens takes part in a tree;
    * any root stands in the stretch, and its parent, if it has one, does not. -/
theorem rangeRoot_top (hac : ∀ i, ¬ Relation.TransGen u.Under i i) (hle : first ≤ last)
    (hlast : last < u.size) :
    (∀ r, first ≤ r → r ≤ last → u.IsTop first last r →
      (∀ k, first ≤ k → k ≤ last → u.hasTree (some k) = true →
        Relation.ReflTransGen (u.Climbs first last) k r) →
      (∃ k, first ≤ k ∧ k ≤ last ∧ u.hasTree (some k) = true) →
      u.rangeRoot (some first) (some last) = some r ∧
        ∀ k, first ≤ k → k ≤ last → u.hasTree (some k) = true →
          u.climbWithin (u.stretch (some first) (some last)) u.size k = r) ∧
      (u.rangeRoot (some first) (some last) = none ↔
        ∀ k, first ≤ k → k ≤ last → u.hasTree (some k) = false) ∧
      ∀ r, u.rangeRoot (some first) (some last) = some r →
        first ≤ r ∧ r ≤ last ∧ u.IsTop first last r := by
  have htop (k : Nat) : u.IsTop first last
      (u.climbWithin (u.stretch (some first) (some last)) u.size k) :=
    isTop_climbWithin hle hlast hac (card_ahead_le _ _ _)
  have hclimbs := u.climbWithin_climbs hle hlast u.size
  refine ⟨fun r hr hr' hrtop hbelow hsome => ?_, ?_, fun r hroot => ?_⟩
  · -- the first token with a tree is below `r`, like all others, and there is one
    have hend (k : Nat) (hk : first ≤ k) (hk' : k ≤ last) (htree : u.hasTree (some k) = true) :
        u.climbWithin (u.stretch (some first) (some last)) u.size k = r :=
      eq_of_isTop (hclimbs k) (htop k) (hbelow k hk hk' htree) hrtop
    refine ⟨?_, hend⟩
    rcases u.rangeRoot_cases hle hlast with ⟨-, hnone⟩ | ⟨k, hk, hk', htree, hroot⟩
    · obtain ⟨k, hk, hk', htree⟩ := hsome
      simp [hnone k hk hk'] at htree
    · rw [hroot, hend k hk hk' htree]
  · rcases u.rangeRoot_cases hle hlast with ⟨hroot, hnone⟩ | ⟨k, hk, hk', htree, hroot⟩
    · exact iff_of_true hroot hnone
    · refine iff_of_false (by simp [hroot]) fun hnone => ?_
      simp [hnone k hk hk'] at htree
  · rcases u.rangeRoot_cases hle hlast with ⟨hnone, -⟩ | ⟨k, hk, hk', -, hroot'⟩
    · simp [hnone] at hroot
    · obtain rfl := Option.some.inj (hroot'.symm.trans hroot)
      obtain ⟨hfirst, hlast⟩ := between_of_climbs (hclimbs k) ⟨hk, hk'⟩
      exact ⟨hfirst, hlast, htop k⟩

/-- The tokens of the text `q = (f(a) + b) ;`, where the sum is the right side. -/
def enclosedSum : Program where
  tokens := #[{ text := "q", parent := some 1, isName := true },
    { text := "=", operand1 := some 0, operand2 := some 7 }, { text := "(", link := some 9 },
    { text := "f", parent := some 4, isName := true },
    { text := "(", operand1 := some 3, operand2 := some 5, parent := some 7, link := some 6 },
    { text := "a", parent := some 4, isName := true }, { text := ")", link := some 4 },
    { text := "+", operand1 := some 4, operand2 := some 8, parent := some 1 },
    { text := "b", parent := some 7, isName := true }, { text := ")", link := some 2 },
    { text := ";" }]

/-- The root of `(f(a) + b)` is the sum, whose parent stands outside; the climb from `f` comes to it
    through the call. -/
theorem rangeRoot_top_enclosedSum :
    (∀ i, ¬ Relation.TransGen enclosedSum.Under i i) ∧ 9 < enclosedSum.size ∧
      enclosedSum.hasTree (some 3) = true ∧
      (∀ k, 2 ≤ k → k ≤ 9 → enclosedSum.hasTree (some k) = true →
        Relation.ReflTransGen (enclosedSum.Climbs 2 9) k 7) ∧
      enclosedSum.IsTop 2 9 7 ∧ enclosedSum.rangeRoot (some 2) (some 9) = some 7 := by
  have hac : ∀ i, ¬ Relation.TransGen enclosedSum.Under i i :=
    not_transGen_under (fun i => if i = 1 then 0 else if i = 7 then 1 else if i = 4 then 2 else 3)
      (by decide +kernel)
  have hcall : Relation.ReflTransGen (enclosedSum.Climbs 2 9) 4 7 :=
    .single ⟨rfl, by decide, by decide⟩
  have hbelow (k : Nat) (hk : 2 ≤ k) (hk' : k ≤ 9) (htree : enclosedSum.hasTree (some k) = true) :
      Relation.ReflTransGen (enclosedSum.Climbs 2 9) k 7 := by
    have hleaves : ∀ k ≤ 9, 2 ≤ k → enclosedSum.hasTree (some k) = true →
        k = 7 ∨ k = 4 ∨ k = 8 ∨ k = 3 ∨ k = 5 := by decide +kernel
    rcases hleaves k hk' hk htree with rfl | rfl | rfl | rfl | rfl
    · exact .refl
    · exact hcall
    · exact .single ⟨rfl, by decide, by decide⟩
    · exact .head ⟨rfl, by decide, by decide⟩ hcall
    · exact .head ⟨rfl, by decide, by decide⟩ hcall
  have htop : enclosedSum.IsTop 2 9 7 := by
    rintro j ⟨hj, hfirst, -⟩
    obtain rfl : 1 = j := Option.some.inj hj
    omega
  refine ⟨hac, by decide, rfl, hbelow, htop, ?_⟩
  exact ((rangeRoot_top hac (by decide) (by decide)).1 7 (by decide) (by decide) htop hbelow
    ⟨3, by decide, by decide, rfl⟩).1

end Indirection.Program
