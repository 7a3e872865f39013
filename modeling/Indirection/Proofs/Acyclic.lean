import Indirection.Program.Lvalue
import Indirection.Proofs.Chains

/-!
# Operands without cycles

Main definitions:

* `Program.Child`, `Program.IsAcyclic` — one token is an operand of another one; no token is an
  operand of itself, however indirectly;
* `Program.height` — one more than the number of tokens below a token.

In a program whose operands have no cycles an operand has a smaller height (`height_operand1_lt`),
and no height is greater than the number of tokens. So walks down the operands need no more steps
than there are tokens. Main statements: `skipCasts_eq` — the casts around an expression are all
taken off; `resolve_refused` — an lvalue that is not resolved is refused.
-/

namespace Indirection.Program

variable {u : Program}

/-- Whether token `j` is an operand of token `i`. -/
def Child (u : Program) (i j : Nat) : Prop :=
  u.operand1 (some i) = some j ∨ u.operand2 (some i) = some j

/-- Whether no token is below itself. -/
def IsAcyclic (u : Program) : Prop := ∀ i, ¬ Relation.TransGen u.Child i i

/-- There is no token beyond the last one. -/
theorem token?_eq_none {i : Nat} (h : u.size ≤ i) : u.token? (some i) = none :=
  Array.getElem?_eq_none h

/-- A child is a token of the program. -/
theorem Child.lt_size {i j : Nat} (h : u.Child i j) : j < u.size := by
  rcases h with h | h
  · exact u.ref_lt h
  · exact u.ref_lt h

/-- What has a child is a token of the program. -/
theorem Child.lt_size_left {i j : Nat} (h : u.Child i j) : i < u.size := by
  by_contra hout
  simp [Child, operand1, operand2, token?_eq_none (Nat.le_of_not_lt hout)] at h

instance (u : Program) (i j : Nat) : Decidable (u.Child i j) :=
  inferInstanceAs (Decidable (_ ∨ _))

/-- Operands have no cycles when some number falls from every operator to its operands. -/
theorem isAcyclic_of_rank (rank : Nat → Nat)
    (h : ∀ i < u.size, ∀ j < u.size, u.Child i j → rank j < rank i) : u.IsAcyclic :=
  not_transGen_of_rank rank fun i j hc => h i hc.lt_size_left j hc.lt_size hc

/-! ### Heights -/

open Classical in
/-- The tokens below a token. -/
noncomputable def below (u : Program) (i : Nat) : Finset Nat :=
  (Finset.range u.size).filter fun j => Relation.TransGen u.Child i j

/-- What stands below a token is what is ahead of it along the children. -/
theorem below_eq_ahead (u : Program) (i : Nat) : u.below i = ahead u.Child u.size i := rfl

/-- One more than the number of tokens below a token. -/
noncomputable def height (u : Program) : Ref → Nat
  | none => 1
  | some i => (u.below i).card + 1

/-- Every expression has a height of at least one. -/
theorem one_le_height (t : Ref) : 1 ≤ u.height t := by
  cases t <;> simp [height]

/-- No height is greater than the number of tokens, but for a token that is none. -/
theorem height_le (t : Ref) : u.height t ≤ u.size + 1 := by
  cases t with
  | none => simp [height]
  | some i =>
    rw [height, below_eq_ahead]
    exact Nat.succ_le_succ (card_ahead_le u.Child u.size i)

/-- In an acyclic program no tree is higher than there are tokens. -/
theorem height_le_size (h : u.IsAcyclic) {i : Nat} (hi : i < u.size) :
    u.height (some i) ≤ u.size := by
  rw [height, below_eq_ahead]
  exact card_ahead_lt_size h hi

/-- An operand has a smaller height than its operator. -/
theorem Child.height_lt (h : u.IsAcyclic) {i j : Nat} (hc : u.Child i j) :
    u.height (some j) < u.height (some i) := by
  rw [height, height, below_eq_ahead, below_eq_ahead]
  exact Nat.succ_lt_succ (card_ahead_lt h hc.lt_size hc)

/-- A first operand is lower than what it stands under. -/
theorem height_operand1_lt (h : u.IsAcyclic) {t : Ref} (ht : (u.operand1 t).isSome = true) :
    u.height (u.operand1 t) < u.height t := by
  obtain ⟨j, hj⟩ := Option.isSome_iff_exists.1 ht
  cases t with
  | none => cases hj
  | some i =>
    have hc : u.Child i j := .inl hj
    rw [hj]
    exact hc.height_lt h

/-- Going to the first operand never goes up, also where there is none. -/
theorem height_operand1_le (h : u.IsAcyclic) (t : Ref) : u.height (u.operand1 t) ≤ u.height t := by
  cases hj : u.operand1 t with
  | none => exact one_le_height t
  | some j =>
    rw [← hj]
    exact Nat.le_of_lt (height_operand1_lt h (by simp [hj]))

/-! ### Casts -/

/-- A missing token is no cast. -/
theorem isCast_none : u.isCast none = false := rfl

/-- There are no casts around no token. -/
theorem skipCastsWithin_none (steps : Nat) : u.skipCastsWithin steps none = none :=
  u.skipCastsWithin_of_not_cast isCast_none steps

/-- A walk that goes on from lower expressions only needs no more steps than the height. -/
theorem eq_of_height_le {α : Type} (walk : Nat → Ref → α)
    (hstep : ∀ t m n, (∀ t', u.height t' < u.height t → walk m t' = walk n t') →
      walk (m + 1) t = walk (n + 1) t)
    {t : Ref} {m n : Nat} (hm : u.height t ≤ m) (hn : u.height t ≤ n) : walk m t = walk n t := by
  -- by induction on the steps of one side; each step lowers the height that bounds both
  have hpos := one_le_height (u := u) t
  induction m generalizing t n with
  | zero => omega
  | succ m ih =>
    obtain ⟨n, rfl⟩ : ∃ n', n = n' + 1 := ⟨n - 1, by omega⟩
    apply hstep
    intro t' hlt
    exact ih (by omega) (by omega) (one_le_height t')

/-- More steps than the height of an expression take no more casts off it. -/
theorem skipCastsWithin_eq (h : u.IsAcyclic) {t : Ref} {m n : Nat} (hm : u.height t ≤ m)
    (hn : u.height t ≤ n) : u.skipCastsWithin m t = u.skipCastsWithin n t := by
  refine eq_of_height_le u.skipCastsWithin (fun t m n ih => ?_) hm hn
  simp only [skipCastsWithin]
  split
  · cases hop : u.operand1 t with
    | none => rw [skipCastsWithin_none, skipCastsWithin_none]
    | some j =>
      rw [← hop]
      exact ih _ (height_operand1_lt h (by simp [hop]))
  · rfl

/-- The casts around an expression are taken off one by one. -/
theorem skipCasts_eq (h : u.IsAcyclic) (t : Ref) :
    u.skipCasts t = if u.isCast t then u.skipCasts (u.operand1 t) else t := by
  by_cases hcast : u.isCast t = true
  · rw [if_pos hcast]
    have hi : ∃ i, t = some i ∧ i < u.size := by
      cases t with
      | none => cases hcast
      | some i =>
        refine ⟨i, rfl, ?_⟩
        by_contra hout
        simp [isCast, flag, token?_eq_none (Nat.le_of_not_lt hout)] at hcast
    obtain ⟨i, rfl, hi⟩ := hi
    have hle := height_le_size h hi
    obtain ⟨n, hn⟩ : ∃ n, u.size = n + 1 := ⟨u.size - 1, by omega⟩
    simp only [skipCasts]
    rw [hn, skipCastsWithin, if_pos hcast, ← hn]
    cases hop : u.operand1 (some i) with
    | none => rw [skipCastsWithin_none, skipCastsWithin_none]
    | some j =>
      have hlt := height_operand1_lt h (t := some i) (by simp [hop])
      rw [hop] at hlt
      exact skipCastsWithin_eq h (by omega) (by omega)
  · rw [if_neg hcast]
    exact u.skipCastsWithin_of_not_cast (by simpa using hcast) _

/-- Taking casts off never goes up. -/
theorem height_skipCastsWithin_le (h : u.IsAcyclic) (steps : Nat) (t : Ref) :
    u.height (u.skipCastsWithin steps t) ≤ u.height t := by
  induction steps generalizing t with
  | zero => exact Nat.le_refl _
  | succ steps ih =>
    rw [skipCastsWithin]
    split
    · exact Nat.le_trans (ih _) (height_operand1_le h t)
    · exact Nat.le_refl _

/-! ### Lvalues -/

/-- Taking casts and indexing off never goes up. -/
theorem height_baseWithin_le (h : u.IsAcyclic) (steps : Nat) (t : Ref) :
    u.height (u.baseWithin steps t) ≤ u.height t := by
  induction steps generalizing t with
  | zero => exact height_skipCastsWithin_le h _ t
  | succ steps ih =>
    rw [baseWithin]
    split
    · exact Nat.le_trans (ih _)
        (Nat.le_trans (height_operand1_le h _) (height_skipCastsWithin_le h _ t))
    · exact height_skipCastsWithin_le h _ t

/-- An lvalue that is not resolved is refused, unless its dereferences never end. -/
theorem resolveWithin_faults {steps : Nat} {expr : Ref} {f : Fault}
    (h : u.resolveWithin steps expr = .error f) :
    (f = .endlessChain ∧ ¬ (u.IsAcyclic ∧ u.height expr ≤ steps)) ∨
      ∃ spelling p, f = .of (.unresolvedTarget spelling) p := by
  induction steps generalizing expr with
  | zero =>
    refine .inl ⟨(Except.error.inj h).symm, ?_⟩
    rintro ⟨-, hle⟩
    have := one_le_height (u := u) expr
    omega
  | succ steps ih =>
    -- a key of zero and an expression of another shape are refused alike
    have found : ∀ {key : Int} {g : Fault},
        (if key = 0 then Except.error g else .ok key) = .error f → g = f := by
      intro key g hg
      split at hg
      · exact Except.error.inj hg
      · cases hg
    rw [resolveWithin] at h
    dsimp only at h
    split at h
    · exact .inr ⟨_, _, (found h).symm⟩
    · split at h
      · exact .inr ⟨_, _, (found h).symm⟩
      · split at h
        · -- the operand of a dereference is lower, so that the steps which are left suffice for it
          rename_i hderef
          refine (ih h).imp_left ?_
          rintro ⟨hf, hnot⟩
          refine ⟨hf, ?_⟩
          rintro ⟨hac, hle⟩
          have hsome : (u.operand1 (u.base expr)).isSome = true := by
            simp only [isDereference, isUnaryOp, Bool.and_eq_true] at hderef
            exact hderef.2.1
          have hlt := height_operand1_lt hac hsome
          have hbase := height_baseWithin_le hac u.size expr
          refine hnot ⟨hac, ?_⟩
          simp only [base] at hlt ⊢
          omega
        · exact .inr ⟨_, _, (Except.error.inj h).symm⟩

/-- Without cycles, an lvalue that is not resolved is refused. -/
theorem resolve_refused (hac : u.IsAcyclic) {expr : Ref} {f : Fault}
    (h : u.resolve expr = .error f) : ∃ spelling p, f = .of (.unresolvedTarget spelling) p :=
  (resolveWithin_faults h).resolve_left fun hend => hend.2 ⟨hac, height_le expr⟩

end Indirection.Program
