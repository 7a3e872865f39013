import Indirection.Program.Extent
import Indirection.Proofs.Acyclic
import Mathlib.Data.Finset.Card
import Mathlib.Data.Finset.SDiff

/-!
# The tokens of an expression

Main definitions:

* `Program.InTree` — a token is reached from another one through operands;
* `Program.unseen` — the tokens that a traversal has still to see.

Main statement: `mem_preorder` — a traversal comes to the tokens that are reached from its root, and
to no others, also where operands lead back.
-/

namespace Indirection.Program

variable {u : Program}

/-- Whether token `k` belongs to the operator tree at `root`. -/
def InTree (u : Program) (root k : Nat) : Prop := Relation.ReflTransGen u.Child root k

/-- The children of a token are its operands. -/
theorem mem_children {i j : Nat} : j ∈ u.children i ↔ u.Child i j := by
  simp [children, Child]

/-- A token has two children at most. -/
theorem length_children_le (u : Program) (i : Nat) : (u.children i).length ≤ 2 := by
  rw [children, List.length_append, Option.length_toList, Option.length_toList]
  split <;> split <;> omega

/-! ### Enough steps -/

/-- The tokens that a traversal which has seen `seen` has still to see. -/
def unseen (u : Program) (seen : List Nat) : Finset Nat := Finset.range u.size \ seen.toFinset

/-- Taking up a token that was not seen shortens what is left by one entry at least. -/
theorem pending_decreases {i : Nat} {seen : List Nat} (pending : List Nat) (hi : i ∉ seen) :
    (u.children i ++ pending).length + 2 * (u.unseen (i :: seen)).card <
      (i :: pending).length + 2 * (u.unseen seen).card := by
  have herase : u.unseen (i :: seen) = (u.unseen seen).erase i := by
    rw [unseen, List.toFinset_cons, Finset.sdiff_insert, unseen]
  rw [herase, List.length_append, List.length_cons]
  by_cases hsize : i < u.size
  · have hmem : i ∈ u.unseen seen := by simp [unseen, hsize, hi]
    have hcard := Finset.card_erase_add_one hmem
    have := u.length_children_le i
    omega
  · -- what is no token has no operands
    have hnone : u.children i = [] := by
      refine List.eq_nil_iff_forall_not_mem.2 fun j hj => hsize ?_
      exact (mem_children.1 hj).lt_size_left
    have := Finset.card_le_card (Finset.erase_subset i (u.unseen seen))
    rw [hnone, List.length_nil]
    omega

/-! ### What is reached -/

/-- What the walk finds stands in the tree of a token that was pending. -/
theorem inTree_of_mem_preorderWithin {steps k : Nat} {pending seen : List Nat}
    (h : k ∈ u.preorderWithin steps pending seen) : ∃ i ∈ pending, u.InTree i k := by
  induction steps generalizing pending seen with
  | zero => cases h
  | succ steps ih =>
    cases pending with
    | nil => cases h
    | cons i pending =>
      rw [preorderWithin] at h
      split at h
      · obtain ⟨j, hj, hreach⟩ := ih h
        exact ⟨j, List.mem_cons_of_mem _ hj, hreach⟩
      · rcases List.mem_cons.1 h with rfl | h
        · exact ⟨k, List.mem_cons_self, .refl⟩
        · obtain ⟨j, hj, hreach⟩ := ih h
          rcases List.mem_append.1 hj with hj | hj
          · exact ⟨i, List.mem_cons_self, .head (mem_children.1 hj) hreach⟩
          · exact ⟨j, List.mem_cons_of_mem _ hj, hreach⟩

/-- A traversal with enough steps takes up all that is pending, and the operands of all that it
    takes up, unless they were seen before. -/
theorem preorderWithin_complete {steps : Nat} {pending seen : List Nat}
    (h : pending.length + 2 * (u.unseen seen).card ≤ steps) :
    (∀ i ∈ pending, i ∈ u.preorderWithin steps pending seen ∨ i ∈ seen) ∧
      ∀ i ∈ u.preorderWithin steps pending seen, ∀ j, u.Child i j →
        j ∈ u.preorderWithin steps pending seen ∨ j ∈ seen := by
  induction steps generalizing pending seen with
  | zero =>
    obtain rfl : pending = [] := List.eq_nil_of_length_eq_zero (by omega)
    exact ⟨by simp, by simp [preorderWithin]⟩
  | succ steps ih =>
    cases pending with
    | nil => exact ⟨by simp, by simp [preorderWithin]⟩
    | cons i pending =>
      rw [preorderWithin]
      split
      · -- a token that was seen is dropped
        rename_i hseen
        have hmem : i ∈ seen := by simpa using hseen
        have hsteps : pending.length + 2 * (u.unseen seen).card ≤ steps := by
          rw [List.length_cons] at h
          omega
        obtain ⟨hpending, hoperands⟩ := ih hsteps
        refine ⟨?_, hoperands⟩
        intro j hj
        rcases List.mem_cons.1 hj with rfl | hj
        · exact .inr hmem
        · exact hpending j hj
      · -- a new token is taken up, and its operands are put in line
        rename_i hseen
        have hnew : i ∉ seen := by simpa using hseen
        have hsteps :
            (u.children i ++ pending).length + 2 * (u.unseen (i :: seen)).card ≤ steps := by
          have := pending_decreases (u := u) pending hnew
          omega
        obtain ⟨hpending, hoperands⟩ := ih hsteps
        -- what the rest of the walk finds seen was seen before, or is token `i`
        have widen {j : Nat} {rest : List Nat} (hj : j ∈ rest ∨ j ∈ i :: seen) :
            j ∈ i :: rest ∨ j ∈ seen := by
          rcases hj with hj | hj
          · exact .inl (List.mem_cons_of_mem _ hj)
          · rcases List.mem_cons.1 hj with rfl | hj
            · exact .inl List.mem_cons_self
            · exact .inr hj
        refine ⟨?_, ?_⟩
        · intro j hj
          rcases List.mem_cons.1 hj with rfl | hj
          · exact .inl List.mem_cons_self
          · exact widen (hpending j (List.mem_append_right _ hj))
        · intro k hk j hc
          rcases List.mem_cons.1 hk with rfl | hk
          · exact widen (hpending j (List.mem_append_left _ (mem_children.2 hc)))
          · exact widen (hoperands k hk j hc)

/-- A traversal comes to exactly the tokens of its tree. -/
theorem mem_preorder {root k : Nat} : k ∈ u.preorder (some root) ↔ u.InTree root k := by
  constructor
  · intro h
    obtain ⟨i, hi, hreach⟩ := inTree_of_mem_preorderWithin h
    obtain rfl : i = root := by simpa using hi
    exact hreach
  · intro h
    have hsteps : [root].length + 2 * (u.unseen []).card ≤ 2 * u.size + 1 := by
      simp [unseen]
      omega
    obtain ⟨hroot, hoperands⟩ := preorderWithin_complete hsteps
    induction h with
    | refl => exact (hroot root List.mem_cons_self).resolve_right List.not_mem_nil
    | tail _ hc ih => exact (hoperands _ ih _ hc).resolve_right List.not_mem_nil

instance (root k : Nat) : Decidable (u.InTree root k) := decidable_of_iff _ mem_preorder

end Indirection.Program
