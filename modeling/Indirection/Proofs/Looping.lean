import Indirection.Proofs.Climbing
import Indirection.Proofs.Nesting
import Indirection.Proofs.Resolving

/-!
# Loops over tokens

Walks over the tokens of a program are defined with a number of steps that bounds them. Here each is
set against a loop that has no bound and may go on for ever. Main definitions:

* `rounds` — what a loop ends with, if it does so within some number of rounds;
* `Follows` — a walk with a bound does what a loop does in one round, and some number falls;
* `Program.HasOrderlyReferences` — opening brackets are linked forwards and closing square ones
  backwards, and neither first operands nor parents lead in a circle.

Main statements: `rounds_of_follows` — a loop that is followed by a walk ends, with what the walk
ends with; for each walk a theorem that it follows its loop. Nothing is assumed of how brackets are
nested, nor that a bracket is linked, or linked back.
-/

namespace Indirection

/-! ### Rounds -/

section Rounds

variable {σ ρ : Type} {round : σ → σ ⊕ ρ}

/-- What a loop ends with, if it ends within `n` rounds: a round leads to another state, or ends the
    loop with a result. -/
def rounds (round : σ → σ ⊕ ρ) : (n : Nat) → (s : σ) → Option ρ
  | 0, _ => none
  | n + 1, s =>
    match round s with
    | .inl s' => rounds round n s'
    | .inr r => some r

/-- A round that goes on is followed by the others. -/
theorem rounds_of_inl {s s' : σ} (h : round s = .inl s') (n : Nat) :
    rounds round (n + 1) s = rounds round n s' := by
  rw [rounds, h]

/-- A round with a result is the last one. -/
theorem rounds_of_inr {s : σ} {r : ρ} (h : round s = .inr r) (n : Nat) :
    rounds round (n + 1) s = some r := by
  rw [rounds, h]

/-- A loop that has ended stays so. -/
theorem rounds_mono {m n : Nat} {s : σ} {r : ρ} (h : rounds round m s = some r) (hmn : m ≤ n) :
    rounds round n s = some r := by
  induction m generalizing n s with
  | zero => cases h
  | succ m ih =>
    obtain ⟨n, rfl⟩ : ∃ k, n = k + 1 := ⟨n - 1, by omega⟩
    cases hround : round s with
    | inl s' =>
      rw [rounds_of_inl hround] at h ⊢
      exact ih h (by omega)
    | inr r' => rwa [rounds_of_inr hround] at h ⊢

/-- Whether a walk does what a loop does in the round at `s`, whose outcome is given: it goes on
    with one step less from a state with a smaller measure, or it ends with the same result. -/
def Follows (walk : Nat → σ → ρ) (measure : σ → Nat) (s : σ) : (outcome : σ ⊕ ρ) → Prop
  | .inl s' => measure s' < measure s ∧ ∀ n, walk (n + 1) s = walk n s'
  | .inr r => ∀ n, measure s ≤ n → walk n s = r

variable {walk : Nat → σ → ρ} {measure : σ → Nat}

/-- Where the measure is not zero a walk has a step to take. -/
theorem follows_of_pos {s : σ} {r : ρ} (hpos : 0 < measure s) (h : ∀ n, walk (n + 1) s = r) :
    Follows walk measure s (.inr r) := by
  intro n hn
  obtain ⟨n, rfl⟩ : ∃ k, n = k + 1 := ⟨n - 1, by omega⟩
  exact h n

/-- **A loop that is followed by a walk ends.** By induction on the steps of the walk, which bound
    the measure. -/
theorem rounds_of_follows (h : ∀ s, Follows walk measure s (round s)) {n : Nat} {s : σ}
    (hn : measure s ≤ n) : rounds round (n + 1) s = some (walk n s) := by
  induction n generalizing s with
  | zero =>
    have hs := h s
    cases hround : round s with
    | inl s' =>
      rw [hround] at hs
      exact absurd hs.1 (by omega)
    | inr r =>
      rw [hround] at hs
      rw [rounds_of_inr hround, hs 0 hn]
  | succ n ih =>
    have hs := h s
    cases hround : round s with
    | inl s' =>
      rw [hround] at hs
      obtain ⟨hlt, hwalk⟩ := hs
      rw [rounds_of_inl hround, hwalk, ih (by omega)]
    | inr r =>
      rw [hround] at hs
      rw [rounds_of_inr hround, hs (n + 1) hn]

/-- More steps than the measure do not change where a walk ends. -/
theorem walk_eq_of_follows (h : ∀ s, Follows walk measure s (round s)) {m n : Nat} {s : σ}
    (hm : measure s ≤ m) (hn : measure s ≤ n) : walk m s = walk n s := by
  wlog hmn : m ≤ n generalizing m n
  · exact (this hn hm (by omega)).symm
  have hlong := rounds_mono (rounds_of_follows h hm) (Nat.succ_le_succ hmn)
  rw [rounds_of_follows h hn] at hlong
  exact (Option.some.inj hlong).symm

end Rounds

namespace Program

variable {u : Program} {t : Ref} {i j close : Nat}

/-! ### Measures -/

/-- Whether token `j` is the first operand of token `i`. -/
def First (u : Program) (i j : Nat) : Prop := u.operand1 (some i) = some j

/-- Whether no link leads a walk back, and no reference in a circle. Links may be missing, may lead
    anywhere else, and need not be linked back. -/
structure HasOrderlyReferences (u : Program) : Prop where
  forward : ∀ i j, u.text (some i) ∈ openers → u.link (some i) = some j → i ≤ j
  backward : ∀ i j, u.text (some i) = "]" → u.link (some i) = some j → j ≤ i
  operands : ∀ i, ¬ Relation.TransGen u.First i i
  parents : ∀ i, ¬ Relation.TransGen u.Under i i

/-- How many tokens stand from `t` to the end. -/
def toEnd (u : Program) : Ref → Nat
  | none => 0
  | some i => max 1 (u.size - i)

/-- How many tokens stand from the beginning to `t`. -/
def toStart : Ref → Nat
  | none => 0
  | some i => i + 1

/-- How many tokens are reached from `t` through first operands, `t` included. -/
noncomputable def toLeaf (u : Program) (t : Ref) : Nat :=
  match u.ref t with
  | none => 0
  | some i => (ahead u.First u.size i).card + 1

/-- There is always one round left, for finding the end. -/
theorem toEnd_pos (i : Nat) : 1 ≤ u.toEnd (some i) := Nat.le_max_left _ _

/-- From a token on there are as many rounds as tokens. -/
theorem toEnd_of_lt (h : i < u.size) : u.toEnd (some i) = u.size - i := by
  rw [toEnd]
  omega

/-- From anywhere there are no more rounds than tokens, where a reference is looked up. -/
theorem toEnd_ref_le (t : Ref) : u.toEnd (u.ref t) ≤ u.size := by
  cases h : u.ref t with
  | none => exact Nat.zero_le _
  | some i =>
    rw [toEnd_of_lt (u.ref_lt h)]
    exact Nat.sub_le _ _

/-- Behind a token fewer tokens are left. -/
theorem toEnd_next_lt (hij : i ≤ j) : u.toEnd (u.next (some j)) < u.toEnd (some i) := by
  cases h : u.next (some j) with
  | none => exact toEnd_pos i
  | some k =>
    have hk : k < u.size := u.ref_lt h
    obtain rfl := next_eq_some h
    rw [toEnd_of_lt hk, toEnd_of_lt (by omega)]
    omega

/-- Going back from a token leaves as many rounds as tokens stand in front of it. -/
theorem toStart_previous_le (j : Nat) : toStart (u.previous (some j)) ≤ j := by
  rw [previous]
  cases h : u.ref (some j) with
  | none => exact Nat.zero_le _
  | some k =>
    obtain rfl : k = j := by
      simp only [ref, Option.filter_eq_some_iff, Option.some.injEq] at h
      exact h.1.symm
    cases k with
    | zero => exact Nat.le_refl _
    | succ k => exact Nat.le_refl _

/-- So there are never more rounds than tokens. -/
theorem toStart_previous_le_size (t : Ref) : toStart (u.previous t) ≤ u.size := by
  rw [previous]
  cases h : u.ref t with
  | none => exact Nat.zero_le _
  | some k =>
    have hk : k < u.size := u.ref_lt h
    cases k with
    | zero => exact Nat.zero_le _
    | succ k => exact Nat.le_of_lt hk

/-- A reference with a token is inside the program. -/
theorem lt_size_of_token? (h : u.token? (some i) ≠ none) : i < u.size := by
  by_contra hout
  exact h (token?_eq_none (Nat.le_of_not_lt hout))

/-- What has a text is a reference to a token. -/
theorem exists_of_text_ne (h : u.text t ≠ "") : ∃ i, t = some i := by
  cases t with
  | none => exact absurd rfl h
  | some i => exact ⟨i, rfl⟩

namespace HasOrderlyReferences

variable (h : u.HasOrderlyReferences)

include h

/-- What begins at a token ends there or further on. -/
theorem closing_le (hclosing : u.closing i = .ok j) : i ≤ j := by
  rw [closing] at hclosing
  split at hclosing
  · rename_i hopener
    rw [partner] at hclosing
    split at hclosing
    · rename_i hlink
      obtain rfl := Except.ok.inj hclosing
      exact h.forward i _ (by simpa using hopener) hlink
    · cases hclosing
  · exact Nat.le_of_eq (Except.ok.inj hclosing)

/-- A tree is no higher than the program is long. -/
theorem toLeaf_le (t : Ref) : u.toLeaf t ≤ u.size := by
  rw [toLeaf]
  cases hi : u.ref t with
  | none => exact Nat.zero_le _
  | some i => exact card_ahead_lt_size h.operands (u.ref_lt hi)

/-- The first operand of a token is nearer to a leaf. -/
theorem toLeaf_operand1_lt (ht : u.token? t ≠ none) : u.toLeaf (u.operand1 t) < u.toLeaf t := by
  cases t with
  | none => exact absurd rfl ht
  | some i =>
    have hi : i < u.size := lt_size_of_token? ht
    have hleaf : u.toLeaf (some i) = (ahead u.First u.size i).card + 1 := by
      rw [toLeaf, ref_of_lt hi]
    rw [hleaf]
    -- a leaf itself is counted, and what is behind it is not
    cases hfirst : u.operand1 (some i) with
    | none => exact Nat.succ_pos _
    | some j =>
      have hj : j < u.size := u.ref_lt hfirst
      have hlt := card_ahead_lt h.operands hj (show u.First i j from hfirst)
      rw [toLeaf, ref_of_lt hj]
      dsimp only
      omega

end HasOrderlyReferences

/-- A cast is a token. -/
theorem token?_ne_none_of_isCast (h : u.isCast t = true) : u.token? t ≠ none := by
  intro hnone
  simp [isCast, flag, hnone] at h

/-- What has an operand is a token. -/
theorem token?_ne_none_of_operand1 (h : (u.operand1 t).isSome = true) : u.token? t ≠ none := by
  intro hnone
  simp [operand1, hnone] at h

/-! ### Lists of tokens -/

/-- A round of the loop that splits braces up to `close`: where it stands, the ends of the element
    that has begun, and the elements that are complete. -/
def elementsRound (u : Program) (close : Nat) :
    Ref × Option (Nat × Nat) × List (Nat × Nat) →
      (Ref × Option (Nat × Nat) × List (Nat × Nat)) ⊕ Except Fault (List (Nat × Nat))
  | (none, current, found) => .inr (.ok (found ++ current.toList))
  | (some i, current, found) =>
    if i = close then .inr (.ok (found ++ current.toList))
    else if u.text (some i) = "," then .inl (u.next (some i), none, found ++ current.toList)
    else
      match u.closing i with
      | .error f => .inr (.error f)
      | .ok j => .inl (u.next (some j), some ((current.map Prod.fst).getD i, j), found)

/-- A round of the loop that looks for the end of an expression: where it stands, and the last token
    so far. -/
def expressionRound (u : Program) : Ref × Ref → (Ref × Ref) ⊕ Except Fault Ref
  | (none, last) => .inr (.ok last)
  | (some i, last) =>
    if terminators.contains (u.text (some i)) then .inr (.ok last)
    else
      match u.closing i with
      | .error f => .inr (.error f)
      | .ok j => .inl (u.next (some j), some j)

/-- A round of the loop that counts dimensions. -/
def rankRound (u : Program) : Ref × Nat → (Ref × Nat) ⊕ Nat
  | (t, rank) =>
    if u.text t = "[" then
      match u.link t with
      | none => .inr (rank + 1)
      | some close => .inl (u.next (some close), rank + 1)
    else .inr rank

/-- A round of the loop that passes over dimensions. -/
def dimensionRound (u : Program) (t : Ref) : Ref ⊕ Ref :=
  if u.text t = "[" then
    match u.link t with
    | none => .inr t
    | some close => .inl (u.next (some close))
  else .inr t

/-- A round of the loop that passes over dimensions backwards. -/
def dimensionBackRound (u : Program) (t : Ref) : Ref ⊕ Ref :=
  if u.text t = "]" then
    match u.link t with
    | none => .inr t
    | some opening => .inl (u.previous (some opening))
  else .inr t

section Lists

variable (h : u.HasOrderlyReferences)

include h

/-- What is found before the loop goes on stands in front of what the walk finds from there. -/
theorem elementsWithin_follows (close : Nat) (s : Ref × Option (Nat × Nat) × List (Nat × Nat)) :
    Follows (fun n s => (u.elementsWithin close n s.1 s.2.1).map (s.2.2 ++ ·))
      (fun s => u.toEnd s.1) s (u.elementsRound close s) := by
  obtain ⟨t, current, found⟩ := s
  cases t with
  | none =>
    intro n _
    cases n <;> rfl
  | some i =>
    rw [elementsRound]
    split
    · rename_i hclose
      refine follows_of_pos (toEnd_pos i) fun n => ?_
      simp only [elementsWithin, if_pos hclose]
      rfl
    · rename_i hclose
      split
      · rename_i hcomma
        refine ⟨toEnd_next_lt (Nat.le_refl i), fun n => ?_⟩
        simp only [elementsWithin, if_neg hclose, if_pos hcomma]
        cases u.elementsWithin close n (u.next (some i)) none with
        | error f => rfl
        | ok rest => simp only [Except.map, List.append_assoc]
      · rename_i hcomma
        cases hclosing : u.closing i with
        | error f =>
          refine follows_of_pos (toEnd_pos i) fun n => ?_
          simp only [elementsWithin, if_neg hclose, if_neg hcomma, hclosing]
          rfl
        | ok j =>
          refine ⟨toEnd_next_lt (h.closing_le hclosing), fun n => ?_⟩
          simp only [elementsWithin, if_neg hclose, if_neg hcomma, hclosing]

/-- The walk to the end of an expression follows its loop: each round comes closer to the end of the
    program. -/
theorem expressionEndWithin_follows (s : Ref × Ref) :
    Follows (fun n s => u.expressionEndWithin n s.1 s.2) (fun s => u.toEnd s.1) s
      (u.expressionRound s) := by
  obtain ⟨t, last⟩ := s
  cases t with
  | none =>
    intro n _
    cases n <;> rfl
  | some i =>
    rw [expressionRound]
    split
    · rename_i hend
      refine follows_of_pos (toEnd_pos i) fun n => ?_
      simp only [expressionEndWithin, if_pos hend]
    · rename_i hend
      cases hclosing : u.closing i with
      | error f =>
        refine follows_of_pos (toEnd_pos i) fun n => ?_
        simp only [expressionEndWithin, if_neg hend, hclosing]
      | ok j =>
        refine ⟨toEnd_next_lt (h.closing_le hclosing), fun n => ?_⟩
        simp only [expressionEndWithin, if_neg hend, hclosing]

/-- So does the count of dimensions, with what has been counted so far. -/
theorem rankWithin_follows (s : Ref × Nat) :
    Follows (fun n s => u.rankWithin n s.1 + s.2) (fun s => u.toEnd s.1) s (u.rankRound s) := by
  obtain ⟨t, rank⟩ := s
  rw [rankRound]
  split
  · rename_i hbracket
    obtain ⟨i, rfl⟩ := exists_of_text_ne (u := u) (t := t) (by simp [hbracket])
    cases hlink : u.link (some i) with
    | none =>
      refine follows_of_pos (toEnd_pos i) fun n => ?_
      simp only [rankWithin, if_pos hbracket, hlink]
      exact Nat.add_comm 1 rank
    | some close =>
      have hle := h.forward i close (mem_openers_of_bracket hbracket) hlink
      refine ⟨toEnd_next_lt hle, fun n => ?_⟩
      simp only [rankWithin, if_pos hbracket, hlink]
      exact Nat.succ_add_eq_add_succ _ _
  · rename_i hbracket
    intro n _
    cases n <;> simp [rankWithin, hbracket]

/-- So does the walk over dimensions, -/
theorem skipDimensionsWithin_follows (t : Ref) :
    Follows u.skipDimensionsWithin u.toEnd t (u.dimensionRound t) := by
  rw [dimensionRound]
  split
  · rename_i hbracket
    obtain ⟨i, rfl⟩ := exists_of_text_ne (u := u) (t := t) (by simp [hbracket])
    cases hlink : u.link (some i) with
    | none =>
      intro n _
      cases n <;> simp [skipDimensionsWithin, hlink]
    | some close =>
      have hle := h.forward i close (mem_openers_of_bracket hbracket) hlink
      refine ⟨toEnd_next_lt hle, fun n => ?_⟩
      simp only [skipDimensionsWithin, if_pos hbracket, hlink]
  · rename_i hbracket
    intro n _
    cases n <;> simp [skipDimensionsWithin, hbracket]

/-- and so does the walk back over them, which comes closer to the beginning. -/
theorem skipDimensionsBackWithin_follows (t : Ref) :
    Follows u.skipDimensionsBackWithin toStart t (u.dimensionBackRound t) := by
  rw [dimensionBackRound]
  split
  · rename_i hbracket
    obtain ⟨i, rfl⟩ := exists_of_text_ne (u := u) (t := t) (by simp [hbracket])
    cases hlink : u.link (some i) with
    | none =>
      intro n _
      cases n <;> simp [skipDimensionsBackWithin, hlink]
    | some opening =>
      have hle := h.backward i opening hbracket hlink
      have hprevious := toStart_previous_le (u := u) opening
      refine ⟨Nat.lt_succ_of_le (Nat.le_trans hprevious hle), fun n => ?_⟩
      simp only [skipDimensionsBackWithin, if_pos hbracket, hlink]
  · rename_i hbracket
    intro n _
    cases n <;> simp [skipDimensionsBackWithin, hbracket]

end Lists

/-! ### Trees -/

/-- A round of the loop that takes casts off. -/
def castRound (u : Program) (t : Ref) : Ref ⊕ Ref :=
  if u.isCast t then .inl (u.operand1 t) else .inr t

/-- A round of the loop that climbs inside `range`. -/
def climbRound (u : Program) (range : List Nat) (i : Nat) : Nat ⊕ Nat :=
  match u.parent (some i) with
  | some p => if range.contains p then .inl p else .inr i
  | none => .inr i

/-- A round of the traversal of trees: what is pending, and the tokens that were seen, the last one
    first. -/
def traversalRound (u : Program) :
    List Nat × List Nat → (List Nat × List Nat) ⊕ List Nat
  | ([], seen) => .inr seen.reverse
  | (i :: pending, seen) =>
    if seen.contains i then .inl (pending, seen)
    else .inl (u.children i ++ pending, i :: seen)

/-- A round of the loop that takes in redundant parentheses. -/
def widenRound (u : Program) : Nat × Nat → (Nat × Nat) ⊕ (Nat × Nat)
  | (0, last) => .inr (0, last)
  | (i + 1, last) =>
    match u.next (some last) with
    | some after => if u.isRedundantPair i after then .inl (i, after) else .inr (i + 1, last)
    | none => .inr (i + 1, last)

/-- The walk under casts follows its loop: each round comes closer to a leaf. -/
theorem skipCastsWithin_follows (h : u.HasOrderlyReferences) (t : Ref) :
    Follows u.skipCastsWithin u.toLeaf t (u.castRound t) := by
  rw [castRound]
  split
  · rename_i hcast
    refine ⟨h.toLeaf_operand1_lt (token?_ne_none_of_isCast hcast), fun n => ?_⟩
    rw [skipCastsWithin, if_pos hcast]
  · rename_i hcast
    exact fun n _ => u.skipCastsWithin_of_not_cast (by simpa using hcast) n

/-- Climbing follows its loop: each round leaves fewer tokens above. -/
theorem climbWithin_follows (h : u.HasOrderlyReferences) (range : List Nat) (i : Nat) :
    Follows (u.climbWithin range) (fun i => (ahead u.Under u.size i).card) i
      (u.climbRound range i) := by
  rw [climbRound]
  cases hparent : u.parent (some i) with
  | none =>
    intro n _
    cases n <;> simp [climbWithin, hparent]
  | some p =>
    by_cases hmem : range.contains p = true
    · simp only [if_pos hmem]
      have hunder : u.Under i p := hparent
      refine ⟨card_ahead_lt h.parents hunder.lt_size hunder, fun n => ?_⟩
      simp only [climbWithin, hparent, if_pos hmem]
    · simp only [if_neg hmem]
      intro n _
      cases n with
      | zero => rfl
      | succ n => simp only [climbWithin, hparent, if_neg hmem]

/-- The traversal follows its loop: each round sees a token for the first time, or takes one off the
    stack. -/
theorem preorderWithin_follows (u : Program) (s : List Nat × List Nat) :
    Follows (fun n s => s.2.reverse ++ u.preorderWithin n s.1 s.2)
      (fun s => s.1.length + 2 * (u.unseen s.2).card) s (u.traversalRound s) := by
  obtain ⟨pending, seen⟩ := s
  cases pending with
  | nil =>
    intro n _
    cases n <;> simp [preorderWithin]
  | cons i pending =>
    rw [traversalRound]
    split
    · rename_i hseen
      refine ⟨by simp, fun n => ?_⟩
      simp only [preorderWithin, if_pos hseen]
    · rename_i hseen
      refine ⟨pending_decreases pending (by simpa using hseen), fun n => ?_⟩
      simp only [preorderWithin, if_neg hseen, List.reverse_cons, List.append_assoc,
        List.singleton_append]

/-- Widening follows its loop: each round moves the first token to the left. -/
theorem widen_follows (u : Program) (s : Nat × Nat) :
    Follows (fun _ s => u.widen s.1 s.2) Prod.fst s (u.widenRound s) := by
  obtain ⟨first, last⟩ := s
  cases first with
  | zero => exact fun _ _ => rfl
  | succ i =>
    rw [widenRound]
    cases hafter : u.next (some last) with
    | none => simp [Follows, widen, hafter]
    | some after =>
      by_cases hpair : u.isRedundantPair i after = true
      · simp [Follows, widen, hafter, hpair]
      · simp [Follows, widen, hafter, hpair]

/-! ### Lvalues -/

/-- A round of the loop that takes casts and indexing off. -/
def baseRound (u : Program) (t : Ref) : Ref ⊕ Ref :=
  if u.isCast t || u.isSubscript t then .inl (u.operand1 t) else .inr t

/-- What is made of an lvalue `expr` that is `node` under its casts and its indexing, through at
    most `steps` dereferences. -/
def verdictWithin (u : Program) (steps : Nat) (expr node : Ref) : Except Fault Int :=
  let refusal : Fault :=
    .of (.unresolvedTarget (u.text node)) (u.position (if node.isSome then node else expr))
  let found (key : Int) : Except Fault Int := if key = 0 then .error refusal else .ok key
  if u.isMemberAccess node then found (u.declKey (u.operand2 node))
  else if u.isName node then found (u.declKey node)
  else if u.isDereference node then u.resolveWithin steps (u.operand1 node)
  else .error refusal

/-- A round of the loop that resolves an lvalue: the expression under the innermost dereference, and
    what is left of it. Each cast, each indexing and each dereference takes a round of its own. -/
def resolveRound (u : Program) : Ref × Ref → (Ref × Ref) ⊕ Except Fault Int
  | (expr, node) =>
    let refusal : Fault :=
      .of (.unresolvedTarget (u.text node)) (u.position (if node.isSome then node else expr))
    let found (key : Int) : Except Fault Int := if key = 0 then .error refusal else .ok key
    if u.isCast node || u.isSubscript node then .inl (expr, u.operand1 node)
    else if u.isMemberAccess node then .inr (found (u.declKey (u.operand2 node)))
    else if u.isName node then .inr (found (u.declKey node))
    else if u.isDereference node then .inl (u.operand1 node, u.operand1 node)
    else .inr (.error refusal)

/-- One round more asks for the base of an expression and decides by that. -/
theorem resolveWithin_succ (u : Program) (steps : Nat) (expr : Ref) :
    u.resolveWithin (steps + 1) expr = u.verdictWithin steps expr (u.base expr) := rfl

/-- A cast or an indexing is a token. -/
theorem token?_ne_none_of_layer (h : (u.isCast t || u.isSubscript t) = true) :
    u.token? t ≠ none := by
  rcases (by simpa using h : u.isCast t = true ∨ u.isSubscript t = true) with hcast | hindexing
  · exact token?_ne_none_of_isCast hcast
  · exact token?_ne_none_of_operand1 (isSome_of_isSubscript hindexing)

/-- A cast or an indexing is taken off. -/
theorem baseRound_of_layer (h : (u.isCast t || u.isSubscript t) = true) :
    u.baseRound t = .inl (u.operand1 t) :=
  if_pos h

section Lvalues

variable (h : u.HasOrderlyReferences)

include h

/-- Under a cast stands what stands under its operand. -/
theorem skipCasts_operand1 (hcast : u.isCast t = true) :
    u.skipCasts t = u.skipCasts (u.operand1 t) := by
  have hlt := h.toLeaf_operand1_lt (token?_ne_none_of_isCast hcast)
  have hle := h.toLeaf_le t
  obtain ⟨n, hn⟩ : ∃ n, u.size = n + 1 := ⟨u.size - 1, by omega⟩
  rw [skipCasts, skipCasts, hn]
  calc u.skipCastsWithin (n + 1) t
      = u.skipCastsWithin n (u.operand1 t) := by rw [skipCastsWithin, if_pos hcast]
    _ = u.skipCastsWithin (n + 1) (u.operand1 t) :=
        walk_eq_of_follows (skipCastsWithin_follows h) (by omega) (by omega)

/-- What is under casts and indexing is under one layer less of them. -/
theorem exists_baseWithin_operand1 {n : Nat} (hlayer : (u.isCast t || u.isSubscript t) = true)
    (hn : u.toLeaf t ≤ n) :
    ∃ k, u.toLeaf (u.operand1 t) ≤ k ∧ u.baseWithin n t = u.baseWithin k (u.operand1 t) := by
  have hlt := h.toLeaf_operand1_lt (token?_ne_none_of_layer hlayer)
  cases hcast : u.isCast t with
  -- a cast goes in the step in which all casts around it go, so that no step is used up
  | true => exact ⟨n, by omega, baseWithin_congr (skipCasts_operand1 h hcast) n⟩
  | false =>
    have hindexing : u.isSubscript t = true := by simpa [hcast] using hlayer
    have hskip : u.skipCasts t = t := u.skipCastsWithin_of_not_cast hcast u.size
    obtain ⟨n, rfl⟩ : ∃ k, n = k + 1 := ⟨n - 1, by omega⟩
    exact ⟨n, by omega, by rw [baseWithin, hskip, if_pos hindexing]⟩

omit h in
/-- An expression without a layer around it is its own base. -/
theorem baseWithin_of_plain (hlayer : ¬ (u.isCast t || u.isSubscript t) = true) (n : Nat) :
    u.baseWithin n t = t := by
  simp only [Bool.or_eq_true, not_or, Bool.not_eq_true] at hlayer
  have hskip : u.skipCasts t = t := u.skipCastsWithin_of_not_cast hlayer.1 u.size
  cases n with
  | zero => exact hskip
  | succ n => rw [baseWithin, hskip, if_neg (by simp [hlayer.2])]

/-- The loop that takes casts and indexing off ends, with what is under them. The walk takes all
    casts off in one step, so that it does not follow the loop round by round. -/
theorem rounds_baseRound {m n : Nat} (hm : u.toLeaf t ≤ m) (hn : u.toLeaf t ≤ n) :
    rounds u.baseRound (m + 1) t = some (u.baseWithin n t) := by
  induction m using Nat.strong_induction_on generalizing n t with
  | _ m ih =>
    by_cases hlayer : (u.isCast t || u.isSubscript t) = true
    · have hlt := h.toLeaf_operand1_lt (token?_ne_none_of_layer hlayer)
      obtain ⟨m, rfl⟩ : ∃ k, m = k + 1 := ⟨m - 1, by omega⟩
      obtain ⟨k, hk, hbase⟩ := exists_baseWithin_operand1 h hlayer hn
      rw [rounds_of_inl (baseRound_of_layer hlayer), hbase]
      exact ih m (Nat.lt_succ_self m) (by omega) hk
    · have hround : u.baseRound t = .inr t := if_neg hlayer
      rw [rounds_of_inr hround, baseWithin_of_plain hlayer]

/-- Casts and indexing are taken off one by one. For `base_eq` no operand may lead in a circle, here
    second ones may. -/
theorem base_operand1 (hlayer : (u.isCast t || u.isSubscript t) = true) :
    u.base t = u.base (u.operand1 t) := by
  have hlt := h.toLeaf_operand1_lt (token?_ne_none_of_layer hlayer)
  have hle := h.toLeaf_le t
  obtain ⟨n, hn⟩ : ∃ n, u.size = n + 1 := ⟨u.size - 1, by omega⟩
  have hall : rounds u.baseRound (n + 1 + 1) t = some (u.base t) :=
    rounds_baseRound h (by omega) hle
  rw [rounds_of_inl (baseRound_of_layer hlayer)] at hall
  have hrest : rounds u.baseRound (n + 1) (u.operand1 t) = some (u.base (u.operand1 t)) :=
    rounds_baseRound h (by omega) (h.toLeaf_le _)
  exact Option.some.inj (hall.symm.trans hrest)

/-- **The loop that resolves an lvalue ends**, with its declaration or with its refusal. -/
theorem rounds_resolveRound {m n : Nat} {node : Ref} (hm : u.toLeaf node ≤ m)
    (hn : u.toLeaf node ≤ n) (expr : Ref) :
    rounds u.resolveRound (m + 1) (expr, node) = some (u.verdictWithin n expr (u.base node)) := by
  induction m using Nat.strong_induction_on generalizing n node expr with
  | _ m ih =>
    by_cases hlayer : (u.isCast node || u.isSubscript node) = true
    · have hlt := h.toLeaf_operand1_lt (token?_ne_none_of_layer hlayer)
      obtain ⟨m, rfl⟩ : ∃ k, m = k + 1 := ⟨m - 1, by omega⟩
      have hround : u.resolveRound (expr, node) = .inl (expr, u.operand1 node) := if_pos hlayer
      rw [rounds_of_inl hround, base_operand1 h hlayer]
      exact ih m (Nat.lt_succ_self m) (by omega) (by omega) expr
    · have hbase : u.base node = node := baseWithin_of_plain hlayer u.size
      rw [hbase, rounds, resolveRound, if_neg hlayer, verdictWithin]
      by_cases haccess : u.isMemberAccess node = true
      · simp only [if_pos haccess]
      · by_cases hname : u.isName node = true
        · simp only [if_neg haccess, if_pos hname]
        · by_cases hderef : u.isDereference node = true
          · simp only [if_neg haccess, if_neg hname, if_pos hderef]
            have hlt := h.toLeaf_operand1_lt
              (token?_ne_none_of_operand1 (isSome_of_isDereference hderef))
            obtain ⟨m, rfl⟩ : ∃ k, m = k + 1 := ⟨m - 1, by omega⟩
            obtain ⟨n, rfl⟩ : ∃ k, n = k + 1 := ⟨n - 1, by omega⟩
            -- the loop begins again with the operand, for which one step less suffices
            rw [resolveWithin_succ]
            exact ih m (Nat.lt_succ_self m) (by omega) (by omega) _
          · simp only [if_neg haccess, if_neg hname, if_neg hderef]

end Lvalues

end Program

end Indirection
