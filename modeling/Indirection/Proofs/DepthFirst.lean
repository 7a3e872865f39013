import Indirection.Proofs.Traversal
import Mathlib.Logic.Function.Iterate

/-!
# Depth-first search

A traversal keeps the tokens that are still to be taken up in line, and marks a token only when it
takes it up: a token may stand in line more than once, and operands may be shared or lead back.
Main definitions:

* `Program.visit` — the recursive search: a token, what its first operand leads to, and then what
  its second operand leads to, without the tokens that were visited before;
* `Program.visitAll` — the searches from several tokens, one after the other;
* `Program.advance` — one round of the traversal, on the tokens in line and those visited so far;
* `Program.IsTreeAt` — below a token no operand leads back and none is shared;
* `Program.PlainOrder` — the tokens of a tree, an operator before its operands, whatever was
  visited.

Main statements: `advance_visits` — a round changes nothing about what has been and will be visited;
`advance_iterate` — after enough rounds nothing is in line, and the searches of all that was in line
are done; `preorder_visits` — a traversal is the recursive search from its root.
-/

namespace Indirection.Program

variable {u : Program} {i k n root : Nat} {t : Ref} {pending seen xs : List Nat}

/-! ### What is left to see -/

/-- Seeing more leaves nothing more unseen. -/
theorem unseen_append_subset (u : Program) (seen xs : List Nat) :
    u.unseen (seen ++ xs) ⊆ u.unseen seen := by
  apply Finset.sdiff_subset_sdiff (Finset.Subset.refl _)
  rw [List.toFinset_append]
  exact Finset.subset_union_left

/-- Taking up a token leaves fewer tokens to see. -/
theorem card_unseen_lt (hsize : i < u.size) (hi : i ∉ seen) (xs : List Nat) :
    (u.unseen (seen ++ i :: xs)).card < (u.unseen seen).card := by
  apply Finset.card_lt_card
  refine Finset.ssubset_iff_subset_ne.2 ⟨u.unseen_append_subset _ _, fun heq => ?_⟩
  have hmem : i ∈ u.unseen seen := by simp [unseen, hsize, hi]
  rw [← heq] at hmem
  simp [unseen] at hmem

/-- An operand of a token that is taken up has less left to see, or is none. -/
theorem unseen_decreases (hi : i ∉ seen) (xs : List Nat) (ht : ∀ j, t = some j → u.Child i j) :
    2 * (u.unseen (seen ++ i :: xs)).card + t.toList.length < 2 * (u.unseen seen).card + 1 := by
  cases t with
  | none =>
    have := Finset.card_le_card (u.unseen_append_subset seen (i :: xs))
    show 2 * _ + 0 < _
    omega
  | some j =>
    have := card_unseen_lt (ht j rfl).lt_size_left hi xs
    show 2 * _ + 1 < _
    omega

/-! ### The recursive search -/

/-- The tokens that a search from `t` visits when those in `seen` were visited before: the token
    itself, then those behind its first operand, then those behind its second operand. -/
def visit (u : Program) (t : Ref) (seen : List Nat) : List Nat :=
  match t with
  | none => []
  | some i =>
    if i ∈ seen then []
    else
      let left := visit u (u.operand1 (some i)) (seen ++ [i])
      let right := visit u (u.operand2 (some i)) (seen ++ i :: left)
      i :: (left ++ right)
termination_by 2 * (u.unseen seen).card + t.toList.length
decreasing_by
  · exact unseen_decreases ‹_› [] fun _ => .inl
  · exact unseen_decreases ‹_› _ fun _ => .inr

@[simp] theorem visit_none (u : Program) (seen : List Nat) : u.visit none seen = [] := by
  rw [visit]

/-- What was seen is not visited again. -/
theorem visit_of_mem (h : i ∈ seen) : u.visit (some i) seen = [] := by
  rw [visit, if_pos h]

/-- What was not seen is visited with both its operands, the first one in front. -/
theorem visit_of_not_mem (h : i ∉ seen) :
    u.visit (some i) seen =
      i :: (u.visit (u.operand1 (some i)) (seen ++ [i]) ++
        u.visit (u.operand2 (some i))
          (seen ++ [i] ++ u.visit (u.operand1 (some i)) (seen ++ [i]))) := by
  rw [visit, if_neg h, List.append_assoc, List.singleton_append]

/-- The searches from several tokens, each without what the earlier ones have visited. -/
def visitAll (u : Program) : (pending seen : List Nat) → List Nat
  | [], _ => []
  | i :: pending, seen =>
    u.visit (some i) seen ++ visitAll u pending (seen ++ u.visit (some i) seen)

/-- Visiting two lists is visiting the second one with all seen that the first one reaches. -/
theorem visitAll_append (u : Program) (xs ys seen : List Nat) :
    u.visitAll (xs ++ ys) seen =
      u.visitAll xs seen ++ u.visitAll ys (seen ++ u.visitAll xs seen) := by
  induction xs generalizing seen with
  | nil => simp [visitAll]
  | cons i rest ih => simp [visitAll, ih]

/-- Visiting at most one token is visiting that token. -/
theorem visitAll_toList (u : Program) (t : Ref) (seen : List Nat) :
    u.visitAll t.toList seen = u.visit t seen := by
  cases t <;> simp [visitAll]

/-! ### Round by round -/

/-- One round of a traversal, on the tokens in line and those visited so far: the first token in
    line is dropped if it was visited before, and otherwise visited and replaced by its operands. -/
def advance (u : Program) : List Nat × List Nat → List Nat × List Nat
  | ([], seen) => ([], seen)
  | (i :: pending, seen) =>
    if i ∈ seen then (pending, seen) else (u.children i ++ pending, seen ++ [i])

/-- What bounds the rounds that are left: the tokens in line, and two operands for each token that
    is still to be seen. -/
def workLeft (u : Program) (s : List Nat × List Nat) : Nat :=
  s.1.length + 2 * (u.unseen s.2).card

theorem advance_nil (u : Program) (seen : List Nat) : u.advance ([], seen) = ([], seen) := rfl

/-- A step leaves out what was seen. -/
theorem advance_of_mem (h : i ∈ seen) : u.advance (i :: pending, seen) = (pending, seen) :=
  if_pos h

/-- A step sees the token on top and puts its children in its place. -/
theorem advance_of_not_mem (h : i ∉ seen) :
    u.advance (i :: pending, seen) = (u.children i ++ pending, seen ++ [i]) :=
  if_neg h

/-- The rounds are those of the traversal. -/
theorem advance_iterate_snd (u : Program) (n : Nat) (pending : List Nat) {seen seen' : List Nat}
    (h : ∀ k, k ∈ seen' ↔ k ∈ seen) :
    (u.advance^[n] (pending, seen)).2 = seen ++ u.preorderWithin n pending seen' := by
  induction n generalizing pending seen seen' with
  | zero => simp [preorderWithin]
  | succ n ih =>
    rw [Function.iterate_succ_apply]
    cases pending with
    | nil => rw [advance_nil, ih [] h]; cases n <;> simp [preorderWithin]
    | cons i pending =>
      by_cases hi : i ∈ seen
      · rw [advance_of_mem hi, ih pending h, preorderWithin, if_pos (by simpa [h] using hi)]
      · have hnext (k : Nat) : k ∈ i :: seen' ↔ k ∈ seen ++ [i] := by simp [h, or_comm]
        rw [advance_of_not_mem hi, ih _ hnext, preorderWithin, if_neg (by simpa [h] using hi),
          List.append_assoc, List.singleton_append]

/-- **One round.** What was visited, and behind it what the searches from the tokens in line will
    visit, is the same before a round and behind it. -/
theorem advance_visits (u : Program) (s : List Nat × List Nat) :
    (u.advance s).2 ++ u.visitAll (u.advance s).1 (u.advance s).2 =
      s.2 ++ u.visitAll s.1 s.2 := by
  obtain ⟨_ | ⟨i, pending⟩, seen⟩ := s
  · rfl
  · by_cases hi : i ∈ seen
    · simp [advance_of_mem hi, visitAll, visit_of_mem hi]
    · -- the searches from the operands are those that the search from their token makes
      rw [advance_of_not_mem hi]
      simp [children, visitAll, visitAll_append, visitAll_toList, visit_of_not_mem hi]

/-- Nothing is visited twice in a round. -/
theorem advance_nodup {s : List Nat × List Nat} (h : s.2.Nodup) : (u.advance s).2.Nodup := by
  obtain ⟨_ | ⟨i, pending⟩, seen⟩ := s
  · exact h
  · by_cases hi : i ∈ seen
    · rw [advance_of_mem hi]
      exact h
    · rw [advance_of_not_mem hi]
      refine List.nodup_append.2 ⟨h, List.nodup_singleton i, fun a ha b hb heq => hi ?_⟩
      rwa [← List.mem_singleton.1 hb, ← heq]

/-- No step sees a token twice. -/
theorem advance_iterate_nodup (n : Nat) {s : List Nat × List Nat} (h : s.2.Nodup) :
    (u.advance^[n] s).2.Nodup := by
  induction n generalizing s with
  | zero => exact h
  | succ n ih => exact ih (advance_nodup h)

/-- A round in which something is in line leaves less work. -/
theorem workLeft_advance_lt (u : Program) (i : Nat) (pending seen : List Nat) :
    u.workLeft (u.advance (i :: pending, seen)) < u.workLeft (i :: pending, seen) := by
  by_cases hi : i ∈ seen
  · rw [advance_of_mem hi]
    show pending.length + 2 * (u.unseen seen).card < pending.length + 1 + 2 * (u.unseen seen).card
    omega
  · have hcons : u.unseen (seen ++ [i]) = u.unseen (i :: seen) := by
      ext k
      simp [unseen]
    rw [advance_of_not_mem hi]
    show _ + 2 * (u.unseen (seen ++ [i])).card < _
    rw [hcons]
    exact pending_decreases pending hi

/-- **All rounds.** After enough rounds nothing is in line any more, and what has been visited is
    what the searches from all that was in line visit. -/
theorem advance_iterate {s : List Nat × List Nat} (h : u.workLeft s ≤ n) :
    u.advance^[n] s = ([], s.2 ++ u.visitAll s.1 s.2) := by
  induction n generalizing s with
  | zero =>
    obtain ⟨pending, seen⟩ := s
    obtain rfl : pending = [] := List.eq_nil_of_length_eq_zero (Nat.eq_zero_of_add_eq_zero_right
      (Nat.eq_zero_of_le_zero h))
    simp [visitAll]
  | succ n ih =>
    obtain ⟨_ | ⟨i, pending⟩, seen⟩ := s
    · rw [Function.iterate_fixed (u.advance_nil seen), visitAll, List.append_nil]
    · have hless := u.workLeft_advance_lt i pending seen
      rw [Function.iterate_succ_apply, ih (by omega), advance_visits]

/-! ### Trees -/

/-- Whether the operands below `root` form a tree: none leads back, and no token is an operand of
    two tokens or both operands of one. -/
structure IsTreeAt (u : Program) (root : Nat) : Prop where
  acyclic : ∀ i, u.InTree root i → ¬ Relation.TransGen u.Child i i
  unshared : ∀ i j k, u.InTree root i → u.InTree root j → u.Child i k → u.Child j k → i = j
  distinct : ∀ i k, u.InTree root i → u.operand1 (some i) = some k → u.operand2 (some i) ≠ some k

/-- Whether `xs` are the tokens at `t` in plain order: the token itself, all those at its first
    operand, and then all those at its second operand. -/
inductive PlainOrder (u : Program) : Ref → List Nat → Prop
  | nothing : PlainOrder u none []
  | operator {i : Nat} {left right : List Nat}
    (hleft : PlainOrder u (u.operand1 (some i)) left)
    (hright : PlainOrder u (u.operand2 (some i)) right) :
    PlainOrder u (some i) (i :: (left ++ right))

/-- A tree has one preorder at most. -/
theorem PlainOrder.unique {ys : List Nat} (hxs : u.PlainOrder t xs) (hys : u.PlainOrder t ys) :
    xs = ys := by
  induction hxs generalizing ys with
  | nothing =>
    cases hys
    rfl
  | operator _ _ ihleft ihright =>
    cases hys with
    | operator hleft hright => rw [ihleft hleft, ihright hright]

/-- Two tokens above a third one in a tree stand above each other. -/
theorem IsTreeAt.inTree_or_inTree (h : u.IsTreeAt root) {a b : Nat} (ha : u.InTree root a)
    (hb : u.InTree root b) (hak : u.InTree a k) (hbk : u.InTree b k) :
    u.InTree a b ∨ u.InTree b a := by
  induction hbk with
  | refl => exact .inl hak
  | tail hbc hck ih =>
    obtain rfl | ⟨d, had, hdk⟩ := Relation.ReflTransGen.cases_tail hak
    · exact .inr (hbc.tail hck)
    · -- both paths reach the token through its one operator
      obtain rfl := h.unshared _ _ _ (ha.trans had) (hb.trans hbc) hdk hck
      exact ih had

/-- One operand of a token in a tree does not lead to the other one. -/
theorem IsTreeAt.not_inTree (h : u.IsTreeAt root) (hi : u.InTree root i) {a b : Nat}
    (ha : u.Child i a) (hb : u.Child i b) (hne : a ≠ b) : ¬ u.InTree a b := by
  intro hab
  obtain rfl | ⟨c, hac, hcb⟩ := Relation.ReflTransGen.cases_tail hab
  · exact hne rfl
  · obtain rfl := h.unshared _ _ _ ((hi.tail ha).trans hac) hi hcb hb
    exact h.acyclic _ hi (.head' ha hac)

/-- The two operands of a token in a tree lead to different tokens. -/
theorem IsTreeAt.disjoint (h : u.IsTreeAt root) (hi : u.InTree root i) {a b : Nat}
    (ha : u.operand1 (some i) = some a) (hb : u.operand2 (some i) = some b) (hak : u.InTree a k) :
    ¬ u.InTree b k := by
  intro hbk
  have hne : a ≠ b := by
    rintro rfl
    exact h.distinct i _ hi ha hb
  rcases h.inTree_or_inTree (hi.tail (.inl ha)) (hi.tail (.inr hb)) hak hbk with hab | hba
  · exact h.not_inTree hi (.inl ha) (.inr hb) hne hab
  · exact h.not_inTree hi (.inr hb) (.inl ha) hne.symm hba

/-- A search comes only to what its start leads to. -/
theorem exists_inTree_of_mem_visit (h : k ∈ u.visit t seen) : ∃ i, t = some i ∧ u.InTree i k := by
  fun_induction visit u t seen with
  | case1 => cases h
  | case2 => cases h
  | case3 seen i hi left right ihleft ihright =>
    refine ⟨i, rfl, ?_⟩
    rcases List.mem_cons.1 h with rfl | h
    · exact .refl
    · rcases List.mem_append.1 h with h | h
      · obtain ⟨a, ha, hak⟩ := ihleft h
        exact .head (.inl ha) hak
      · obtain ⟨b, hb, hbk⟩ := ihright h
        exact .head (.inr hb) hbk

/-- In a tree no search meets a token a second time, so that nothing is passed over. -/
theorem IsTreeAt.visit_plainOrder (h : u.IsTreeAt root)
    (ht : ∀ i, t = some i → u.InTree root i ∧ ∀ k, u.InTree i k → k ∉ seen) :
    u.PlainOrder t (u.visit t seen) := by
  fun_induction visit u t seen with
  | case1 => exact .nothing
  | case2 seen i hi => exact absurd hi ((ht i rfl).2 i .refl)
  | case3 seen i hi left right ihleft ihright =>
    obtain ⟨hroot, hfresh⟩ := ht i rfl
    -- what an operand leads to was not visited, and is not the token itself
    have hbelow {j k : Nat} (hj : u.Child i j) (hk : u.InTree j k) : k ∉ seen ∧ k ≠ i := by
      refine ⟨hfresh k (.head hj hk), ?_⟩
      rintro rfl
      exact h.acyclic _ hroot (.head' hj hk)
    refine .operator (ihleft fun a ha => ⟨hroot.tail (.inl ha), fun k hk => ?_⟩)
      (ihright fun b hb => ⟨hroot.tail (.inr hb), fun k hk => ?_⟩)
    · simpa using hbelow (.inl ha) hk
    · -- nor is it anything that the other operand leads to
      have hleft : k ∉ left := by
        intro hmem
        obtain ⟨a, ha, hak⟩ := exists_inTree_of_mem_visit hmem
        exact h.disjoint hroot ha hb hak hk
      simpa [hleft] using hbelow (.inr hb) hk

/-! ### Traversals -/

/-- **A traversal is the recursive search.** Whatever the operands of a program refer to:

    * a traversal gives the tokens that the recursive search visits, in the same order;
    * it is the loop of `advance`, of which nothing is left in line after one round more than twice
      the number of tokens, however many rounds follow;
    * it gives each token once, and exactly those that are reached through operands;
    * where the operands form a tree, it gives its tokens in plain order. -/
theorem preorder_visits (u : Program) (t : Ref) :
    u.preorder t = u.visit t [] ∧
      (∀ n, (u.advance^[n] (t.toList, [])).2 = u.preorderWithin n t.toList []) ∧
      (∀ n, 2 * u.size + 1 ≤ n → u.advance^[n] (t.toList, []) = ([], u.preorder t)) ∧
      (u.preorder t).Nodup ∧
      (∀ k, k ∈ u.preorder t ↔ ∃ root, t = some root ∧ u.InTree root k) ∧
      ∀ root, t = some root → u.IsTreeAt root →
        ∀ xs, u.PlainOrder t xs ↔ xs = u.preorder t := by
  have hrounds (n : Nat) : (u.advance^[n] (t.toList, [])).2 = u.preorderWithin n t.toList [] :=
    u.advance_iterate_snd n t.toList fun _ => Iff.rfl
  have hend {n : Nat} (hn : 2 * u.size + 1 ≤ n) :
      u.advance^[n] (t.toList, []) = ([], u.visit t []) := by
    have hwork : u.workLeft (t.toList, []) ≤ 2 * u.size + 1 := by
      have hlength : t.toList.length ≤ 1 := by cases t <;> simp
      have hunseen : (u.unseen []).card = u.size := by simp [unseen]
      show t.toList.length + 2 * (u.unseen []).card ≤ _
      omega
    rw [advance_iterate (Nat.le_trans hwork hn), visitAll_toList, List.nil_append]
  have hvisit : u.preorder t = u.visit t [] := by
    show u.preorderWithin (2 * u.size + 1) t.toList [] = _
    rw [← hrounds, hend (Nat.le_refl _)]
  refine ⟨hvisit, hrounds, fun n hn => hvisit ▸ hend hn, ?_, fun k => ?_, ?_⟩
  · show (u.preorderWithin (2 * u.size + 1) t.toList []).Nodup
    rw [← hrounds]
    exact advance_iterate_nodup _ List.nodup_nil
  · cases t with
    | none => simp [hvisit]
    | some root => simp [mem_preorder]
  · rintro root rfl htree xs
    have hplain : u.PlainOrder (some root) (u.preorder (some root)) := by
      rw [hvisit]
      exact htree.visit_plainOrder fun i hi => ⟨Option.some.inj hi ▸ .refl, by simp⟩
    exact ⟨fun hxs => hxs.unique hplain, fun hxs => hxs ▸ hplain⟩

/-- The operators of a program without cycles form trees when no token is an operand twice. -/
theorem isTreeAt_of_places (hac : u.IsAcyclic)
    (hunshared : ∀ i < u.size, ∀ j < u.size, ∀ k < u.size,
      u.Child i k → u.Child j k → i = j)
    (hdistinct : ∀ i < u.size, ∀ k < u.size,
      u.operand1 (some i) = some k → u.operand2 (some i) ≠ some k) : u.IsTreeAt root where
  acyclic i _ := hac i
  unshared i j k _ _ hi hj := hunshared i hi.lt_size_left j hj.lt_size_left k hi.lt_size hi hj
  distinct i k _ hk := by
    have hchild : u.Child i k := .inl hk
    exact hdistinct i hchild.lt_size_left k hchild.lt_size hk

/-- The tokens of the text `p = q + 1`. -/
def assignedSum : Program where
  tokens := #[{ text := "p", parent := some 1, isName := true },
    { text := "=", operand1 := some 0, operand2 := some 3, isAssignmentOp := true },
    { text := "q", parent := some 3, isName := true },
    { text := "+", operand1 := some 2, operand2 := some 4, parent := some 1 },
    { text := "1", parent := some 3, isNumber := true }]

/-- The plain order of `p = q + 1` is `=`, `p`, `+`, `q`, `1`. -/
theorem preorder_visits_assignedSum :
    assignedSum.IsTreeAt 1 ∧ assignedSum.preorder (some 1) = [1, 0, 3, 2, 4] ∧
      assignedSum.PlainOrder (some 1) [1, 0, 3, 2, 4] := by
  have hac : assignedSum.IsAcyclic :=
    isAcyclic_of_rank (fun i => if i = 1 then 2 else if i = 3 then 1 else 0) (by decide +kernel)
  have htree : assignedSum.IsTreeAt 1 :=
    isTreeAt_of_places hac (by decide +kernel) (by decide +kernel)
  have horder : assignedSum.preorder (some 1) = [1, 0, 3, 2, 4] := by decide +kernel
  obtain ⟨-, -, -, -, -, hplain⟩ := assignedSum.preorder_visits (some 1)
  exact ⟨htree, horder, (hplain 1 rfl htree _).2 horder.symm⟩

/-- Of operands that are shared, equal or lead back, each is visited once. -/
example : ({ tokens := #[{ text := "+", operand1 := some 1, operand2 := some 2 },
    { text := "*", operand1 := some 2, operand2 := some 2 },
    { text := "-", operand1 := some 0, operand2 := some 2 }] } : Program).preorder (some 0) =
      [0, 1, 2] := by decide

end Indirection.Program
