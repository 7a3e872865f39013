import Indirection.Proofs.Looping
import Indirection.Proofs.Entering

/-!
# All walks over tokens end

Main definitions:

* `Program.Enters` — the value of an element of braces is in braces itself;
* `Program.WalksEnd` — every walk ends within as many rounds as there are tokens, and one for
  finding its end, and braces are entered to no greater depth.

Main statements: `length_le_of_enters` — braces are not entered deeper than there are tokens;
`valuesWithin_eq` and `enterBraces_eq` — a depth that suffices cuts nothing short; `walks_end` — all
walks end, those for the bounds of an expression in any program.
-/

namespace Indirection.Program

variable {u : Program} {t : Ref} {i j n : Nat}

/-! ### Nested braces -/

/-- Whether the value of an element of the braces at `i` is in braces at `j`. -/
def Enters (u : Program) (i j : Nat) : Prop :=
  ∃ es e, u.elements i = .ok es ∧ e ∈ es ∧ (u.head e).value = some j ∧ u.text (some j) = "\x7b"

/-- The braces of a record that are nested in others are the value of an element of these. -/
theorem enters_of_nested {key : Int} {record rank r k : Nat}
    (h : .nested j r k ∈ (u.parts key i record rank).items) : u.Enters i j :=
  exists_of_nested_mem_parts h

section Braces

variable (h : u.HasOrderlyReferences)

include h

/-- The elements of braces stand behind the place where the splitting begins. -/
theorem le_of_mem_elementsWithin {close steps low : Nat} {current : Option (Nat × Nat)}
    {es : List (Nat × Nat)} (hes : u.elementsWithin close steps t current = .ok es)
    (ht : ∀ i, t = some i → low ≤ i) (hcurrent : ∀ e ∈ current, low ≤ e.1) :
    ∀ e ∈ es, low ≤ e.1 := by
  induction steps generalizing t current es with
  | zero =>
    obtain rfl := Except.ok.inj hes
    simpa using hcurrent
  | succ steps ih =>
    cases t with
    | none =>
      obtain rfl := Except.ok.inj hes
      simpa using hcurrent
    | some i =>
      have hi := ht i rfl
      -- no link leads back, so that the walk stays behind `low`
      have hnext {j : Nat} (hij : i ≤ j) : ∀ k, u.next (some j) = some k → low ≤ k := by
        intro k hk
        have := next_eq_some hk
        omega
      rw [elementsWithin] at hes
      split at hes
      · obtain rfl := Except.ok.inj hes
        simpa using hcurrent
      · split at hes
        · cases hrest : u.elementsWithin close steps (u.next (some i)) none with
          | error f => simp [hrest] at hes
          | ok rest =>
            simp only [hrest] at hes
            obtain rfl := Except.ok.inj hes
            intro e he
            rcases List.mem_append.1 he with he | he
            · exact hcurrent e (by simpa using he)
            · exact ih hrest (hnext (Nat.le_refl i)) (by simp) e he
        · cases hclosing : u.closing i with
          | error f => simp [hclosing] at hes
          | ok j =>
            simp only [hclosing] at hes
            refine ih hes (hnext (h.closing_le hclosing)) fun e he => ?_
            obtain rfl := Option.some.inj he
            -- the element begins here, or goes on
            cases current with
            | none => exact hi
            | some c => exact hcurrent c rfl

/-- Braces stand behind those that they are entered from. -/
theorem Enters.lt (hij : u.Enters i j) : i < j := by
  obtain ⟨es, e, hes, he, hvalue, -⟩ := hij
  have hfirst : i + 1 ≤ e.1 := by
    rw [elements] at hes
    split at hes
    · refine le_of_mem_elementsWithin h hes (fun k hk => ?_) (by simp) e he
      exact Nat.le_of_eq (next_eq_some hk).symm
    · cases hes
  rcases designated_cases hvalue with ⟨rfl, -⟩ | ⟨-, -, -, rfl⟩ | ⟨m, hbracket, hm, -, rfl⟩
  · exact hfirst
  · omega
  · have := h.forward e.1 m (mem_openers_of_bracket hbracket) hm
    omega

omit h in
/-- What is entered is a token of the program. -/
theorem Enters.lt_size (hij : u.Enters i j) : j < u.size := by
  obtain ⟨-, -, -, -, -, hbrace⟩ := hij
  exact lt_size_of_text (by simp [hbrace])

/-- **Braces are not entered deeper than there are tokens.** Each opens behind the one before. -/
theorem length_le_of_enters (hi : i < u.size) {chain : List Nat}
    (hchain : (i :: chain).IsChain u.Enters) : (i :: chain).length ≤ u.size - i := by
  induction chain generalizing i with
  | nil =>
    rw [List.length_singleton]
    omega
  | cons j chain ih =>
    obtain ⟨hij, hrest⟩ := List.isChain_cons_cons.1 hchain
    have hlt := hij.lt h
    have := ih hij.lt_size hrest
    rw [List.length_cons]
    omega

/-- Braces that are entered leave fewer tokens to the end. -/
theorem Enters.toEnd_lt (hij : u.Enters i j) : u.toEnd (some j) < u.toEnd (some i) := by
  have hlt := hij.lt h
  have hsize := hij.lt_size
  rw [toEnd_of_lt hsize, toEnd_of_lt (by omega)]
  omega

/-- A braced value is nearer to the end than the braces around it. -/
theorem toEnd_value_lt {es : List (Nat × Nat)} {e : Nat × Nat} (hes : u.elements i = .ok es)
    (he : e ∈ es) (hbrace : u.text (u.designated e.1 e.2).2 = "\x7b") :
    u.toEnd (u.ref (u.designated e.1 e.2).2) < u.toEnd (some i) := by
  obtain ⟨j, hj⟩ := exists_of_text_ne (u := u) (t := (u.designated e.1 e.2).2) (by simp [hbrace])
  rw [hj] at hbrace ⊢
  have hij : u.Enters i j := ⟨es, e, hes, he, hj, hbrace⟩
  rw [ref_of_lt hij.lt_size]
  exact hij.toEnd_lt h

/-- A depth greater than the number of tokens from braces to the end opens all braces in them. -/
theorem valuesWithin_eq {m : Nat} (hm : u.toEnd (u.ref t) < m) (hn : u.toEnd (u.ref t) < n) :
    u.valuesWithin m t = u.valuesWithin n t := by
  induction m generalizing t n with
  | zero => omega
  | succ m ih =>
    obtain ⟨n, rfl⟩ : ∃ k, n = k + 1 := ⟨n - 1, by omega⟩
    rw [valuesWithin, valuesWithin]
    cases hi : u.ref t with
    | none => rfl
    | some i =>
      rw [hi] at hm hn
      dsimp only
      split
      · cases hes : u.elements i with
        | error f => rfl
        | ok es =>
          refine Trail.concat_congr fun e he => ?_
          split
          · rename_i hbrace
            have := toEnd_value_lt h hes he hbrace
            exact ih (by omega) (by omega)
          · rfl
      · rfl

/-- The only fault of the values in braces is a bracket without a partner. -/
theorem valuesWithin_isUnmatched (hn : u.toEnd (u.ref t) < n) :
    (u.valuesWithin n t).FaultsIn Fault.IsUnmatched := by
  induction n generalizing t with
  | zero => omega
  | succ n ih =>
    rw [valuesWithin]
    cases hi : u.ref t with
    | none => exact .ofExcept (fun f => expressionFrom_faults) fun r => .one r
    | some i =>
      rw [hi] at hn
      dsimp only
      split
      · cases hes : u.elements i with
        | error f => exact .fail (elements_faults hes)
        | ok es =>
          refine .concat fun e he => ?_
          split
          · rename_i hbrace
            have := toEnd_value_lt h hes he hbrace
            exact ih (by omega)
          · exact .one _
      · exact .ofExcept (fun f => expressionFrom_faults) fun r => .one r

/-- A depth greater than the number of tokens from the braces of a record to the end goes into all
    braces in them. -/
theorem enterBraces_eq {key : Int} {seen : List Nat} {m o record rank : Nat}
    (hm : u.toEnd (some o) < m) (hn : u.toEnd (some o) < n) :
    u.enterBraces key m seen o record rank = u.enterBraces key n seen o record rank := by
  induction m generalizing seen o record rank n with
  | zero => omega
  | succ m ih =>
    obtain ⟨n, rfl⟩ : ∃ k, n = k + 1 := ⟨n - 1, by omega⟩
    have hfold (w : BraceWalk) :
        (u.parts key o record rank).items.foldl (u.enterPart key m) w =
          (u.parts key o record rank).items.foldl (u.enterPart key n) w := by
      refine List.foldl_ext _ _ w fun w part hpart => ?_
      cases part with
      | value start => rfl
      | note e => rfl
      | nested j r k =>
        -- nested braces stand nearer to the end
        have hlt := (enters_of_nested hpart).toEnd_lt h
        simp only [enterPart, ih (n := n) (show u.toEnd (some j) < m by omega) (by omega)]
    rw [enterBraces_succ, enterBraces_succ]
    simp only [hfold]

end Braces

/-! ### All walks -/

/-- Whether the loops over the tokens of a program end within as many rounds as there are tokens,
    and one more for finding the end, with what the walks end with; and whether braces are entered
    to no greater depth. -/
structure WalksEnd (u : Program) : Prop where
  elements : ∀ i close, u.link (some i) = some close →
    rounds (u.elementsRound close) (u.size + 1) (u.next (some i), none, []) = some (u.elements i)
  expressionFrom : ∀ t, rounds u.expressionRound (u.size + 1) (u.ref t, t) =
    some ((u.expressionFrom t).map Range.last)
  arrayRank : ∀ name, rounds u.rankRound (u.size + 1) (u.next name, 0) = some (u.arrayRank name)
  /-- the dimensions behind a name, in front of its initial value -/
  dimensions : ∀ name, rounds u.dimensionRound (u.size + 1) (u.next name) =
    some (u.skipDimensionsWithin u.size (u.next name))
  /-- the dimensions in front of a semicolon, behind the name of a split declaration -/
  dimensionsBack : ∀ stop, rounds u.dimensionBackRound (u.size + 1) (u.previous stop) =
    some (u.skipDimensionsBackWithin u.size (u.previous stop))
  skipCasts : ∀ t, rounds u.castRound (u.size + 1) t = some (u.skipCasts t)
  resolve : ∀ expr, rounds u.resolveRound (u.size + 1) (expr, expr) = some (u.resolve expr)
  /-- the climb to the root of a stretch of tokens -/
  climb : ∀ range i, rounds (u.climbRound range) (u.size + 1) i =
    some (u.climbWithin range u.size i)
  /-- braces that are each entered from those before are no more than there are tokens -/
  depth : ∀ i < u.size, ∀ chain, (i :: chain).IsChain u.Enters → (i :: chain).length ≤ u.size
  /-- a greater depth finds no more values, and the depth is not what ends the walk -/
  values : ∀ n t, u.size < n →
    u.valuesWithin n t = u.values t ∧ (u.values t).FaultsIn Fault.IsUnmatched
  nested : ∀ key i record rank j r k, .nested j r k ∈ (u.parts key i record rank).items →
    u.Enters i j
  enterBraces : ∀ n key seen o record rank, o < u.size → u.size < n →
    u.enterBraces key n seen o record rank = u.enterBraces key (u.size + 1) seen o record rank

/-- Where references are orderly, all walks end. -/
theorem HasOrderlyReferences.walksEnd (h : u.HasOrderlyReferences) : u.WalksEnd where
  elements i close hlink := by
    have hnext : u.toEnd (u.next (some i)) ≤ u.size := toEnd_ref_le _
    have helements : u.elements i = u.elementsWithin close u.size (u.next (some i)) none := by
      rw [Program.elements, partner, hlink]
    rw [rounds_of_follows (elementsWithin_follows h close) hnext, helements]
    cases u.elementsWithin close u.size (u.next (some i)) none <;> rfl
  expressionFrom t := by
    rw [rounds_of_follows (expressionEndWithin_follows h) (toEnd_ref_le t), Program.expressionFrom]
    cases u.expressionEndWithin u.size (u.ref t) t <;> rfl
  arrayRank name := rounds_of_follows (rankWithin_follows h) (toEnd_ref_le _)
  dimensions name := rounds_of_follows (skipDimensionsWithin_follows h) (toEnd_ref_le _)
  dimensionsBack stop :=
    rounds_of_follows (skipDimensionsBackWithin_follows h) (toStart_previous_le_size stop)
  skipCasts t := rounds_of_follows (skipCastsWithin_follows h) (h.toLeaf_le t)
  resolve expr := rounds_resolveRound h (h.toLeaf_le expr) (h.toLeaf_le expr) expr
  climb range i := rounds_of_follows (climbWithin_follows h range) (card_ahead_le _ _ i)
  depth i hi chain hchain := Nat.le_trans (length_le_of_enters h hi hchain) (Nat.sub_le _ _)
  values n t hn := by
    have hle := toEnd_ref_le (u := u) t
    exact ⟨valuesWithin_eq h (by omega) (by omega), valuesWithin_isUnmatched h (by omega)⟩
  nested key i record rank j r k hnested := enters_of_nested hnested
  enterBraces n key seen o record rank ho hn := by
    have hend := toEnd_of_lt ho
    exact enterBraces_eq h (by omega) (by omega)

/-- **All walks over tokens end.** In any program:

    * where opening brackets are not linked to a token before them, `]` is not linked to one behind
      it, and neither first operands nor parents lead in a circle, the splitting of braces, the
      search for the end of an expression, the counting and the skipping of dimensions, the taking
      off of casts, the resolving of an lvalue and the climb to a root each end within as many
      rounds as there are tokens, and one; braces are not entered deeper, and no bound on the steps
      or on the depth cuts one of these walks short;
    * the traversal of an operator tree and the widening of the bounds of an expression end without
      any of this. -/
theorem walks_end (u : Program) :
    (u.HasOrderlyReferences → u.WalksEnd) ∧
      (∀ t, rounds u.traversalRound (2 * u.size + 2) (t.toList, []) = some (u.preorder t)) ∧
      ∀ first last, rounds u.widenRound (first + 1) (first, last) = some (u.widen first last) := by
  refine ⟨HasOrderlyReferences.walksEnd, fun t => ?_, fun first last => ?_⟩
  · have hpending : t.toList.length + 2 * (u.unseen []).card ≤ 2 * u.size + 1 := by
      have hone : t.toList.length ≤ 1 := by cases t <;> simp
      simp only [unseen, List.toFinset_nil, Finset.sdiff_empty, Finset.card_range]
      omega
    exact rounds_of_follows u.preorderWithin_follows hpending
  · exact rounds_of_follows u.widen_follows (Nat.le_refl first)

/-- The tokens of the text `{ ( x [ ) ] } [`, where brackets are crossed, not linked back, or not
    linked at all. -/
def crossed : Program where
  tokens := #[{ text := "\x7b", link := some 6 }, { text := "(", link := some 4 },
    { text := "x", parent := some 3, isName := true },
    { text := "[", operand1 := some 2, link := some 5 }, { text := ")" },
    { text := "]", link := some 3 }, { text := "\x7d" }, { text := "[" }]

/-- The braces have one element, from the parenthesis to the square bracket that it crosses, and
    with at most nine rounds this is found. The dimension behind it has no end, and is counted. -/
theorem walks_end_crossed :
    crossed.HasOrderlyReferences ∧
      rounds (crossed.elementsRound 6) 9 (some 1, none, []) = some (.ok [(1, 5)]) ∧
      rounds crossed.rankRound 9 (some 7, 0) = some 1 ∧
      rounds crossed.resolveRound 9 (some 3, some 3) = some (crossed.resolve (some 3)) ∧
      rounds crossed.traversalRound 18 ([3], []) = some [3, 2] := by
  have hforward : ∀ i < crossed.size, ∀ j < crossed.size, crossed.text (some i) ∈ openers →
      crossed.link (some i) = some j → i ≤ j := by decide +kernel
  have hbackward : ∀ i < crossed.size, ∀ j < crossed.size, crossed.text (some i) = "]" →
      crossed.link (some i) = some j → j ≤ i := by decide +kernel
  have hfirst : ∀ i < crossed.size, ∀ j < crossed.size, crossed.operand1 (some i) = some j →
      j < i := by decide +kernel
  have horderly : crossed.HasOrderlyReferences := by
    refine ⟨fun i j htext hlink => ?_, fun i j htext hlink => ?_, ?_, ?_⟩
    · exact hforward i (lt_size_of_link hlink) j (crossed.ref_lt hlink) htext hlink
    · exact hbackward i (lt_size_of_link hlink) j (crossed.ref_lt hlink) htext hlink
    · refine not_transGen_of_rank id fun i j hij => ?_
      have hi := lt_size_of_token? (token?_ne_none_of_operand1 (by rw [hij]; rfl))
      exact hfirst i hi j (crossed.ref_lt hij) hij
    · exact not_transGen_under (fun i => crossed.size - i) (by decide +kernel)
  obtain ⟨hwalks, htraversal, -⟩ := walks_end crossed
  have hends := hwalks horderly
  have helements : crossed.elements 0 = .ok [(1, 5)] := by decide +kernel
  exact ⟨horderly, helements ▸ hends.elements 0 6 rfl, hends.arrayRank (some 6),
    hends.resolve (some 3), htraversal (some 3)⟩

/-- The tokens of the text `a [ ]`, where the bracket is linked to the name in front of it. -/
def linkedBack : Program where
  tokens := #[{ text := "a", isName := true }, { text := "[", link := some 0 }, { text := "]" }]

/-- There the dimensions behind the name are counted for ever. -/
example (n rank : Nat) : rounds linkedBack.rankRound n (some 1, rank) = none := by
  induction n generalizing rank with
  | zero => rfl
  | succ n ih => exact ih (rank + 1)

end Indirection.Program
