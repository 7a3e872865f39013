import Indirection.Collect
import Indirection.Proofs.Recognizing
import Mathlib.Algebra.BigOperators.Group.Finset.Basic
import Mathlib.Algebra.Order.BigOperators.Group.Finset

/-!
# Programs without one star

The level of a declarator is read off the stars in front of its name, so that it falls when one of
them is taken out of the token list. Main definitions:

* `Program.without` — a program without one token, whose neighbours are joined;
* `Program.placeWithout`, `Program.origin` — where the other tokens come to stand, and where they
  stood;
* `Program.HasForwardBrackets` — no `[` is linked to a token in front of it;
* `Program.levelSum` — the levels of all names of a program, added up.

Main statements: `stars_without` — every token keeps its other stars; `arrayRank_without` — and its
array dimensions; `without_nearest_star` — the name behind the star falls by one level, no name in
front of which the star does not stand changes its level, and the levels of all names together fall.
-/

namespace Indirection

/-! ### Taking a token out -/

namespace Program

/-- Where the token at place `i` stands when the one at `s` is taken out. The place of the token
    that is taken out goes to the next one. -/
def placeWithout (s i : Nat) : Nat := if i ≤ s then i else i - 1

/-- Where the token at place `j` stood before the one at `s` was taken out. -/
def origin (s j : Nat) : Nat := if j < s then j else j + 1

/-- A reference when the token at `s` is taken out; to this token itself, none. -/
def refWithout (s : Nat) (r : Ref) : Ref := (r.filter (· ≠ s)).map (placeWithout s)

variable {s i j k : Nat}

/-- What stands in front of a removed token keeps its place. -/
theorem placeWithout_of_le (h : i ≤ s) : placeWithout s i = i := if_pos h

/-- What stands behind a removed token moves by one. -/
theorem placeWithout_of_lt (h : s < i) : placeWithout s i = i - 1 := if_neg (by omega)

/-- A token that remains comes from where it was. -/
theorem origin_placeWithout (h : i ≠ s) : origin s (placeWithout s i) = i := by
  unfold origin placeWithout
  split <;> split <;> omega

/-- Where a token came from is its own place again. -/
theorem placeWithout_origin (s j : Nat) : placeWithout s (origin s j) = j := by
  unfold origin placeWithout
  split <;> split <;> omega

/-- No token that remains comes from the removed one. -/
theorem origin_ne (s j : Nat) : origin s j ≠ s := by
  unfold origin
  split <;> omega

end Program

/-- A token of a program without the token at `s`. -/
def Token.without (s : Nat) (k : Token) : Token :=
  { k with
    link := Program.refWithout s k.link
    operand1 := Program.refWithout s k.operand1
    operand2 := Program.refWithout s k.operand2
    parent := Program.refWithout s k.parent }

/-- A variable of a program without the token at `s`. -/
def Variable.without (s : Nat) (v : Variable) : Variable :=
  { v with
    nameToken := Program.refWithout s v.nameToken
    typeStart := Program.refWithout s v.typeStart }

namespace Program

/-- A program without the token at `s`: the tokens behind it move up by one place. -/
def without (u : Program) (s : Nat) : Program :=
  { u with
    tokens := ((u.tokens.toList.eraseIdx s).map (Token.without s)).toArray
    vars := u.vars.map (Variable.without s) }

variable {u : Program} {s i j k : Nat} {rest : List Nat}

/-- Without a token there is one token less. -/
theorem size_without (h : s < u.size) : (u.without s).size = u.size - 1 := by
  have hlength : s < u.tokens.toList.length := by simpa [size] using h
  show ((u.tokens.toList.eraseIdx s).map (Token.without s)).toArray.size = _
  simp [List.length_eraseIdx_of_lt hlength, size]

/-- A token that remains is what it was, with its references moved. -/
theorem token?_without (u : Program) (s j : Nat) :
    (u.without s).token? (some j) = (u.token? (some (origin s j))).map (Token.without s) := by
  show ((u.tokens.toList.eraseIdx s).map (Token.without s)).toArray[j]? =
    (u.tokens[origin s j]?).map (Token.without s)
  rw [List.getElem?_toArray, List.getElem?_map, List.getElem?_eraseIdx, origin]
  split <;> simp

/-- A token that remains keeps its text. -/
theorem text_without (u : Program) (s j : Nat) :
    (u.without s).text (some j) = u.text (some (origin s j)) := by
  rw [text, token?_without, Option.map_map]
  rfl

/-- A token that remains is a name when it was one. -/
theorem isName_without (u : Program) (s j : Nat) :
    (u.without s).isName (some j) = u.isName (some (origin s j)) := by
  unfold isName flag
  rw [token?_without, Option.any_map]
  rfl

/-- References that are moved lead to what they led to. -/
theorem ref_without (h : s < u.size) (r : Ref) :
    (u.without s).ref (refWithout s r) = refWithout s (u.ref r) := by
  cases r with
  | none => rfl
  | some i =>
    have hsize := size_without h
    by_cases his : i = s
    · simp [refWithout, ref, his, Option.filter, h]
    · unfold refWithout ref
      grind [placeWithout]

/-- Links are moved with the tokens. -/
theorem link_without (h : s < u.size) (j : Nat) :
    (u.without s).link (some j) = refWithout s (u.link (some (origin s j))) := by
  rw [link, link, ← ref_without h, token?_without]
  cases u.token? (some (origin s j)) <;> rfl

/-- Behind the removed token, what follows a token is moved with it. -/
theorem next_without (h : s < u.size) (hi : s < i) :
    (u.without s).next (some (i - 1)) = refWithout s (u.next (some i)) := by
  rw [next, next, ← ref_without h]
  apply congrArg
  show some (i - 1 + 1) = (Option.filter (· ≠ s) (some (i + 1))).map (placeWithout s)
  have hne : i + 1 ≠ s := by omega
  simp [Option.filter, hne, placeWithout_of_lt (show s < i + 1 by omega)]
  omega

/-! ### Stars -/

/-- Behind the nearest star the scan goes on as it would from that star. -/
theorem starsBefore_tail (h : u.starsBefore i = s :: rest) : rest = u.starsBefore s := by
  induction i with
  | zero => cases h
  | succ i ih =>
    rw [starsBefore] at h
    split at h
    · obtain ⟨rfl, rfl⟩ := List.cons.inj h
      rfl
    · split at h
      · exact ih h
      · cases h

/-- The nearest star of a token of the program stands in front of it. -/
theorem star_of_nearest (h : u.stars (some i) = s :: rest) :
    s < i ∧ i < u.size ∧ u.text (some s) = "*" ∧ u.starsBefore i = s :: rest := by
  have hnearest : (u.stars (some i)).head? = some s := by rw [h]; rfl
  obtain ⟨hi, hstars, -⟩ := previous_of_nearest hnearest
  rw [hstars] at h hnearest
  obtain ⟨hsi, hstar, -⟩ := head?_starsBefore.1 hnearest
  exact ⟨hsi, hi, hstar, h⟩

/-- **Stars behind a gap.** When a star is taken out, the scan in front of any token finds the other
    stars that it found before. -/
theorem starsBefore_without (hstar : u.text (some s) = "*") (i : Nat) :
    (u.without s).starsBefore (placeWithout s i) =
      ((u.starsBefore i).filter (· ≠ s)).map (placeWithout s) := by
  induction i with
  | zero => simp [placeWithout, starsBefore]
  | succ i ih =>
    by_cases his : i = s
    · -- the scan comes to the gap: the star was found here, and now the next token is read
      have hgap : placeWithout s (i + 1) = placeWithout s i := by
        rw [placeWithout_of_lt (by omega), placeWithout_of_le (by omega), Nat.add_sub_cancel]
      rw [hgap, ih, starsBefore, his, if_pos hstar]
      simp
    · have hplace : placeWithout s (i + 1) = placeWithout s i + 1 := by
        unfold placeWithout
        split <;> split <;> omega
      have htext : (u.without s).text (some (placeWithout s i)) = u.text (some i) := by
        rw [text_without, origin_placeWithout his]
      rw [hplace, starsBefore, starsBefore, htext, ih]
      split
      · simp [his]
      · split <;> rfl

/-- Every other token keeps its other stars. -/
theorem stars_without (hstar : u.text (some s) = "*") (hne : k ≠ s) :
    (u.without s).stars (some (placeWithout s k)) =
      ((u.stars (some k)).filter (· ≠ s)).map (placeWithout s) := by
  have hs : s < u.size := lt_size_of_text (by rw [hstar]; decide)
  have hsize := size_without hs
  by_cases hk : k < u.size
  · have hplace : placeWithout s k < (u.without s).size := by
      rw [hsize]
      unfold placeWithout
      split <;> omega
    rw [stars, stars, ref_of_lt hk, ref_of_lt hplace]
    exact starsBefore_without hstar k
  · have hplace : ¬ placeWithout s k < (u.without s).size := by
      rw [hsize, placeWithout_of_lt (by omega)]
      omega
    simp [stars, ref, Option.filter, hk, hplace]

/-- In front of a name without the star, nothing changes. -/
theorem stars_without_of_not_mem (hstar : u.text (some s) = "*") (hne : k ≠ s)
    (h : s ∉ u.stars (some k)) :
    (u.without s).stars (some (placeWithout s k)) =
      (u.stars (some k)).map (placeWithout s) := by
  have hall : (u.stars (some k)).filter (· ≠ s) = u.stars (some k) := by
    apply List.filter_eq_self.2
    intro m hm
    have hms : m ≠ s := fun heq => h (heq ▸ hm)
    simpa using hms
  rw [stars_without hstar hne, hall]

/-- No level rises. -/
theorem length_stars_without_le (hstar : u.text (some s) = "*") (hne : k ≠ s) :
    ((u.without s).stars (some (placeWithout s k))).length ≤ (u.stars (some k)).length := by
  rw [stars_without hstar hne, List.length_map]
  exact List.length_filter_le _ _

/-- The name behind the star keeps the stars further away, which stay in their places. -/
theorem stars_without_nearest (h : u.stars (some i) = s :: rest) :
    (u.without s).stars (some (placeWithout s i)) = rest := by
  obtain ⟨hsi, -, hstar, hbefore⟩ := star_of_nearest h
  have hfront : ∀ m ∈ rest, m < s := by
    intro m hm
    rw [starsBefore_tail hbefore] at hm
    exact (text_of_mem_starsBefore hm).1
  rw [stars_without hstar (by omega), h]
  calc ((s :: rest).filter (· ≠ s)).map (placeWithout s)
      = (rest.filter (· ≠ s)).map (placeWithout s) := by simp
    _ = rest.map (placeWithout s) := by
      rw [List.filter_eq_self.2 fun m hm => by simpa using (hfront m hm).ne]
    _ = rest.map id := List.map_congr_left fun m hm => placeWithout_of_le (hfront m hm).le
    _ = rest := List.map_id rest

/-! ### Dimensions -/

/-- Whether no `[` is linked to a token in front of it. -/
def HasForwardBrackets (u : Program) : Prop :=
  ∀ i j, u.text (some i) = "[" → u.link (some i) = some j → i ≤ j

/-- With forward links there are no more dimensions than tokens. -/
theorem rankWithin_eq (h : u.HasForwardBrackets) {t : Ref} {m n : Nat}
    (hm : ∀ i, t = some i → u.size ≤ i + m) (hn : ∀ i, t = some i → u.size ≤ i + n) :
    u.rankWithin m t = u.rankWithin n t := by
  -- what is no token is no bracket, so that no steps suffice for it
  have hend {t : Ref} {n : Nat} (ht : ∀ i, t = some i → u.size ≤ i) : u.rankWithin n t = 0 := by
    have htext : u.text t = "" := by
      cases t with
      | none => rfl
      | some i => simp [text, token?_eq_none (ht i rfl)]
    cases n <;> simp [rankWithin, htext]
  induction m generalizing t n with
  | zero => rw [hend hm, hend hm]
  | succ m ih =>
    cases n with
    | zero => rw [hend hn, hend hn]
    | succ n =>
      simp only [rankWithin]
      by_cases hbracket : u.text t = "["
      · rw [if_pos hbracket, if_pos hbracket]
        cases hlink : u.link t with
        | none => rfl
        | some close =>
          -- the token behind the partner is further back
          obtain ⟨i, rfl⟩ : ∃ i, t = some i := by
            cases t with
            | none => cases hlink
            | some i => exact ⟨i, rfl⟩
          have hforward := h i close hbracket hlink
          have hm' := hm i rfl
          have hn' := hn i rfl
          refine congrArg (· + 1) (ih (fun k hk => ?_) fun k hk => ?_)
          · rw [next_eq_some hk]
            omega
          · rw [next_eq_some hk]
            omega
      · rw [if_neg hbracket, if_neg hbracket]

/-- Behind the star, the dimensions are the same. -/
theorem rankWithin_without (h : u.HasForwardBrackets) (hs : s < u.size) (n : Nat) {t : Ref}
    (ht : ∀ i, t = some i → s < i) :
    (u.without s).rankWithin n (refWithout s t) = u.rankWithin n t := by
  induction n generalizing t with
  | zero => rfl
  | succ n ih =>
    cases t with
    | none => rfl
    | some i =>
      have hi := ht i rfl
      have horigin : origin s (i - 1) = i := by
        unfold origin
        split <;> omega
      have hmoved {k : Nat} (hk : s < k) : refWithout s (some k) = some (k - 1) := by
        have hne : k ≠ s := by omega
        simp [refWithout, Option.filter, hne, placeWithout_of_lt hk]
      rw [hmoved hi, rankWithin, rankWithin, text_without, horigin]
      by_cases hbracket : u.text (some i) = "["
      · rw [if_pos hbracket, if_pos hbracket, link_without hs, horigin]
        cases hlink : u.link (some i) with
        | none => rfl
        | some close =>
          have hforward := h i close hbracket hlink
          rw [hmoved (by omega)]
          show (u.without s).rankWithin n ((u.without s).next (some (close - 1))) + 1 = _
          rw [next_without hs (by omega), ih]
          intro k hk
          rw [next_eq_some hk]
          omega
      · rw [if_neg hbracket, if_neg hbracket]

/-- A name behind the star keeps its array dimensions. -/
theorem arrayRank_without (h : u.HasForwardBrackets) (hs : s < u.size) (hi : s < i) :
    (u.without s).arrayRank (some (placeWithout s i)) = u.arrayRank (some i) := by
  rw [arrayRank, arrayRank, placeWithout_of_lt hi, next_without hs hi, size_without hs]
  calc (u.without s).rankWithin (u.size - 1) (refWithout s (u.next (some i)))
      = u.rankWithin (u.size - 1) (u.next (some i)) :=
        rankWithin_without h hs _ fun k hk => by rw [next_eq_some hk]; omega
    _ = u.rankWithin u.size (u.next (some i)) :=
        rankWithin_eq h (fun k hk => by rw [next_eq_some hk]; omega) fun k _ => Nat.le_add_left _ _

/-! ### Levels -/

/-- The levels of all names of a program, added up. -/
def levelSum (u : Program) : Nat :=
  ∑ i ∈ Finset.range u.size with u.isName (some i), (u.stars (some i)).length

/-- The names of a program without a token are its other names. -/
theorem levelSum_without (hs : s < u.size) :
    (u.without s).levelSum =
      ∑ i ∈ (Finset.range u.size).erase s with u.isName (some i),
        ((u.without s).stars (some (placeWithout s i))).length := by
  have hsize := size_without hs
  refine Finset.sum_nbij' (origin s) (placeWithout s) ?_ ?_ ?_ ?_ ?_
  · intro j hj
    rw [Finset.mem_filter, Finset.mem_range, hsize, isName_without] at hj
    rw [Finset.mem_filter, Finset.mem_erase, Finset.mem_range]
    refine ⟨⟨origin_ne s j, ?_⟩, hj.2⟩
    unfold origin
    split <;> omega
  · intro i hi
    rw [Finset.mem_filter, Finset.mem_erase, Finset.mem_range] at hi
    rw [Finset.mem_filter, Finset.mem_range, hsize, isName_without, origin_placeWithout hi.1.1]
    refine ⟨?_, hi.2⟩
    unfold placeWithout
    split <;> omega
  · intro j _
    exact placeWithout_origin s j
  · intro i hi
    rw [Finset.mem_filter, Finset.mem_erase] at hi
    exact origin_placeWithout hi.1.1
  · intro j _
    rw [placeWithout_origin]

/-- **The levels fall.** When the nearest star of a name is taken out, the levels of all names
    together get less. -/
theorem levelSum_without_lt (h : u.stars (some i) = s :: rest) (hname : u.isName (some i) = true) :
    (u.without s).levelSum < u.levelSum := by
  obtain ⟨hsi, hi, hstar, -⟩ := star_of_nearest h
  have hs : s < u.size := by omega
  rw [levelSum_without hs]
  calc ∑ k ∈ (Finset.range u.size).erase s with u.isName (some k),
          ((u.without s).stars (some (placeWithout s k))).length
      < ∑ k ∈ (Finset.range u.size).erase s with u.isName (some k),
          (u.stars (some k)).length := by
        apply Finset.sum_lt_sum
        · intro k hk
          rw [Finset.mem_filter, Finset.mem_erase] at hk
          exact length_stars_without_le hstar hk.1.1
        · refine ⟨i, ?_, ?_⟩
          · simp [hname, hi, show i ≠ s by omega]
          · rw [stars_without_nearest h, h]
            exact Nat.lt_succ_self _
    _ ≤ u.levelSum :=
        Finset.sum_le_sum_of_subset (Finset.filter_subset_filter _ (Finset.erase_subset _ _))

/-- **One star less.** Let `s` be the nearest star of the name at `i`, with the stars `rest` behind
    it. In the program without `s`:

    * the stars of the name are exactly `rest`;
    * its array dimensions are the same, unless a bracket is linked backwards;
    * every other token in front of which `s` does not stand has exactly the stars that it had;
    * the level that a collection counts at the name is one less, and at every other token in front
      of which `s` does not stand it is the same;
    * the levels of all names together are less. -/
theorem without_nearest_star (u : Program) {i s : Nat} {rest : List Nat}
    (h : u.stars (some i) = s :: rest) :
    (u.without s).stars (some (placeWithout s i)) = rest ∧
    (u.HasForwardBrackets →
      (u.without s).arrayRank (some (placeWithout s i)) = u.arrayRank (some i)) ∧
    (∀ k, k ≠ s → s ∉ u.stars (some k) →
      (u.without s).stars (some (placeWithout s k)) =
        (u.stars (some k)).map (placeWithout s)) ∧
    ((u.without s).declarationAt (some (placeWithout s i))).level =
      (u.declarationAt (some i)).level - 1 ∧
    (∀ k, k ≠ s → s ∉ u.stars (some k) →
      ((u.without s).declarationAt (some (placeWithout s k))).level =
        (u.declarationAt (some k)).level) ∧
    (u.isName (some i) = true → (u.without s).levelSum < u.levelSum) := by
  obtain ⟨hsi, hi, hstar, -⟩ := star_of_nearest h
  have hlevel (v : Program) (k : Nat) :
      (v.declarationAt (some k)).level = (v.stars (some k)).length := rfl
  refine ⟨stars_without_nearest h, fun hforward => arrayRank_without hforward (by omega) hsi,
    fun k hne hk => stars_without_of_not_mem hstar hne hk, ?_, fun k hne hk => ?_,
    fun hname => levelSum_without_lt h hname⟩
  · rw [hlevel, hlevel, stars_without_nearest h, h, List.length_cons]
    omega
  · rw [hlevel, hlevel, stars_without_of_not_mem hstar hne hk, List.length_map]

/-- The tokens of the text `int * const *p[2], *q;`. -/
def qualifiedRow : Program where
  tokens := #[{ text := "int", isName := true }, { text := "*" },
    { text := "const" }, { text := "*" },
    { text := "p", varId := 1, var := some 0, isName := true },
    { text := "[", link := some 7 }, { text := "2", isNumber := true },
    { text := "]", link := some 5 }, { text := "," }, { text := "*" },
    { text := "q", varId := 2, var := some 1, isName := true }, { text := ";" }]
  vars := #[{ nameToken := some 4, typeStart := some 0 },
    { nameToken := some 10, typeStart := some 0 }]

/-- Without its nearest star, `p` has the star in front of the qualifier and its dimension left, and
    `q` its own star. -/
theorem without_nearest_star_qualifiedRow :
    qualifiedRow.stars (some 4) = [3, 1] ∧
      (qualifiedRow.without 3).stars (some 3) = [1] ∧
      (qualifiedRow.without 3).arrayRank (some 3) = 1 ∧
      (qualifiedRow.without 3).stars (some 9) = [8] ∧
      (qualifiedRow.without 3).levelSum < qualifiedRow.levelSum := by
  have hstars : qualifiedRow.stars (some 4) = [3, 1] := by decide +kernel
  have hforward : qualifiedRow.HasForwardBrackets := by
    intro i j htext hlink
    have hi : i < qualifiedRow.size := lt_size_of_text (by rw [htext]; decide)
    have hall : ∀ i < qualifiedRow.size, ∀ j ∈ qualifiedRow.link (some i),
        qualifiedRow.text (some i) = "[" → i ≤ j := by decide +kernel
    exact hall i hi j hlink htext
  obtain ⟨hname, hrank, hothers, -, -, hsum⟩ := qualifiedRow.without_nearest_star hstars
  refine ⟨hstars, hname, ?_, ?_, hsum (by decide +kernel)⟩
  · exact (hrank hforward).trans (by decide +kernel)
  · exact (hothers 10 (by decide) (by decide +kernel)).trans (by decide +kernel)

end Program

end Indirection
