import Indirection.Proofs.Layering
import Indirection.Proofs.Nesting

/-!
# Which names are treated as those of declarators

A name with a star in front that takes part in no tree stands in a declarator. The reduction tells
declarators from uses by the record of the variable and by the neighbours of the name. Main
definitions:

* `Program.LosesNearest` — the nearest star of a name is removed, no star further out, and nothing
  is inserted in front of the name;
* `Program.IsRecognized` — the name is the one that its variable records, or its neighbours are
  those of a redeclaration;
* `Program.denoted`, `Program.Indexes` — the expression that a name stands for, and those that index
  it.

Main statements: `head?_starsBefore` — which star is the nearest; `valuesWithin_beginsValue` — the
values in an initializer begin behind an `=`, a comma or a brace; `inTree_of_bounds` — the bounds of
an expression begin in its tree, or with a parenthesis; `site_eq_value_iff` — what a use denotes, by
what its name stands for and the indexings of it; `losesNearest_iff` — a name loses its nearest star
exactly when it is recognised. `redeclaredFunctionPointer_reference` shows a redeclaration that is
not: behind its name stands a parenthesis.
-/

namespace Indirection.Program

variable {u : Program} {sources : Sources} {d : Decl}

/-- Whether the name of `d` at `i` is treated as that of a declarator with the nearest star `star`:
    of its stars that take part in no tree exactly this one is removed, and nothing is inserted in
    front of the name. -/
structure LosesNearest (u : Program) (d : Decl) (i star : Nat) : Prop where
  removed : .change (.remove (some star)) ∈ (u.plan d).items
  only : ∀ k ∈ u.stars (some i), u.hasTree (some k) = false →
    .change (.remove (some k)) ∈ (u.plan d).items → k = star
  untouched : ∀ text, .change (.insertBefore (some i) text) ∉ (u.plan d).items

/-- Whether the name at `i`, with a star in front, is recognised as that of a declarator: its
    variable records it, or it is followed by `;`, `,`, `=` or `[` and has directly in front of it
    a star or a qualifier that is flagged as a name. -/
def IsRecognized (u : Program) (i : Nat) : Prop :=
  (u.var (some i)).isSome = true ∧ u.varId (some i) ≠ 0 ∧
    (u.nameToken (u.var (some i)) = some i ∨
      u.text (u.next (some i)) ∈ declaratorEnds ∧
        (u.text (u.previous (some i)) = "*" ∨ u.isName (u.previous (some i)) = true))

/-! ### Stars -/

/-- The nearest star is the first token in front that is no qualifier. -/
theorem head?_starsBefore {i k : Nat} :
    (u.starsBefore i).head? = some k ↔
      k < i ∧ u.text (some k) = "*" ∧
        ∀ m, k < m → m < i → u.text (some m) ∈ pointerQualifiers := by
  have hstar : "*" ∉ pointerQualifiers := by decide
  induction i with
  | zero => simp [starsBefore]
  | succ i ih =>
    -- the token at `i` is the last one in front: a star, a qualifier or the end of the scan
    rw [starsBefore]
    by_cases htext : u.text (some i) = "*"
    · rw [if_pos htext, List.head?_cons, Option.some.injEq]
      constructor
      · rintro rfl
        exact ⟨Nat.lt_succ_self _, htext, fun m hkm hmi => by omega⟩
      · rintro ⟨hki, -, hbetween⟩
        by_contra hne
        exact hstar (htext ▸ hbetween i (by omega) (by omega))
    · rw [if_neg htext]
      by_cases hqualifier : u.text (some i) ∈ pointerQualifiers
      · rw [if_pos (List.contains_iff_mem.2 hqualifier)]
        refine ih.trans ?_
        constructor
        · rintro ⟨hki, hk, hbetween⟩
          refine ⟨by omega, hk, fun m hkm hmi => ?_⟩
          rcases Nat.lt_succ_iff_lt_or_eq.1 hmi with hmi | rfl
          · exact hbetween m hkm hmi
          · exact hqualifier
        · rintro ⟨hki, hk, hbetween⟩
          have hne : k ≠ i := by
            rintro rfl
            exact htext hk
          exact ⟨by omega, hk, fun m hkm hmi => hbetween m hkm (by omega)⟩
      · rw [if_neg fun hc => hqualifier (List.contains_iff_mem.1 hc)]
        refine ⟨fun h => by simp at h, ?_⟩
        rintro ⟨hki, hk, hbetween⟩
        by_cases hne : k = i
        · exact absurd (hne ▸ hk) htext
        · exact absurd (hbetween i (by omega) (by omega)) hqualifier

/-- In front of a name stand, up to any of its stars, only stars and qualifiers. -/
theorem text_of_mem_starsBefore {i k : Nat} (h : k ∈ u.starsBefore i) :
    k < i ∧ u.text (some k) = "*" ∧
      ∀ m, k < m → m < i → u.text (some m) ∈ "*" :: pointerQualifiers := by
  induction i with
  | zero => simp [starsBefore] at h
  | succ i ih =>
    rw [starsBefore] at h
    split at h
    · rename_i htext
      rcases List.mem_cons.1 h with rfl | h
      · exact ⟨Nat.lt_succ_self _, htext, fun m hkm hmi => by omega⟩
      · obtain ⟨hki, hk, hbetween⟩ := ih h
        refine ⟨by omega, hk, fun m hkm hmi => ?_⟩
        rcases Nat.lt_succ_iff_lt_or_eq.1 hmi with hmi | rfl
        · exact hbetween m hkm hmi
        · exact List.mem_cons.2 (.inl htext)
    · split at h
      · rename_i hqualifier
        obtain ⟨hki, hk, hbetween⟩ := ih h
        refine ⟨by omega, hk, fun m hkm hmi => ?_⟩
        rcases Nat.lt_succ_iff_lt_or_eq.1 hmi with hmi | rfl
        · exact hbetween m hkm hmi
        · exact List.mem_cons_of_mem _ (List.contains_iff_mem.1 hqualifier)
      · cases h

/-- A name with a nearest star is a token of the program, and the token in front of it is this star
    or a qualifier. -/
theorem previous_of_nearest {i star : Nat} (h : (u.stars (some i)).head? = some star) :
    i < u.size ∧ u.stars (some i) = u.starsBefore i ∧
      ∃ p, i = p + 1 ∧ u.previous (some i) = some p ∧
        u.text (some p) ∈ "*" :: pointerQualifiers := by
  have hi : i < u.size := by
    by_contra hout
    simp [stars, ref, Option.filter, hout] at h
  have hstars : u.stars (some i) = u.starsBefore i := by rw [stars, ref_of_lt hi]
  rw [hstars] at h
  obtain ⟨hlt, hstar, hbetween⟩ := head?_starsBefore.1 h
  obtain ⟨p, rfl⟩ : ∃ p, i = p + 1 := ⟨i - 1, by omega⟩
  refine ⟨hi, hstars, p, rfl, previous_of_lt hi, ?_⟩
  rcases Nat.lt_succ_iff_lt_or_eq.1 hlt with hlt | rfl
  · exact List.mem_cons_of_mem _ (hbetween p hlt (Nat.lt_succ_self p))
  · exact List.mem_cons.2 (.inl hstar)

/-- Only one name that is spelled like no star and no qualifier stands behind a star, up to other
    stars and qualifiers. -/
theorem eq_of_nearest {i j k : Nat} (hi : u.text (some i) ∉ "*" :: pointerQualifiers)
    (hj : u.text (some j) ∉ "*" :: pointerQualifiers) (hk : k ∈ u.stars (some i))
    (hnearest : (u.stars (some j)).head? = some k) : i = j := by
  have hsize : i < u.size := by
    by_contra hout
    simp [stars, ref, Option.filter, hout] at hk
  rw [stars, ref_of_lt hsize] at hk
  -- the one of the two names that stands first would stand among the stars of the other
  obtain ⟨-, hstars, -⟩ := previous_of_nearest hnearest
  rw [hstars] at hnearest
  obtain ⟨hki, -, hstars⟩ := text_of_mem_starsBefore hk
  obtain ⟨hkj, -, hqualifiers⟩ := head?_starsBefore.1 hnearest
  rcases Nat.lt_trichotomy i j with hij | rfl | hij
  · exact absurd (List.mem_cons_of_mem _ (hqualifiers i hki hij)) hi
  · rfl
  · exact absurd (hstars j hkj hij) hj

/-! ### Declarators -/

/-- What is outside all trees has no parent and no operands. -/
theorem hasTree_eq_false {t : Ref} :
    u.hasTree t = false ↔ u.parent t = none ∧ u.operand1 t = none ∧ u.operand2 t = none := by
  simp [hasTree, and_assoc]

/-- A name with a star in front of it that is no operand is recognised by what stands around it. -/
theorem isDeclaratorName_iff {i star : Nat} (hparent : u.parent (some i) = none)
    (hstar : (u.stars (some i)).head? = some star) :
    u.isDeclaratorName (some i) = true ↔ u.IsRecognized i := by
  obtain ⟨-, -, p, -, hprevious, htext⟩ := previous_of_nearest hstar
  -- no star and no qualifier is a word that begins a statement
  have hwords : ∀ s ∈ "*" :: pointerQualifiers, statementKeywords.contains s = false := by decide
  have hword := hwords _ htext
  simp only [isDeclaratorName, IsRecognized, hparent, hprevious]
  cases hvar : u.var (some i) with
  | none => simp
  | some v =>
    simp only [Option.isNone_some, Option.isSome_some, Option.isSome_none, Bool.false_or]
    grind

/-- A removed token that takes part in no tree is the nearest star of a declarator. -/
theorem declarator_of_remove (h : (u.plan d).fault = none) {k : Nat}
    (htree : u.hasTree (some k) = false) (hk : .change (.remove (some k)) ∈ (u.plan d).items) :
    ∃ j, u.declKey (some j) = d.key ∧ u.isDeclaratorName (some j) = true ∧
      (u.stars (some j)).head? = some k := by
  obtain ⟨-, hoperand, -⟩ := hasTree_eq_false.1 htree
  have hunary : u.isUnaryOp (some k) = false := by simp [isUnaryOp, hoperand]
  have hpermits := permits_of_mem_plan h hk
  -- a dereference and an address operator have an operand, and the other changes remove no token
  generalize hchange : Change.remove (some k) = c at hpermits
  cases hpermits with
  | declaratorStar hkey hdeclarator hnearest =>
    obtain rfl := Option.some.inj (Change.replace.inj hchange).1
    exact ⟨_, hkey, hdeclarator, hnearest⟩
  | dereference _ _ hderef =>
    obtain rfl := Option.some.inj (Change.replace.inj hchange).1
    simp [isDereference, hunary] at hderef
  | address _ haddress =>
    obtain rfl := Option.some.inj (Change.replace.inj hchange).1
    simp [isAddressOf, hunary] at haddress
  | arrow => exact absurd (Change.replace.inj hchange).2 (by decide)
  | subscript | reference | opening | closing => cases hchange

/-! ### Values begin behind an `=`, a comma or a brace -/

/-- The tokens behind which a value may begin. -/
def valueHeralds : List String := ["=", ",", "\x7b"]

/-- Whether a value may begin at `k`, for what stands in front of it. -/
def BeginsValue (u : Program) (k : Nat) : Prop :=
  ∃ p, k = p + 1 ∧ u.text (some p) ∈ valueHeralds

/-- Behind what heralds a value, a value begins. -/
theorem beginsValue_of_next {t : Ref} {k : Nat} (htext : u.text t ∈ valueHeralds)
    (h : u.next t = some k) : u.BeginsValue k := by
  obtain ⟨p, rfl, hk, -⟩ := next_eq_some_iff.1 h
  exact ⟨p, hk, htext⟩

/-- The elements up to a closing brace begin behind the opening one or a comma, if the walk over
    them does so. -/
theorem elementsWithin_beginsValue {close steps : Nat} {t : Ref} {current : Option (Nat × Nat)}
    {es : List (Nat × Nat)} (hcurrent : ∀ e ∈ current, u.BeginsValue e.1)
    (ht : current = none → ∀ k, t = some k → u.BeginsValue k)
    (h : u.elementsWithin close steps t current = .ok es) : ∀ e ∈ es, u.BeginsValue e.1 := by
  have hlast {current : Option (Nat × Nat)} {es : List (Nat × Nat)}
      (hcurrent : ∀ e ∈ current, u.BeginsValue e.1)
      (h : Except.ok current.toList = (.ok es : Except Fault _)) :
      ∀ e ∈ es, u.BeginsValue e.1 := by
    obtain rfl := Except.ok.inj h
    exact fun e he => hcurrent e (Option.mem_toList.1 he)
  induction steps generalizing t current es with
  | zero => exact hlast hcurrent h
  | succ steps ih =>
    cases t with
    | none => exact hlast hcurrent h
    | some i =>
      rw [elementsWithin] at h
      split at h
      · exact hlast hcurrent h
      · split at h
        · -- behind a comma the next element begins
          rename_i hcomma
          split at h
          · rename_i rest hrest
            obtain rfl := Except.ok.inj h
            have hbehind : ∀ e ∈ rest, u.BeginsValue e.1 :=
              ih (by simp) (fun _ k hk => beginsValue_of_next (by rw [hcomma]; decide) hk) hrest
            intro e he
            rcases List.mem_append.1 he with he | he
            · exact hcurrent e (Option.mem_toList.1 he)
            · exact hbehind e he
          · cases h
        · split at h
          · cases h
          · -- an element goes on, or begins at token `i`
            refine ih ?_ (by simp) h
            rintro e he
            obtain rfl := Option.some.inj he
            cases current with
            | none => exact ht rfl i rfl
            | some e => exact hcurrent e rfl

/-- What a designator names begins where the element does, or behind an `=`. -/
theorem designated_beginsValue {first last k : Nat} (hfirst : u.BeginsValue first)
    (h : (u.designated first last).2 = some k) : u.BeginsValue k := by
  have heq {t : Ref} (htext : u.text t = "=") (h : u.next t = some k) : u.BeginsValue k :=
    beginsValue_of_next (by rw [htext]; decide) h
  have hself (h : some first = some k) : u.BeginsValue k := Option.some.inj h ▸ hfirst
  unfold designated at h
  split at h
  · exact hself h
  · split at h
    · dsimp only at h
      split at h
      · rename_i htext
        exact heq htext h
      · exact hself h
    · split at h
      · dsimp only at h
        split at h
        · rename_i htext
          exact heq htext h
        · exact hself h
      · exact hself h

/-- The values in an initializer begin where it begins, or behind an `=`, a comma or a brace. -/
theorem valuesWithin_beginsValue {depth k : Nat} {t : Ref} {range : Range}
    (ht : ∀ k, t = some k → u.BeginsValue k) (h : range ∈ (u.valuesWithin depth t).items)
    (hk : range.first = some k) : u.BeginsValue k := by
  have hexpression {t : Ref} (ht : ∀ k, t = some k → u.BeginsValue k)
      (h : range ∈ (Trail.ofExcept (u.expressionFrom t) Trail.one).items) : u.BeginsValue k := by
    obtain ⟨r, hr, h⟩ := Trail.mem_items_ofExcept h
    obtain rfl := List.mem_singleton.1 h
    rw [expressionFrom] at hr
    split at hr
    · obtain rfl := Except.ok.inj hr
      exact ht k hk
    · cases hr
  induction depth generalizing t with
  | zero => cases h
  | succ depth ih =>
    rw [valuesWithin] at h
    split at h
    · split at h
      · -- the values of the elements, some of which are braces again
        rename_i i _ htext
        obtain ⟨es, hes, h⟩ := Trail.mem_items_ofExcept h
        obtain ⟨e, he, h⟩ := Trail.mem_items_concat h
        have hfirst : u.BeginsValue e.1 := by
          rw [elements] at hes
          split at hes
          · refine elementsWithin_beginsValue (by simp) (fun _ k hk => ?_) hes e he
            exact beginsValue_of_next (by rw [htext]; decide) hk
          · cases hes
        dsimp only at h
        split at h
        · exact ih (fun k hk => designated_beginsValue hfirst hk) h
        · obtain rfl := List.mem_singleton.1 h
          exact designated_beginsValue hfirst hk
      · exact hexpression ht h
    · exact hexpression ht h

/-- A value that loses a level begins behind an `=`, a comma or a brace, or is assigned. -/
theorem NarrowsAt.beginsValue {i k root : Nat} {range : Range} (h : u.NarrowsAt d i root range)
    (hk : range.first = some k) :
    u.BeginsValue k ∨ ∃ p last, u.Child p root ∧ u.bounds (some root) = some (k, last) := by
  cases h with
  | initial _ hinit hvalue =>
    obtain ⟨e, rfl, htext, -⟩ := exists_eq_of_initializer hinit
    refine .inl (valuesWithin_beginsValue (fun k hk => ⟨e, ?_, ?_⟩) hvalue hk)
    · exact (Option.some.inj hk).symm
    · rw [htext]
      decide
  | @assigned node operator _ first last hsite huse hoperand hbounds =>
    obtain rfl := Option.some.inj hk
    obtain ⟨p, rfl⟩ := exists_token_of (p := u.isAssignment) rfl (t := operator) (by
      have hspec := u.use_spec node
      simp only [huse] at hspec
      exact hspec.2.1)
    exact .inr ⟨p, last, .inr hoperand, hbounds⟩

/-! ### Values of uses -/

/-- The expression that the name of `d` at `t` stands for: for a member the access to it, else the
    name itself. -/
def denoted (u : Program) (d : Decl) (t : Nat) : Ref :=
  let parent := u.parent (some t)
  if u.isMemberAccess parent && u.operand2 parent = some t then parent
  else if d.isField then none
  else some t

/-- What a token denotes is the member access it is the member of, or the token itself. -/
theorem denoted_eq_some {t b : Nat} (h : u.denoted d t = some b) :
    u.isMemberAccess (some b) = true ∧ u.operand2 (some b) = some t ∨ b = t := by
  unfold denoted at h
  dsimp only at h
  split at h
  · rename_i hmember
    rw [h, Bool.and_eq_true, decide_eq_true_eq] at hmember
    exact .inl hmember
  · split at h
    · cases h
    · exact .inr (Option.some.inj h).symm

/-- Whether the expression at `x` indexes the one at `b` for `k` times. -/
inductive Indexes (u : Program) (b : Nat) : (k x : Nat) → Prop
  | base : Indexes u b 0 b
  | index {k x p : Nat} (below : Indexes u b k x) (subscript : u.isSubscript (some p) = true)
    (operand : u.operand1 (some p) = some x) : Indexes u b (k + 1) p

/-- One more indexing may be put below. -/
theorem Indexes.cons {b p k x : Nat} (h : u.Indexes p k x)
    (hsubscript : u.isSubscript (some p) = true) (hoperand : u.operand1 (some p) = some b) :
    u.Indexes b (k + 1) x := by
  induction h with
  | base => exact .index .base hsubscript hoperand
  | index _ hsub hop ih => exact .index ih hsub hop

/-- What indexes a base is the base itself or an indexing. -/
theorem Indexes.eq_or_isSubscript {b k x : Nat} (h : u.Indexes b k x) :
    k = 0 ∧ x = b ∨ 0 < k ∧ u.isSubscript (some x) = true := by
  cases h with
  | base => exact .inl ⟨rfl, rfl⟩
  | index _ hsubscript => exact .inr ⟨Nat.succ_pos _, hsubscript⟩

/-- An expression tells what it indexes, and how often, if that is no indexing. -/
theorem Indexes.unique {b c k l x : Nat} (hb : u.isSubscript (some b) = false)
    (hc : u.isSubscript (some c) = false) (h : u.Indexes b k x) (h' : u.Indexes c l x) :
    b = c ∧ k = l := by
  induction h generalizing l with
  | base =>
    cases h' with
    | base => exact ⟨rfl, rfl⟩
    | index _ hsubscript => simp [hsubscript] at hb
  | index _ hsubscript hoperand ih =>
    cases h' with
    | base => simp [hsubscript] at hc
    | index hbelow _ hoperand' =>
      obtain rfl := Option.some.inj (hoperand.symm.trans hoperand')
      obtain ⟨rfl, rfl⟩ := ih hbelow
      exact ⟨rfl, rfl⟩

/-- The indexing that is found around a base indexes it. -/
theorem indexes_of_subscripted {rank b v : Nat}
    (h : u.subscripted rank (some b) = some (some v)) : u.Indexes b rank v := by
  induction rank generalizing b with
  | zero =>
    obtain rfl := Option.some.inj (Option.some.inj h)
    exact .base
  | succ rank ih =>
    rw [subscripted] at h
    split at h
    · rename_i hparent
      simp only [Bool.and_eq_true, decide_eq_true_eq] at hparent
      obtain ⟨p, hp⟩ := exists_token_of rfl hparent.1
      rw [hp] at h hparent
      exact (ih h).cons hparent.1 hparent.2
    · cases h

/-- The value of a use is the declaration with one indexing for each of its dimensions. -/
theorem site_eq_value_iff {t : Nat} {node : Ref} : u.site d (some t) = .value node ↔
    ∃ b, u.denoted d t = some b ∧ u.subscripted d.rank.toNat (some b) = some node := by
  unfold site denoted
  dsimp only
  by_cases hmember : (u.isMemberAccess (u.parent (some t)) &&
      u.operand2 (u.parent (some t)) = some t) = true
  · obtain ⟨b, hb⟩ := exists_token_of rfl (Bool.and_eq_true_iff.1 hmember).1
    rw [hb] at hmember
    simp only [hb, hmember, if_true, Bool.not_true, Bool.and_false, Bool.false_eq_true, if_false,
      Option.some.injEq, exists_eq_left']
    cases u.subscripted d.rank.toNat (some b) <;> simp
  · rw [Bool.not_eq_true] at hmember
    cases hfield : d.isField with
    | true => simp [hmember]
    | false =>
      simp only [hmember, Bool.false_and, Bool.false_eq_true, if_false, Option.some.injEq,
        exists_eq_left']
      cases u.subscripted d.rank.toNat (some t) <;> simp

/-! ### Names outside all trees -/

/-- Taking in redundant parentheses, the first token stays or becomes a parenthesis. -/
theorem widen_first (first last : Nat) :
    (u.widen first last).1 = first ∨ u.text (some (u.widen first last).1) = "(" := by
  induction first generalizing last with
  | zero => exact .inl rfl
  | succ i ih =>
    rw [widen_succ]
    split
    · rename_i hpair
      rcases ih (last + 1) with h | h
      · exact .inr (by rw [h]; exact (isRedundantPair_iff.1 hpair).1)
      · exact .inr h
    · exact .inl rfl

/-- The leftmost of some tokens is one of them. -/
theorem foldl_leftmost_mem (a : Nat) (xs : List Nat) : xs.foldl u.leftmost a ∈ a :: xs := by
  induction xs generalizing a with
  | nil => exact List.mem_cons_self
  | cons b rest ih =>
    rw [List.foldl_cons]
    rcases List.mem_cons.1 (ih (u.leftmost a b)) with h | h
    · rw [h, leftmost]
      split
      · exact List.mem_cons_of_mem _ List.mem_cons_self
      · exact List.mem_cons_self
    · exact List.mem_cons_of_mem _ (List.mem_cons_of_mem _ h)

/-- The first token of an expression belongs to its tree, or is a parenthesis around it. -/
theorem inTree_of_bounds {root first last : Nat} (h : u.bounds (some root) = some (first, last)) :
    u.InTree root first ∨ u.text (some first) = "(" := by
  rw [bounds] at h
  split at h
  · cases h
  · -- before parentheses are taken in, the first token is one of the tree
    rename_i top rest hnodes
    have hmem := foldl_leftmost_mem (u := u) top rest
    rw [← hnodes, mem_preorder] at hmem
    have hfirst := congrArg Prod.fst (Option.some.inj h)
    dsimp only at hfirst
    rcases widen_first (u := u) (rest.foldl u.leftmost top)
      ((List.filterMap (fun i => u.link (some i)) (top :: rest)).foldl u.rightmost
        (rest.foldl u.rightmost top)) with heq | htext
    · rw [heq] at hfirst
      exact .inl (hfirst ▸ hmem)
    · rw [hfirst] at htext
      exact .inr htext

/-- Whether every operand has a parent. -/
def HasParents (u : Program) : Prop :=
  ∀ p < u.size, ∀ c < u.size, u.Child p c → (u.parent (some c)).isSome = true

instance (u : Program) : Decidable u.HasParents :=
  inferInstanceAs (Decidable (∀ p < u.size, ∀ c < u.size, _ → _))

/-- An operand takes part in a tree. -/
theorem HasParents.hasTree (h : u.HasParents) {p c : Nat} (hchild : u.Child p c) :
    u.hasTree (some c) = true := by
  simp [Program.hasTree, h p hchild.lt_size_left c hchild.lt_size hchild]

/-- A token outside all trees is in no tree but its own. -/
theorem eq_of_inTree (hparents : u.HasParents) {root i : Nat} (htree : u.hasTree (some i) = false)
    (h : u.InTree root i) : root = i := by
  rcases Relation.ReflTransGen.cases_tail h with heq | ⟨p, -, hchild⟩
  · exact heq.symm
  · rw [hparents.hasTree hchild] at htree
    cases htree

/-- A token outside all trees is no value but that of its own use. -/
theorem IsValueSite.eq_of_hasTree {i j : Nat} (h : u.IsValueSite d j (some i))
    (htree : u.hasTree (some i) = false) : j = i := by
  obtain ⟨-, hsite⟩ := h
  obtain ⟨-, hoperand1, hoperand2⟩ := hasTree_eq_false.1 htree
  obtain ⟨b, hb, hnode⟩ := site_eq_value_iff.1 hsite
  rcases (indexes_of_subscripted hnode).eq_or_isSubscript with ⟨-, rfl⟩ | ⟨-, hsubscript⟩
  · rcases denoted_eq_some hb with ⟨-, hmember⟩ | rfl
    · -- an access to a member has operands
      rw [hoperand2] at hmember
      cases hmember
    · rfl
  · simp [isSubscript, hoperand1] at hsubscript

/-- A name outside all trees denotes its own value, unless it is that of an array. -/
theorem isValueSite_iff (hfield : d.isField = false) {i : Nat}
    (hrole : u.role d.key (some i) = .use) (htree : u.hasTree (some i) = false) :
    u.IsValueSite d i (some i) ↔ d.rank ≤ 0 := by
  obtain ⟨hparent, -⟩ := hasTree_eq_false.1 htree
  have hmember : u.isMemberAccess none = false := rfl
  have hsubscript : u.isSubscript none = false := rfl
  have hdenoted : u.denoted d i = some i := by simp [denoted, hparent, hmember, hfield]
  rw [IsValueSite, and_iff_right hrole, site_eq_value_iff]
  simp only [hdenoted, Option.some.injEq, exists_eq_left']
  cases hrank : d.rank.toNat with
  | zero => simpa [subscripted] using Int.toNat_eq_zero.1 hrank
  | succ rank =>
    have hpos : ¬ d.rank ≤ 0 := by omega
    simp [subscripted, hparent, hsubscript, hpos]

/-- Nothing is done with the value of a token outside all trees. -/
theorem use_of_hasTree {i : Nat} (htree : u.hasTree (some i) = false) :
    u.use (some i) = .other := by
  obtain ⟨hparent, -⟩ := hasTree_eq_false.1 htree
  simp only [use, hparent]
  rfl

/-- The first token of an expression outside all trees is that one itself, behind anything but a
    parenthesis. -/
theorem bounds_of_hasTree {p : Nat} (htree : u.hasTree (some (p + 1)) = false)
    (htext : u.text (some p) ≠ "(") : ∃ last, u.bounds (some (p + 1)) = some (p + 1, last) := by
  obtain ⟨-, hoperand1, hoperand2⟩ := hasTree_eq_false.1 htree
  have hchildren : u.children (p + 1) = [] := by simp [children, hoperand1, hoperand2]
  have hdone (steps : Nat) (seen : List Nat) : u.preorderWithin steps [] seen = [] := by
    cases steps <;> rfl
  have hnodes : u.preorder (some (p + 1)) = [p + 1] := by
    simp [preorder, preorderWithin, hchildren, hdone]
  have hwiden (last : Nat) : u.widen (p + 1) last = (p + 1, last) := by
    rw [widen_succ, if_neg fun hpair => htext (isRedundantPair_iff.1 hpair).1]
  rw [bounds, hnodes]
  exact ⟨_, congrArg some (hwiden _)⟩

/-- Only a use is written in front of a name outside all trees that stands behind a star or a
    qualifier. -/
theorem value_of_insertBefore (h : (u.plan d).fault = none) (hfield : d.isField = false)
    (hparents : u.HasParents) {p : Nat} (htree : u.hasTree (some (p + 1)) = false)
    (htext : u.text (some (p + 1)) ≠ "(") (hbefore : u.text (some p) ∈ "*" :: pointerQualifiers)
    {text : String} (hc : .change (.insertBefore (some (p + 1)) text) ∈ (u.plan d).items) :
    u.IsValueSite d (p + 1) (some (p + 1)) := by
  have hno_herald : ∀ s ∈ "*" :: pointerQualifiers, s ∉ valueHeralds := by decide
  -- an expression that begins at the name is the name
  have hself {root last : Nat} (hb : u.bounds (some root) = some (p + 1, last)) : root = p + 1 :=
    eq_of_inTree hparents htree ((inTree_of_bounds hb).resolve_right htext)
  have hpermits := permits_of_mem_plan h hc
  generalize hchange : Change.insertBefore (some (p + 1)) text = c at hpermits
  cases hpermits with
  | reference hsite hbounds =>
    obtain ⟨hfirst, -⟩ := Change.insertBefore.inj hchange
    obtain rfl := Option.some.inj hfirst
    obtain rfl := hself hbounds
    obtain rfl := hsite.eq_of_hasTree htree
    exact hsite
  | opening hvalue =>
    obtain ⟨hfirst, -⟩ := Change.insertBefore.inj hchange
    rcases hvalue with ⟨i, -, hvalue⟩ | ⟨hd, -⟩
    · rcases hvalue.beginsValue hfirst.symm with ⟨q, hq, hherald⟩ | ⟨q, last, hchild, hbounds⟩
      · obtain rfl := Nat.succ.inj hq
        exact absurd hherald (hno_herald _ hbefore)
      · -- what is assigned has a parent
        obtain rfl := hself hbounds
        rw [hparents.hasTree hchild] at htree
        cases htree
    · simp [hfield] at hd
  | _ => cases hchange

/-- Whether no name of `d` is spelled like a parenthesis, a star or a qualifier. -/
def HasSpelledNames (u : Program) (d : Decl) : Prop :=
  ∀ t < u.size, u.declKey (some t) = d.key → u.text (some t) ∉ "(" :: "*" :: pointerQualifiers

instance (u : Program) (d : Decl) : Decidable (u.HasSpelledNames d) :=
  inferInstanceAs (Decidable (∀ t < u.size, _ → _))

/-- A star of a name that is outside all trees is removed only if the name is that of a declarator,
    and the star its nearest one. -/
theorem nearest_of_remove (h : (u.plan d).fault = none) (hnames : u.HasSpelledNames d) {i k : Nat}
    (hi : i < u.size) (hkey : u.declKey (some i) = d.key) (hk : k ∈ u.stars (some i))
    (hfree : u.hasTree (some k) = false)
    (hremoved : .change (.remove (some k)) ∈ (u.plan d).items) :
    u.isDeclaratorName (some i) = true ∧ (u.stars (some i)).head? = some k := by
  have hspelled {t : Nat} (hlt : t < u.size) (ht : u.declKey (some t) = d.key) :
      u.text (some t) ∉ "*" :: pointerQualifiers :=
    fun hmem => hnames t hlt ht (List.mem_cons_of_mem _ hmem)
  obtain ⟨j, hj, hdeclarator, hnearest⟩ := declarator_of_remove h hfree hremoved
  have hlt : j < u.size := lt_size_of_isDeclaratorName hdeclarator
  obtain rfl := eq_of_nearest (hspelled hi hkey) (hspelled hlt hj) hk hnearest
  exact ⟨hdeclarator, hnearest⟩

/-- A name outside all trees with a star in front is that of a declarator if it is recognised, and
    else a use. -/
theorem role_of_nearest {i star : Nat} (hkey : u.declKey (some i) = d.key)
    (htree : u.hasTree (some i) = false) (hstar : (u.stars (some i)).head? = some star) :
    (u.IsRecognized i → u.role d.key (some i) = .declarator) ∧
      (¬ u.IsRecognized i → u.role d.key (some i) = .use) := by
  obtain ⟨hparent, -⟩ := hasTree_eq_false.1 htree
  obtain ⟨-, -, p, -, hprevious, hbefore⟩ := previous_of_nearest hstar
  have hdeclarator := isDeclaratorName_iff hparent hstar
  constructor
  · intro hrecognized
    exact role_eq_declarator.2 ⟨hkey, hdeclarator.2 hrecognized⟩
  · intro hunrecognized
    refine role_eq_use.2 ⟨hkey, ?_, ?_, ?_⟩
    · simpa using mt hdeclarator.1 hunrecognized
    · have hdot : ∀ s ∈ "*" :: pointerQualifiers, s ≠ "." := by decide
      simp [isDesignator, hprevious, hdot _ hbefore]
    · simp [isSplitName, hparent, operand1]

/-- **Which names are treated as those of declarators.** When the reduction of a variable runs
    through, a name of it outside all trees whose nearest star is outside all trees as well loses
    exactly this star, and gets nothing in front, if and only if it is recognised. If it is, the
    removal of the star is recorded; if it is not, an `&` is recorded in front of the name, unless
    the variable is an array. -/
theorem losesNearest_iff (h : (u.performPlan sources d).fault = none) (hfield : d.isField = false)
    (hparents : u.HasParents) (hnames : u.HasSpelledNames d) {i star : Nat}
    (hkey : u.declKey (some i) = d.key) (htree : u.hasTree (some i) = false)
    (hstar : (u.stars (some i)).head? = some star) (hfree : u.hasTree (some star) = false) :
    (u.LosesNearest d i star ↔ u.IsRecognized i) ∧
    (u.IsRecognized i → ∃ span, u.locate sources (some star) = .ok span ∧
      ∃ e ∈ (u.performPlan sources d).script.recorded span.path,
        e.start = span.start ∧ e.stop = span.stop ∧ e.text = "") ∧
    (¬ u.IsRecognized i → (d.rank ≤ 0 ↔ ∃ span, u.locate sources (some i) = .ok span ∧
      .change (.insertBefore (some i) "&") ∈ (u.plan d).items ∧
      ∃ e ∈ (u.performPlan sources d).script.recorded span.path,
        e.start = span.start ∧ e.stop = span.start ∧ e.text = "&")) := by
  obtain ⟨hplan, -⟩ := performPlan_recordAll h
  obtain ⟨-, hplaced⟩ := performPlan_holds h
  obtain ⟨hdeclarator, huse⟩ := role_of_nearest hkey htree hstar
  -- `p` is the token in front of the name, a star or a qualifier
  obtain ⟨hi, -, p, rfl, -, hbefore⟩ := previous_of_nearest hstar
  have hvalue {text : String}
      (hc : .change (.insertBefore (some (p + 1)) text) ∈ (u.plan d).items) :
      u.IsValueSite d (p + 1) (some (p + 1)) :=
    value_of_insertBefore hplan hfield hparents htree
      (fun htext => hnames _ hi hkey (List.mem_cons.2 (.inl htext))) hbefore hc
  have hremoved (hrecognized : u.IsRecognized (p + 1)) :
      .change (.remove (some star)) ∈ (u.plan d).items := by
    obtain ⟨k, hk, hc⟩ := plan_removes_nearest hplan (hdeclarator hrecognized) hi
    obtain rfl := Option.some.inj (hk.symm.trans hstar)
    exact hc
  refine ⟨⟨?_, ?_⟩, ?_, ?_⟩
  · intro hloses
    have hdeclares := (nearest_of_remove hplan hnames hi hkey (List.mem_of_mem_head? hstar) hfree
      hloses.removed).1
    exact (isDeclaratorName_iff (hasTree_eq_false.1 htree).1 hstar).1 hdeclares
  · intro hrecognized
    refine ⟨hremoved hrecognized, fun k hk hkfree hc => ?_, fun text hc => ?_⟩
    · have hnearest := (nearest_of_remove hplan hnames hi hkey hk hkfree hc).2
      exact Option.some.inj (hnearest.symm.trans hstar)
    · exact (hvalue hc).not_declarator (hdeclarator hrecognized)
  · intro hrecognized
    obtain ⟨r, hplace⟩ := hplaced _ (hremoved hrecognized)
    obtain ⟨span, hlocate, rfl⟩ := place?_replace hplace
    exact ⟨span, hlocate, (performPlan_recorded_iff h).2 ⟨_, hremoved hrecognized, hplace⟩⟩
  · intro hunrecognized
    rw [← isValueSite_iff hfield (huse hunrecognized) htree]
    constructor
    · intro hsite
      have hparenthesis : u.text (some p) ≠ "(" := by
        have hno : ∀ s ∈ "*" :: pointerQualifiers, s ≠ "(" := by decide
        exact hno _ hbefore
      obtain ⟨last, hbounds⟩ := bounds_of_hasTree htree hparenthesis
      have hc : .change (.insertBefore (some (p + 1)) "&") ∈ (u.plan d).items :=
        (mem_plan hplan).2 (.inl ⟨p + 1, hi, .other hsite (use_of_hasTree htree) hbounds⟩)
      obtain ⟨r, hplace⟩ := hplaced _ hc
      obtain ⟨span, hlocate, rfl⟩ := place?_insertBefore.1 hplace
      exact ⟨span, hlocate, hc, (performPlan_recorded_iff h).2 ⟨_, hc, hplace⟩⟩
    · rintro ⟨span, -, hc, -⟩
      exact hvalue hc

/-- The tokens of the text `extern int (*fp)(int);` and, on a line of its own,
    `int (*fp)(int);`. -/
def redeclaredFunctionPointer : Program where
  tokens := #[{ text := "extern", file := "a.c", line := 1, column := 1, isName := true },
    { text := "int", file := "a.c", line := 1, column := 8, isName := true },
    { text := "(", file := "a.c", line := 1, column := 12, link := some 5 },
    { text := "*", file := "a.c", line := 1, column := 13 },
    { text := "fp", file := "a.c", line := 1, column := 14, varId := 1, var := some 0,
      isName := true },
    { text := ")", file := "a.c", line := 1, column := 16, link := some 2 },
    { text := "(", file := "a.c", line := 1, column := 17, link := some 8 },
    { text := "int", file := "a.c", line := 1, column := 18, isName := true },
    { text := ")", file := "a.c", line := 1, column := 21, link := some 6 },
    { text := ";", file := "a.c", line := 1, column := 22 },
    { text := "int", file := "a.c", line := 2, column := 1, isName := true },
    { text := "(", file := "a.c", line := 2, column := 5, link := some 14 },
    { text := "*", file := "a.c", line := 2, column := 6 },
    { text := "fp", file := "a.c", line := 2, column := 7, varId := 1, var := some 0,
      isName := true },
    { text := ")", file := "a.c", line := 2, column := 9, link := some 11 },
    { text := "(", file := "a.c", line := 2, column := 10, link := some 17 },
    { text := "int", file := "a.c", line := 2, column := 11, isName := true },
    { text := ")", file := "a.c", line := 2, column := 14, link := some 15 },
    { text := ";", file := "a.c", line := 2, column := 15 }]
  vars := #[{ nameToken := some 4, typeStart := some 1 }]

/-- The variable records the first name, which loses its star. -/
theorem losesNearest_redeclaredFunctionPointer :
    let d : Decl := { key := 1, name := "fp", level := 1 }
    let sources : Sources := fun _ => .ok "extern int (*fp)(int);\nint (*fp)(int);\n"
    (redeclaredFunctionPointer.performPlan sources d).fault = none ∧
      redeclaredFunctionPointer.IsRecognized 4 ∧ redeclaredFunctionPointer.LosesNearest d 4 3 := by
  intro d sources
  have hfault : (redeclaredFunctionPointer.performPlan sources d).fault = none := by decide +kernel
  have hrecognized : redeclaredFunctionPointer.IsRecognized 4 :=
    ⟨by decide +kernel, by decide +kernel, .inl (by decide +kernel)⟩
  have hnearest : (redeclaredFunctionPointer.stars (some 4)).head? = some 3 := by decide +kernel
  have hiff := (losesNearest_iff hfault rfl (by decide +kernel) (by decide +kernel)
    (by decide +kernel) (by decide +kernel) hnearest (by decide +kernel)).1
  exact ⟨hfault, hrecognized, hiff.2 hrecognized⟩

/-- Behind the second name stands a parenthesis. It is taken for a use, and the reduction writes
    `int (*&fp)(int);`, although the name and its star take part in no tree. -/
theorem redeclaredFunctionPointer_reference :
    let d : Decl := { key := 1, name := "fp", level := 1 }
    let sources : Sources := fun _ => .ok "extern int (*fp)(int);\nint (*fp)(int);\n"
    (redeclaredFunctionPointer.performPlan sources d).fault = none ∧
      redeclaredFunctionPointer.declKey (some 13) = d.key ∧
      redeclaredFunctionPointer.hasTree (some 13) = false ∧
      (redeclaredFunctionPointer.stars (some 13)).head? = some 12 ∧
      redeclaredFunctionPointer.hasTree (some 12) = false ∧
      (redeclaredFunctionPointer.performPlan sources d).script.recorded "a.c" =
        [⟨12, 13, "", 1⟩, ⟨29, 29, "&", 2⟩] ∧
      ¬ redeclaredFunctionPointer.LosesNearest d 13 12 := by
  intro d sources
  have hchange : Change.insertBefore (some 13) "&" ∈
      (redeclaredFunctionPointer.plan d).items.filterMap Step.change? := by decide +kernel
  refine ⟨by decide +kernel, by decide +kernel, by decide +kernel, by decide +kernel,
    by decide +kernel, by decide +kernel, fun hloses => ?_⟩
  obtain ⟨step, hstep, hc⟩ := List.mem_filterMap.1 hchange
  cases step with
  | change c =>
    obtain rfl := Option.some.inj hc
    exact hloses.untouched _ hstep
  | tell e => cases hc

end Indirection.Program
