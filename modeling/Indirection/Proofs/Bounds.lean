import Indirection.Proofs.Traversal

/-!
# Where an expression begins and ends

Main definitions:

* `Program.IsOrdered` — the tokens stand in one file, in the order of the list;
* `Program.IsLaidOut` — the tokens of one file in order, with brackets that are linked in pairs and
  nested, and trees whose tokens lie side by side;
* `Program.Spells`, `Program.Belongs`, `Program.InExtent` — a token is an operator or its closing
  bracket; it is one of those of an expression; it lies between two of them;
* `Program.IsRedundant` — a pair of brackets that takes no part in any tree;
* `Program.IsClosed` — a stretch of tokens holds the partner of each of its brackets.

Main statements: `bounds_eq_widen` — the bounds before redundant parentheses are taken in are the
least and the greatest token of the expression; `isClosed_widen` — taking them in opens and closes
nothing; `bounds_isClosed_iff` — the bounds are closed exactly when no redundant pair cuts the
expression. `derefMember_bounds` shows that a pair can.
-/

namespace Indirection

/-- What stands before another place does not stand behind it. -/
theorem Position.before_asymm {p q : Position} (h : p.before q = true) : q.before p = false := by
  simp only [before, Bool.or_eq_true, Bool.and_eq_true, decide_eq_true_eq] at h
  simp only [before, Bool.or_eq_false_iff, Bool.and_eq_false_iff, decide_eq_false_iff_not]
  rcases h with h | ⟨hfile, h⟩
  · exact ⟨String.lt_asymm h, .inl (String.ne_of_lt h).symm⟩
  · refine ⟨fun hlt => String.lt_irrefl _ (hfile ▸ hlt), .inr ⟨by omega, ?_⟩⟩
    by_cases hline : q.line = p.line
    · exact .inr (by omega)
    · exact .inl hline

namespace Program

variable {u : Program}

/-- Two functions that agree below `n`, and do not lead beyond, fold a list below `n` alike. -/
theorem foldl_eq_of_lt {f g : Nat → Nat → Nat} {n : Nat}
    (hfg : ∀ a < n, ∀ b < n, f a b = g a b ∧ g a b < n) {a : Nat} {xs : List Nat}
    (hxs : ∀ x ∈ a :: xs, x < n) : xs.foldl f a = xs.foldl g a := by
  induction xs generalizing a with
  | nil => rfl
  | cons b rest ih =>
    obtain ⟨ha, hb, hrest⟩ : a < n ∧ b < n ∧ ∀ x ∈ rest, x < n := by
      simpa only [List.forall_mem_cons] using hxs
    obtain ⟨heq, hlt⟩ := hfg a ha b hb
    rw [List.foldl_cons, List.foldl_cons, heq]
    exact ih (List.forall_mem_cons.2 ⟨hlt, hrest⟩)

/-! ### Programs in good order -/

/-- The spellings of brackets. -/
def brackets : List String := ["(", ")", "[", "]", "\x7b", "\x7d"]

/-- Whether token `i` is a bracket, by its spelling or because it has a partner. -/
def IsBracket (u : Program) (i : Nat) : Prop :=
  u.text (some i) ∈ brackets ∨ (u.link (some i)).isSome = true

/-- Whether token `t` is the operator `k` or the closing bracket of it. -/
def Spells (u : Program) (k t : Nat) : Prop := t = k ∨ u.link (some k) = some t

/-- Whether token `t` spells a part of the expression at `root`. -/
def Belongs (u : Program) (root t : Nat) : Prop := ∃ k < u.size, u.InTree root k ∧ u.Spells k t

/-- Whether token `t` lies between two tokens of the expression at `root`, or is one of them. -/
def InExtent (u : Program) (root t : Nat) : Prop :=
  (∃ x ≤ t, u.Belongs root x) ∧ ∃ x < u.size, t ≤ x ∧ u.Belongs root x

instance (i : Nat) : Decidable (u.IsBracket i) := inferInstanceAs (Decidable (_ ∨ _))

instance (k t : Nat) : Decidable (u.Spells k t) := inferInstanceAs (Decidable (_ ∨ _))

instance (root t : Nat) : Decidable (u.Belongs root t) :=
  inferInstanceAs (Decidable (∃ k < u.size, _))

instance (root t : Nat) : Decidable (u.InExtent root t) :=
  inferInstanceAs (Decidable ((∃ x ≤ t, _) ∧ ∃ x < u.size, _))

/-- Whether every bracket between tokens `i` and `j` has its partner there. -/
def Encloses (u : Program) (i j : Nat) : Prop :=
  ∀ k < j, i < k → ∀ l < u.size, u.link (some k) = some l → i < l ∧ l < j

instance (i j : Nat) : Decidable (u.Encloses i j) :=
  inferInstanceAs (Decidable (∀ k < j, i < k → ∀ l < u.size, _ → _))

/-- Whether all tokens of trees in the extent of the expression at `root` belong to it. -/
def IsContiguous (u : Program) (root : Nat) : Prop :=
  ∀ t < u.size, u.InExtent root t → ∀ k < u.size, u.hasTree (some k) = true → u.Spells k t →
    u.InTree root k

instance (root : Nat) : Decidable (u.IsContiguous root) :=
  inferInstanceAs (Decidable (∀ t < u.size, _ → ∀ k < u.size, _ → _ → _))

/-- Whether all tokens stand in one file, each behind those in front of it in the list. -/
structure IsOrdered (u : Program) : Prop where
  oneFile : ∀ i < u.size, ∀ j < u.size, (u.place (some i)).file = (u.place (some j)).file
  increasing : ∀ j < u.size, ∀ i < j, (u.place (some i)).before (u.place (some j)) = true

/-- Whether the tokens of a program are in good order. -/
structure IsLaidOut (u : Program) : Prop where
  oneFile : ∀ i < u.size, ∀ j < u.size, (u.place (some i)).file = (u.place (some j)).file
  increasing : ∀ j < u.size, ∀ i < j, (u.place (some i)).before (u.place (some j)) = true
  /-- every bracket is linked to another one, which is linked back -/
  paired : ∀ i < u.size, u.IsBracket i →
    ∃ j < u.size, i ≠ j ∧ u.link (some i) = some j ∧ u.link (some j) = some i
  nested : ∀ i < u.size, ∀ j < u.size, u.link (some i) = some j → u.Encloses i j
  parented : ∀ i < u.size, ∀ j < u.size, u.Child i j → u.parent (some j) = some i
  /-- of two brackets only the opening one may take part in a tree -/
  opening : ∀ j < u.size, ∀ i < j, u.link (some i) = some j → u.hasTree (some j) = false
  contiguous : ∀ root < u.size, u.hasTree (some root) = true → u.IsContiguous root

/-- Whether the brackets `a` and `b` are partners that take no part in a tree. -/
def IsRedundant (u : Program) (a b : Nat) : Prop :=
  u.link (some a) = some b ∧ u.hasTree (some a) = false ∧ u.hasTree (some b) = false

instance (a b : Nat) : Decidable (u.IsRedundant a b) := inferInstanceAs (Decidable (_ ∧ _))

/-- Whether the tokens from `first` to `last` hold the partner of each bracket among them. -/
def IsClosed (u : Program) (first last : Nat) : Prop :=
  ∀ i, first ≤ i → i ≤ last → u.IsBracket i →
    ∃ j, u.link (some i) = some j ∧ first ≤ j ∧ j ≤ last

/-- What has a text is a token of the program. -/
theorem lt_size_of_text {i : Nat} (h : u.text (some i) ≠ "") : i < u.size := by
  by_contra hout
  simp [text, token?_eq_none (Nat.le_of_not_lt hout)] at h

/-- The place of a token refers to that token. -/
theorem ref_of_lt {i : Nat} (h : i < u.size) : u.ref (some i) = some i := by
  simpa [ref] using h

/-- In front of a token stands the one before it. -/
theorem previous_of_lt {i : Nat} (h : i + 1 < u.size) : u.previous (some (i + 1)) = some i := by
  rw [previous, ref_of_lt h]

/-- Behind a token stands the next one, as long as there is one. -/
theorem next_eq_some_iff {t : Ref} {j : Nat} :
    u.next t = some j ↔ ∃ i, t = some i ∧ j = i + 1 ∧ j < u.size := by
  cases t with
  | none => simp [next]
  | some i =>
    simp only [next, Option.map_some, ref, Option.filter_eq_some_iff, Option.some.injEq,
      decide_eq_true_eq]
    constructor
    · rintro ⟨rfl, hlt⟩
      exact ⟨i, rfl, rfl, hlt⟩
    · rintro ⟨_, rfl, rfl, hlt⟩
      exact ⟨rfl, hlt⟩

/-- A token that is not the last has a next one. -/
theorem next_of_lt {i : Nat} (h : i + 1 < u.size) : u.next (some i) = some (i + 1) :=
  next_eq_some_iff.2 ⟨i, rfl, rfl, h⟩

/-- What is linked is a token of the program. -/
theorem lt_size_of_link {i j : Nat} (h : u.link (some i) = some j) : i < u.size := by
  by_contra hout
  simp [link, token?_eq_none (Nat.le_of_not_lt hout)] at h

namespace IsLaidOut

variable (h : u.IsLaidOut)

include h

/-- Positions of one file that increase are ordered. -/
theorem isOrdered : u.IsOrdered := ⟨h.oneFile, h.increasing⟩

/-- A link goes both ways, and never to the token itself. -/
theorem link_symm {i j : Nat} (hlink : u.link (some i) = some j) :
    u.link (some j) = some i ∧ i ≠ j := by
  obtain ⟨k, -, hne, hk, hback⟩ :=
    h.paired i (lt_size_of_link hlink) (.inr (by simp [hlink]))
  obtain rfl := Option.some.inj (hk.symm.trans hlink)
  exact ⟨hback, hne⟩

/-- Every token of a tree takes part in a tree. -/
theorem hasTree_of_inTree {root k : Nat} (hroot : u.hasTree (some root) = true)
    (hk : u.InTree root k) : u.hasTree (some k) = true := by
  cases hk with
  | refl => exact hroot
  | tail _ hc =>
    have := h.parented _ hc.lt_size_left _ hc.lt_size hc
    simp [hasTree, this]

end IsLaidOut

/-- The next token is the one behind. -/
theorem next_eq_some {i j : Nat} (h : u.next (some i) = some j) : j = i + 1 := by
  simp only [next, ref, Option.map_some, Option.filter_eq_some_iff, Option.some.injEq] at h
  exact h.1.symm

/-- A token with a tree is a token of the program. -/
theorem lt_size_of_hasTree {i : Nat} (h : u.hasTree (some i) = true) : i < u.size := by
  by_contra hout
  simp [hasTree, parent, operand1, operand2, token?_eq_none (Nat.le_of_not_lt hout)] at h

/-- What stands in the tree of a token is a token of the program. -/
theorem InTree.lt_size {root k : Nat} (hroot : root < u.size) (h : u.InTree root k) :
    k < u.size := by
  cases h with
  | refl => exact hroot
  | tail _ hc => exact hc.lt_size

/-- What belongs to an expression is one of its tokens or one of their partners. -/
theorem belongs_iff {root t : Nat} (hroot : root < u.size) :
    u.Belongs root t ↔ t ∈ u.preorder (some root) ++
      (u.preorder (some root)).filterMap fun k => u.link (some k) := by
  simp only [List.mem_append, List.mem_filterMap, mem_preorder, Belongs, Spells]
  constructor
  · rintro ⟨k, -, hk, rfl | hlink⟩
    · exact .inl hk
    · exact .inr ⟨k, hk, hlink⟩
  · rintro (hk | ⟨k, hk, hlink⟩)
    · exact ⟨t, hk.lt_size hroot, hk, .inl rfl⟩
    · exact ⟨k, hk.lt_size hroot, hk, .inr hlink⟩

/-- What belongs to an expression is a token of the program. -/
theorem Belongs.lt_size {root t : Nat} (h : u.Belongs root t) : t < u.size := by
  obtain ⟨k, hk, -, rfl | hlink⟩ := h
  · exact hk
  · exact u.ref_lt hlink

/-! ### The extreme tokens -/

namespace IsOrdered

variable (h : u.IsOrdered)

include h

/-- Of two tokens in order the one that stands first is the one with the smaller index. -/
theorem leftmost_eq_min {a b : Nat} (ha : a < u.size) (hb : b < u.size) :
    u.leftmost a b = min a b := by
  rw [leftmost]
  rcases Nat.lt_trichotomy a b with hlt | rfl | hlt
  · rw [Position.before_asymm (h.increasing b hb a hlt)]
    simp only [Bool.false_eq_true, if_false]
    omega
  · simp
  · rw [h.increasing a ha b hlt]
    simp only [if_true]
    omega

/-- Of two tokens in order, the right one is the later one. -/
theorem rightmost_eq_max {a b : Nat} (ha : a < u.size) (hb : b < u.size) :
    u.rightmost a b = max a b := by
  rw [rightmost]
  rcases Nat.lt_trichotomy a b with hlt | rfl | hlt
  · rw [h.increasing b hb a hlt]
    simp only [if_true]
    omega
  · simp
  · rw [Position.before_asymm (h.increasing a ha b hlt)]
    simp only [Bool.false_eq_true, if_false]
    omega

/-- The first and the last token of a tree are its least and its greatest one, and the closing
    brackets count among the last. -/
theorem bounds_extreme {root : Nat} (hroot : root < u.size) :
    ∃ lo hi, u.bounds (some root) = some (u.widen lo hi) ∧
      (u.preorder (some root)).min? = some lo ∧
      (u.preorder (some root) ++
        (u.preorder (some root)).filterMap fun k => u.link (some k)).max? = some hi := by
  have hlt : ∀ t ∈ u.preorder (some root) ++
      (u.preorder (some root)).filterMap (fun k => u.link (some k)), t < u.size := by
    intro t ht
    exact ((belongs_iff hroot).2 ht).lt_size
  have hself : root ∈ u.preorder (some root) := mem_preorder.2 .refl
  rw [bounds]
  cases hnodes : u.preorder (some root) with
  | nil => simp [hnodes] at hself
  | cons a rest =>
    rw [hnodes] at hlt
    refine ⟨_, _, rfl, ?_, ?_⟩
    · rw [List.min?_cons']
      refine congrArg some (foldl_eq_of_lt (n := u.size) ?_ ?_).symm
      · intro a ha b hb
        exact ⟨h.leftmost_eq_min ha hb, by omega⟩
      · exact fun t ht => hlt t (List.mem_append_left _ ht)
    · rw [List.cons_append, List.max?_cons', ← List.foldl_append]
      refine congrArg some (foldl_eq_of_lt (n := u.size) ?_ hlt).symm
      intro a ha b hb
      exact ⟨h.rightmost_eq_max ha hb, by omega⟩

end IsOrdered

/-! ### Taking in parentheses -/

/-- A redundant pair is a linked opening parenthesis without a tree of its own. -/
theorem isRedundantPair_iff {i j : Nat} : u.isRedundantPair i j = true ↔
    u.text (some i) = "(" ∧ u.link (some i) = some j ∧ u.hasTree (some i) = false := by
  simp [isRedundantPair, and_assoc]

/-- One round: the stretch is widened if a pair stands around it, and else it is the result. -/
theorem widen_succ (u : Program) (i last : Nat) :
    u.widen (i + 1) last =
      if u.isRedundantPair i (last + 1) then u.widen i (last + 1) else (i + 1, last) := by
  rw [widen]
  by_cases hlt : last + 1 < u.size
  · rw [next_of_lt hlt]
  · -- behind the last token nothing stands that a parenthesis could be linked to
    have hnone : u.next (some last) = none := by
      cases hnext : u.next (some last) with
      | none => rfl
      | some after =>
        obtain rfl := next_eq_some hnext
        exact absurd (u.ref_lt hnext) hlt
    have hpair : ¬ u.isRedundantPair i (last + 1) = true :=
      fun hpair => hlt (u.ref_lt (isRedundantPair_iff.1 hpair).2.1)
    simp [hnone, hpair]

/-- Widening never makes the bounds narrower. -/
theorem widen_bounds (first last : Nat) :
    (u.widen first last).1 ≤ first ∧ last ≤ (u.widen first last).2 := by
  induction first generalizing last with
  | zero => exact ⟨Nat.le_refl _, Nat.le_refl _⟩
  | succ i ih =>
    rw [widen_succ]
    split
    · obtain ⟨hfirst, hlast⟩ := ih (last + 1)
      exact ⟨by omega, by omega⟩
    · exact ⟨Nat.le_refl _, Nat.le_refl _⟩

/-! ### The extent of an expression -/

namespace IsLaidOut

variable (h : u.IsLaidOut)

include h

/-- Before redundant parentheses are taken in, the bounds of an expression are the ends of its
    extent. -/
theorem bounds_eq_widen {root : Nat} (hroot : u.hasTree (some root) = true) :
    ∃ lo hi, u.bounds (some root) = some (u.widen lo hi) ∧
      ∀ t, u.InExtent root t ↔ lo ≤ t ∧ t ≤ hi := by
  have hsize := lt_size_of_hasTree hroot
  obtain ⟨lo, hi, hbounds, hmin, hmax⟩ := h.isOrdered.bounds_extreme hsize
  obtain ⟨hlo, hleast⟩ := List.min?_eq_some_iff.1 hmin
  obtain ⟨hhi, hgreatest⟩ := List.max?_eq_some_iff.1 hmax
  have hhi : u.Belongs root hi := (belongs_iff hsize).2 hhi
  have hle {t : Nat} (ht : u.Belongs root t) : t ≤ hi := hgreatest t ((belongs_iff hsize).1 ht)
  have hge {t : Nat} (ht : u.Belongs root t) : lo ≤ t := by
    obtain ⟨k, hk, htree, rfl | hlink⟩ := ht
    · exact hleast t (mem_preorder.2 htree)
    · -- a token of a tree opens a pair if it is a bracket, so that its partner stands behind it
      have hlok := hleast k (mem_preorder.2 htree)
      by_contra hlt
      have hclosed := h.opening k hk t (by omega) (h.link_symm hlink).1
      rw [h.hasTree_of_inTree hroot htree] at hclosed
      cases hclosed
  refine ⟨lo, hi, hbounds, fun t => ⟨?_, ?_⟩⟩
  · rintro ⟨⟨x, hxt, hx⟩, y, -, hty, hy⟩
    exact ⟨Nat.le_trans (hge hx) hxt, Nat.le_trans hty (hle hy)⟩
  · rintro ⟨hlot, hthi⟩
    have hlo : u.Belongs root lo := (belongs_iff hsize).2 (List.mem_append_left _ hlo)
    exact ⟨⟨lo, hlot, hlo⟩, hi, hhi.lt_size, hthi, hhi⟩

/-- The partner of a bracket that takes part in a tree lies in an extent with it. -/
theorem inExtent_partner {root i j : Nat} (hroot : u.hasTree (some root) = true)
    (hi : u.InExtent root i) (hlink : u.link (some i) = some j)
    (htree : u.hasTree (some i) = true ∨ u.hasTree (some j) = true) : u.InExtent root j := by
  have hsize := lt_size_of_hasTree hroot
  have inExtent_of_belongs {t : Nat} (ht : u.Belongs root t) : u.InExtent root t :=
    ⟨⟨t, Nat.le_refl t, ht⟩, t, ht.lt_size, Nat.le_refl t, ht⟩
  have hlt : i < u.size := by
    obtain ⟨-, x, hx, hix, -⟩ := hi
    omega
  rcases htree with htree | htree
  · -- the operator `i` is one of the expression, and `j` its closing bracket
    have hin := h.contiguous root hsize hroot i hlt hi i hlt htree (.inl rfl)
    exact inExtent_of_belongs ⟨i, hlt, hin, .inr hlink⟩
  · have hj : j < u.size := u.ref_lt hlink
    have hin := h.contiguous root hsize hroot i hlt hi j hj htree (.inr (h.link_symm hlink).1)
    exact inExtent_of_belongs ⟨j, hj, hin, .inl rfl⟩

/-- The extent of an expression is closed exactly when no redundant pair of brackets has one of its
    brackets in it and the other one outside. -/
theorem extent_isClosed_iff {root lo hi : Nat} (hroot : u.hasTree (some root) = true)
    (hextent : ∀ t, u.InExtent root t ↔ lo ≤ t ∧ t ≤ hi) :
    u.IsClosed lo hi ↔
      ∀ a b, u.IsRedundant a b → (u.InExtent root a ↔ u.InExtent root b) := by
  constructor
  · intro hclosed
    have inside {a b : Nat} (hlink : u.link (some a) = some b) (ha : u.InExtent root a) :
        u.InExtent root b := by
      obtain ⟨hlo, hhi⟩ := (hextent a).1 ha
      obtain ⟨j, hj, hin⟩ := hclosed a hlo hhi (.inr (by simp [hlink]))
      obtain rfl := Option.some.inj (hj.symm.trans hlink)
      exact (hextent j).2 hin
    rintro a b ⟨hlink, -, -⟩
    exact ⟨inside hlink, inside (h.link_symm hlink).1⟩
  · intro hpairs i hlo hhi hbracket
    have hi := (hextent i).2 ⟨hlo, hhi⟩
    have hlt : i < u.size := by
      obtain ⟨-, x, hx, hix, -⟩ := hi
      omega
    obtain ⟨j, -, -, hlink, -⟩ := h.paired i hlt hbracket
    refine ⟨j, hlink, (hextent j).1 ?_⟩
    by_cases htree : u.hasTree (some i) = true ∨ u.hasTree (some j) = true
    · exact h.inExtent_partner hroot hi hlink htree
    · -- neither bracket takes part in a tree
      simp only [not_or, Bool.not_eq_true] at htree
      exact (hpairs i j ⟨hlink, htree⟩).1 hi

/-! ### Redundant parentheses -/

/-- A stretch is closed exactly when it is with the partners around it. -/
theorem isClosed_pair {i last : Nat} (hlink : u.link (some i) = some (last + 1)) :
    u.IsClosed i (last + 1) ↔ u.IsClosed (i + 1) last := by
  have hback := (h.link_symm hlink).1
  constructor
  · intro hclosed k hfirst hlast hbracket
    obtain ⟨j, hj, hlo, hhi⟩ := hclosed k (by omega) (by omega) hbracket
    have hkj := (h.link_symm hj).1
    -- the partners around the stretch belong to each other
    have hne : j ≠ i := by
      rintro rfl
      have := Option.some.inj (hkj.symm.trans hlink)
      omega
    have hne' : j ≠ last + 1 := by
      rintro rfl
      have := Option.some.inj (hkj.symm.trans hback)
      omega
    exact ⟨j, hj, by omega, by omega⟩
  · intro hclosed k hfirst hlast hbracket
    by_cases hki : k = i
    · subst hki
      exact ⟨last + 1, hlink, by omega, by omega⟩
    · by_cases hkl : k = last + 1
      · subst hkl
        exact ⟨i, hback, by omega, by omega⟩
      · obtain ⟨j, hj, hlo, hhi⟩ := hclosed k (by omega) (by omega) hbracket
        exact ⟨j, hj, by omega, by omega⟩

/-- Bounds that are widened are closed when they were before. -/
theorem isClosed_widen (first last : Nat) :
    u.IsClosed (u.widen first last).1 (u.widen first last).2 ↔ u.IsClosed first last := by
  induction first generalizing last with
  | zero => rfl
  | succ i ih =>
    rw [widen_succ]
    split
    · rename_i hpair
      exact (ih (last + 1)).trans (h.isClosed_pair (isRedundantPair_iff.1 hpair).2.1)
    · rfl

end IsLaidOut

/-- **When the bounds of an expression are closed.** In a program in good order every expression has
    bounds, and all of it lies between them. The bounds hold the partner of each bracket between
    them exactly when no redundant pair of brackets has one bracket in the extent of the expression
    and the other one outside. -/
theorem bounds_isClosed_iff (h : u.IsLaidOut) {root : Nat} (hroot : u.hasTree (some root) = true) :
    ∃ first last, u.bounds (some root) = some (first, last) ∧
      (∀ t, u.InExtent root t → first ≤ t ∧ t ≤ last) ∧
      (u.IsClosed first last ↔
        ∀ a b, u.IsRedundant a b → (u.InExtent root a ↔ u.InExtent root b)) := by
  obtain ⟨lo, hi, hbounds, hextent⟩ := h.bounds_eq_widen hroot
  obtain ⟨hfirst, hlast⟩ := widen_bounds (u := u) lo hi
  refine ⟨(u.widen lo hi).1, (u.widen lo hi).2, hbounds, ?_, ?_⟩
  · intro t ht
    obtain ⟨hlo, hhi⟩ := (hextent t).1 ht
    exact ⟨by omega, by omega⟩
  · rw [h.isClosed_widen]
    exact h.extent_isClosed_iff hroot hextent

/-- The tokens of the text `((a + b));`. -/
def doublyEnclosed : Program where
  tokens := #[{ text := "(", file := "a.c", line := 1, column := 1, link := some 6 },
    { text := "(", file := "a.c", line := 1, column := 2, link := some 5 },
    { text := "a", file := "a.c", line := 1, column := 3, parent := some 3, isName := true },
    { text := "+", file := "a.c", line := 1, column := 5, operand1 := some 2,
      operand2 := some 4 },
    { text := "b", file := "a.c", line := 1, column := 7, parent := some 3, isName := true },
    { text := ")", file := "a.c", line := 1, column := 8, link := some 1 },
    { text := ")", file := "a.c", line := 1, column := 9, link := some 0 },
    { text := ";", file := "a.c", line := 1, column := 10 }]

/-- The bounds of `a + b` take in both pairs of parentheses around it, and are closed. -/
theorem bounds_isClosed_iff_doublyEnclosed :
    doublyEnclosed.IsLaidOut ∧ doublyEnclosed.hasTree (some 3) = true ∧
      doublyEnclosed.bounds (some 3) = some (0, 6) ∧ doublyEnclosed.IsClosed 0 6 := by
  have hlaid : doublyEnclosed.IsLaidOut := by
    constructor <;> decide +kernel
  have htree : doublyEnclosed.hasTree (some 3) = true := by decide +kernel
  have hbounds : doublyEnclosed.bounds (some 3) = some (0, 6) := by decide +kernel
  obtain ⟨first, last, heq, -, hclosed⟩ := bounds_isClosed_iff hlaid htree
  obtain ⟨rfl, rfl⟩ := Prod.mk.inj (Option.some.inj (hbounds.symm.trans heq))
  refine ⟨hlaid, htree, hbounds, hclosed.2 ?_⟩
  -- both pairs of parentheses are outside of the extent with both brackets
  have hpairs : ∀ a < doublyEnclosed.size, ∀ b < doublyEnclosed.size,
      doublyEnclosed.IsRedundant a b →
        (doublyEnclosed.InExtent 3 a ↔ doublyEnclosed.InExtent 3 b) := by decide +kernel
  exact fun a b hab => hpairs a (lt_size_of_link hab.1) b (ref_lt _ hab.1) hab

/-- The tokens of the text `(*s).f;`. -/
def derefMember : Program where
  tokens := #[{ text := "(", file := "a.c", line := 1, column := 1, link := some 3 },
    { text := "*", file := "a.c", line := 1, column := 2, operand1 := some 2, parent := some 4 },
    { text := "s", file := "a.c", line := 1, column := 3, parent := some 1, isName := true },
    { text := ")", file := "a.c", line := 1, column := 4, link := some 0 },
    { text := ".", file := "a.c", line := 1, column := 5, operand1 := some 1,
      operand2 := some 5 },
    { text := "f", file := "a.c", line := 1, column := 6, parent := some 4, isName := true },
    { text := ";", file := "a.c", line := 1, column := 7 }]

/-- The bounds of the member access `(*s).f` begin behind its parenthesis. -/
theorem derefMember_bounds :
    derefMember.IsLaidOut ∧ derefMember.hasTree (some 4) = true ∧
      derefMember.bounds (some 4) = some (1, 5) ∧ ¬ derefMember.IsClosed 1 5 := by
  refine ⟨?_, by decide +kernel, by decide +kernel, ?_⟩
  · constructor <;> decide +kernel
  · intro hclosed
    obtain ⟨j, hlink, hfirst, -⟩ := hclosed 3 (by decide) (by decide) (by decide +kernel)
    have hpartner : derefMember.link (some 3) = some 0 := by decide +kernel
    obtain rfl := Option.some.inj (hlink.symm.trans hpartner)
    omega

end Program

end Indirection
