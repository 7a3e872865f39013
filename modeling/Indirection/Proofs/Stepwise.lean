import Indirection.Proofs.Refusal

/-!
# A plan token by token

What a plan does at one token depends on that token, and on the declarators up to it only by the
type that they tell. Main definitions:

* `Program.knownBefore`, `Program.stepAt` — what is known behind some tokens; what the plan does at
  one of them;
* `Program.declaredType` — the type of a declaration as it is written in a cast;
* `Program.IsValueSite` — an expression is the value that a use of the declaration denotes;
* `Program.NarrowsAt`, `Program.Supplied`, `Program.IsNarrowed` — a value loses a level: at a token,
  or as what a brace initializer supplies for a field;
* `Program.ArisesAt` — a change that the plan makes at a token.

Main statements: `plan_eq` — a plan is what it does at its tokens, one after the other, and then its
end; `mem_stepAt` — the changes at a token; `mem_planEnd` — those at the end.
-/

namespace Indirection

/-- The text in front of a value that loses a level, if it gets one. -/
def Narrowing.opening : Narrowing → Option String
  | .dereference cast wrap => some ("*" ++ cast ++ if wrap then "(" else "")
  | .dropAddress | .keep => none

namespace Program

variable {u : Program} {d : Decl}

/-! ### What is known -/

/-- What is known of the declaration `d` behind the first `n` tokens. -/
def knownBefore (u : Program) (d : Decl) (n : Nat) : Known :=
  (List.range n).foldl (fun known i =>
    if u.role d.key (some i) = .declarator then u.learn d known (some i) else known) {}

/-- A declarator adds what is learned from it, and any other token nothing. -/
theorem knownBefore_succ (u : Program) (d : Decl) (n : Nat) :
    u.knownBefore d (n + 1) =
      if u.role d.key (some n) = .declarator then u.learn d (u.knownBefore d n) (some n)
      else u.knownBefore d n := by
  rw [knownBefore, List.range_succ, List.foldl_append]
  rfl

/-- The places of the declarators of `d` among the first `n` tokens. -/
def declaratorsBefore (u : Program) (d : Decl) (n : Nat) : List Nat :=
  (List.range n).filter fun i => u.role d.key (some i) = .declarator

/-- The type of `d` as it is written in a cast: that of its first declarator which has one. -/
def declaredType (u : Program) (d : Decl) : Option String :=
  (u.declaratorsBefore d u.size).findSome? fun i => u.typeText (some i) d.level

/-- The type that is known is that of the first declarator so far which has one. -/
theorem type?_knownBefore (u : Program) (d : Decl) (n : Nat) :
    (u.knownBefore d n).type? =
      (u.declaratorsBefore d n).findSome? fun i => u.typeText (some i) d.level := by
  induction n with
  | zero => rfl
  | succ n ih =>
    rw [knownBefore_succ, declaratorsBefore, List.range_succ, List.filter_append,
      List.findSome?_append, ← declaratorsBefore, ← ih]
    -- a declarator at the end tells its type only if none in front of it has told one
    by_cases hrole : u.role d.key (some n) = .declarator
    · have hlast : [n].filter (fun i => u.role d.key (some i) = .declarator) = [n] := by
        simp [hrole]
      rw [if_pos hrole, hlast, learn, List.findSome?_singleton]
    · have hlast : [n].filter (fun i => u.role d.key (some i) = .declarator) = [] := by
        simp [hrole]
      rw [if_neg hrole, hlast, List.findSome?_nil, Option.or_none]

/-- A type that is known at some token is the declared one. -/
theorem declaredType_of_known {n : Nat} (hn : n ≤ u.size) {type : String}
    (h : (u.knownBefore d n).type? = some type) : u.declaredType d = some type := by
  -- the declarators of the program are those in front of `n` and those behind
  obtain ⟨k, hk⟩ := Nat.le.dest hn
  rw [type?_knownBefore] at h
  rw [declaredType, ← hk, declaratorsBefore, List.range_add, List.filter_append,
    List.findSome?_append]
  rw [declaratorsBefore] at h
  rw [h, Option.some_or]

/-! ### One token -/

/-- What the plan for `d` does at a token of the role `role`, when its type is known as `type?`. -/
def stepAs (u : Program) (d : Decl) (type? : Option String) (t : Ref) : Role → Trail Step
  | .declarator => u.rewriteDeclarator type? t
  | .use => u.rewriteUse d type? t
  | .unrelated | .label => .nil

/-- What the plan for `d` does at the token at `i`. -/
def stepAt (u : Program) (d : Decl) (i : Nat) : Trail Step :=
  u.stepAs d (u.knownBefore d (i + 1)).type? (some i) (u.role d.key (some i))

/-- The plan for the tokens from the one at `n` on, token by token. -/
theorem planFrom_range' (u : Program) (d : Decl) (n k : Nat) :
    u.planFrom d (u.knownBefore d n) (List.range' n k) =
      .concat (u.stepAt d) (List.range' n k) ++ u.planEnd d (u.knownBefore d (n + k)) := by
  induction k generalizing n with
  | zero =>
    change u.planEnd d (u.knownBefore d n) = _
    rw [List.range'_zero, Trail.concat_nil, Trail.nil_append, Nat.add_zero]
  | succ k ih =>
    have hnext : n + (k + 1) = n + 1 + k := by omega
    rw [List.range'_succ, planFrom_cons, Trail.concat_cons, Trail.append_assoc, hnext, ← ih (n + 1),
      stepAt, knownBefore_succ]
    -- only a declarator changes what is known
    cases hrole : u.role d.key (some n) with
    | declarator => simp only [if_true, stepAs]
    | use => simp only [reduceCtorEq, if_false, stepAs]
    | unrelated => simp only [reduceCtorEq, if_false, stepAs, Trail.nil_append]
    | label => simp only [reduceCtorEq, if_false, stepAs, Trail.nil_append]

/-- A plan is what it does at its tokens, one after the other, and then its end. -/
theorem plan_eq (u : Program) (d : Decl) :
    u.plan d = .concat (u.stepAt d) u.places ++ u.planEnd d (u.knownBefore d u.size) := by
  have h := u.planFrom_range' d 0 u.size
  rw [Nat.zero_add, ← List.range_eq_range'] at h
  exact h

/-- A plan without a fault has none at any token and none at its end, and its items are those of all
    tokens and those of its end. -/
theorem plan_of_fault_none (h : (u.plan d).fault = none) :
    (∀ i < u.size, (u.stepAt d i).fault = none) ∧
      (u.planEnd d (u.knownBefore d u.size)).fault = none ∧
      (u.plan d).items = (u.places.flatMap fun i => (u.stepAt d i).items) ++
        (u.planEnd d (u.knownBefore d u.size)).items := by
  rw [plan_eq] at h ⊢
  obtain ⟨hsteps, hend⟩ := (Trail.fault_append_eq_none _ _).1 h
  have hall := Trail.fault_concat_eq_none.1 hsteps
  refine ⟨fun i hi => hall i (List.mem_range.2 hi), hend, ?_⟩
  rw [Trail.concat_of_faultless hall, Trail.append_of_fault_none rfl]

/-! ### Uses -/

/-- What no missing token is, is a token. -/
theorem exists_token_of {p : Ref → Bool} (hnone : p none = false) {t : Ref} (h : p t = true) :
    ∃ k, t = some k := by
  cases t with
  | none => simp [hnone] at h
  | some k => exact ⟨k, rfl⟩

/-- Indexing around a token is a token. -/
theorem exists_of_subscripted {rank : Nat} {node top : Ref} (hnode : ∃ k, node = some k)
    (h : u.subscripted rank node = some top) : ∃ k, top = some k := by
  induction rank generalizing node with
  | zero =>
    obtain rfl := Option.some.inj h
    exact hnode
  | succ rank ih =>
    rw [subscripted] at h
    split at h
    · rename_i hsub
      simp only [Bool.and_eq_true] at hsub
      exact ih (exists_token_of rfl hsub.1) h
    · cases h

/-- Whether the expression at `node` is the value that the use of `d` at `i` denotes. -/
def IsValueSite (u : Program) (d : Decl) (i : Nat) (node : Ref) : Prop :=
  u.role d.key (some i) = .use ∧ u.site d (some i) = .value node

/-- The value of a use is an expression of the program. -/
theorem IsValueSite.exists_token {i : Nat} {node : Ref} (h : u.IsValueSite d i node) :
    ∃ k, node = some k := by
  have hsite := h.2
  unfold site at hsite
  dsimp only at hsite
  split at hsite
  · cases hsite
  · split at hsite
    · rename_i top htop
      obtain rfl := Site.value.inj hsite
      refine exists_of_subscripted ?_ htop
      split
      · rename_i hmember
        simp only [Bool.and_eq_true] at hmember
        exact exists_token_of rfl hmember.1
      · exact ⟨i, rfl⟩
    · cases hsite

/-- What is done with a value is told by its parent, and by nothing else. -/
theorem use_spec (u : Program) (node : Ref) :
    match u.use node with
    | .dereferenced operator => operator = u.parent node ∧ u.isDereference operator = true
    | .indexed operator => operator = u.parent node ∧ u.isSubscript operator = true ∧
        u.operand1 operator = node
    | .arrow operator => operator = u.parent node ∧ u.isArrow operator = true ∧
        u.operand1 operator = node
    | .assigned operator plain => operator = u.parent node ∧ u.isAssignment operator = true ∧
        u.operand1 operator = node ∧ (plain = true ↔ u.text operator = "=")
    | .tolerated operator => operator = u.parent node ∧
        (u.isAddressOf operator || u.isIncrementDecrement operator) = true
    | .other => (u.isDereference (u.parent node) || u.isAddressOf (u.parent node) ||
          u.isIncrementDecrement (u.parent node)) = false ∧
        (u.operand1 (u.parent node) = node → (u.isSubscript (u.parent node) ||
          u.isArrow (u.parent node) || u.isAssignment (u.parent node)) = false) := by
  unfold use
  grind

/-- What a token with a part in a declaration is. -/
theorem role_eq_declarator {key : Int} {t : Ref} :
    u.role key t = .declarator ↔ u.declKey t = key ∧ u.isDeclaratorName t = true := by
  unfold role
  grind

/-- A token with the key is a use when it is no declarator, no designator and no split name. -/
theorem role_eq_use {key : Int} {t : Ref} :
    u.role key t = .use ↔ u.declKey t = key ∧ u.isDeclaratorName t = false ∧
      u.isDesignator t = false ∧ u.isSplitName t = false := by
  unfold role
  grind

/-! ### Values -/

/-- Whether the value at `root`, which the tokens of `range` spell, loses a level when the token at
    `i` is taken up: it stands in the initializer of the declarator there, or is assigned there. -/
inductive NarrowsAt (u : Program) (d : Decl) (i : Nat) : (root : Nat) → Range → Prop
  | initial {start root : Nat} {range : Range} (declarator : u.role d.key (some i) = .declarator)
    (initializer : u.initializer (some i) = some start)
    (value : range ∈ (u.values (some start)).items)
    (top : u.rangeRoot range.first range.last = some root) : NarrowsAt u d i root range
  | assigned {node operator : Ref} {root first last : Nat} (site : u.IsValueSite d i node)
    (use : u.use node = .assigned operator true) (operand : u.operand2 operator = some root)
    (bounds : u.bounds (some root) = some (first, last)) :
    NarrowsAt u d i root ⟨some first, some last⟩

/-- Whether the value at `root`, which the tokens of `range` spell, loses a level as a value that
    the brace initializer of a record supplies for the field `d`. -/
def Supplied (u : Program) (d : Decl) (root : Nat) (range : Range) : Prop :=
  d.isField = true ∧ ∃ start, .value start ∈ (u.fieldValues d.key).items ∧
    range ∈ (u.values start).items ∧ u.rangeRoot range.first range.last = some root

/-- Whether the value at `root`, which the tokens of `range` spell, loses a level for `d`. -/
def IsNarrowed (u : Program) (d : Decl) (root : Nat) (range : Range) : Prop :=
  (∃ i < u.size, u.NarrowsAt d i root range) ∨ u.Supplied d root range

/-- The changes for a value that loses a level. -/
theorem mem_narrow {type? : Option String} {root : Ref} {range : Range} {c : Change} :
    .change c ∈ (u.narrow type? root range).items ↔
      (u.narrowing type? root = .dropAddress ∧ c = .remove root) ∨
      (∃ text, (u.narrowing type? root).opening = some text ∧
        c = .insertBefore range.first text) ∨
      (∃ cast, u.narrowing type? root = .dereference cast true ∧
        c = .insertAfter range.last ")") := by
  unfold narrow
  cases hkind : u.narrowing type? root with
  | dropAddress => simp [Narrowing.opening]
  | keep => simp [Narrowing.opening]
  | dereference cast wrap => cases wrap <;> simp [Narrowing.opening]

/-- The changes for the values in an initializer, if each of them is an expression. -/
theorem mem_narrowInitializer {type? : Option String} {start : Ref} {c : Change}
    (h : (u.narrowInitializer type? start).fault = none) :
    .change c ∈ (u.narrowInitializer type? start).items ↔
      ∃ range root, range ∈ (u.values start).items ∧
        u.rangeRoot range.first range.last = some root ∧
        .change c ∈ (u.narrow type? (some root) range).items := by
  obtain ⟨-, hranges, hitems⟩ := Trail.bind_of_fault_none h
  rw [narrowInitializer, hitems, List.mem_flatMap]
  constructor
  · rintro ⟨range, hrange, hc⟩
    rw [narrowRange] at hc
    split at hc
    · rename_i root hroot
      exact ⟨range, root, hrange, hroot, hc⟩
    · cases hc
  · rintro ⟨range, root, hrange, hroot, hc⟩
    refine ⟨range, hrange, ?_⟩
    rw [narrowRange, hroot]
    exact hc

/-! ### Changes at a token -/

/-- Whether the plan for `d` makes the change `c` at the token at `i`. -/
inductive ArisesAt (u : Program) (d : Decl) (i : Nat) : (c : Change) → Prop
  | star {star : Nat} (declarator : u.role d.key (some i) = .declarator)
    (nearest : (u.stars (some i)).head? = some star) : ArisesAt u d i (.remove (some star))
  | dereferenced {node operator : Ref} (site : u.IsValueSite d i node)
    (use : u.use node = .dereferenced operator) : ArisesAt u d i (.remove operator)
  | indexed {node operator : Ref} {close : Nat} (site : u.IsValueSite d i node)
    (use : u.use node = .indexed operator) (link : u.link operator = some close) :
    ArisesAt u d i (.removeRange operator (some close))
  | arrow {node operator : Ref} (site : u.IsValueSite d i node)
    (use : u.use node = .arrow operator) : ArisesAt u d i (.replace operator ".")
  | other {node : Ref} {first last : Nat} (site : u.IsValueSite d i node)
    (use : u.use node = .other) (bounds : u.bounds node = some (first, last)) :
    ArisesAt u d i (.insertBefore (some first) "&")
  | narrowed {root : Nat} {range : Range} {c : Change} (value : u.NarrowsAt d i root range)
    (change : .change c ∈ (u.narrow (u.knownBefore d (i + 1)).type? (some root) range).items) :
    ArisesAt u d i c

/-- No value is narrowed at a token without a part in the declaration. -/
theorem NarrowsAt.role {i root : Nat} {range : Range} (h : u.NarrowsAt d i root range) :
    u.role d.key (some i) = .declarator ∨ u.role d.key (some i) = .use := by
  cases h with
  | initial hrole => exact .inl hrole
  | assigned hsite => exact .inr hsite.1

/-- The changes at a declarator. -/
theorem mem_stepAt_declarator {i : Nat} {c : Change} (hrole : u.role d.key (some i) = .declarator)
    (h : (u.stepAt d i).fault = none) :
    .change c ∈ (u.stepAt d i).items ↔ u.ArisesAt d i c := by
  have hsite {node : Ref} : ¬ u.IsValueSite d i node := by
    simp [IsValueSite, hrole]
  simp only [stepAt, hrole, stepAs, rewriteDeclarator] at h ⊢
  cases hstars : u.stars (some i) with
  | nil => simp [hstars] at h
  | cons star others =>
    simp only [hstars] at h ⊢
    rw [Trail.append_of_fault_none (Trail.fault_one _)] at h ⊢
    rw [Trail.items_one, List.singleton_append, List.mem_cons]
    have hstar (c : Change) (harises : u.ArisesAt d i c) : c = .remove (some star) ∨
        ∃ root range, u.NarrowsAt d i root range ∧
          .change c ∈ (u.narrow (u.knownBefore d (i + 1)).type? (some root) range).items := by
      cases harises with
      | star _ hnearest =>
        rw [hstars] at hnearest
        exact .inl (by rw [Option.some.inj hnearest])
      | narrowed hvalue hc => exact .inr ⟨_, _, hvalue, hc⟩
      | dereferenced h | indexed h | arrow h | other h => exact absurd h hsite
    constructor
    · -- the star is removed, and the initial value is narrowed if there is one
      rintro (hc | hc)
      · obtain rfl := Step.change.inj hc
        exact .star hrole (by rw [hstars]; rfl)
      · split at hc
        · rename_i start hinit
          simp only [hinit] at h
          obtain ⟨range, root, hrange, hroot, hc⟩ := (mem_narrowInitializer h).1 hc
          exact .narrowed (.initial hrole hinit hrange hroot) hc
        · cases hc
    · intro harises
      refine (hstar c harises).imp (congrArg Step.change) ?_
      rintro ⟨root, range, hvalue, hc⟩
      cases hvalue with
      | initial _ hinit hrange hroot =>
        simp only [hinit] at h ⊢
        exact (mem_narrowInitializer h).2 ⟨range, root, hrange, hroot, hc⟩
      | assigned h => exact absurd h hsite

/-- A token has one value site at most. -/
theorem IsValueSite.unique {i : Nat} {node node' : Ref} (h : u.IsValueSite d i node)
    (h' : u.IsValueSite d i node') : node' = node := by
  have heq : Site.value node = .value node' := h.2.symm.trans h'.2
  exact (Site.value.inj heq).symm

/-- A token with a value site is no declarator. -/
theorem IsValueSite.not_declarator {i : Nat} {node : Ref} (h : u.IsValueSite d i node) :
    u.role d.key (some i) ≠ .declarator := by
  rw [h.1]
  decide

/-- The value that is narrowed at a use is what it assigns. -/
theorem narrowsAt_iff {i root : Nat} {range : Range} {node : Ref} (h : u.IsValueSite d i node) :
    u.NarrowsAt d i root range ↔
      ∃ operator first last, u.use node = .assigned operator true ∧
        u.operand2 operator = some root ∧ u.bounds (some root) = some (first, last) ∧
        range = ⟨some first, some last⟩ := by
  constructor
  · intro hvalue
    cases hvalue with
    | initial hrole => exact absurd hrole h.not_declarator
    | assigned hsite huse hoperand hbounds =>
      obtain rfl := h.unique hsite
      exact ⟨_, _, _, huse, hoperand, hbounds, rfl⟩
  · rintro ⟨operator, first, last, huse, hoperand, hbounds, rfl⟩
    exact .assigned h huse hoperand hbounds

/-- The changes at a use depend on what is done with its value. -/
theorem arisesAt_iff {i : Nat} {c : Change} {node : Ref} (h : u.IsValueSite d i node) :
    u.ArisesAt d i c ↔
      match u.use node with
      | .dereferenced operator => c = .remove operator
      | .indexed operator =>
        ∃ close, u.link operator = some close ∧ c = .removeRange operator (some close)
      | .arrow operator => c = .replace operator "."
      | .other => ∃ first last, u.bounds node = some (first, last) ∧
        c = .insertBefore (some first) "&"
      | .assigned operator true => ∃ root first last, u.operand2 operator = some root ∧
        u.bounds (some root) = some (first, last) ∧ .change c ∈
          (u.narrow (u.knownBefore d (i + 1)).type? (some root) ⟨some first, some last⟩).items
      | .assigned _ false | .tolerated _ => False := by
  constructor
  · intro harises
    cases harises with
    | star hrole => exact absurd hrole h.not_declarator
    | dereferenced hsite huse =>
      obtain rfl := h.unique hsite
      simp only [huse]
    | indexed hsite huse hlink =>
      obtain rfl := h.unique hsite
      simp only [huse]
      exact ⟨_, hlink, rfl⟩
    | arrow hsite huse =>
      obtain rfl := h.unique hsite
      simp only [huse]
    | other hsite huse hbounds =>
      obtain rfl := h.unique hsite
      simp only [huse]
      exact ⟨_, _, hbounds, rfl⟩
    | narrowed hvalue hc =>
      obtain ⟨operator, first, last, huse, hoperand, hbounds, rfl⟩ := (narrowsAt_iff h).1 hvalue
      simp only [huse]
      exact ⟨_, _, _, hoperand, hbounds, hc⟩
  · cases huse : u.use node with
    | dereferenced operator =>
      rintro rfl
      exact .dereferenced h huse
    | indexed operator =>
      rintro ⟨close, hlink, rfl⟩
      exact .indexed h huse hlink
    | arrow operator =>
      rintro rfl
      exact .arrow h huse
    | assigned operator plain =>
      cases plain with
      | true =>
        rintro ⟨root, first, last, hoperand, hbounds, hc⟩
        exact .narrowed (.assigned h huse hoperand hbounds) hc
      | false => exact False.elim
    | tolerated operator => exact False.elim
    | other =>
      rintro ⟨first, last, hbounds, rfl⟩
      exact .other h huse hbounds

/-- The changes at a use. -/
theorem mem_stepAt_use {i : Nat} {c : Change} (hrole : u.role d.key (some i) = .use)
    (h : (u.stepAt d i).fault = none) :
    .change c ∈ (u.stepAt d i).items ↔ u.ArisesAt d i c := by
  simp only [stepAt, hrole, stepAs, rewriteUse] at h ⊢
  cases hsite : u.site d (some i) with
  | outside | decayed =>
    -- such a use has no value, and nothing is changed
    have hnone {node : Ref} : ¬ u.IsValueSite d i node := by simp [IsValueSite, hsite]
    have hdeclarator : u.role d.key (some i) ≠ .declarator := by simp [hrole]
    constructor
    · simp
    · intro harises
      cases harises with
      | star hrole' => exact absurd hrole' hdeclarator
      | narrowed hvalue =>
        cases hvalue with
        | initial hrole' => exact absurd hrole' hdeclarator
        | assigned h => exact absurd h hnone
      | dereferenced h | indexed h | arrow h | other h => exact absurd h hnone
  | value node =>
    rw [arisesAt_iff ⟨hrole, hsite⟩]
    simp only [hsite] at h ⊢
    cases huse : u.use node with
    | dereferenced operator => simp [rewriteValue]
    | indexed operator =>
      simp only [huse, rewriteValue] at h ⊢
      cases hlink : u.link operator with
      | none => simp [hlink] at h
      | some close => simp
    | arrow operator =>
      simp only [huse, rewriteValue] at h ⊢
      split at h
      · rename_i hlevel
        simp [hlevel]
      · cases h
    | assigned operator plain =>
      cases plain with
      | false => simp [rewriteValue]
      | true =>
        -- only what is assigned changes, if it is there and has its ends
        simp only [rewriteValue, narrowExpression]
        cases hoperand : u.operand2 operator with
        | none => simp [bounds, preorder, preorderWithin]
        | some root =>
          cases hbounds : u.bounds (some root) with
          | none => simp [hbounds]
          | some ends =>
            obtain ⟨first, last⟩ := ends
            simp [hbounds, and_assoc]
    | tolerated operator => simp [rewriteValue]
    | other =>
      simp only [rewriteValue]
      cases hbounds : u.bounds node with
      | none => simp
      | some ends =>
        obtain ⟨first, last⟩ := ends
        simp

/-- The changes at a token, whatever its role. -/
theorem mem_stepAt {i : Nat} {c : Change} (h : (u.stepAt d i).fault = none) :
    .change c ∈ (u.stepAt d i).items ↔ u.ArisesAt d i c := by
  cases hrole : u.role d.key (some i) with
  | declarator => exact mem_stepAt_declarator hrole h
  | use => exact mem_stepAt_use hrole h
  | unrelated | label =>
    simp only [stepAt, hrole, stepAs, Trail.items_nil, List.not_mem_nil, false_iff]
    intro harises
    cases harises with
    | star hrole' => simp [hrole] at hrole'
    | narrowed hvalue => simpa [hrole] using hvalue.role
    | dereferenced h | indexed h | arrow h | other h => simp [IsValueSite, hrole] at h

/-! ### The end of a plan -/

/-- The changes at the end of a plan are those for the values that braces supply for a field. -/
theorem mem_planEnd {known : Known} {c : Change} (h : (u.planEnd d known).fault = none) :
    .change c ∈ (u.planEnd d known).items ↔
      ∃ root range, u.Supplied d root range ∧
        .change c ∈ (u.narrow known.type? (some root) range).items := by
  unfold planEnd at h ⊢
  split at h
  · cases h
  · rename_i hdeclared
    rw [if_neg hdeclared]
    split at h
    · -- a variable is in no record
      rename_i hfield
      have hno {root : Nat} {range : Range} : ¬ u.Supplied d root range := by
        rintro ⟨hd, -⟩
        simp [hd] at hfield
      rw [if_pos hfield]
      constructor
      · intro hc
        cases hc
      · rintro ⟨root, range, hvalue, -⟩
        exact absurd hvalue hno
    · rename_i hfield
      rw [if_neg hfield]
      have hd : d.isField = true := by simpa using hfield
      split at h
      · cases h
      · obtain ⟨-, hparts, hitems⟩ := Trail.bind_of_fault_none h
        rw [hitems, List.mem_flatMap]
        constructor
        · -- of what the walk finds only the values are narrowed
          rintro ⟨part, hpart, hc⟩
          cases part with
          | value start =>
            obtain ⟨range, root, hrange, hroot, hc⟩ := (mem_narrowInitializer (hparts _ hpart)).1 hc
            exact ⟨root, range, ⟨hd, start, hpart, hrange, hroot⟩, hc⟩
          | note e => simp [rewriteField] at hc
          | nested o r k => cases hc
        · rintro ⟨root, range, ⟨-, start, hpart, hrange, hroot⟩, hc⟩
          exact ⟨.value start, hpart,
            (mem_narrowInitializer (hparts _ hpart)).2 ⟨range, root, hrange, hroot, hc⟩⟩

/-- The changes of a plan are those at its tokens and those for what braces supply. -/
theorem mem_plan {c : Change} (h : (u.plan d).fault = none) :
    .change c ∈ (u.plan d).items ↔
      (∃ i < u.size, u.ArisesAt d i c) ∨
      ∃ root range, u.Supplied d root range ∧
        .change c ∈ (u.narrow (u.declaredType d) (some root) range).items := by
  obtain ⟨hsteps, hend, hitems⟩ := plan_of_fault_none h
  have htype : (u.knownBefore d u.size).type? = u.declaredType d := type?_knownBefore u d u.size
  rw [hitems, List.mem_append, List.mem_flatMap, mem_planEnd hend, htype]
  refine or_congr_left ?_
  constructor
  · rintro ⟨i, hi, hc⟩
    have hi : i < u.size := List.mem_range.1 hi
    exact ⟨i, hi, (mem_stepAt (hsteps i hi)).1 hc⟩
  · rintro ⟨i, hi, hc⟩
    exact ⟨i, List.mem_range.2 hi, (mem_stepAt (hsteps i hi)).2 hc⟩

end Program

end Indirection
