import Indirection.Proofs.Acyclic

/-!
# What an lvalue is rooted at

The declaration behind an lvalue is found in rounds: all casts and all indexing are taken off, then
one dereference, and so on. Main definition:

* `Program.RootedAt` — an lvalue is built from a name, or from an access to a member, by casts,
  indexing and dereferences, in any number and in any order.

Main statements: `base_eq` — casts and indexing are taken off one layer at a time;
`resolve_operand1_iff`, `resolve_dereference_iff` — so is everything that an lvalue is built by;
`resolve_rooted` — an lvalue is resolved to the declaration that it is rooted at, and everything
else is refused.
-/

namespace Indirection.Program

variable {u : Program} {t name name' : Ref} {key : Int}

/-- Whether the lvalue `expr` is built from the name `name`, or from an access to the member `name`,
    by casts, indexing and dereferences. Where a token is of several of these kinds, a cast and an
    indexing come before a member access, a member access before a name, and a name before a
    dereference. -/
inductive RootedAt (u : Program) : (expr name : Ref) → Prop
  | name {t : Ref} (hname : u.isName t = true) (hcast : u.isCast t = false)
    (hindexing : u.isSubscript t = false) (haccess : u.isMemberAccess t = false) : RootedAt u t t
  | member {t : Ref} (haccess : u.isMemberAccess t = true) (hcast : u.isCast t = false) :
    RootedAt u t (u.operand2 t)
  | cast {t name : Ref} (hcast : u.isCast t = true) (hroot : RootedAt u (u.operand1 t) name) :
    RootedAt u t name
  | element {t name : Ref} (hindexing : u.isSubscript t = true)
    (hroot : RootedAt u (u.operand1 t) name) : RootedAt u t name
  | target {t name : Ref} (hderef : u.isDereference t = true) (hname : u.isName t = false)
    (hroot : RootedAt u (u.operand1 t) name) : RootedAt u t name

/-! ### Kinds of tokens -/

/-- What indexes accesses no member. -/
theorem isMemberAccess_of_isSubscript (h : u.isSubscript t = true) :
    u.isMemberAccess t = false := by
  simp only [isSubscript, Bool.and_eq_true, decide_eq_true_eq] at h
  simp [isMemberAccess, h.1]

/-- A member access is no indexing. -/
theorem isSubscript_of_isMemberAccess (h : u.isMemberAccess t = true) :
    u.isSubscript t = false := by
  cases hindexing : u.isSubscript t with
  | false => rfl
  | true => simp [isMemberAccess_of_isSubscript hindexing] at h

/-- What dereferences neither indexes nor accesses a member. -/
theorem not_of_isDereference (h : u.isDereference t = true) :
    u.isSubscript t = false ∧ u.isMemberAccess t = false := by
  simp only [isDereference, Bool.and_eq_true, decide_eq_true_eq] at h
  simp [isSubscript, isMemberAccess, h.1]

/-- An indexing has a first operand. -/
theorem isSome_of_isSubscript (h : u.isSubscript t = true) : (u.operand1 t).isSome = true := by
  simp only [isSubscript, Bool.and_eq_true] at h
  exact h.2

/-- A dereference has a first operand. -/
theorem isSome_of_isDereference (h : u.isDereference t = true) :
    (u.operand1 t).isSome = true := by
  simp only [isDereference, isUnaryOp, Bool.and_eq_true] at h
  exact h.2.1

/-! ### Casts and indexing -/

/-- More steps than the height of an expression take no more indexing off it. -/
theorem baseWithin_eq (hac : u.IsAcyclic) {m n : Nat} (hm : u.height t ≤ m) (hn : u.height t ≤ n) :
    u.baseWithin m t = u.baseWithin n t := by
  refine eq_of_height_le u.baseWithin (fun t m n ih => ?_) hm hn
  simp only [baseWithin]
  by_cases hindexing : u.isSubscript (u.skipCasts t) = true
  · rw [if_pos hindexing, if_pos hindexing]
    apply ih
    calc u.height (u.operand1 (u.skipCasts t))
        < u.height (u.skipCasts t) := height_operand1_lt hac (isSome_of_isSubscript hindexing)
      _ ≤ u.height t := height_skipCastsWithin_le hac u.size t
  · rw [if_neg hindexing, if_neg hindexing]

/-- Of an expression only what is under its casts matters. -/
theorem baseWithin_congr {t' : Ref} (h : u.skipCasts t = u.skipCasts t') (steps : Nat) :
    u.baseWithin steps t = u.baseWithin steps t' := by
  cases steps <;> simp [baseWithin, h]

/-- The casts and the indexing around an expression are taken off one by one. -/
theorem base_eq (hac : u.IsAcyclic) (t : Ref) :
    u.base t = if u.isCast t || u.isSubscript t then u.base (u.operand1 t) else t := by
  have hcasts := skipCasts_eq hac t
  cases hcast : u.isCast t with
  | true =>
    rw [hcast, if_pos rfl] at hcasts
    exact baseWithin_congr hcasts u.size
  | false =>
    rw [hcast, if_neg Bool.false_ne_true] at hcasts
    cases hindexing : u.isSubscript t with
    | false =>
      show u.baseWithin u.size t = t
      cases u.size <;> simp [baseWithin, hcasts, hindexing]
    | true =>
      have hsome := isSome_of_isSubscript hindexing
      -- an expression that indexes is a token, so that its operand is lower than the size
      have hlow : u.height (u.operand1 t) < u.size := by
        cases t with
        | none => cases hsome
        | some i =>
          obtain ⟨j, hj⟩ := Option.isSome_iff_exists.1 hsome
          have hchild : u.Child i j := .inl hj
          exact Nat.lt_of_lt_of_le (height_operand1_lt hac hsome)
            (height_le_size hac hchild.lt_size_left)
      obtain ⟨n, hn⟩ : ∃ n, u.size = n + 1 := ⟨u.size - 1, by omega⟩
      show u.baseWithin u.size t = u.baseWithin u.size (u.operand1 t)
      calc u.baseWithin u.size t
          = u.baseWithin n (u.operand1 t) := by rw [hn, baseWithin, hcasts, if_pos hindexing]
        _ = u.baseWithin u.size (u.operand1 t) := baseWithin_eq hac (by omega) (by omega)

/-- Nothing is taken off what is neither a cast nor indexes. -/
theorem base_of_plain (hac : u.IsAcyclic) (hcast : u.isCast t = false)
    (hindexing : u.isSubscript t = false) : u.base t = t := by
  rw [base_eq hac, hcast, hindexing]
  rfl

/-! ### Dereferences -/

/-- The operand of a dereference is lower than the casts and the indexing around it. -/
theorem height_operand1_base_lt (hac : u.IsAcyclic) (hderef : u.isDereference (u.base t) = true) :
    u.height (u.operand1 (u.base t)) < u.height t :=
  Nat.lt_of_lt_of_le (height_operand1_lt hac (isSome_of_isDereference hderef))
    (height_baseWithin_le hac u.size t)

/-- More steps than the height of an lvalue do not change its declaration. -/
theorem resolveWithin_eq (hac : u.IsAcyclic) {m n : Nat} (hm : u.height t ≤ m)
    (hn : u.height t ≤ n) : u.resolveWithin m t = u.resolveWithin n t := by
  refine eq_of_height_le u.resolveWithin (fun t m n ih => ?_) hm hn
  simp only [resolveWithin]
  by_cases hderef : u.isDereference (u.base t) = true
  · rw [ih _ (height_operand1_base_lt hac hderef)]
  · rw [if_neg hderef, if_neg hderef]

/-- The declaration of an lvalue, by what is under its casts and its indexing. -/
theorem resolve_eq_ok_iff_base (hac : u.IsAcyclic) (t : Ref) (key : Int) :
    u.resolve t = .ok key ↔
      if u.isMemberAccess (u.base t) then u.declKey (u.operand2 (u.base t)) = key ∧ key ≠ 0
      else if u.isName (u.base t) then u.declKey (u.base t) = key ∧ key ≠ 0
      else u.isDereference (u.base t) = true ∧ u.resolve (u.operand1 (u.base t)) = .ok key := by
  have found (k : Int) (f : Fault) :
      ((if k = 0 then .error f else .ok k : Except Fault Int) = .ok key) ↔ k = key ∧ key ≠ 0 := by
    split
    · rename_i hzero
      simp [hzero, eq_comm]
    · rename_i hne
      simp only [Except.ok.injEq, iff_self_and]
      rintro rfl
      exact hne
  show u.resolveWithin (u.size + 1) t = .ok key ↔ _
  simp only [resolveWithin]
  by_cases haccess : u.isMemberAccess (u.base t) = true
  · rw [if_pos haccess, if_pos haccess]
    exact found _ _
  · rw [if_neg haccess, if_neg haccess]
    by_cases hname : u.isName (u.base t) = true
    · rw [if_pos hname, if_pos hname]
      exact found _ _
    · rw [if_neg hname, if_neg hname]
      by_cases hderef : u.isDereference (u.base t) = true
      · rw [if_pos hderef, and_iff_right hderef]
        -- the operand is lower than the lvalue, so that a step less suffices for it
        have hlt := height_operand1_base_lt hac hderef
        have hle := height_le (u := u) t
        rw [resolve, resolveWithin_eq hac (n := u.size + 1) (by omega) (by omega)]
      · rw [if_neg hderef]
        simp [hderef]

/-! ### Layer by layer -/

/-- What is no token resolves to no key. -/
theorem resolve_none (u : Program) (key : Int) : u.resolve none ≠ .ok key := by
  have hbase : u.base none = none := by
    unfold base
    cases u.size <;> simp [baseWithin, skipCasts, skipCastsWithin_none, isSubscript, text]
  intro h
  simp [resolve, resolveWithin, hbase, isMemberAccess, isName, isDereference, text, flag] at h

/-- A cast or an indexing is taken off. -/
theorem resolve_operand1_iff (hac : u.IsAcyclic)
    (h : u.isCast t = true ∨ u.isSubscript t = true) :
    u.resolve t = .ok key ↔ u.resolve (u.operand1 t) = .ok key := by
  have hbase : u.base t = u.base (u.operand1 t) := by
    rw [base_eq hac, if_pos (by simpa using h)]
  refine (resolve_eq_ok_iff_base hac t key).trans ?_
  rw [hbase]
  exact (resolve_eq_ok_iff_base hac (u.operand1 t) key).symm

/-- A dereference is taken off. -/
theorem resolve_dereference_iff (hac : u.IsAcyclic) (hderef : u.isDereference t = true)
    (hname : u.isName t = false) :
    u.resolve t = .ok key ↔ u.resolve (u.operand1 t) = .ok key := by
  obtain ⟨hindexing, haccess⟩ := not_of_isDereference hderef
  cases hcast : u.isCast t with
  | true => exact resolve_operand1_iff hac (.inl hcast)
  | false =>
    rw [resolve_eq_ok_iff_base hac, base_of_plain hac hcast hindexing]
    simp [haccess, hname, hderef]

/-- A member access resolves to the key of its member, when that is not zero. -/
theorem resolve_access_iff (hac : u.IsAcyclic) (haccess : u.isMemberAccess t = true)
    (hcast : u.isCast t = false) :
    u.resolve t = .ok key ↔ u.declKey (u.operand2 t) = key ∧ key ≠ 0 := by
  have hbase : u.base t = t := base_of_plain hac hcast (isSubscript_of_isMemberAccess haccess)
  rw [resolve_eq_ok_iff_base hac, hbase, if_pos haccess]

/-- A name resolves to its own key, when that is not zero. -/
theorem resolve_name_iff (hac : u.IsAcyclic) (hname : u.isName t = true)
    (hcast : u.isCast t = false) (hindexing : u.isSubscript t = false)
    (haccess : u.isMemberAccess t = false) :
    u.resolve t = .ok key ↔ u.declKey t = key ∧ key ≠ 0 := by
  rw [resolve_eq_ok_iff_base hac, base_of_plain hac hcast hindexing, if_neg (by simp [haccess]),
    if_pos hname]

/-! ### Roots -/

/-- An lvalue whose root has a key is resolved to it. -/
theorem RootedAt.resolve_iff (hac : u.IsAcyclic) (h : u.RootedAt t name) :
    u.resolve t = .ok key ↔ u.declKey name = key ∧ key ≠ 0 := by
  induction h with
  | name hname hcast hindexing haccess => exact resolve_name_iff hac hname hcast hindexing haccess
  | member haccess hcast => exact resolve_access_iff hac haccess hcast
  | cast hcast _ ih => exact (resolve_operand1_iff hac (.inl hcast)).trans ih
  | element hindexing _ ih => exact (resolve_operand1_iff hac (.inr hindexing)).trans ih
  | target hderef hname _ ih => exact (resolve_dereference_iff hac hderef hname).trans ih

/-- What is resolved has a root. -/
theorem exists_rootedAt (hac : u.IsAcyclic) (h : u.resolve t = .ok key) :
    ∃ name, u.RootedAt t name := by
  -- by induction on the height of the expression, one layer at a time
  induction hheight : u.height t using Nat.strong_induction_on generalizing t with
  | _ n ih =>
    have below (hoperand : u.resolve (u.operand1 t) = .ok key) :
        ∃ name, u.RootedAt (u.operand1 t) name := by
      have hsome : (u.operand1 t).isSome = true := by
        cases hop : u.operand1 t with
        | none => exact absurd (hop ▸ hoperand) (u.resolve_none key)
        | some j => rfl
      exact ih _ (hheight ▸ height_operand1_lt hac hsome) hoperand rfl
    by_cases hlayer : u.isCast t = true ∨ u.isSubscript t = true
    · obtain ⟨name, hroot⟩ := below ((resolve_operand1_iff hac hlayer).1 h)
      rcases hlayer with hcast | hindexing
      · exact ⟨name, .cast hcast hroot⟩
      · exact ⟨name, .element hindexing hroot⟩
    · rw [not_or, Bool.not_eq_true, Bool.not_eq_true] at hlayer
      obtain ⟨hcast, hindexing⟩ := hlayer
      have hcases := (resolve_eq_ok_iff_base hac t key).1 h
      rw [base_of_plain hac hcast hindexing] at hcases
      cases haccess : u.isMemberAccess t with
      | true => exact ⟨_, .member haccess hcast⟩
      | false =>
        cases hname : u.isName t with
        | true => exact ⟨t, .name hname hcast hindexing haccess⟩
        | false =>
          obtain ⟨hderef, hoperand⟩ : u.isDereference t = true ∧
              u.resolve (u.operand1 t) = .ok key := by
            simpa [haccess, hname] using hcases
          obtain ⟨name, hroot⟩ := below hoperand
          exact ⟨name, .target hderef hname hroot⟩

/-- An lvalue has one root. -/
theorem RootedAt.unique (h : u.RootedAt t name) (h' : u.RootedAt t name') : name = name' := by
  induction h with
  | name hname hcast hindexing haccess =>
    cases h' with
    | name => rfl
    | member haccess' => simp [haccess] at haccess'
    | cast hcast' => simp [hcast] at hcast'
    | element hindexing' => simp [hindexing] at hindexing'
    | target _ hname' => simp [hname] at hname'
  | member haccess hcast =>
    cases h' with
    | name _ _ _ haccess' => simp [haccess] at haccess'
    | member => rfl
    | cast hcast' => simp [hcast] at hcast'
    | element hindexing => simp [isMemberAccess_of_isSubscript hindexing] at haccess
    | target hderef => simp [(not_of_isDereference hderef).2] at haccess
  | cast hcast _ ih =>
    cases h' with
    | name _ hcast' => simp [hcast] at hcast'
    | member _ hcast' => simp [hcast] at hcast'
    | cast _ hroot | element _ hroot | target _ _ hroot => exact ih hroot
  | element hindexing _ ih =>
    cases h' with
    | name _ _ hindexing' => simp [hindexing] at hindexing'
    | member haccess => simp [isMemberAccess_of_isSubscript hindexing] at haccess
    | cast _ hroot | element _ hroot | target _ _ hroot => exact ih hroot
  | target hderef hname _ ih =>
    cases h' with
    | name hname' => simp [hname] at hname'
    | member haccess => simp [(not_of_isDereference hderef).2] at haccess
    | cast _ hroot | element _ hroot | target _ _ hroot => exact ih hroot

/-- **What an lvalue is resolved to.** In a program whose operands have no cycles:

    * an expression is resolved to a key exactly when it is an lvalue, however many casts, indexings
      and dereferences it is built by, and in whatever order, and the key is that of its root and
      not zero;
    * every other expression, also a missing one, and every lvalue whose root has the key zero, is
      refused as an assignment target without a declaration;
    * an lvalue has one root, so that there is one such key. -/
theorem resolve_rooted (hac : u.IsAcyclic) (expr : Ref) :
    (∀ key, u.resolve expr = .ok key ↔
      key ≠ 0 ∧ ∃ name, u.RootedAt expr name ∧ u.declKey name = key) ∧
    ((∀ name, u.RootedAt expr name → u.declKey name = 0) →
      ∃ d, u.resolve expr = .error (.refused d) ∧ d.kind = .invariant ∧
        d.code = .unresolvedTarget) ∧
    ∀ name name', u.RootedAt expr name → u.RootedAt expr name' → name = name' := by
  have hok (key : Int) : u.resolve expr = .ok key ↔
      key ≠ 0 ∧ ∃ name, u.RootedAt expr name ∧ u.declKey name = key := by
    constructor
    · intro h
      obtain ⟨name, hroot⟩ := exists_rootedAt hac h
      obtain ⟨hkey, hne⟩ := (hroot.resolve_iff hac).1 h
      exact ⟨hne, name, hroot, hkey⟩
    · rintro ⟨hne, name, hroot, hkey⟩
      exact (hroot.resolve_iff hac).2 ⟨hkey, hne⟩
  refine ⟨hok, fun hzero => ?_, fun _ _ h h' => h.unique h'⟩
  cases hresolve : u.resolve expr with
  | ok key =>
    obtain ⟨hne, name, hroot, rfl⟩ := (hok key).1 hresolve
    exact absurd (hzero name hroot) hne
  | error f =>
    obtain ⟨spelling, p, rfl⟩ := resolve_refused hac hresolve
    exact ⟨_, rfl, rfl, rfl⟩

/-- The tokens of the text `*(int **)rows[1];`. -/
def castElement : Program where
  tokens := #[{ text := "*", operand1 := some 1 },
    { text := "(", operand1 := some 7, parent := some 0, link := some 5, isCast := true },
    { text := "int", isName := true }, { text := "*" }, { text := "*" },
    { text := ")", link := some 1 },
    { text := "rows", varId := 1, var := some 0, parent := some 7, isName := true },
    { text := "[", operand1 := some 6, operand2 := some 8, parent := some 1, link := some 9 },
    { text := "1", parent := some 7, isNumber := true }, { text := "]", link := some 7 },
    { text := ";" }]
  vars := #[{ nameToken := some 6 }]

/-- Under a dereference, a cast and an indexing stands the name `rows`. A number is refused. -/
theorem resolve_rooted_castElement :
    castElement.IsAcyclic ∧ castElement.RootedAt (some 0) (some 6) ∧
      castElement.resolve (some 0) = .ok 1 ∧
      ∃ d, castElement.resolve (some 8) = .error (.refused d) ∧ d.kind = .invariant ∧
        d.code = .unresolvedTarget := by
  have hac : castElement.IsAcyclic :=
    isAcyclic_of_rank (fun i => if i = 0 then 3 else if i = 1 then 2 else if i = 7 then 1 else 0)
      (by decide +kernel)
  have hroot : castElement.RootedAt (some 0) (some 6) := by
    refine .target (by decide +kernel) (by decide +kernel) ?_
    show castElement.RootedAt (some 1) (some 6)
    refine .cast (by decide +kernel) ?_
    show castElement.RootedAt (some 7) (some 6)
    refine .element (by decide +kernel) ?_
    show castElement.RootedAt (some 6) (some 6)
    exact .name (by decide +kernel) (by decide +kernel) (by decide +kernel) (by decide +kernel)
  obtain ⟨hlvalue, -, -⟩ := resolve_rooted hac (some 0)
  obtain ⟨-, hother, -⟩ := resolve_rooted hac (some 8)
  refine ⟨hac, hroot, (hlvalue 1).2 ⟨by decide, some 6, hroot, by decide +kernel⟩, ?_⟩
  apply hother
  intro name h
  -- a number is none of the tokens that an lvalue has on top
  cases h with
  | name h | member h | cast h | element h | target h => exact absurd h (by decide +kernel)

end Indirection.Program
