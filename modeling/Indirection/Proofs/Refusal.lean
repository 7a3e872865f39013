import Indirection.Reduction.Plan

/-!
# What can end a plan

A plan reads tokens only, so the faults that end one are few. Main definitions:

* `Trail.FaultsIn` — the fault of a trail, if there is one, has a property;
* `Fault.IsUnmatched` — a bracket has no partner;
* `Fault.OfTokens` — the faults of a walk over tokens whose brackets or operands are broken;
* `Fault.IsMalformed`, `Fault.IsTreated` — the faults that have no answer, and those together with
  the ones that a run answers with an internal error.

Main statements: `rewriteDeclarator_faults`, `rewriteUse_faults` and `fieldValues_faults` for the
three parts of a plan, `plan_faults` for the whole, and `plan_removes_star`: a plan without a fault
removes a star.
-/

namespace Indirection

/-! ### Faults of trails -/

namespace Trail

variable {α β : Type} {P : Fault → Prop}

/-- Whether the fault of a trail, if there is one, has the property `P`. -/
def FaultsIn (P : Fault → Prop) (p : Trail α) : Prop := ∀ f, p.fault = some f → P f

/-- Nothing has no fault. -/
theorem FaultsIn.nil : FaultsIn P (nil : Trail α) := by
  intro f hf
  cases hf

/-- A single item has no fault. -/
theorem FaultsIn.one (a : α) : FaultsIn P (one a) := by
  intro f hf
  cases hf

/-- Items alone have no fault. -/
theorem FaultsIn.ofItems (items : List α) : FaultsIn P { items } := by
  intro f hf
  cases hf

/-- A trail that only failed has this fault. -/
theorem FaultsIn.fail {f : Fault} (h : P f) : FaultsIn P (fail f : Trail α) := by
  intro g hg
  exact Option.some.inj hg ▸ h

/-- The fault of two trails is that of one of them. -/
theorem FaultsIn.append {p q : Trail α} (hp : p.FaultsIn P) (hq : q.FaultsIn P) :
    (p ++ q).FaultsIn P := by
  intro f hf
  cases hfault : p.fault with
  | none =>
    rw [append_of_fault_none hfault] at hf
    exact hq f hf
  | some g =>
    rw [append_of_fault_some hfault] at hf
    exact hp f hf

/-- The fault of a concatenation is that of one of its trails. -/
theorem FaultsIn.concat {f : β → Trail α} {xs : List β} (h : ∀ b ∈ xs, (f b).FaultsIn P) :
    (concat f xs).FaultsIn P := by
  induction xs with
  | nil => exact .nil
  | cons b rest ih =>
    rw [concat_cons]
    exact (h b List.mem_cons_self).append (ih fun c hc => h c (List.mem_cons_of_mem _ hc))

/-- The fault of a bound trail is its own or that of the trail of an item. -/
theorem FaultsIn.bind {p : Trail β} {f : β → Trail α} (hp : p.FaultsIn P)
    (h : ∀ b, (f b).FaultsIn P) : (p.bind f).FaultsIn P :=
  (FaultsIn.concat fun b _ => h b).append hp

/-- The trail of a result has the fault of the result, or that of what follows from it. -/
theorem FaultsIn.ofExcept {r : Except Fault β} {f : β → Trail α} (hr : ∀ g, r = .error g → P g)
    (h : ∀ b, (f b).FaultsIn P) : (ofExcept r f).FaultsIn P := by
  cases r with
  | ok b => exact h b
  | error g => exact .fail (hr g rfl)

/-- A weaker condition on faults holds as well. -/
theorem FaultsIn.mono {p : Trail α} {Q : Fault → Prop} (hp : p.FaultsIn P) (h : ∀ f, P f → Q f) :
    p.FaultsIn Q :=
  fun f hf => h f (hp f hf)

end Trail

/-! ### Kinds of fault -/

/-- Whether a fault is that of a bracket without a partner. -/
def Fault.IsUnmatched (f : Fault) : Prop := ∃ spelling p, f = .of (.unmatched spelling) p

/-- The faults of a walk over tokens whose brackets, operands or declarators are broken. -/
inductive Fault.OfTokens : Fault → Prop
  | unmatched (spelling : String) (p : Position) : OfTokens (.of (.unmatched spelling) p)
  | noTree (spelling : String) (p : Position) : OfTokens (.of (.noTree spelling) p)
  | deepArrow (name : String) (level : Int) (p : Position) :
    OfTokens (.of (.deepArrow name level) p)
  | noStar (spelling : String) (p : Position) : OfTokens (.of (.noStar spelling) p)
  | noMember : OfTokens .noMember
  | endlessChain : OfTokens .endlessChain

/-- The faults for which there is no answer: a chain of operands or braces without an end, and a
    member of a record that has none. -/
def Fault.IsMalformed (f : Fault) : Prop := f = .endlessChain ∨ f = .noMember

/-- The faults that a run answers with an internal error, and those that have no answer. -/
def Fault.IsTreated (f : Fault) : Prop := f.isInternal = true ∨ f.IsMalformed

/-- A bracket without a partner is a fault of tokens. -/
theorem Fault.IsUnmatched.ofTokens {f : Fault} (h : f.IsUnmatched) : f.OfTokens := by
  obtain ⟨spelling, p, rfl⟩ := h
  exact .unmatched spelling p

/-- All faults of tokens are treated. -/
theorem Fault.OfTokens.isTreated {f : Fault} (h : f.OfTokens) : f.IsTreated := by
  cases h with
  | unmatched | noTree | deepArrow | noStar => exact .inl rfl
  | noMember => exact .inr (.inr rfl)
  | endlessChain => exact .inr (.inl rfl)

namespace Program

variable {u : Program}

/-! ### Brace initializers -/

/-- Only a bracket without a partner is refused one. -/
theorem partner_faults {i : Nat} {f : Fault} (h : u.partner i = .error f) : f.IsUnmatched := by
  unfold partner at h
  split at h
  · cases h
  · exact ⟨_, _, (Except.error.inj h).symm⟩

/-- What begins at a token has an end unless a bracket has no partner. -/
theorem closing_faults {i : Nat} {f : Fault} (h : u.closing i = .error f) : f.IsUnmatched := by
  unfold closing at h
  split at h
  · exact partner_faults h
  · cases h

/-- The walk to the end of an expression stops early at such a bracket only. -/
theorem expressionEndWithin_faults {steps : Nat} {t last : Ref} {f : Fault}
    (h : u.expressionEndWithin steps t last = .error f) : f.IsUnmatched := by
  induction steps generalizing t last with
  | zero => cases h
  | succ steps ih =>
    cases t with
    | none => cases h
    | some i =>
      rw [expressionEndWithin] at h
      split at h
      · cases h
      · split at h
        · rename_i hclosing
          exact Except.error.inj h ▸ closing_faults hclosing
        · exact ih h

/-- So an expression is refused for such a bracket only, -/
theorem expressionFrom_faults {t : Ref} {f : Fault} (h : u.expressionFrom t = .error f) :
    f.IsUnmatched := by
  unfold expressionFrom at h
  split at h
  · cases h
  · rename_i hend
    exact Except.error.inj h ▸ expressionEndWithin_faults hend

/-- The walk through the elements of braces stops early at such a bracket only. -/
theorem elementsWithin_faults {close steps : Nat} {t : Ref} {current : Option (Nat × Nat)}
    {f : Fault} (h : u.elementsWithin close steps t current = .error f) : f.IsUnmatched := by
  induction steps generalizing t current f with
  | zero => cases h
  | succ steps ih =>
    cases t with
    | none => cases h
    | some i =>
      rw [elementsWithin] at h
      split at h
      · -- the closing brace
        cases h
      · split at h
        · -- a comma ends an element: the fault is one of the elements behind it
          split at h
          · cases h
          · rename_i hrest
            exact Except.error.inj h ▸ ih hrest
        · split at h
          · rename_i hclosing
            exact Except.error.inj h ▸ closing_faults hclosing
          · exact ih h

/-- So braces are refused for a bracket without a partner only, maybe the opening one. -/
theorem elements_faults {i : Nat} {f : Fault} (h : u.elements i = .error f) : f.IsUnmatched := by
  unfold elements at h
  split at h
  · exact elementsWithin_faults h
  · rename_i hpartner
    exact Except.error.inj h ▸ partner_faults hpartner

/-- The values in an initializer are missing because of such a bracket, or braces without end. -/
theorem valuesWithin_faults (depth : Nat) (t : Ref) :
    (u.valuesWithin depth t).FaultsIn Fault.OfTokens := by
  induction depth generalizing t with
  | zero => exact .fail .endlessChain
  | succ depth ih =>
    rw [valuesWithin]
    split
    · split
      · -- a list in braces: its elements, each of which may be such a list
        refine .ofExcept (fun f hf => (elements_faults hf).ofTokens) fun es => .concat ?_
        intro e _
        dsimp only
        split
        · exact ih _
        · exact .one _
      · exact .ofExcept (fun f hf => (expressionFrom_faults hf).ofTokens) fun r => .one r
    · exact .ofExcept (fun f hf => (expressionFrom_faults hf).ofTokens) fun r => .one r

/-! ### Narrowing and uses -/

/-- The changes that take a level off a value are always there. -/
theorem narrow_faults (type? : Option String) (root : Ref) (range : Range) (P : Fault → Prop) :
    (u.narrow type? root range).FaultsIn P := by
  unfold narrow
  split
  · exact .one _
  · exact .nil
  · exact .one _
  · exact .ofItems _

/-- So are those for an operator, of which there are none if it has no ends. -/
theorem narrowExpression_faults (type? : Option String) (root : Ref) (P : Fault → Prop) :
    (u.narrowExpression type? root).FaultsIn P := by
  unfold narrowExpression
  split
  · exact narrow_faults _ _ _ P
  · exact .nil

/-- A stretch of tokens is refused if no tree is in it. -/
theorem narrowRange_faults (type? : Option String) (range : Range) :
    (u.narrowRange type? range).FaultsIn Fault.OfTokens := by
  unfold narrowRange
  split
  · exact narrow_faults _ _ _ _
  · exact .fail (.noTree _ _)

/-- An initializer is refused for its brackets, or for a value without a tree. -/
theorem narrowInitializer_faults (type? : Option String) (start : Ref) :
    (u.narrowInitializer type? start).FaultsIn Fault.OfTokens :=
  .bind (valuesWithin_faults _ _) (narrowRange_faults type?)

/-- A declarator is refused for its initializer, or if it has no star. -/
theorem rewriteDeclarator_faults (type? : Option String) (t : Ref) :
    (u.rewriteDeclarator type? t).FaultsIn Fault.OfTokens := by
  unfold rewriteDeclarator
  split
  · exact .fail (.noStar _ _)
  · refine .append (.one _) ?_
    split
    · exact narrowInitializer_faults _ _
    · exact .nil

/-- A value is refused for a bracket without a partner, or for an arrow on a value of more levels
    than one. -/
theorem rewriteValue_faults (d : Decl) (type? : Option String) (node : Ref) (use : Use) :
    (u.rewriteValue d type? node use).FaultsIn Fault.OfTokens := by
  cases use with
  | dereferenced operator => exact .one _
  | indexed operator =>
    simp only [rewriteValue]
    split
    · exact .one _
    · exact .fail (.unmatched _ _)
  | arrow operator =>
    simp only [rewriteValue]
    split
    · exact .one _
    · exact .fail (.deepArrow _ _ _)
  | assigned operator plain =>
    cases plain with
    | true => exact narrowExpression_faults _ _ _
    | false => exact .nil
  | tolerated operator => exact .one _
  | other =>
    simp only [rewriteValue]
    split
    · exact .one _
    · exact .nil

/-- So is the use that denotes it. -/
theorem rewriteUse_faults (d : Decl) (type? : Option String) (t : Ref) :
    (u.rewriteUse d type? t).FaultsIn Fault.OfTokens := by
  unfold rewriteUse
  split
  · exact .one _
  · exact .one _
  · exact rewriteValue_faults _ _ _ _

/-! ### Values of a field -/

/-- Elements are refused if a record without members has to take one. -/
theorem suppliesFrom_faults (members : List Nat) (cursor : Option Nat) (es : List (Nat × Nat)) :
    (u.suppliesFrom members cursor es).FaultsIn Fault.OfTokens := by
  induction es generalizing cursor with
  | nil => exact .nil
  | cons e rest ih =>
    rw [suppliesFrom]
    split
    split
    · -- a designator that names no member
      exact .append (.one _) (ih _)
    · split
      · split
        · exact .append (.one _) (ih _)
        · exact .nil
      · -- behind such a designator the last member counts, if the record has members
        split
        · exact .append (.one _) (ih _)
        · exact .fail .noMember

/-- What braces mean for a field fails for their brackets, or for such a record. -/
theorem parts_faults (key : Int) (opening record rank : Nat) :
    (u.parts key opening record rank).FaultsIn Fault.OfTokens := by
  refine .ofExcept (fun f hf => (elements_faults hf).ofTokens) fun es => ?_
  cases rank with
  | succ rank => exact .ofItems _
  | zero => exact fun f hf => suppliesFrom_faults _ _ _ f hf

/-- A walk through braces has only the faults of its steps. -/
theorem foldl_found_faults {α : Type} {xs : List α} {step : BraceWalk → α → BraceWalk}
    {w : BraceWalk} (hw : w.found.FaultsIn Fault.OfTokens)
    (hstep : ∀ w x, w.found.FaultsIn Fault.OfTokens → (step w x).found.FaultsIn Fault.OfTokens) :
    (xs.foldl step w).found.FaultsIn Fault.OfTokens := by
  induction xs generalizing w with
  | nil => exact hw
  | cons x rest ih => exact ih (hstep w x hw)

/-- Going into braces fails for nothing else. -/
theorem enterBraces_faults (key : Int) (depth : Nat) (seen : List Nat)
    (opening record rank : Nat) :
    (u.enterBraces key depth seen opening record rank).found.FaultsIn Fault.OfTokens := by
  induction depth generalizing seen opening record rank with
  | zero => exact .nil
  | succ depth ih =>
    rw [enterBraces]
    split
    · exact .nil
    · refine .append (foldl_found_faults .nil ?_) ?_
      · intro w p hw
        cases p with
        | nested o r k => exact hw.append (ih _ _ _ _)
        | value start => exact hw.append (.one _)
        | note e => exact hw.append (.one _)
      · exact fun f hf => parts_faults _ _ _ _ f hf

/-- Nor does the walk through all braces of a program. -/
theorem fieldValues_faults (key : Int) : (u.fieldValues key).FaultsIn Fault.OfTokens := by
  refine foldl_found_faults .nil ?_
  intro w i hw
  dsimp only
  split
  · exact hw
  · split
    · exact hw.append (enterBraces_faults _ _ _ _ _ _)
    · exact hw

/-- What is found there is refused as an initializer is. -/
theorem rewriteField_faults (type? : Option String) (part : FieldPart) :
    (u.rewriteField type? part).FaultsIn Fault.OfTokens := by
  cases part with
  | value start => exact narrowInitializer_faults _ _
  | note e => exact .one _
  | nested => exact .nil

/-! ### Plans -/

/-- Behind the last token comes the end of the plan. -/
theorem planFrom_nil (d : Decl) (known : Known) : u.planFrom d known [] = u.planEnd d known := by
  rfl

/-- The plan goes on behind a token with what its declarator tells, if it is one. -/
theorem planFrom_cons (d : Decl) (known : Known) (i : Nat) (rest : List Nat) :
    u.planFrom d known (i :: rest) =
      match u.role d.key (some i) with
      | .declarator =>
        u.rewriteDeclarator (u.learn d known (some i)).type? (some i) ++
          u.planFrom d (u.learn d known (some i)) rest
      | .use => u.rewriteUse d known.type? (some i) ++ u.planFrom d known rest
      | .unrelated | .label => u.planFrom d known rest := by
  rfl

/-- The end of a plan fails for these reasons, or because the walk has met no declarator of the
    declaration, or no record of the field. -/
theorem planEnd_faults (d : Decl) (known : Known) :
    (u.planEnd d known).FaultsIn fun f => f.OfTokens ∨
      (known.declared = false ∧ f = .of (.noDeclarator d.qualifiedName) d.position) ∨
      (d.isField = true ∧ known.record = none ∧
        f = .of (.noRecord d.qualifiedName) d.position) := by
  unfold planEnd
  split
  · rename_i hdeclared
    exact .fail (.inr (.inl ⟨by simpa using hdeclared, rfl⟩))
  · split
    · exact .nil
    · rename_i hfield
      split
      · rename_i hrecord
        exact .fail (.inr (.inr ⟨by simpa using hfield, hrecord, rfl⟩))
      · exact (Trail.FaultsIn.bind (fieldValues_faults _) (rewriteField_faults _)).mono
          fun f hf => .inl hf

/-- The faults that end the plan for some tokens: those of tokens, and the two of its end. -/
theorem planFrom_faults (d : Decl) (known : Known) (places : List Nat) :
    (u.planFrom d known places).FaultsIn fun f => f.OfTokens ∨
      f = .of (.noDeclarator d.qualifiedName) d.position ∨
      f = .of (.noRecord d.qualifiedName) d.position := by
  induction places generalizing known with
  | nil =>
    refine (planEnd_faults d known).mono ?_
    rintro f (hf | ⟨-, hf⟩ | ⟨-, -, hf⟩)
    · exact .inl hf
    · exact .inr (.inl hf)
    · exact .inr (.inr hf)
  | cons i rest ih =>
    rw [planFrom_cons]
    split
    · exact .append ((rewriteDeclarator_faults _ _).mono fun f hf => .inl hf) (ih _)
    · exact .append ((rewriteUse_faults _ _ _).mono fun f hf => .inl hf) (ih _)
    · exact ih _
    · exact ih _

/-- Every fault of a plan is one that a run answers, or has no answer. -/
theorem plan_faults (d : Decl) : (u.plan d).FaultsIn Fault.IsTreated := by
  refine (planFrom_faults d {} u.places).mono ?_
  rintro f (hf | rfl | rfl)
  · exact hf.isTreated
  · exact .inl rfl
  · exact .inl rfl

/-- A plan without a fault either knows of a declarator beforehand or removes a star. -/
theorem planFrom_removes_star {d : Decl} {known : Known} {places : List Nat}
    (h : (u.planFrom d known places).fault = none) :
    known.declared = true ∨
      ∃ star, Step.change (.remove (some star)) ∈ (u.planFrom d known places).items := by
  induction places generalizing known with
  | nil =>
    refine .inl ?_
    change (u.planEnd d known).fault = none at h
    rw [planEnd] at h
    split at h
    · cases h
    · rename_i hdeclared
      simpa using hdeclared
  | cons i rest ih =>
    rw [planFrom_cons] at h ⊢
    split at h
    · -- a declarator: its star is the first item of the plan
      refine .inr ?_
      obtain ⟨hdeclarator, -⟩ := (Trail.fault_append_eq_none _ _).1 h
      rw [Trail.append_of_fault_none hdeclarator]
      unfold rewriteDeclarator at hdeclarator ⊢
      split
      · rename_i hstars
        simp [hstars] at hdeclarator
      · rename_i star _ _
        refine ⟨star, List.mem_append_left _ ?_⟩
        rw [Trail.append_of_fault_none (Trail.fault_one _)]
        exact List.mem_cons_self
    · obtain ⟨huse, hrest⟩ := (Trail.fault_append_eq_none _ _).1 h
      refine (ih hrest).imp_right ?_
      rintro ⟨star, hstar⟩
      refine ⟨star, ?_⟩
      rw [Trail.append_of_fault_none huse]
      exact List.mem_append_right _ hstar
    · exact ih h
    · exact ih h

/-- A plan without a fault removes a star. -/
theorem plan_removes_star {d : Decl} (h : (u.plan d).fault = none) :
    ∃ star, Step.change (.remove (some star)) ∈ (u.plan d).items :=
  (planFrom_removes_star h).resolve_left (by simp)

end Program

end Indirection
