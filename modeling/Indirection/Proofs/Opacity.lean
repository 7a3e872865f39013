import Indirection.Pass.Run
import Indirection.Proofs.Enumerating
import Indirection.Proofs.Frame
import Indirection.Proofs.Renaming

/-!
# A run under other identifiers

Identifiers of variables are only compared with each other and with zero, so that a run does the
same on a program whose variables have other ones. Main definitions:

* `Trail.map`, `Finding.rename` — what the tokens tell, about variables with other identifiers;
* `Table.rename`, `Result.rename` — a classification and the result of a run, with other keys.

Main statements: `findings_rename` and `Table.enter_rename` — the tokens tell the same, and it is
entered alike; `collect_rename` — a classification has the new keys in place of the old ones;
`reduce_rename` — so has the result of a run, which is otherwise the same; `identifiers_opaque` —
both together, with the edits that are recorded for a declaration.
-/

namespace Indirection

variable (f : Renaming)

/-! ### Trails -/

namespace Trail

variable {α β γ : Type}

/-- Every item of a trail replaced by another one. -/
def map (g : α → β) (p : Trail α) : Trail β := { items := p.items.map g, fault := p.fault }

/-- The images of two trails follow each other. -/
theorem map_append (g : α → β) (p q : Trail α) : (p ++ q).map g = p.map g ++ q.map g := by
  cases hp : p.fault with
  | none =>
    have hmap : (p.map g).fault = none := hp
    rw [append_of_fault_none hp, append_of_fault_none hmap]
    simp [map]
  | some e =>
    have hmap : (p.map g).fault = some e := hp
    rw [append_of_fault_some hp, append_of_fault_some hmap]

/-- The image of a concatenation is that of images. -/
theorem map_concat (g : α → β) (h : γ → Trail α) (xs : List γ) :
    (concat h xs).map g = concat (fun c => (h c).map g) xs := by
  induction xs with
  | nil => rfl
  | cons c rest ih => rw [concat_cons, concat_cons, map_append, ih]

end Trail

/-! ### Findings -/

/-- A finding about variables with other identifiers. -/
def Finding.rename : Finding → Finding
  | declaration d => declaration (d.rename f)
  | addressTaken spelling key => addressTaken spelling (f key)
  | addressIgnored spelling => addressIgnored spelling
  | disqualification key target value => disqualification (f key) target value

namespace Program

variable (u : Program)

/-- An expression has the same base. -/
@[simp] theorem base_rename (t : Ref) : (u.rename f).base t = u.base t := by
  have within (steps : Nat) (t : Ref) :
      (u.rename f).baseWithin steps t = u.baseWithin steps t := by
    induction steps generalizing t with
    | zero => exact skipCasts_rename f u t
    | succ steps ih =>
      simp only [baseWithin, skipCasts_rename, isSubscript_rename, operand1_rename, ih]
  rw [base, size_rename, within, base]

/-- The declaration behind a left side has the new key, and a refusal stays. -/
@[simp] theorem resolve_rename (expr : Ref) :
    (u.rename f).resolve expr = (u.resolve expr).map f := by
  have within (steps : Nat) (expr : Ref) :
      (u.rename f).resolveWithin steps expr = (u.resolveWithin steps expr).map f := by
    induction steps generalizing expr with
    | zero => rfl
    | succ steps ih =>
      simp only [resolveWithin, base_rename, text_rename, position_rename, isMemberAccess_rename,
        operand2_rename, declKey_rename, Renaming.eq_zero_iff, isName_rename,
        isDereference_rename, operand1_rename, ih]
      split
      · split <;> rfl
      · split
        · split <;> rfl
        · split <;> rfl
  rw [resolve, size_rename, within, resolve]

/-- The same declarators are reported, with the new key. -/
@[simp] theorem declaration?_rename (scoping : Scoping) (t : Ref) :
    (u.rename f).declaration? scoping t = (u.declaration? scoping t).map (Decl.rename f) := by
  have reported : (u.rename f).isReported scoping t = u.isReported scoping t := by
    simp only [isReported, var_rename, variableAt?_rename, scopeOf_rename, isRecordScope_rename,
      text_rename]
  have decl : (u.rename f).declarationAt t = (u.declarationAt t).rename f := by
    simp only [declarationAt, Decl.rename, var_rename, scopeOf_rename, isRecordScope_rename,
      declKey_rename, text_rename, stars_rename, position_rename, scope?_rename, arrayRank_rename]
  simp only [declaration?, isDeclaratorName_rename, reported, stars_rename, decl]
  split <;> rfl

/-- The same address is taken. -/
@[simp] theorem addressOperand?_rename (t : Ref) :
    (u.rename f).addressOperand? t = u.addressOperand? t := by
  simp only [addressOperand?, operand1_rename, skipCasts_rename, isMemberAccess_rename,
    operand2_rename, isName_rename]

/-- The same operators bar a declaration. -/
@[simp] theorem disqualifies_rename (t : Ref) :
    (u.rename f).disqualifies t = u.disqualifies t := by
  simp only [disqualifies, isPlainValue, operand1_rename, pointerLevel_rename,
    isInitializer_rename, operand2_rename, skipCasts_rename, isDeclarationReference_rename,
    isUnaryExpression_rename, isSubscript_rename]

/-- An operator tells the same, of the new keys. -/
@[simp] theorem operatorFindings_rename (t : Ref) :
    (u.rename f).operatorFindings t = (u.operatorFindings t).map (Finding.rename f) := by
  simp only [operatorFindings, isAddressOf_rename, addressOperand?_rename, declKey_rename,
    Renaming.eq_zero_iff, text_rename, isAssignment_rename, disqualifies_rename, operand1_rename,
    operand2_rename, skipCasts_rename, resolve_rename]
  split
  · split
    · rfl
    · split <;> rfl
  · split
    · cases u.resolve (u.operand1 t) <;> rfl
    · rfl

/-- The tokens tell the same under other identifiers. -/
theorem findings_rename (scoping : Scoping) :
    (u.rename f).findings scoping = (u.findings scoping).map (Finding.rename f) := by
  have here (i : Nat) :
      (u.rename f).findingsAt scoping i = (u.findingsAt scoping i).map (Finding.rename f) := by
    simp only [findingsAt, declaration?_rename, operatorFindings_rename, Trail.map_append]
    cases u.declaration? scoping (some i) <;> rfl
  rw [findings, findings, Trail.map_concat, places_rename]
  exact congrArg (Trail.concat · u.places) (funext here)

end Program

/-! ### Tables -/

/-- A key added to keys, under other identifiers. -/
theorem addKey_rename (keys : List Int) (key : Int) :
    addKey (keys.map f) (f key) = (addKey keys key).map f := by
  simp only [addKey, List.contains_eq_mem, List.mem_map_of_injective f.injective]
  split <;> simp

namespace Table

variable (t : Table)

/-- The classification of declarations with other identifiers. -/
def rename : Table :=
  { t with
    decls := t.decls.map (Decl.rename f)
    disqualified := t.disqualified.map f
    taken := t.taken.map f }

/-- A key is known as the old one was. -/
@[simp] theorem knows_rename (key : Int) : (t.rename f).knows (f key) = t.knows key := by
  simp only [knows, rename, List.any_map]
  exact congrArg (List.any t.decls) (funext fun d => by simp [Decl.rename])

/-- Its address is taken as that of the old one was. -/
@[simp] theorem isTaken_rename (key : Int) : (t.rename f).isTaken (f key) = t.isTaken key := by
  simp only [isTaken, rename, List.contains_eq_mem, List.mem_map_of_injective f.injective]

/-- It is valid as the old one was. -/
@[simp] theorem isValid_rename (key : Int) : (t.rename f).isValid (f key) = t.isValid key := by
  rw [isValid, knows_rename, isValid]
  simp only [rename, List.contains_eq_mem, List.mem_map_of_injective f.injective]

/-- The keys of the declarations are the new ones. -/
theorem map_key_rename :
    (t.rename f).decls.map Decl.key = (t.decls.map Decl.key).map f := by
  simp [rename, Decl.rename]

/-- The keys that are valid are the same up to the renaming, and in the same order. -/
theorem valid_rename : (t.rename f).valid = t.valid.map f := by
  rw [valid, map_key_rename, List.filter_map, valid]
  refine congrArg (List.map f) (List.filter_congr fun key _ => ?_)
  simp only [Function.comp_apply, rename, List.contains_eq_mem,
    List.mem_map_of_injective f.injective]

/-- The deepest level is the same. -/
@[simp] theorem maxLevel_rename : (t.rename f).maxLevel = t.maxLevel := by
  simp only [maxLevel, rename, List.foldl_map, Decl.rename]

/-- Each level has the same declarations. -/
@[simp] theorem bucket_rename (level : Int) :
    (t.rename f).bucket level = (t.bucket level).map (Decl.rename f) := by
  simp only [bucket, rename, List.filter_map]
  rfl

/-- The candidates are the same declarations in the same order. -/
theorem candidates_rename : (t.rename f).candidates = t.candidates.map (Decl.rename f) := by
  have hvalid : (fun d : Decl => (t.rename f).isValid d.key) ∘ Decl.rename f =
      fun d => t.isValid d.key :=
    funext fun d => isValid_rename f t d.key
  have heligible : (fun d : Decl => (t.rename f).isValid d.key && !(t.rename f).isTaken d.key) ∘
      Decl.rename f = fun d => t.isValid d.key && !t.isTaken d.key :=
    funext fun d => by
      rw [← isValid_rename f t, ← isTaken_rename f t]
      rfl
  simp only [candidates, lowerLevels, maxLevel_rename, bucket_rename, List.filter_map, hvalid,
    heligible, List.map_append, List.map_flatMap]

/-- A finding is entered as the old one was: keys are only compared. -/
theorem enter_rename (finding : Finding) :
    (t.rename f).enter (finding.rename f) = (t.enter finding).rename f := by
  cases finding with
  | declaration d =>
    have hknows : (t.rename f).knows (d.rename f).key = t.knows d.key := knows_rename f t d.key
    simp only [enter, Finding.rename, Finding.fact?, record, declare, hknows]
    split <;> simp [rename]
  | addressTaken spelling key =>
    simp only [enter, Finding.rename, Finding.fact?, record, rename, addKey_rename]
  | addressIgnored spelling => rfl
  | disqualification key target value =>
    simp only [enter, Finding.rename, Finding.fact?, record, rename, addKey_rename]

/-- So are all findings, one after the other. -/
theorem foldl_enter_rename (findings : List Finding) :
    (findings.map (Finding.rename f)).foldl enter (t.rename f) =
      (findings.foldl enter t).rename f := by
  induction findings generalizing t with
  | nil => rfl
  | cons finding rest ih => rw [List.map_cons, List.foldl_cons, List.foldl_cons, enter_rename, ih]

end Table

namespace Program

variable (u : Program)

/-- Both programs are classified alike, also where that fails. -/
theorem collect_rename (scoping : Scoping) :
    ((u.rename f).collect scoping).fault = (u.collect scoping).fault ∧
      ((u.rename f).collect scoping).table = (u.collect scoping).table.rename f := by
  -- the empty table has no keys to change
  have htable : ((u.rename f).findings scoping).items.foldl Table.enter {} =
      ((u.findings scoping).items.foldl Table.enter {}).rename f := by
    rw [findings_rename]
    exact Table.foldl_enter_rename f {} _
  have hfault : ((u.rename f).findings scoping).fault = (u.findings scoping).fault := by
    rw [findings_rename]
    rfl
  simp only [collect, hfault, htable]
  cases (u.findings scoping).fault with
  | none => exact ⟨rfl, rfl⟩
  | some g => exact ⟨rfl, rfl⟩

end Program

/-! ### Runs -/

/-- The result of a run for a program with other identifiers. -/
def Result.rename (r : Result) : Result :=
  { r with
    target := r.target.map (Decl.rename f)
    candidates := r.candidates.map (Decl.rename f)
    table := r.table.map (Table.rename f) }

/-- A fault ends a run alike, whatever was told before. -/
theorem Run.ofFault_rename (events events' : List Event) (r : Result) (g : Fault) :
    (Run.ofFault events (r.rename f) g).outcome =
      (Run.ofFault events' r g).outcome.map (Result.rename f) := by
  cases g with
  | refused d =>
    simp only [Run.ofFault]
    split <;> rfl
  | _ => rfl

namespace Program

variable (u : Program) (sources : Sources)

/-- The reduction of a renamed declaration has the same outcome, whatever was told before. -/
theorem reduceTarget_rename (events events' : List Event) (r : Result) (d : Decl) :
    ((u.rename f).reduceTarget sources events (r.rename f) (d.rename f)).outcome =
      (u.reduceTarget sources events' r d).outcome.map (Result.rename f) := by
  simp only [reduceTarget, performPlan_rename]
  cases (u.performPlan sources d).fault with
  | some g => exact Run.ofFault_rename f _ _ { r with target := some d } g
  | none =>
    dsimp only
    cases (u.performPlan sources d).script.apply sources with
    | ok texts => rfl
    | error g => exact Run.ofFault_rename f _ _ { r with target := some d } g

/-- The candidate of a number is the same one. -/
theorem reduceChosen_rename (events events' : List Event) (r : Result) (t : Table) :
    ((u.rename f).reduceChosen sources events (r.rename f) (t.rename f)).outcome =
      (u.reduceChosen sources events' r t).outcome.map (Result.rename f) := by
  have hcounter : (r.rename f).counter = r.counter := rfl
  simp only [reduceChosen, hcounter]
  cases r.counter with
  | none => exact Run.ofFault_rename f _ _ r _
  | some counter =>
    by_cases hlow : counter < 1
    · simp only [Table.select_eq_error _ hlow]
      exact Run.ofFault_rename f _ _ r _
    · have hpos : 1 ≤ counter := by omega
      simp only [Table.select_eq_ok hpos, Table.candidates_rename, List.length_map,
        List.getElem?_map]
      cases t.candidates[(counter - 1).toNat]? with
      | none => rfl
      | some d => exact reduceTarget_rename f u sources _ _ r d

/-- A run has the same result up to the keys, or ends in the same fault. -/
theorem reduce_rename (scoping : Scoping) (counter : Option Int) (queryOnly : Bool) :
    ((u.rename f).reduce scoping sources counter queryOnly).outcome =
      (u.reduce scoping sources counter queryOnly).outcome.map (Result.rename f) := by
  obtain ⟨hfault, htable⟩ := collect_rename f u scoping
  simp only [reduce, hfault, htable, Table.candidates_rename, List.length_map]
  cases (u.collect scoping).fault with
  | some g => exact Run.ofFault_rename f _ _ { counter, queryOnly } g
  | none =>
    cases queryOnly with
    | true => rfl
    | false =>
      exact reduceChosen_rename f u sources _ _
        { counter, table := some (u.collect scoping).table,
          candidates := (u.collect scoping).table.candidates,
          instances := (u.collect scoping).table.candidates.length } _

/-- **Identifiers are opaque.** Other identifiers, told apart as before and with zero for none,

    * change the classification of a program by taking the place of the old ones: in the keys of
      the declarations, in the keys that are valid, disqualified and whose address is taken, and in
      the candidates, all in the same order;
    * change nothing in what is recorded for a declaration: the edits, the refusal that ends them,
      and what is told;
    * change nothing in the result of a run but the keys in it: neither the status, the number of
      instances, the new texts nor the diagnostic; and a run that ends in a fault ends in the same
      one. -/
theorem identifiers_opaque (scoping : Scoping) :
    let c := u.collect scoping
    let c' := (u.rename f).collect scoping
    (c'.fault = c.fault ∧ c'.table.frozen = c.table.frozen ∧
      c'.table.decls = c.table.decls.map (Decl.rename f) ∧
      c'.table.decls.map Decl.key = (c.table.decls.map Decl.key).map f ∧
      c'.table.valid = c.table.valid.map f ∧
      c'.table.disqualified = c.table.disqualified.map f ∧
      c'.table.taken = c.table.taken.map f ∧
      c'.table.candidates = c.table.candidates.map (Decl.rename f)) ∧
    (∀ d, (u.rename f).performPlan sources (d.rename f) = u.performPlan sources d) ∧
    ∀ counter queryOnly,
      ((u.rename f).reduce scoping sources counter queryOnly).outcome =
        (u.reduce scoping sources counter queryOnly).outcome.map (Result.rename f) := by
  intro c c'
  obtain ⟨hfault, htable⟩ : c'.fault = c.fault ∧ c'.table = c.table.rename f :=
    collect_rename f u scoping
  refine ⟨⟨hfault, ?_⟩, performPlan_rename f u sources, reduce_rename f u sources scoping⟩
  rw [htable]
  have hkeys : (c.table.rename f).decls.map Decl.key = (c.table.decls.map Decl.key).map f :=
    Table.map_key_rename f c.table
  exact ⟨rfl, rfl, hkeys, Table.valid_rename f c.table, rfl, rfl, Table.candidates_rename f c.table⟩

/-- With the identifiers negated, `p` has the key -1 and loses its star alike. -/
theorem identifiers_opaque_pointerUses :
    let sources : Sources := fun _ => .ok "int *p = q; *p; g(p);"
    let u := pointerUses.rename .negated
    (u.collect {}).table.valid = [-1] ∧
      ∃ r, (u.reduce {} sources (some 1) false).outcome = .ok r ∧
        r.rewritten = [("a.c", "int p = *q; p; g(&p);")] := by
  intro sources u
  obtain ⟨⟨-, -, -, -, hvalid, -⟩, -, hrun⟩ := identifiers_opaque .negated pointerUses sources {}
  refine ⟨?_, ?_⟩
  · rw [hvalid]
    decide +kernel
  · have hrewritten : (pointerUses.reduce {} sources (some 1) false).outcome.toOption.map
        Result.rewritten = some [("a.c", "int p = *q; p; g(&p);")] := by decide +kernel
    rw [hrun]
    cases hr : (pointerUses.reduce {} sources (some 1) false).outcome with
    | error g =>
      rw [hr] at hrewritten
      cases hrewritten
    | ok r =>
      rw [hr] at hrewritten
      exact ⟨r.rename .negated, rfl, Option.some.inj hrewritten⟩

end Program

end Indirection
