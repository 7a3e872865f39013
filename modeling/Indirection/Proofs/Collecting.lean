import Indirection.Collect
import Indirection.Proofs.Acyclic
import Indirection.Proofs.Classifying
import Indirection.Proofs.Refusal
import Mathlib.Data.Nat.Find

/-!
# What a collection collects

A collection walks the tokens once and enters what each of them tells. Main definitions, none of
which speaks of a walk:

* `Program.Declares`, `Program.DeclaresFirst` — a token is a declarator that is reported; no earlier
  one has its key;
* `Program.TakesAddressOf` — a token takes the address of the declaration of a key;
* `Program.Bars` — a token assigns to a pointer what may disqualify its declaration;
* `Program.IsUnresolved` — such a token whose left side is rooted at no declaration;
* `Program.Tabulates` — tables hold exactly what the first tokens of a program tell;
* `Program.Classifies` — final tables hold what all tokens tell, and show it in their views.

Main statements: `operatorFindings_tells` — what the walk finds at an operator, in these terms;
`Tabulates.step` — what one token adds to the tables; `collect_tabulates` — a collection fails at
the first unresolved token, and its tables hold what the tokens up to there tell, or what all tokens
do.
-/

namespace Indirection

/-! ### Tables while findings are entered -/

namespace Table

/-- Entering findings does not make tables final. -/
theorem frozen_foldl_enter (fs : List Finding) (t : Table) :
    (fs.foldl enter t).frozen = t.frozen := by
  induction fs generalizing t with
  | nil => rfl
  | cons f rest ih =>
    rw [List.foldl_cons, ih, enter]
    split
    · exact frozen_record t _
    · rfl

end Table

namespace Program

variable {u : Program} {scoping : Scoping} {t : Table} {i n : Nat} {key : Int} {f : Fault}

/-! ### What the tokens tell -/

/-- Whether the token at `i` is a declarator with stars, of a variable or member that is reported:
    no argument, no excluded name, and no member or local variable where these are left out. -/
structure Declares (u : Program) (scoping : Scoping) (i : Nat) : Prop where
  declarator : u.isDeclaratorName (some i) = true
  argument : (u.variableAt? (u.var (some i))).any Variable.isArgument = false
  excluded : u.text (some i) ∉ scoping.excluded
  field : u.isRecordScope (u.scopeOf (u.var (some i))) = true → scoping.includeFields = true
  locals : u.isRecordScope (u.scopeOf (u.var (some i))) = false →
    (u.variableAt? (u.var (some i))).any Variable.isLocal = true → scoping.includeLocals = true
  starred : u.stars (some i) ≠ []

/-- Whether the token at `i` is the first declarator of its key that is reported. -/
def DeclaresFirst (u : Program) (scoping : Scoping) (i : Nat) : Prop :=
  u.Declares scoping i ∧
    ∀ j < i, u.Declares scoping j → u.declKey (some j) ≠ u.declKey (some i)

/-- Whether the token at `i` takes the address of the declaration `key`: its operand under casts is
    a member access or a name, and that member or name is known. -/
def TakesAddressOf (u : Program) (i : Nat) (key : Int) : Prop :=
  u.isAddressOf (some i) = true ∧ key ≠ 0 ∧
    ∃ operand, u.skipCasts (u.operand1 (some i)) = operand ∧
      ((u.isMemberAccess operand = true ∧ u.declKey (u.operand2 operand) = key) ∨
        (u.isMemberAccess operand = false ∧ u.isName operand = true ∧ u.declKey operand = key))

/-- Whether the token at `i` assigns to a pointer, other than as an initializer, a value that under
    casts is no reference to a declaration, no unary expression and no element of an array. -/
structure Bars (u : Program) (i : Nat) : Prop where
  assignment : u.isAssignment (some i) = true
  pointer : u.pointerLevel (u.operand1 (some i)) ≠ 0
  initializer : u.isInitializer (some i) = false
  reference : u.isDeclarationReference (u.skipCasts (u.operand2 (some i))) = false
  unary : u.isUnaryExpression (u.skipCasts (u.operand2 (some i))) = false
  element : u.isSubscript (u.skipCasts (u.operand2 (some i))) = false

/-- Whether the token at `i` disqualifies the declaration `key`. -/
def Disqualifies (u : Program) (i : Nat) (key : Int) : Prop :=
  u.Bars i ∧ u.resolve (u.operand1 (some i)) = .ok key

/-- Whether the token at `i` would disqualify a declaration, but its left side has none. -/
def IsUnresolved (u : Program) (i : Nat) : Prop :=
  u.Bars i ∧ ∃ f, u.resolve (u.operand1 (some i)) = .error f

/-- What tables hold that the first `n` tokens of a program fill. -/
structure Tabulates (u : Program) (scoping : Scoping) (n : Nat) (t : Table) : Prop where
  /-- the declarations are those of the first reported declarator of each key, in token order -/
  decls : ∃ firsts : List Nat, firsts.Pairwise (· < ·) ∧
    (∀ i, i ∈ firsts ↔ i < n ∧ u.DeclaresFirst scoping i) ∧
    t.decls = firsts.map fun i => u.declarationAt (some i)
  taken : ∀ key, key ∈ t.taken ↔ ∃ i < n, u.TakesAddressOf i key
  disqualified : ∀ key, key ∈ t.disqualified ↔ ∃ i < n, u.Disqualifies i key

/-- The tests of a declarator, one by one. -/
theorem declares_iff : u.Declares scoping i ↔
    u.isDeclaratorName (some i) = true ∧ u.isReported scoping (some i) = true ∧
      (u.stars (some i)).isEmpty = false := by
  simp only [isReported, Bool.and_eq_true, Bool.or_eq_true, Bool.not_eq_true',
    List.isEmpty_eq_false_iff, List.contains_eq_mem, decide_eq_false_iff_not]
  constructor
  · intro h
    refine ⟨h.declarator, ⟨⟨⟨h.argument, h.excluded⟩, ?_⟩, ?_⟩, h.starred⟩
    · cases hrecord : u.isRecordScope (u.scopeOf (u.var (some i))) with
      | false => exact .inr rfl
      | true => exact .inl (h.field hrecord)
    · cases hrecord : u.isRecordScope (u.scopeOf (u.var (some i))) with
      | true => exact .inl (.inr rfl)
      | false =>
        cases hlocal : (u.variableAt? (u.var (some i))).any Variable.isLocal with
        | false => exact .inr rfl
        | true => exact .inl (.inl (h.locals hrecord hlocal))
  · rintro ⟨hname, ⟨⟨⟨hargument, hexcluded⟩, hfield⟩, hlocals⟩, hstars⟩
    refine ⟨hname, hargument, hexcluded, ?_, ?_, hstars⟩
    · intro hrecord
      exact hfield.resolve_right (by simp [hrecord])
    · intro hrecord hlocal
      simpa [hrecord, hlocal] using hlocals

/-- A place gives a declaration when it declares, and then the one that is read there. -/
theorem declaration?_eq_some {d : Decl} :
    u.declaration? scoping (some i) = some d ↔
      u.Declares scoping i ∧ u.declarationAt (some i) = d := by
  rw [declares_iff, declaration?]
  split
  · rename_i h
    simp only [Bool.and_eq_true, Bool.not_eq_true'] at h
    simp [h]
  · rename_i h
    simp only [Bool.and_eq_true, Bool.not_eq_true'] at h
    refine iff_of_false (by simp) ?_
    rintro ⟨⟨hname, hreported, hstars⟩, -⟩
    exact h ⟨⟨hname, hreported⟩, hstars⟩

/-- A place that does not declare gives no declaration. -/
theorem declaration?_eq_none :
    u.declaration? scoping (some i) = none ↔ ¬ u.Declares scoping i := by
  constructor
  · intro h hd
    rw [declaration?_eq_some.2 ⟨hd, rfl⟩] at h
    cases h
  · intro h
    refine Option.eq_none_iff_forall_not_mem.2 fun d hd => ?_
    exact h (declaration?_eq_some.1 hd).1

/-- An assignment has two operands, and an address is taken of a single one. -/
theorem Bars.isAddressOf_eq_false (h : u.Bars i) : u.isAddressOf (some i) = false := by
  have hbinary := h.assignment
  simp only [isAssignment, isBinaryOp, Bool.and_eq_true] at hbinary
  obtain ⟨-, -, hsecond⟩ := hbinary
  cases hop : u.operand2 (some i) with
  | none => simp [hop] at hsecond
  | some j => simp [isAddressOf, isUnaryOp, hop]

/-- An assignment that disqualifies takes no address. -/
theorem Bars.not_takesAddressOf (h : u.Bars i) (key : Int) : ¬ u.TakesAddressOf i key := by
  rintro ⟨haddress, -⟩
  rw [h.isAddressOf_eq_false] at haddress
  cases haddress

/-- A place bars its target when it is an assignment that disqualifies. -/
theorem bars_iff : u.Bars i ↔
    u.isAssignment (some i) = true ∧ u.disqualifies (some i) = true := by
  simp only [disqualifies, isPlainValue, Bool.and_eq_true, decide_eq_true_eq, Bool.not_eq_true',
    Bool.or_eq_false_iff]
  constructor
  · intro h
    exact ⟨h.assignment, ⟨h.pointer, h.initializer⟩, ⟨h.reference, h.unary⟩, h.element⟩
  · rintro ⟨hassignment, ⟨hpointer, hinitializer⟩, ⟨href, hunary⟩, helement⟩
    exact ⟨hassignment, hpointer, hinitializer, href, hunary, helement⟩

/-- A token that bars is a token of the program. -/
theorem Bars.lt_size (h : u.Bars i) : i < u.size := by
  by_contra hout
  have := h.assignment
  simp [isAssignment, isBinaryOp, operand1, token?_eq_none (Nat.le_of_not_lt hout)] at this

/-! ### What one token adds -/

/-- What the operator at `i` can tell, with what is known of it in each case. -/
inductive Tells (u : Program) (i : Nat) : Trail Finding → Prop
  | nothing (hbars : ¬ u.Bars i) (haddress : ∀ key, ¬ u.TakesAddressOf i key) : Tells u i .nil
  | ignored (spelling : String) (hbars : ¬ u.Bars i)
    (haddress : ∀ key, ¬ u.TakesAddressOf i key) : Tells u i (.one (.addressIgnored spelling))
  | address (spelling : String) (key : Int) (hbars : ¬ u.Bars i)
    (haddress : ∀ k, u.TakesAddressOf i k ↔ k = key) :
    Tells u i (.one (.addressTaken spelling key))
  | barring (key : Int) (target value : String) (hkey : u.Disqualifies i key) :
    Tells u i (.one (.disqualification key target value))
  | unresolved (f : Fault) (hbars : u.Bars i)
    (hresolve : u.resolve (u.operand1 (some i)) = .error f) : Tells u i (.fail f)

/-- The operand of an address, as the collection finds it. -/
theorem takesAddressOf_iff : u.TakesAddressOf i key ↔
    u.isAddressOf (some i) = true ∧ key ≠ 0 ∧
      ∃ name, u.addressOperand? (some i) = some name ∧ u.declKey (some name) = key := by
  refine and_congr_right fun _ => and_congr_right fun hkey => ?_
  simp only [addressOperand?, exists_eq_left']
  -- a missing operand has the key zero, which is no key of a declaration
  have key_iff (r : Ref) :
      (∃ name, r = some name ∧ u.declKey (some name) = key) ↔ u.declKey r = key := by
    cases r with
    | none => simp [Ne.symm hkey]
    | some name => simp
  split
  · rename_i hmember
    rw [key_iff]
    simp [hmember]
  · rename_i hmember
    split
    · rename_i hname
      rw [key_iff]
      simp [hmember, hname]
    · rename_i hname
      simp [hmember, hname]

/-- At an address-of, the operator tells what the place takes the address of. -/
theorem tells_of_isAddressOf (h : u.isAddressOf (some i) = true) :
    u.Tells i (u.operatorFindings (some i)) := by
  have hbars : ¬ u.Bars i := by
    intro hb
    simp [hb.isAddressOf_eq_false] at h
  unfold operatorFindings
  rw [if_pos h]
  cases hname : u.addressOperand? (some i) with
  | none =>
    refine .nothing hbars fun key hkey => ?_
    obtain ⟨-, -, name, hsome, -⟩ := takesAddressOf_iff.1 hkey
    simp [hname] at hsome
  | some name =>
    dsimp only
    split
    · -- a key of zero is that of no declaration
      rename_i hzero
      refine .ignored _ hbars fun key hkey => ?_
      obtain ⟨-, hne, name', hsome, rfl⟩ := takesAddressOf_iff.1 hkey
      obtain rfl := Option.some.inj (hname.symm.trans hsome)
      exact hne hzero
    · rename_i hne
      refine .address _ _ hbars fun key => ?_
      rw [takesAddressOf_iff, hname]
      constructor
      · rintro ⟨-, -, name', hsome, rfl⟩
        rw [Option.some.inj hsome]
      · rintro rfl
        exact ⟨h, hne, name, rfl, rfl⟩

/-- Anywhere else, the operator tells what the place disqualifies. -/
theorem tells_of_not_isAddressOf (h : u.isAddressOf (some i) = false) :
    u.Tells i (u.operatorFindings (some i)) := by
  have haddress (key : Int) : ¬ u.TakesAddressOf i key := by
    rintro ⟨htrue, -⟩
    simp [h] at htrue
  unfold operatorFindings
  rw [if_neg (by simp [h])]
  split
  · rename_i hcond
    have hbars : u.Bars i := bars_iff.2 (by simpa using hcond)
    dsimp only
    cases hresolve : u.resolve (u.operand1 (some i)) with
    | ok key => exact .barring key _ _ ⟨hbars, hresolve⟩
    | error f => exact .unresolved f hbars hresolve
  · rename_i hcond
    refine .nothing (fun hbars => hcond ?_) haddress
    simpa using bars_iff.1 hbars

/-- An operator that takes an address assigns nothing, and the other way round. -/
theorem operatorFindings_tells (u : Program) (i : Nat) :
    u.Tells i (u.operatorFindings (some i)) := by
  cases h : u.isAddressOf (some i) with
  | true => exact tells_of_isAddressOf h
  | false => exact tells_of_not_isAddressOf h

/-- Only an assignment that bars has a fault, that of its left side. -/
theorem Tells.fault_eq_some {p : Trail Finding} (h : u.Tells i p) :
    p.fault = some f ↔ u.Bars i ∧ u.resolve (u.operand1 (some i)) = .error f := by
  cases h with
  | nothing hbars | ignored _ hbars | address _ _ hbars => simp [hbars]
  | barring key _ _ hkey => simp [hkey.2]
  | unresolved g hbars hresolve => simp [hbars, hresolve]

/-- What an operator tells adds no declaration. -/
theorem Tells.decls {p : Trail Finding} (h : u.Tells i p) (t : Table) :
    (p.items.foldl Table.enter t).decls = t.decls := by
  cases h <;> rfl

/-- What an operator tells marks as taken what the place takes the address of, and nothing else. -/
theorem Tells.mem_taken {p : Trail Finding} (h : u.Tells i p) (t : Table) (key : Int) :
    key ∈ (p.items.foldl Table.enter t).taken ↔ key ∈ t.taken ∨ u.TakesAddressOf i key := by
  cases h with
  | nothing _ haddress | ignored _ _ haddress =>
    exact (or_iff_left (haddress key)).symm
  | address _ taken _ haddress =>
    rw [haddress]
    exact mem_addKey
  | barring _ _ _ hkey => exact (or_iff_left (hkey.1.not_takesAddressOf key)).symm
  | unresolved _ hbars _ => exact (or_iff_left (hbars.not_takesAddressOf key)).symm

/-- What an operator tells marks as disqualified what the place disqualifies, and nothing else. -/
theorem Tells.mem_disqualified {p : Trail Finding} (h : u.Tells i p) (t : Table) (key : Int) :
    key ∈ (p.items.foldl Table.enter t).disqualified ↔
      key ∈ t.disqualified ∨ u.Disqualifies i key := by
  cases h with
  | nothing hbars | ignored _ hbars | address _ _ hbars =>
    exact (or_iff_left fun hkey => hbars hkey.1).symm
  | barring barred _ _ hkey =>
    have hiff : u.Disqualifies i key ↔ key = barred := by
      simp [Disqualifies, hkey.1, hkey.2, eq_comm]
    rw [hiff]
    exact mem_addKey
  | unresolved _ _ hresolve =>
    refine (or_iff_left fun hkey => ?_).symm
    have := hresolve.symm.trans hkey.2
    cases this

/-- Whether the tables know a declaration, in terms of the declarators. -/
theorem Tabulates.knows_iff (h : u.Tabulates scoping n t) (key : Int) :
    t.knows key = true ↔ ∃ i < n, u.Declares scoping i ∧ u.declKey (some i) = key := by
  obtain ⟨firsts, -, hmem, hdecls⟩ := h.decls
  simp only [Table.knows, hdecls, List.any_map, List.any_eq_true, Function.comp,
    decide_eq_true_eq]
  constructor
  · rintro ⟨i, hi, rfl⟩
    obtain ⟨hlt, hfirst⟩ := (hmem i).1 hi
    exact ⟨i, hlt, hfirst.1, rfl⟩
  · intro hex
    classical
    -- the least of these declarators is the first of its key
    obtain ⟨hlt, hdeclares, hkey⟩ := Nat.find_spec hex
    refine ⟨Nat.find hex, (hmem _).2 ⟨hlt, hdeclares, ?_⟩, hkey⟩
    intro j hj hdeclares' heq
    exact Nat.find_min hex hj ⟨by omega, hdeclares', heq.trans hkey⟩

/-- A token is the first declarator of its key exactly when it is a declarator that tables of all
    tokens in front of it do not know. -/
theorem Tabulates.declaresFirst_iff (h : u.Tabulates scoping n t) : u.DeclaresFirst scoping n ↔
    u.Declares scoping n ∧ t.knows (u.declKey (some n)) = false := by
  rw [← Bool.not_eq_true, h.knows_iff]
  refine and_congr_right fun _ => ?_
  push Not
  rfl

/-- What the token at `i` tells as a name comes before what it tells as an operator. -/
theorem findingsAt_eq (u : Program) (scoping : Scoping) (i : Nat) :
    u.findingsAt scoping i =
      { items := (u.declaration? scoping (some i)).toList.map .declaration ++
          (u.operatorFindings (some i)).items
        fault := (u.operatorFindings (some i)).fault } := by
  unfold findingsAt
  cases u.declaration? scoping (some i) with
  | none => rfl
  | some d => rfl

/-- Only an assignment that bars has a fault, that of its left side. -/
theorem fault_findingsAt : (u.findingsAt scoping i).fault = some f ↔
    u.Bars i ∧ u.resolve (u.operand1 (some i)) = .error f := by
  rw [findingsAt_eq]
  exact (u.operatorFindings_tells i).fault_eq_some

/-- A name adds its declaration if it is the first declarator of its key, and nothing else. -/
theorem Tabulates.enter_declaration (h : u.Tabulates scoping n t) :
    ∃ (decls : List Decl) (firsts : List Nat),
      ((u.declaration? scoping (some n)).toList.map .declaration).foldl Table.enter t =
        { t with decls } ∧
      firsts.Pairwise (· < ·) ∧ (∀ i, i ∈ firsts ↔ i < n + 1 ∧ u.DeclaresFirst scoping i) ∧
      decls = firsts.map fun i => u.declarationAt (some i) := by
  obtain ⟨firsts, hsorted, hmem, hdecls⟩ := h.decls
  -- a token that is no first declarator leaves the tables alone
  have unchanged (hnot : ¬ u.DeclaresFirst scoping n) (i : Nat) :
      i ∈ firsts ↔ i < n + 1 ∧ u.DeclaresFirst scoping i := by
    rw [hmem]
    refine and_congr_left fun hfirst => ?_
    have : i ≠ n := fun heq => hnot (heq ▸ hfirst)
    omega
  cases hd : u.declaration? scoping (some n) with
  | none =>
    refine ⟨t.decls, firsts, rfl, hsorted, unchanged fun hfirst => ?_, hdecls⟩
    exact declaration?_eq_none.1 hd hfirst.1
  | some d =>
    obtain ⟨hdeclares, rfl⟩ := declaration?_eq_some.1 hd
    cases hknows : t.knows (u.declKey (some n)) with
    | true =>
      -- an earlier declarator has the key
      refine ⟨t.decls, firsts, if_pos hknows, hsorted, unchanged fun hfirst => ?_, hdecls⟩
      rw [(h.declaresFirst_iff.1 hfirst).2] at hknows
      cases hknows
    | false =>
      have hfirst : u.DeclaresFirst scoping n := h.declaresFirst_iff.2 ⟨hdeclares, hknows⟩
      refine ⟨_, firsts ++ [n], if_neg (Bool.not_eq_true _ ▸ hknows), ?_, ?_, ?_⟩
      · refine List.pairwise_append.2 ⟨hsorted, List.pairwise_singleton _ _, ?_⟩
        intro i hi j hj
        rw [List.mem_singleton.1 hj]
        exact ((hmem i).1 hi).1
      · intro i
        rw [List.mem_append, hmem, List.mem_singleton]
        constructor
        · rintro (⟨hi, hd⟩ | rfl)
          · exact ⟨by omega, hd⟩
          · exact ⟨by omega, hfirst⟩
        · rintro ⟨hi, hd⟩
          rcases Nat.lt_succ_iff_lt_or_eq.1 hi with hi | rfl
          · exact .inl ⟨hi, hd⟩
          · exact .inr rfl
      · rw [hdecls, List.map_append, List.map_singleton]

/-- **One token.** Tables of the first `n` tokens become tables of the first `n + 1` when what
    token `n` tells is entered, also when it ends in a fault. -/
theorem Tabulates.step (h : u.Tabulates scoping n t) :
    u.Tabulates scoping (n + 1) ((u.findingsAt scoping n).items.foldl Table.enter t) := by
  have htells := u.operatorFindings_tells n
  obtain ⟨decls, firsts, henter, hsorted, hmem, hdecls⟩ := h.enter_declaration
  rw [findingsAt_eq, List.foldl_append, henter]
  refine ⟨⟨firsts, hsorted, hmem, ?_⟩, ?_, ?_⟩
  · rw [htells.decls, hdecls]
  · intro key
    rw [htells.mem_taken, h.taken, Nat.exists_lt_succ_right]
  · intro key
    rw [htells.mem_disqualified, h.disqualified, Nat.exists_lt_succ_right]

/-! ### The whole walk -/

/-- The tables as the first `n` tokens fill them. -/
def tableOf (u : Program) (scoping : Scoping) (n : Nat) : Table :=
  ((List.range n).flatMap fun i => (u.findingsAt scoping i).items).foldl Table.enter {}

/-- One more token enters its findings into the table. -/
theorem tableOf_succ (u : Program) (scoping : Scoping) (n : Nat) :
    u.tableOf scoping (n + 1) =
      (u.findingsAt scoping n).items.foldl Table.enter (u.tableOf scoping n) := by
  rw [tableOf, List.range_succ, List.flatMap_append, List.foldl_append, List.flatMap_singleton]
  rfl

/-- The table of a front part of the tokens tabulates that part. -/
theorem tableOf_tabulates (u : Program) (scoping : Scoping) (n : Nat) :
    u.Tabulates scoping n (u.tableOf scoping n) := by
  induction n with
  | zero => exact ⟨⟨[], .nil, by simp, rfl⟩, by simp [tableOf], by simp [tableOf]⟩
  | succ n ih =>
    rw [tableOf_succ]
    exact ih.step

/-- A collection without a fault enters what all tokens tell. -/
theorem collect_of_faultless (h : ∀ i < u.size, (u.findingsAt scoping i).fault = none) :
    (u.collect scoping).fault = none ∧
      (u.collect scoping).table = (u.tableOf scoping u.size).freeze := by
  have hfindings : u.findings scoping =
      { items := (List.range u.size).flatMap fun i => (u.findingsAt scoping i).items } :=
    Trail.concat_of_faultless fun i hi => h i (List.mem_range.1 hi)
  simp only [collect, hfindings]
  exact ⟨trivial, rfl⟩

/-- A collection ends at the first fault, and enters what the tokens up to there tell. -/
theorem collect_of_first_fault (h : ∀ j < i, (u.findingsAt scoping j).fault = none)
    (hi : i < u.size) (hf : (u.findingsAt scoping i).fault = some f) :
    (u.collect scoping).fault = some f ∧
      (u.collect scoping).table = u.tableOf scoping (i + 1) := by
  obtain ⟨rest, hsplit⟩ : ∃ rest, List.range u.size = List.range i ++ i :: rest := by
    obtain ⟨k, hk⟩ := Nat.exists_eq_add_of_le hi
    refine ⟨(List.range k).map (i + 1 + ·), ?_⟩
    rw [hk, List.range_add, List.range_succ, List.append_assoc, List.singleton_append]
  have hfindings : u.findings scoping =
      { items := (List.range (i + 1)).flatMap fun i => (u.findingsAt scoping i).items
        fault := some f } := by
    rw [findings, places, hsplit, List.range_succ]
    exact Trail.concat_of_first_fault (fun j hj => h j (List.mem_range.1 hj)) hf
  simp only [collect, hfindings]
  exact ⟨trivial, rfl⟩

/-! ### Faults -/

/-- A collection fails with the fault of the walk through the tokens. -/
theorem fault_collect (u : Program) (scoping : Scoping) :
    (u.collect scoping).fault = (u.findings scoping).fault := by
  unfold collect
  cases h : (u.findings scoping).fault <;> simp only [h]

/-- A collection fails at a left side that leads to no declaration, or has no end. -/
theorem fault_collect_eq_some (h : (u.collect scoping).fault = some f) :
    f = .endlessChain ∨ ∃ spelling p, f = .of (.unresolvedTarget spelling) p := by
  have hfaults : (u.findings scoping).FaultsIn fun f =>
      f = .endlessChain ∨ ∃ spelling p, f = .of (.unresolvedTarget spelling) p :=
    .concat fun i _ g hg => (resolveWithin_faults (fault_findingsAt.1 hg).2).imp_left And.left
  rw [fault_collect] at h
  exact hfaults f h

/-- A collection fails with nothing but faults that are treated. -/
theorem collect_faults (h : (u.collect scoping).fault = some f) : f.IsTreated := by
  rcases fault_collect_eq_some h with rfl | ⟨spelling, p, rfl⟩
  · exact .inr (.inl rfl)
  · exact .inl rfl

/-! ### Views of the tables -/

/-- The greatest level is the least bound of the levels of the first declarations, and of zero. -/
theorem Tabulates.maxLevel_le_iff (h : u.Tabulates scoping n t) (level : Int) :
    t.maxLevel ≤ level ↔
      0 ≤ level ∧ ∀ i < n, u.DeclaresFirst scoping i → (u.stars (some i)).length ≤ level := by
  obtain ⟨firsts, -, hmem, hdecls⟩ := h.decls
  rw [Table.maxLevel_le_iff, hdecls, List.forall_mem_map]
  refine and_congr_right fun _ => forall_congr' fun i => ?_
  rw [hmem, and_imp]
  rfl

/-! ### Whole collections -/

/-- A place whose target is resolved causes no fault. -/
theorem fault_findingsAt_eq_none (h : ¬ u.IsUnresolved i) :
    (u.findingsAt scoping i).fault = none := by
  refine Option.eq_none_iff_forall_not_mem.2 fun f hf => h ?_
  obtain ⟨hbars, hresolve⟩ := fault_findingsAt.1 hf
  exact ⟨hbars, f, hresolve⟩

/-- Whether a collection reads the token at `i`: no token in front of it is unresolved. -/
def IsRead (u : Program) (i : Nat) : Prop := ∀ j < i, ¬ u.IsUnresolved j

/-- Whatever is left out, a collection reads the same tokens, and ends in the same fault if one of
    them is unresolved. -/
theorem collect_reads (u : Program) : ∃ (n : Nat) (fault : Option Fault),
    (∀ i < u.size, i < n ↔ u.IsRead i) ∧ ∀ scoping,
      (u.collect scoping).fault = fault ∧ (u.collect scoping).table.frozen = fault.isNone ∧
        u.Tabulates scoping n (u.collect scoping).table := by
  by_cases hex : ∃ i, u.IsUnresolved i
  · classical
    -- the first of these tokens ends all collections alike
    obtain ⟨hbars, f, hresolve⟩ := Nat.find_spec hex
    refine ⟨Nat.find hex + 1, some f, fun i _ => ⟨?_, ?_⟩, fun scoping => ?_⟩
    · intro hi j hj
      exact Nat.find_min hex (by omega)
    · intro hread
      by_contra hout
      exact hread _ (by omega) (Nat.find_spec hex)
    · have hend : (u.collect scoping).fault = some f ∧
          (u.collect scoping).table = u.tableOf scoping (Nat.find hex + 1) :=
        collect_of_first_fault (fun j hj => fault_findingsAt_eq_none (Nat.find_min hex hj))
          hbars.lt_size (fault_findingsAt.2 ⟨hbars, hresolve⟩)
      rw [hend.2]
      exact ⟨hend.1, Table.frozen_foldl_enter _ _, u.tableOf_tabulates scoping _⟩
  · refine ⟨u.size, none, fun i hi => iff_of_true hi fun j _ hj => hex ⟨j, hj⟩, fun scoping => ?_⟩
    have hend : (u.collect scoping).fault = none ∧
        (u.collect scoping).table = (u.tableOf scoping u.size).freeze :=
      collect_of_faultless fun i _ => fault_findingsAt_eq_none fun hi => hex ⟨i, hi⟩
    have htab := u.tableOf_tabulates scoping u.size
    rw [hend.2]
    exact ⟨hend.1, rfl, ⟨htab.decls, htab.taken, htab.disqualified⟩⟩

/-- Whatever is left out, a collection reads the same tokens: all of them, or those up to a fault
    that does not depend on what is left out. -/
theorem collect_extent (u : Program) : ∃ (n : Nat) (fault : Option Fault), ∀ scoping,
    (u.collect scoping).fault = fault ∧ (u.collect scoping).table.frozen = fault.isNone ∧
      u.Tabulates scoping n (u.collect scoping).table := by
  obtain ⟨n, fault, -, hextent⟩ := u.collect_reads
  exact ⟨n, fault, hextent⟩

end Program

end Indirection
