import Indirection.Proofs.Collecting
import Indirection.Proofs.Recognizing

/-!
# What consumes a value

The value of a use is handed to the operator around it. Main definitions:

* `Program.IsPostfixOperator` — an operator that is written behind its first operand;
* `Program.Denotes` — an expression is the declaration, by its name or by the access to its member;
* `Reading` — how an operator tree is read before or after a reduction: the level of the
  declaration, the operators that are gone, and the expressions with an `&` in front;
* `Program.HasLevel` — the level of an expression in a reading;
* `Program.changedNode` — the operator that a rewritten use changes, or the value that gets an `&`.

Main statements: `reference_operand_iff` — an `&` is written in front of the first operand of a
postfix operator exactly where the value is called or accessed with a `.`; `HasLevel.unique` — an
expression has one level at most; `level_kept_iff` — what is handed on keeps its level unless it is
the value of an assignment or a further use. `calledPointer_reference` and
`chainedAssignment_level` show a call and an assignment whose value is used.
-/

namespace Indirection

/-- How the operator trees of a program are read, when a declaration is of the level `level`: the
    operators of `drops` are gone, and the expressions of `refers` have an `&` in front. What a
    narrowing writes in front of a value belongs to the operator that takes the value. -/
structure Reading where
  level : Int
  drops : Nat → Bool
  refers : Nat → Bool

/-- What an `&` in front of the expression at `i` adds to its level. -/
def Reading.mark (r : Reading) (i : Nat) : Int := if r.refers i then 1 else 0

namespace Program

variable {u : Program} {sources : Sources} {d : Decl}

/-! ### Operators behind a value -/

instance (i : Nat) (node : Ref) : Decidable (u.IsValueSite d i node) :=
  inferInstanceAs (Decidable (_ ∧ _))

/-- An indexing is spelled with a bracket. -/
theorem text_of_isSubscript {t : Ref} (h : u.isSubscript t = true) : u.text t = "[" :=
  of_decide_eq_true (Bool.and_eq_true_iff.1 h).1

/-- A member access is spelled with a dot or an arrow. -/
theorem text_of_isMemberAccess {t : Ref} (h : u.isMemberAccess t = true) :
    u.text t ∈ [".", "->"] :=
  List.contains_iff_mem.1 (Bool.and_eq_true_iff.1 h).1

/-- What is not spelled so is no member access. -/
theorem not_isMemberAccess {t : Ref} (htext : u.text t ∉ [".", "->"]) :
    u.isMemberAccess t = false :=
  Bool.eq_false_iff.2 (mt text_of_isMemberAccess htext)

/-- Whether the operator at `q` may be written behind its first operand: an indexing, an access to a
    member, a call, `++` or `--`. -/
def IsPostfixOperator (u : Program) (q : Nat) : Prop :=
  (u.isSubscript (some q) || u.isMemberAccess (some q) || u.isFunctionCall (some q) ||
    u.isIncrementDecrement (some q)) = true

/-- Whether only what is spelled like an assignment is flagged as one. -/
def HasAssignmentFlags (u : Program) : Prop :=
  ∀ q < u.size, u.flag Token.isAssignmentOp (some q) = true → u.text (some q) ∈ assignmentOps

/-- Whether operands and parents tell of the same trees. -/
def HasParentLinks (u : Program) : Prop :=
  ∀ p < u.size, ∀ c < u.size, u.Child p c ↔ u.parent (some c) = some p

instance (u : Program) : Decidable u.HasAssignmentFlags :=
  inferInstanceAs (Decidable (∀ q < u.size, _ → _))

instance (u : Program) : Decidable u.HasParentLinks :=
  inferInstanceAs (Decidable (∀ p < u.size, ∀ c < u.size, _))

/-- The parent of a child is what it is a child of. -/
theorem HasParentLinks.parent_eq (h : u.HasParentLinks) {p c : Nat} (hchild : u.Child p c) :
    u.parent (some c) = some p :=
  (h p hchild.lt_size_left c hchild.lt_size).1 hchild

/-- What has a parent is a child of it. -/
theorem HasParentLinks.child (h : u.HasParentLinks) {p c : Nat}
    (hparent : u.parent (some c) = some p) : u.Child p c :=
  (h p (u.ref_lt hparent) c (lt_size_of_hasTree (by simp [hasTree, hparent]))).2 hparent

/-- Every token has bounds. -/
theorem exists_bounds (u : Program) (v : Nat) :
    ∃ first last, u.bounds (some v) = some (first, last) := by
  have hself : v ∈ u.preorder (some v) := mem_preorder.2 .refl
  rw [bounds]
  split
  · rename_i hnil
    rw [hnil] at hself
    cases hself
  · exact ⟨_, _, rfl⟩

/-- Where a reduction that runs through takes the address of a value, the `&` is recorded. -/
theorem exists_referencesAt (h : (u.performPlan sources d).fault = none) {i v : Nat}
    (hi : i < u.size) (hsite : u.IsValueSite d i (some v)) (huse : u.use (some v) = .other) :
    ∃ path offset, u.ReferencesAt sources d i path offset ∧
      ∃ e ∈ (u.performPlan sources d).script.recorded path,
        e.start = offset ∧ e.stop = offset ∧ e.text = "&" := by
  obtain ⟨first, last, hbounds⟩ := u.exists_bounds v
  have hc : .change (.insertBefore (some first) "&") ∈ (u.plan d).items :=
    (mem_plan (performPlan_recordAll h).1).2 (.inl ⟨i, hi, .other hsite huse hbounds⟩)
  obtain ⟨r, hplace⟩ := (performPlan_holds h).2 _ hc
  obtain ⟨span, hspan, rfl⟩ := place?_insertBefore.1 hplace
  exact ⟨span.path, span.start, ⟨_, first, last, span, hsite, huse, hbounds, hspan, rfl, rfl⟩,
    (performPlan_recorded_iff h).2 ⟨_, hc, hplace⟩⟩

/-- The address is taken of what is called, or accessed as a record. -/
theorem use_of_called (hflags : u.HasAssignmentFlags) {q v : Nat} (hq : q < u.size)
    (hparent : u.parent (some v) = some q)
    (hbehind : u.isFunctionCall (some q) = true ∨
      u.isMemberAccess (some q) = true ∧ u.isArrow (some q) = false) :
    u.use (some v) = .other := by
  -- no spelling of these operators is that of an assignment, so that no flag makes it one
  have hflag (htext : u.text (some q) ∉ assignmentOps) :
      u.flag Token.isAssignmentOp (some q) = false := by
    simpa using mt (hflags q hq) htext
  have hassigns (htext : u.text (some q) ∈ ["(", ".", "->"]) :
      u.isAssignment (some q) = false := by
    have hno : ∀ s ∈ ["(", ".", "->"], s ∉ assignmentOps := by decide
    simp [isAssignment, hflag (hno _ htext), hno _ htext]
  rcases hbehind with hcall | ⟨hmember, harrow⟩
  · simp only [isFunctionCall, Bool.and_eq_true, decide_eq_true_eq] at hcall
    have htext := hcall.1.1
    have hassign := hassigns (by simp [htext])
    simp [use, hparent, hassign, isDereference, isSubscript, isArrow, isMemberAccess, isAddressOf,
      isIncrementDecrement, htext]
  · have htext := text_of_isMemberAccess hmember
    have hassign := hassigns (List.mem_cons_of_mem _ htext)
    have hno : ∀ s ∈ [".", "->"],
        s ≠ "*" ∧ s ≠ "[" ∧ s ≠ "&" ∧ ["++", "--"].contains s = false := by decide
    obtain ⟨hstar, hbracket, hand, hcount⟩ := hno _ htext
    simp only [use, hparent, hassign, harrow, isDereference, isSubscript, isAddressOf,
      isIncrementDecrement, hcount]
    simp [hstar, hbracket, hand]

/-- **Where an `&` does not bind to the value alone.** When a reduction runs through, an `&` is
    recorded in front of the value of a use and this value is the first operand of a postfix
    operator, if and only if it is called, or accessed with a `.`. -/
theorem reference_operand_iff (h : (u.performPlan sources d).fault = none)
    (hlinks : u.HasParentLinks) (hflags : u.HasAssignmentFlags) {i v : Nat} (hi : i < u.size)
    (hsite : u.IsValueSite d i (some v)) :
    ((∃ path offset, u.ReferencesAt sources d i path offset ∧
        ∃ e ∈ (u.performPlan sources d).script.recorded path,
          e.start = offset ∧ e.stop = offset ∧ e.text = "&") ∧
      ∃ q, u.operand1 (some q) = some v ∧ u.IsPostfixOperator q) ↔
    ∃ q, u.operand1 (some q) = some v ∧ (u.isFunctionCall (some q) = true ∨
      u.isMemberAccess (some q) = true ∧ u.isArrow (some q) = false) := by
  constructor
  · rintro ⟨⟨path, offset, ⟨node, _, _, _, hsite', huse, -⟩, -⟩, q, hq, hbehind⟩
    obtain rfl := hsite.unique hsite'
    refine ⟨q, hq, ?_⟩
    -- the `&` is written only where no other use is made of the value
    have hspec := u.use_spec (some v)
    rw [hlinks.parent_eq (.inl hq)] at hspec
    simp only [huse, Bool.or_eq_false_iff] at hspec
    obtain ⟨⟨-, hcount⟩, hothers⟩ := hspec
    obtain ⟨⟨hsubscript, harrow⟩, -⟩ := hothers hq
    simp only [IsPostfixOperator, hsubscript, hcount, Bool.false_or, Bool.or_false,
      Bool.or_eq_true] at hbehind
    exact hbehind.symm.imp_right fun hmember => ⟨hmember, harrow⟩
  · rintro ⟨q, hq, hbehind⟩
    have hparent := hlinks.parent_eq (.inl hq)
    have hlt : q < u.size := Child.lt_size_left (.inl hq)
    refine ⟨exists_referencesAt h hi hsite (use_of_called hflags hlt hparent hbehind), q, hq, ?_⟩
    rcases hbehind with hcall | ⟨hmember, -⟩
    · simp [IsPostfixOperator, hcall]
    · simp [IsPostfixOperator, hmember]

/-- The address that `g(p)` passes on is that of `p`, which is called nowhere. -/
theorem reference_operand_iff_pointerUses :
    let d : Decl := { key := 1, name := "p", level := 1 }
    let sources : Sources := fun _ => .ok "int *p = q; *p; g(p);"
    (pointerUses.performPlan sources d).fault = none ∧ pointerUses.HasParentLinks ∧
      pointerUses.HasAssignmentFlags ∧ pointerUses.IsValueSite d 11 (some 11) ∧
      pointerUses.ReferencesAt sources d 11 "a.c" 18 ∧
      ¬ ∃ q, pointerUses.operand1 (some q) = some 11 ∧ pointerUses.IsPostfixOperator q := by
  intro d sources
  have hfault : (pointerUses.performPlan sources d).fault = none := by decide +kernel
  have hlinks : pointerUses.HasParentLinks := by decide +kernel
  have hflags : pointerUses.HasAssignmentFlags := by decide +kernel
  have hsite : pointerUses.IsValueSite d 11 (some 11) := by decide +kernel
  have hi : 11 < pointerUses.size := by decide
  have huse : pointerUses.use (some 11) = .other := by decide +kernel
  have hoperand (q : Nat) : pointerUses.operand1 (some q) ≠ some 11 := by
    intro hq
    have hparent := hlinks.parent_eq (.inl hq)
    obtain rfl : 10 = q := by
      have h10 : pointerUses.parent (some 11) = some 10 := by decide +kernel
      exact Option.some.inj (h10.symm.trans hparent)
    revert hq
    decide +kernel
  have hiff := reference_operand_iff hfault hlinks hflags hi hsite
  refine ⟨hfault, hlinks, hflags, hsite, ?_, ?_⟩
  · exact ⟨some 11, 11, 11, ⟨"a.c", 18, 19⟩, hsite, huse, by decide +kernel, by decide +kernel, rfl,
      rfl⟩
  · intro hbehind
    obtain ⟨q, hq, -⟩ := hiff.1 ⟨exists_referencesAt hfault hi hsite huse, hbehind⟩
    exact hoperand q hq

/-- The tokens of the text `int (*fp)(int);` and, on a line of its own,
    `void u(void) { fp(3); }`. -/
def calledPointer : Program where
  tokens := #[{ text := "int", file := "a.c", line := 1, column := 1, isName := true },
    { text := "(", file := "a.c", line := 1, column := 5, link := some 4 },
    { text := "*", file := "a.c", line := 1, column := 6 },
    { text := "fp", file := "a.c", line := 1, column := 7, varId := 1, var := some 0,
      isName := true },
    { text := ")", file := "a.c", line := 1, column := 9, link := some 1 },
    { text := "(", file := "a.c", line := 1, column := 10, link := some 7 },
    { text := "int", file := "a.c", line := 1, column := 11, isName := true },
    { text := ")", file := "a.c", line := 1, column := 14, link := some 5 },
    { text := ";", file := "a.c", line := 1, column := 15 },
    { text := "void", file := "a.c", line := 2, column := 1, isName := true },
    { text := "u", file := "a.c", line := 2, column := 6, isName := true },
    { text := "(", file := "a.c", line := 2, column := 7, link := some 13 },
    { text := "void", file := "a.c", line := 2, column := 8, isName := true },
    { text := ")", file := "a.c", line := 2, column := 12, link := some 11 },
    { text := "\x7b", file := "a.c", line := 2, column := 14, link := some 20 },
    { text := "fp", file := "a.c", line := 2, column := 16, varId := 1, var := some 0,
      parent := some 16, isName := true },
    { text := "(", file := "a.c", line := 2, column := 18, link := some 18, operand1 := some 15,
      operand2 := some 17 },
    { text := "3", file := "a.c", line := 2, column := 19, parent := some 16, isNumber := true },
    { text := ")", file := "a.c", line := 2, column := 20, link := some 16 },
    { text := ";", file := "a.c", line := 2, column := 21 },
    { text := "\x7d", file := "a.c", line := 2, column := 23, link := some 14 }]
  vars := #[{ nameToken := some 3, typeStart := some 0 }]

/-- The reduction of `fp` writes `&fp(3)`, which takes the address of what the call returns. -/
theorem calledPointer_reference :
    let d : Decl := { key := 1, name := "fp", level := 1 }
    let sources : Sources := fun _ =>
      .ok "int (*fp)(int);\nvoid u(void) \x7b fp(3); \x7d\n"
    (calledPointer.performPlan sources d).fault = none ∧ calledPointer.HasParentLinks ∧
      calledPointer.HasAssignmentFlags ∧ calledPointer.ReferencesAt sources d 15 "a.c" 31 ∧
      (calledPointer.performPlan sources d).script.recorded "a.c" =
        [⟨5, 6, "", 1⟩, ⟨31, 31, "&", 2⟩] ∧
      calledPointer.operand1 (some 16) = some 15 ∧ calledPointer.isFunctionCall (some 16) = true ∧
      calledPointer.IsPostfixOperator 16 := by
  intro d sources
  refine ⟨by decide +kernel, by decide +kernel, by decide +kernel, ?_, by decide +kernel,
    by decide +kernel, by decide +kernel, by unfold IsPostfixOperator; decide +kernel⟩
  exact ⟨some 15, 15, 15, ⟨"a.c", 31, 33⟩, by decide +kernel, by decide +kernel, by decide +kernel,
    by decide +kernel, rfl, rfl⟩

/-! ### Levels -/

/-- Whether the expression at `i` is the declaration `d`, by its name or by the access to it. -/
def Denotes (u : Program) (d : Decl) (i : Nat) : Prop :=
  ∃ t, u.declKey (some t) = d.key ∧ u.denoted d t = some i

/-- By how much the operator at `i` changes the level of its first operand; none if the front end's
    word is taken for its level. -/
def shift (u : Program) (i : Nat) : Option Int :=
  if u.isMemberAccess (some i) then none
  else if u.isDereference (some i) || u.isSubscript (some i) then some (-1)
  else if u.isAddressOf (some i) then some 1
  else if u.isAssignment (some i) || u.isIncrementDecrement (some i) && u.isUnaryOp (some i) then
    some 0
  else none

/-- Whether the change takes the token at `i` away, with or without others. -/
def takesAway (i : Nat) : Change → Bool
  | .replace t text => t = some i && text = ""
  | .removeRange first _ => first = some i
  | .insertBefore .. | .insertAfter .. => false

/-- A removal takes away the token it names, and no other. -/
theorem takesAway_remove {i : Nat} {t : Ref} : takesAway i (.remove t) = true ↔ t = some i := by
  simp [takesAway, Change.remove]

/-- How a program is read before the reduction of `d`. -/
def original (d : Decl) : Reading := ⟨d.level, fun _ => false, fun _ => false⟩

/-- How a program is read behind the reduction of `d`. -/
def reduced (u : Program) (d : Decl) : Reading where
  level := d.level - 1
  drops i := ((u.plan d).items.filterMap Step.change?).any (takesAway i)
  refers i := decide ((∃ t < u.size, u.IsValueSite d t (some i)) ∧ u.use (some i) = .other)

/-- Whether the expression at `i` has the level `n` in the reading `r`. The declaration is of the
    level of the reading, below its array dimensions; what a dereference, an indexing, an address
    operator, an assignment or a count makes of a level follows the operator, unless it is gone; all
    else has the level that the front end tells. -/
inductive HasLevel (u : Program) (d : Decl) (r : Reading) : (i : Nat) → (n : Int) → Prop
  | declared {i : Nat} (denotes : u.Denotes d i) :
    HasLevel u d r i (r.level + d.rank.toNat + r.mark i)
  | operator {i operand : Nat} {n delta : Int} (other : ¬ u.Denotes d i)
    (shift : u.shift i = some delta) (first : u.operand1 (some i) = some operand)
    (level : HasLevel u d r operand n) :
    HasLevel u d r i (n + (if r.drops i then 0 else delta) + r.mark i)
  | known {i : Nat} (other : ¬ u.Denotes d i) (shift : u.shift i = none) :
    HasLevel u d r i (u.pointerLevel (some i) + r.mark i)

/-- An expression has one level at most. -/
theorem HasLevel.unique {r : Reading} {i : Nat} {m n : Int} (hm : u.HasLevel d r i m)
    (hn : u.HasLevel d r i n) : m = n := by
  -- along the first derivation: the other one ends with the same rule, as no two rules overlap
  induction hm generalizing n with
  | declared hdenotes =>
    cases hn with
    | declared => rfl
    | operator hother | known hother => exact absurd hdenotes hother
  | operator hother hshift hfirst _ ih =>
    cases hn with
    | declared hdenotes => exact absurd hdenotes hother
    | operator _ hshift' hfirst' hlevel =>
      obtain rfl := Option.some.inj (hfirst.symm.trans hfirst')
      obtain rfl := Option.some.inj (hshift.symm.trans hshift')
      rw [ih hlevel]
    | known _ hshift' =>
      rw [hshift] at hshift'
      cases hshift'
  | known hother hshift =>
    cases hn with
    | declared hdenotes => exact absurd hdenotes hother
    | operator _ hshift' =>
      rw [hshift] at hshift'
      cases hshift'
    | known => rfl

/-! ### Values of uses -/

/-- The value of a use indexes the declaration once for each of its dimensions. -/
theorem IsValueSite.indexes {i v : Nat} (h : u.IsValueSite d i (some v)) :
    ∃ b, u.Denotes d b ∧ u.Indexes b d.rank.toNat v := by
  obtain ⟨hrole, hsite⟩ := h
  obtain ⟨b, hb, hnode⟩ := site_eq_value_iff.1 hsite
  exact ⟨b, ⟨i, (role_eq_use.1 hrole).1, hb⟩, indexes_of_subscripted hnode⟩

/-- Whether the names of `d` are operands at most. -/
def HasLeaves (u : Program) (d : Decl) : Prop :=
  ∀ t < u.size, u.declKey (some t) = d.key → u.hasOperands (some t) = false

instance (u : Program) (d : Decl) : Decidable (u.HasLeaves d) :=
  inferInstanceAs (Decidable (∀ t < u.size, _ → _))

/-- The declaration itself is a leaf or the access to a member. -/
theorem Denotes.shape (hleaves : u.HasLeaves d) {b : Nat} (h : u.Denotes d b) :
    u.isMemberAccess (some b) = true ∨ u.hasOperands (some b) = false := by
  obtain ⟨t, hkey, hb⟩ := h
  rcases denoted_eq_some hb with ⟨hmember, -⟩ | rfl
  · exact .inl hmember
  · refine .inr ?_
    by_cases hlt : b < u.size
    · exact hleaves b hlt hkey
    · simp [hasOperands, operand1, operand2, token?_eq_none (Nat.le_of_not_lt hlt)]

/-- An operator that accesses no member is not the declaration. -/
theorem not_denotes (hleaves : u.HasLeaves d) {c : Nat}
    (hoperand : (u.operand1 (some c)).isSome = true)
    (hmember : u.isMemberAccess (some c) = false) : ¬ u.Denotes d c := by
  intro h
  rcases h.shape hleaves with hshape | hshape
  · rw [hmember] at hshape
    cases hshape
  · simp [hasOperands, hoperand] at hshape

/-- What denotes a declaration without operands is no indexing. -/
theorem Denotes.not_isSubscript (hleaves : u.HasLeaves d) {b : Nat} (h : u.Denotes d b) :
    u.isSubscript (some b) = false := by
  by_contra hsubscript
  rw [Bool.not_eq_false] at hsubscript
  refine not_denotes hleaves (Bool.and_eq_true_iff.1 hsubscript).2 (not_isMemberAccess ?_) h
  rw [text_of_isSubscript hsubscript]
  decide

/-! ### Reading a program behind its reduction -/

/-- An operator that is gone is a star, an address operator or the indexing of a value. -/
theorem dropped (h : (u.plan d).fault = none) {c : Nat} (hdrops : (u.reduced d).drops c = true) :
    u.text (some c) ∈ ["*", "&"] ∨ ∃ i v, u.IsValueSite d i (some v) ∧
      u.isSubscript (some c) = true ∧ u.operand1 (some c) = some v := by
  obtain ⟨change, hchange, htakes⟩ := List.any_eq_true.1 hdrops
  obtain ⟨step, hstep, hc⟩ := List.mem_filterMap.1 hchange
  cases step with
  | tell e => cases hc
  | change change' =>
    obtain rfl := Option.some.inj hc
    -- the star of a declarator is spelled like a dereference, and both are no indexing
    cases permits_of_mem_plan h hstep with
    | declaratorStar _ _ hnearest =>
      obtain rfl := Option.some.inj (takesAway_remove.1 htakes)
      obtain ⟨-, hstars, -⟩ := previous_of_nearest hnearest
      rw [hstars] at hnearest
      exact .inl (by rw [(head?_starsBefore.1 hnearest).2.1]; decide)
    | dereference _ _ hderef =>
      obtain rfl := Option.some.inj (takesAway_remove.1 htakes)
      simp only [isDereference, Bool.and_eq_true, decide_eq_true_eq] at hderef
      exact .inl (by rw [hderef.1]; decide)
    | address _ haddress =>
      obtain rfl := Option.some.inj (takesAway_remove.1 htakes)
      simp only [isAddressOf, Bool.and_eq_true, decide_eq_true_eq] at haddress
      exact .inl (by rw [haddress.1]; decide)
    | subscript hsite hsubscript hbase =>
      obtain rfl : _ = c := by simpa [takesAway] using htakes
      exact .inr ⟨_, _, hsite, hsubscript, hbase⟩
    | arrow => simp [takesAway] at htakes
    | reference | opening | closing => cases htakes

/-- What a change of the plan takes away is missing afterwards. -/
theorem drops_of_mem {c : Nat} {change : Change} (hmem : .change change ∈ (u.plan d).items)
    (htakes : takesAway c change = true) : (u.reduced d).drops c = true :=
  List.any_eq_true.2 ⟨change, List.mem_filterMap.2 ⟨_, hmem, rfl⟩, htakes⟩

/-- The indexing of a value is closed when a plan runs through. -/
theorem exists_link_of_indexed (h : (u.plan d).fault = none) {i : Nat} (hi : i < u.size)
    {node operator : Ref} (hsite : u.IsValueSite d i node) (huse : u.use node = .indexed operator) :
    ∃ close, u.link operator = some close := by
  have hstep := (plan_of_fault_none h).1 i hi
  cases hlink : u.link operator with
  | some close => exact ⟨close, rfl⟩
  | none => simp [stepAt, hsite.1, stepAs, rewriteUse, hsite.2, huse, rewriteValue, hlink] at hstep

/-- An expression with an `&` in front is the value of a use. -/
theorem refers_iff {i : Nat} : (u.reduced d).refers i = true ↔
    (∃ t < u.size, u.IsValueSite d t (some i)) ∧ u.use (some i) = .other :=
  decide_eq_true_iff

/-- In a reading that keeps the indexings of the declaration up to some of them, and writes no `&`
    inside, each of them takes one level off. -/
theorem Indexes.hasLevel (hleaves : u.HasLeaves d) {r : Reading} {b k x : Nat}
    (hb : u.Denotes d b) (hx : u.Indexes b k x)
    (hkept : ∀ m p, m ≤ k → u.Indexes b m p → 0 < m → r.drops p = false)
    (hplain : ∀ m p, m < k → u.Indexes b m p → r.refers p = false) :
    u.HasLevel d r x (r.level + d.rank.toNat - k + r.mark x) := by
  induction hx with
  | base => simpa using HasLevel.declared (r := r) hb
  | @index k x p hx hsubscript hoperand ih =>
    have htext := text_of_isSubscript hsubscript
    have hmember : u.isMemberAccess (some p) = false := not_isMemberAccess (by rw [htext]; decide)
    have hother : ¬ u.Denotes d p := not_denotes hleaves (by simp [hoperand]) hmember
    have hshift : u.shift p = some (-1) := by simp [shift, hmember, hsubscript]
    have hmark : r.mark x = 0 := by simp [Reading.mark, hplain k x (Nat.lt_succ_self k) hx]
    have hdrops : r.drops p = false :=
      hkept (k + 1) p (Nat.le_refl _) (.index hx hsubscript hoperand) (Nat.succ_pos k)
    have hbelow := ih (fun m q hm => hkept m q (by omega)) (fun m q hm => hplain m q (by omega))
    have h := HasLevel.operator hother hshift hoperand hbelow
    rw [hdrops, hmark] at h
    have hsum : r.level + d.rank.toNat - k + 0 + (if false = true then 0 else -1) + r.mark p =
        r.level + d.rank.toNat - (k + 1 : Nat) + r.mark p := by
      rw [if_neg Bool.false_ne_true]
      omega
    exact hsum ▸ h

/-- What is neither the declaration nor an indexing is no value of a use. -/
theorem not_isValueSite {c t : Nat} (hother : ¬ u.Denotes d c)
    (hsubscript : u.isSubscript (some c) = false) : ¬ u.IsValueSite d t (some c) := by
  intro hsite
  obtain ⟨b, hb, hindexes⟩ := hsite.indexes
  rcases hindexes.eq_or_isSubscript with ⟨-, rfl⟩ | ⟨-, hsub⟩
  · exact hother hb
  · rw [hsubscript] at hsub
    cases hsub

/-- What is no value of a use has no `&` in front. -/
theorem refers_eq_false {c : Nat} (hno : ∀ t, ¬ u.IsValueSite d t (some c)) :
    (u.reduced d).refers c = false := by
  refine Bool.eq_false_iff.2 fun hrefers => ?_
  obtain ⟨⟨t, -, hsite⟩, -⟩ := refers_iff.1 hrefers
  exact hno t hsite

/-- The value of a use has the level of the declaration, before the reduction and behind it. -/
theorem IsValueSite.hasLevel (h : (u.plan d).fault = none) (hleaves : u.HasLeaves d) {i v : Nat}
    (hsite : u.IsValueSite d i (some v)) :
    u.HasLevel d (original d) v d.level ∧
      u.HasLevel d (u.reduced d) v (d.level - 1 + (u.reduced d).mark v) := by
  obtain ⟨b, hb, hv⟩ := hsite.indexes
  have hbase := hb.not_isSubscript hleaves
  -- a value indexes the declaration once for each dimension, and no indexing inside is one
  have hrank {t k p : Nat} (hsite : u.IsValueSite d t (some p)) (hp : u.Indexes b k p) :
      k = d.rank.toNat := by
    obtain ⟨b', hb', hp'⟩ := hsite.indexes
    exact (hp.unique hbase (hb'.not_isSubscript hleaves) hp').2
  -- what takes an indexing away is the use of a value below it, which has all its dimensions
  have hkept (m p : Nat) (hm : m ≤ d.rank.toNat) (hp : u.Indexes b m p) (hpos : 0 < m) :
      (u.reduced d).drops p = false := by
    by_contra hdrops
    rcases dropped h (Bool.not_eq_false _ ▸ hdrops) with htext | ⟨t, v', hsite', hsubscript, hop⟩
    · have hsubscript := (hp.eq_or_isSubscript.resolve_left fun hzero => by omega).2
      rw [text_of_isSubscript hsubscript] at htext
      revert htext
      decide
    · obtain ⟨b', hb', hv'⟩ := hsite'.indexes
      have hp' := hv'.index hsubscript hop
      have := (hp.unique hbase (hb'.not_isSubscript hleaves) hp').2
      omega
  -- an indexing inside has too few dimensions for a value
  have hplain (m p : Nat) (hm : m < d.rank.toNat) (hp : u.Indexes b m p) :
      (u.reduced d).refers p = false :=
    refers_eq_false fun t hsite' => absurd (hrank hsite' hp) (by omega)
  have hbefore := hv.hasLevel hleaves (r := original d) hb (fun _ _ _ _ _ => rfl)
    (fun _ _ _ _ => rfl)
  have hafter := hv.hasLevel hleaves (r := u.reduced d) hb hkept hplain
  have hsum : d.level + d.rank.toNat - d.rank.toNat + 0 = d.level := by omega
  have hsum' : d.level - 1 + d.rank.toNat - d.rank.toNat + (u.reduced d).mark v =
      d.level - 1 + (u.reduced d).mark v := by omega
  exact ⟨hsum ▸ hbefore, hsum' ▸ hafter⟩

/-! ### What a use hands on -/

/-- The operator that the rewriting of a use changes, or the value itself if its address is taken;
    none if the use stays as it is. -/
def changedNode (u : Program) (v : Nat) : Ref :=
  match u.use (some v) with
  | .dereferenced operator | .indexed operator | .arrow operator | .assigned operator true =>
    operator
  | .assigned _ false | .tolerated _ => none
  | .other => some v

section Consumed

variable {i v c : Nat}

/-- An operator on a value, if it is not the declaration once more and gets no `&`, changes the
    level of the value as it does that of any first operand; behind the reduction only if it is
    still there. -/
theorem IsValueSite.hasLevel_operator (h : (u.plan d).fault = none) (hleaves : u.HasLeaves d)
    (hsite : u.IsValueSite d i (some v)) (huse : u.use (some v) ≠ .other) {delta : Int}
    (hother : ¬ u.Denotes d c) (hplain : (u.reduced d).refers c = false)
    (hshift : u.shift c = some delta) (hfirst : u.operand1 (some c) = some v) :
    u.HasLevel d (original d) c (d.level + delta) ∧
      u.HasLevel d (u.reduced d) c
        (d.level - 1 + if (u.reduced d).drops c then 0 else delta) := by
  obtain ⟨hbefore, hafter⟩ := hsite.hasLevel h hleaves
  have hmark : (u.reduced d).mark v = 0 := by
    have hrefers : (u.reduced d).refers v = false :=
      Bool.eq_false_iff.2 fun hrefers => huse (refers_iff.1 hrefers).2
    simp [Reading.mark, hrefers]
  rw [hmark] at hafter
  have hbefore := HasLevel.operator hother hshift hfirst hbefore
  have hafter := HasLevel.operator hother hshift hfirst hafter
  constructor
  · simpa [original, Reading.mark] using hbefore
  · simpa [Reading.mark, hplain] using hafter

/-- A dereference of the value hands on one level less, and so does the value behind the reduction,
    which takes the star away. -/
theorem IsValueSite.hasLevel_dereference (h : (u.plan d).fault = none) (hleaves : u.HasLeaves d)
    (hlinks : u.HasParentLinks) (hi : i < u.size) (hsite : u.IsValueSite d i (some v))
    (huse : u.use (some v) = .dereferenced (some c)) :
    u.HasLevel d (original d) c (d.level - 1) ∧ u.HasLevel d (u.reduced d) c (d.level - 1) ∧
      ¬ u.Denotes d c := by
  have hspec := u.use_spec (some v)
  simp only [huse] at hspec
  obtain ⟨hparent, hderef⟩ := hspec
  have hop := hderef
  simp only [isDereference, isUnaryOp, Bool.and_eq_true, decide_eq_true_eq,
    Option.isNone_iff_eq_none] at hop
  obtain ⟨htext, hfirst, hsecond⟩ := hop
  -- the parent is told to be a dereference, not of what: it has one operand only
  have hoperand : u.operand1 (some c) = some v := by
    rcases hlinks.child hparent.symm with hchild | hchild
    · exact hchild
    · rw [hsecond] at hchild
      cases hchild
  have hmember : u.isMemberAccess (some c) = false := not_isMemberAccess (by rw [htext]; decide)
  have hother := not_denotes hleaves hfirst hmember
  have hplain := refers_eq_false fun t => not_isValueSite hother (by simp [isSubscript, htext])
  have hshift : u.shift c = some (-1) := by simp [shift, hmember, hderef]
  have hdrops : (u.reduced d).drops c = true :=
    drops_of_mem ((mem_plan h).2 (.inl ⟨i, hi, .dereferenced hsite huse⟩)) (takesAway_remove.2 rfl)
  obtain ⟨hbefore, hafter⟩ :=
    hsite.hasLevel_operator h hleaves (by simp [huse]) hother hplain hshift hoperand
  rw [hdrops, if_pos rfl, Int.add_zero] at hafter
  exact ⟨hbefore, hafter, hother⟩

/-- An indexing of the value hands on one level less, and so does the value behind the reduction,
    which takes the indexing away. -/
theorem IsValueSite.hasLevel_indexing (h : (u.plan d).fault = none) (hleaves : u.HasLeaves d)
    (hi : i < u.size) (hsite : u.IsValueSite d i (some v))
    (huse : u.use (some v) = .indexed (some c)) :
    u.HasLevel d (original d) c (d.level - 1) ∧ u.HasLevel d (u.reduced d) c (d.level - 1) ∧
      ¬ u.Denotes d c := by
  have hspec := u.use_spec (some v)
  simp only [huse] at hspec
  obtain ⟨-, hsubscript, hoperand⟩ := hspec
  have hmember : u.isMemberAccess (some c) = false :=
    not_isMemberAccess (by rw [text_of_isSubscript hsubscript]; decide)
  have hother := not_denotes hleaves (Bool.and_eq_true_iff.1 hsubscript).2 hmember
  have hplain : (u.reduced d).refers c = false := by
    -- a value indexes the declaration less often than an indexing of it
    refine refers_eq_false fun t hsite' => ?_
    obtain ⟨b, hb, hv⟩ := hsite.indexes
    obtain ⟨b', hb', hc⟩ := hsite'.indexes
    have hcount := (hc.unique (hb'.not_isSubscript hleaves) (hb.not_isSubscript hleaves)
      (hv.index hsubscript hoperand)).2
    omega
  have hshift : u.shift c = some (-1) := by simp [shift, hmember, hsubscript]
  obtain ⟨close, hlink⟩ := exists_link_of_indexed h hi hsite huse
  have hdrops : (u.reduced d).drops c = true :=
    drops_of_mem ((mem_plan h).2 (.inl ⟨i, hi, .indexed hsite huse hlink⟩)) (by simp [takesAway])
  obtain ⟨hbefore, hafter⟩ :=
    hsite.hasLevel_operator h hleaves (by simp [huse]) hother hplain hshift hoperand
  rw [hdrops, if_pos rfl, Int.add_zero] at hafter
  exact ⟨hbefore, hafter, hother⟩

/-- An assignment to the value hands on the level that the value has. -/
theorem IsValueSite.hasLevel_assignment (h : (u.plan d).fault = none) (hleaves : u.HasLeaves d)
    (hsite : u.IsValueSite d i (some v)) (huse : u.use (some v) = .assigned (some c) true) :
    u.HasLevel d (original d) c d.level ∧ u.HasLevel d (u.reduced d) c (d.level - 1) ∧
      ¬ u.Denotes d c := by
  have hspec := u.use_spec (some v)
  simp only [huse] at hspec
  obtain ⟨-, hassign, hoperand, hequals⟩ := hspec
  have htext := hequals.1 trivial
  have hmember : u.isMemberAccess (some c) = false := not_isMemberAccess (by rw [htext]; decide)
  have hother := not_denotes hleaves (by simp [hoperand]) hmember
  have hsubscript : u.isSubscript (some c) = false := by simp [isSubscript, htext]
  have hplain := refers_eq_false fun t => not_isValueSite hother hsubscript
  have hshift : u.shift c = some 0 := by
    simp [shift, hmember, hsubscript, isDereference, isAddressOf, htext, hassign]
  obtain ⟨hbefore, hafter⟩ :=
    hsite.hasLevel_operator h hleaves (by simp [huse]) hother hplain hshift hoperand
  rw [ite_self, Int.add_zero] at hafter
  rw [Int.add_zero] at hbefore
  exact ⟨hbefore, hafter, hother⟩

/-- An access through the value hands on the level of the member, which is one less behind the
    reduction if the member is the declaration itself and gets no `&`. -/
theorem hasLevel_arrow (harrow : u.isArrow (some c) = true) :
    ∃ before after, u.HasLevel d (original d) c before ∧ u.HasLevel d (u.reduced d) c after ∧
      (after = before ∨ after = before - 1) ∧
      (after = before ↔ (u.Denotes d c → (u.reduced d).refers c = true)) := by
  have hmember : u.isMemberAccess (some c) = true := (Bool.and_eq_true_iff.1 harrow).1
  by_cases hdenotes : u.Denotes d c
  · have hbefore : u.HasLevel d (original d) c (d.level + d.rank.toNat) := by
      simpa [original, Reading.mark] using HasLevel.declared (r := original d) hdenotes
    have hafter : u.HasLevel d (u.reduced d) c
        (d.level - 1 + d.rank.toNat + (u.reduced d).mark c) := .declared hdenotes
    refine ⟨_, _, hbefore, hafter, ?_⟩
    cases hrefers : (u.reduced d).refers c with
    | true =>
      have hmark : (u.reduced d).mark c = 1 := by simp [Reading.mark, hrefers]
      rw [hmark]
      exact ⟨.inl (by omega), fun _ _ => rfl, fun _ => by omega⟩
    | false =>
      have hmark : (u.reduced d).mark c = 0 := by simp [Reading.mark, hrefers]
      rw [hmark]
      refine ⟨.inr (by omega), fun heq => by omega, fun hall => ?_⟩
      cases hall hdenotes
  · have hshift : u.shift c = none := by simp [shift, hmember]
    have hsubscript : u.isSubscript (some c) = false := by
      have hno : ∀ s ∈ [".", "->"], s ≠ "[" := by decide
      simp [isSubscript, hno _ (text_of_isMemberAccess hmember)]
    have hplain := refers_eq_false fun t => not_isValueSite hdenotes hsubscript
    refine ⟨_, _, .known hdenotes hshift, .known hdenotes hshift, ?_⟩
    simp [original, Reading.mark, hplain, hdenotes]

/-- **What is handed on.** When a reduction runs through, and the use of the declaration at `i` is
    rewritten, the operator that is changed, or the value itself if its address is taken, has a
    level before the reduction and one behind it. This is the same level, or one less, and it is the
    same exactly when the use is no assignment, and the operator, if it is itself the declaration
    once more, gets an `&`. -/
theorem level_kept_iff (h : (u.performPlan sources d).fault = none) (hleaves : u.HasLeaves d)
    (hlinks : u.HasParentLinks) (hi : i < u.size) (hsite : u.IsValueSite d i (some v))
    (hc : u.changedNode v = some c) :
    ∃ before after, u.HasLevel d (original d) c before ∧ u.HasLevel d (u.reduced d) c after ∧
      (after = before ∨ after = before - 1) ∧
      (after = before ↔ u.use (some v) ≠ .assigned (some c) true ∧
        (u.Denotes d c → (u.reduced d).refers c = true)) := by
  have hplan := (performPlan_recordAll h).1
  unfold changedNode at hc
  cases huse : u.use (some v) with
  | dereferenced operator =>
    simp only [huse] at hc
    rw [hc] at huse
    obtain ⟨hbefore, hafter, hother⟩ := hsite.hasLevel_dereference hplan hleaves hlinks hi huse
    exact ⟨_, _, hbefore, hafter, .inl rfl, by simp [hother]⟩
  | indexed operator =>
    simp only [huse] at hc
    rw [hc] at huse
    obtain ⟨hbefore, hafter, hother⟩ := hsite.hasLevel_indexing hplan hleaves hi huse
    exact ⟨_, _, hbefore, hafter, .inl rfl, by simp [hother]⟩
  | arrow operator =>
    simp only [huse] at hc
    have hspec := u.use_spec (some v)
    simp only [huse, hc] at hspec
    obtain ⟨before, after, hbefore, hafter, hone, hiff⟩ := hasLevel_arrow (d := d) hspec.2.1
    exact ⟨before, after, hbefore, hafter, hone, by simp [hiff]⟩
  | assigned operator plain =>
    cases plain with
    | false => simp [huse] at hc
    | true =>
      simp only [huse] at hc
      rw [hc] at huse ⊢
      obtain ⟨hbefore, hafter, hother⟩ := hsite.hasLevel_assignment hplan hleaves huse
      have hless : d.level - 1 ≠ d.level := by omega
      exact ⟨_, _, hbefore, hafter, .inr rfl, by simp [hless]⟩
  | tolerated operator => simp [huse] at hc
  | other =>
    simp only [huse] at hc
    obtain rfl := Option.some.inj hc
    obtain ⟨hbefore, hafter⟩ := hsite.hasLevel hplan hleaves
    have hrefers : (u.reduced d).refers v = true := refers_iff.2 ⟨⟨i, hi, hsite⟩, huse⟩
    have hmark : (u.reduced d).mark v = 1 := by simp [Reading.mark, hrefers]
    rw [hmark, Int.sub_add_cancel] at hafter
    exact ⟨_, _, hbefore, hafter, .inl rfl, by simp [hrefers]⟩

end Consumed

/-- Both `*p` and the `p` that `g(p)` passes on keep their levels. -/
theorem level_kept_iff_pointerUses :
    let d : Decl := { key := 1, name := "p", level := 1 }
    let sources : Sources := fun _ => .ok "int *p = q; *p; g(p);"
    (pointerUses.performPlan sources d).fault = none ∧ pointerUses.HasLeaves d ∧
      pointerUses.HasParentLinks ∧
      pointerUses.changedNode 7 = some 6 ∧ pointerUses.changedNode 11 = some 11 ∧
      ∀ c ∈ [6, 11], ∃ n, pointerUses.HasLevel d (original d) c n ∧
        pointerUses.HasLevel d (pointerUses.reduced d) c n := by
  intro d sources
  have hfault : (pointerUses.performPlan sources d).fault = none := by decide +kernel
  have hleaves : pointerUses.HasLeaves d := by decide +kernel
  have hlinks : pointerUses.HasParentLinks := by decide +kernel
  have hderef : pointerUses.changedNode 7 = some 6 := by decide +kernel
  have hpassed : pointerUses.changedNode 11 = some 11 := by decide +kernel
  refine ⟨hfault, hleaves, hlinks, hderef, hpassed, fun c hc => ?_⟩
  rcases List.mem_pair.1 hc with rfl | rfl
  · obtain ⟨before, after, hbefore, hafter, -, hiff⟩ := level_kept_iff (i := 7) hfault hleaves
      hlinks (by decide) (by decide +kernel) hderef
    obtain rfl := hiff.2 ⟨by decide +kernel, fun hdenotes => absurd hdenotes
      (not_denotes hleaves (by decide +kernel) (by decide +kernel))⟩
    exact ⟨_, hbefore, hafter⟩
  · obtain ⟨before, after, hbefore, hafter, -, hiff⟩ := level_kept_iff (i := 11) hfault hleaves
      hlinks (by decide) (by decide +kernel) hpassed
    obtain rfl := hiff.2 ⟨by decide +kernel, fun _ => by decide +kernel⟩
    exact ⟨_, hbefore, hafter⟩

/-- The tokens of the text `int *q, *d, *e;` and, on a line of its own,
    `void u(void) { q = d = e; }`. -/
def chainedAssignment : Program where
  tokens := #[{ text := "int", file := "a.c", line := 1, column := 1, isName := true },
    { text := "*", file := "a.c", line := 1, column := 5 },
    { text := "q", file := "a.c", line := 1, column := 6, varId := 1, var := some 0,
      valueType := some 0, isName := true },
    { text := ",", file := "a.c", line := 1, column := 7 },
    { text := "*", file := "a.c", line := 1, column := 9 },
    { text := "d", file := "a.c", line := 1, column := 10, varId := 2, var := some 1,
      valueType := some 0, isName := true },
    { text := ",", file := "a.c", line := 1, column := 11 },
    { text := "*", file := "a.c", line := 1, column := 13 },
    { text := "e", file := "a.c", line := 1, column := 14, varId := 3, var := some 2,
      valueType := some 0, isName := true },
    { text := ";", file := "a.c", line := 1, column := 15 },
    { text := "void", file := "a.c", line := 2, column := 1, isName := true },
    { text := "u", file := "a.c", line := 2, column := 6, isName := true },
    { text := "(", file := "a.c", line := 2, column := 7, link := some 14 },
    { text := "void", file := "a.c", line := 2, column := 8, isName := true },
    { text := ")", file := "a.c", line := 2, column := 12, link := some 12 },
    { text := "\x7b", file := "a.c", line := 2, column := 14, link := some 22 },
    { text := "q", file := "a.c", line := 2, column := 16, varId := 1, var := some 0,
      valueType := some 0, parent := some 17, isName := true },
    { text := "=", file := "a.c", line := 2, column := 18, valueType := some 0, operand1 := some 16,
      operand2 := some 19, isAssignmentOp := true },
    { text := "d", file := "a.c", line := 2, column := 20, varId := 2, var := some 1,
      valueType := some 0, parent := some 19, isName := true },
    { text := "=", file := "a.c", line := 2, column := 22, valueType := some 0, operand1 := some 18,
      operand2 := some 20, parent := some 17, isAssignmentOp := true },
    { text := "e", file := "a.c", line := 2, column := 24, varId := 3, var := some 2,
      valueType := some 0, parent := some 19, isName := true },
    { text := ";", file := "a.c", line := 2, column := 25 },
    { text := "\x7d", file := "a.c", line := 2, column := 27, link := some 15 }]
  vars := #[{ nameToken := some 2, typeStart := some 0 },
    { nameToken := some 5, typeStart := some 0 }, { nameToken := some 8, typeStart := some 0 }]
  valueTypes := #[{ type := some "int", pointer := 1 }]

/-- The reduction of `d`, which is valid, writes `q = d = *e`: the value of the inner assignment,
    which `q` is assigned, is of level one before and of level zero behind it. -/
theorem chainedAssignment_level :
    let d : Decl := { key := 2, name := "d", level := 1 }
    let sources : Sources := fun _ =>
      .ok "int *q, *d, *e;\nvoid u(void) \x7b q = d = e; \x7d\n"
    (chainedAssignment.collect {}).table.isValid d.key = true ∧
      (chainedAssignment.performPlan sources d).fault = none ∧
      (chainedAssignment.performPlan sources d).script.recorded "a.c" =
        [⟨8, 9, "", 1⟩, ⟨39, 39, "*", 2⟩] ∧
      chainedAssignment.HasLeaves d ∧ chainedAssignment.HasParentLinks ∧
      chainedAssignment.IsValueSite d 18 (some 18) ∧
      chainedAssignment.changedNode 18 = some 19 ∧ chainedAssignment.parent (some 19) = some 17 ∧
      chainedAssignment.HasLevel d (original d) 19 1 ∧
      chainedAssignment.HasLevel d (chainedAssignment.reduced d) 19 0 ∧
      ¬ ∃ n, chainedAssignment.HasLevel d (original d) 19 n ∧
        chainedAssignment.HasLevel d (chainedAssignment.reduced d) 19 n := by
  intro d sources
  have hfault : (chainedAssignment.performPlan sources d).fault = none := by decide +kernel
  have hleaves : chainedAssignment.HasLeaves d := by decide +kernel
  have hsite : chainedAssignment.IsValueSite d 18 (some 18) := by decide +kernel
  have huse : chainedAssignment.use (some 18) = .assigned (some 19) true := by decide +kernel
  obtain ⟨hbefore, hafter, -⟩ :=
    hsite.hasLevel_assignment (performPlan_recordAll hfault).1 hleaves huse
  refine ⟨by decide +kernel, hfault, by decide +kernel, hleaves, by decide +kernel, hsite,
    by decide +kernel, by decide +kernel, hbefore, hafter, ?_⟩
  rintro ⟨n, hn, hn'⟩
  have hone := hn.unique hbefore
  have hzero := hn'.unique hafter
  simp [d] at hone hzero
  omega

end Program

end Indirection
