import Indirection.Proofs.Supplying

/-!
# Which braces are gone into

At the end of the plan for a field the initializers of all variables are taken up, one after the
other, and no braces are gone into twice. Main definitions:

* `Program.walkBefore` — the walk for a field through the initializers at the first tokens;
* `Program.HasSpelledBraces` — a variable of record type has an initializer in braces in which each
  entry is for a member;
* `Program.endBefore` — what the end of a plan does for the variables among the first tokens;
* `Program.narrowEach` — some expressions lose a level, one after the other.

Main statements: `mem_seen_walkBefore` — the walk goes only into braces that are nested in those it
comes to; `supplied_iff`, `supplied_iff_mem_valuesFor` — which values it supplies for a field where
all braces are spelled; `braces_narrowed` — of the values in a brace initializer exactly those for
the reduced declaration are narrowed, but for braces that have been gone into before.
`sharedBraces_not_narrowed` shows such a value.
-/

namespace Indirection.Program

variable {u : Program} {sources : Sources} {d : Decl}

/-! ### The walk through a program -/

/-- What the walk for the field of key `key` does at the token at `i`. -/
def walkStep (u : Program) (key : Int) (w : BraceWalk) (i : Nat) : BraceWalk :=
  if w.found.fault.isSome || u.declKey (some i) = key then w
  else
    match u.bracesOf? (some i) with
    | some (o, r, k) =>
      let inner := u.enterBraces key (u.size + 1) w.seen o r k
      { found := w.found ++ inner.found, seen := inner.seen }
    | none => w

/-- The walk for the field of key `key` through the initializers at the first `n` tokens. -/
def walkBefore (u : Program) (key : Int) (n : Nat) : BraceWalk :=
  (List.range n).foldl (u.walkStep key) {}

/-- The walk over one more token takes one more step. -/
theorem walkBefore_succ (key : Int) (n : Nat) :
    u.walkBefore key (n + 1) = u.walkStep key (u.walkBefore key n) n := by
  rw [walkBefore, List.range_succ, List.foldl_append]
  rfl

/-- The values for a field are what the walk over all tokens finds. -/
theorem fieldValues_eq (key : Int) : u.fieldValues key = (u.walkBefore key u.size).found := rfl

/-- The walk goes into the braces of a variable that is not of the field's key. -/
theorem walkBefore_succ_of_braces {key : Int} {n o r k : Nat}
    (hfault : (u.walkBefore key n).found.fault = none) (hkey : u.declKey (some n) ≠ key)
    (hbraces : u.bracesOf? (some n) = some (o, r, k)) :
    let inner := u.enterBraces key (u.size + 1) (u.walkBefore key n).seen o r k
    u.walkBefore key (n + 1) =
      { found := (u.walkBefore key n).found ++ inner.found, seen := inner.seen } := by
  rw [walkBefore_succ, walkStep, if_neg (by simp [hfault, hkey]), hbraces]

/-- At any other token it does nothing. -/
theorem walkBefore_succ_cases (key : Int) (n : Nat) :
    u.walkBefore key (n + 1) = u.walkBefore key n ∨
      ∃ o r k, u.bracesOf? (some n) = some (o, r, k) ∧
        (u.walkBefore key n).found.fault = none ∧
        let inner := u.enterBraces key (u.size + 1) (u.walkBefore key n).seen o r k
        u.walkBefore key (n + 1) =
          { found := (u.walkBefore key n).found ++ inner.found, seen := inner.seen } := by
  by_cases hstop : (u.walkBefore key n).found.fault.isSome || u.declKey (some n) = key
  · left
    rw [walkBefore_succ, walkStep, if_pos hstop]
  · simp only [Bool.or_eq_true, not_or, Option.not_isSome_iff_eq_none, decide_eq_true_eq] at hstop
    cases hbraces : u.bracesOf? (some n) with
    | none =>
      left
      rw [walkBefore_succ, walkStep, hbraces]
      split <;> rfl
    | some b =>
      exact .inr ⟨_, _, _, rfl, hstop.1, walkBefore_succ_of_braces hstop.1 hstop.2 hbraces⟩

/-- A fault of the walk stays. -/
theorem walkBefore_fault {key : Int} {n m : Nat} (hle : n ≤ m)
    (h : (u.walkBefore key m).found.fault = none) : (u.walkBefore key n).found.fault = none := by
  induction m, hle using Nat.le_induction with
  | base => exact h
  | succ m hle ih =>
    refine ih ?_
    rcases u.walkBefore_succ_cases key m with hsame | ⟨_, _, _, -, hfault, -⟩
    · rwa [hsame] at h
    · exact hfault

/-- What the walk has found stays. -/
theorem mem_walkBefore_of_le {key : Int} {n m : Nat} (hle : n ≤ m) {p : FieldPart}
    (h : p ∈ (u.walkBefore key n).found.items) : p ∈ (u.walkBefore key m).found.items := by
  induction m, hle using Nat.le_induction with
  | base => exact h
  | succ m hle ih =>
    rcases u.walkBefore_succ_cases key m with hsame | ⟨_, _, _, -, hfault, hinto⟩
    · rwa [hsame]
    · rw [hinto, Trail.append_of_fault_none hfault]
      exact List.mem_append_left _ ih

/-- What comes to hold along the walk comes to hold in the braces of a variable. -/
theorem exists_step_of_walkBefore {key : Int} {n : Nat} {P : BraceWalk → Prop} (hstart : ¬ P {})
    (h : P (u.walkBefore key n)) :
    ∃ i < n, ∃ o r k, u.bracesOf? (some i) = some (o, r, k) ∧ ¬ P (u.walkBefore key i) ∧
      let inner := u.enterBraces key (u.size + 1) (u.walkBefore key i).seen o r k
      P { found := (u.walkBefore key i).found ++ inner.found, seen := inner.seen } := by
  induction n with
  | zero => exact absurd h hstart
  | succ n ih =>
    by_cases hbefore : P (u.walkBefore key n)
    · obtain ⟨i, hi, hrest⟩ := ih hbefore
      exact ⟨i, by omega, hrest⟩
    · rcases u.walkBefore_succ_cases key n with hsame | ⟨o, r, k, hbraces, -, hinto⟩
      · exact absurd (hsame ▸ h) hbefore
      · rw [hinto] at h
        exact ⟨n, Nat.lt_succ_self n, o, r, k, hbraces, hbefore, h⟩

/-- What the walk has found, it has found in the braces of a variable. -/
theorem exists_of_mem_walkBefore {key : Int} {n : Nat} {p : FieldPart}
    (h : p ∈ (u.walkBefore key n).found.items) :
    ∃ i < n, ∃ o r k, u.bracesOf? (some i) = some (o, r, k) ∧
      p ∈ (u.enterBraces key (u.size + 1) (u.walkBefore key i).seen o r k).found.items := by
  obtain ⟨i, hi, o, r, k, hbraces, hbefore, hp⟩ :=
    exists_step_of_walkBefore (P := fun w => p ∈ w.found.items) List.not_mem_nil h
  exact ⟨i, hi, o, r, k, hbraces, (Trail.mem_items_append hp).resolve_left hbefore⟩

/-! ### Braces in braces -/

/-- The value of a supply is that of an element. -/
theorem exists_of_mem_suppliesFrom {members : List Nat} {cursor : Option Nat}
    {es : List (Nat × Nat)} {v : Nat} {value : Ref}
    (h : .member v value ∈ (u.suppliesFrom members cursor es).items) :
    ∃ e ∈ es, (u.head e).value = value := by
  induction es generalizing cursor with
  | nil => cases h
  | cons e rest ih =>
    have hrest {cursor : Option Nat}
        (hmem : .member v value ∈ (u.suppliesFrom members cursor rest).items) :
        ∃ e' ∈ e :: rest, (u.head e').value = value := by
      obtain ⟨e', he', hvalue⟩ := ih hmem
      exact ⟨e', List.mem_cons_of_mem _ he', hvalue⟩
    have hfirst {w : Nat} {cursor : Option Nat}
        (hmem : .member v value ∈ (Trail.one (Supply.member w (u.designated e.1 e.2).2) ++
          u.suppliesFrom members cursor rest).items) :
        ∃ e' ∈ e :: rest, (u.head e').value = value := by
      rcases Trail.mem_items_append hmem with hmem | hmem
      · rw [Trail.items_one, List.mem_singleton] at hmem
        exact ⟨e, List.mem_cons_self, (Supply.member.inj hmem).2.symm⟩
      · exact hrest hmem
    -- an element that names no member, one for a member, and one behind the last member
    rw [suppliesFrom] at h
    dsimp only at h
    split at h
    · rcases Trail.mem_items_append h with hmem | hmem
      · rw [Trail.items_one, List.mem_singleton] at hmem
        cases hmem
      · exact hrest hmem
    · split at h
      · split at h
        · exact hfirst h
        · cases h
      · split at h
        · exact hfirst h
        · cases h

/-- The braces that stand in others are the values of elements. -/
theorem exists_of_nested_mem_parts {key : Int} {o record rank o' r k : Nat}
    (h : .nested o' r k ∈ (u.parts key o record rank).items) :
    ∃ es e, u.elements o = .ok es ∧ e ∈ es ∧ (u.head e).value = some o' ∧
      u.text (some o') = "\x7b" := by
  rw [parts] at h
  cases hes : u.elements o with
  | error f => simp [hes, Trail.ofExcept] at h
  | ok es =>
    simp only [hes, Trail.ofExcept] at h
    cases rank with
    | succ rank =>
      -- in an array of records each value in braces is gone into
      obtain ⟨e, he, hpart⟩ := List.mem_filterMap.1 h
      cases hvalue : (u.designated e.1 e.2).2 with
      | none => simp [hvalue] at hpart
      | some o'' =>
        simp only [hvalue] at hpart
        split at hpart
        · rename_i hbrace
          obtain ⟨rfl, -, -⟩ := FieldPart.nested.inj (Option.some.inj hpart)
          exact ⟨es, e, rfl, he, hvalue, hbrace⟩
        · cases hpart
    | zero =>
      obtain ⟨supply, hsupply, hpart⟩ := List.mem_flatMap.1 h
      cases supply with
      | unknown name =>
        change FieldPart.nested o' r k ∈ [FieldPart.note _] at hpart
        simp at hpart
      | member v value =>
        -- in a record those for members that are records
        obtain ⟨e, he, hvalue⟩ := exists_of_mem_suppliesFrom hsupply
        unfold fieldParts at hpart
        dsimp only at hpart
        split at hpart
        · simp at hpart
        · split at hpart
          · split at hpart
            · rename_i hbrace
              simp only [List.mem_singleton, FieldPart.nested.injEq] at hpart
              obtain ⟨rfl, -, -⟩ := hpart
              simp only [Bool.and_eq_true, decide_eq_true_eq] at hbrace
              exact ⟨es, e, rfl, he, hvalue, hbrace.1⟩
            · cases hpart
          · cases hpart

/-- What stands in a nested part stands in the braces around it. -/
theorem Nests.of_part {key : Int} {o record rank o' r k : Nat}
    (h : .nested o' r k ∈ (u.parts key o record rank).items) {b : Nat} (hb : u.Nests o' b) :
    u.Nests o b := by
  induction hb with
  | refl =>
    obtain ⟨es, e, hes, he, hvalue, hbrace⟩ := exists_of_nested_mem_parts h
    exact .step .refl hes he hvalue hbrace
  | step _ hes he hvalue hbrace ih => exact .step ih hes he hvalue hbrace

/-- The walk into braces goes only into those that are nested in them. -/
theorem mem_seen_enterBraces {key : Int} {depth : Nat} {seen : List Nat} {o record rank b : Nat}
    (h : b ∈ (u.enterBraces key depth seen o record rank).seen) : b ∈ seen ∨ u.Nests o b := by
  induction depth generalizing seen o record rank b with
  | zero => exact .inl h
  | succ depth ih =>
    -- an invariant of the walk through the parts
    have hparts (parts : List FieldPart) (w : BraceWalk)
        (hmem : ∀ p ∈ parts, p ∈ (u.parts key o record rank).items)
        (hw : ∀ b ∈ w.seen, b ∈ seen ∨ u.Nests o b) :
        ∀ b ∈ (parts.foldl (u.enterPart key depth) w).seen, b ∈ seen ∨ u.Nests o b := by
      induction parts generalizing w with
      | nil => exact hw
      | cons p rest ihparts =>
        rw [List.foldl_cons]
        refine ihparts _ (fun p hp => hmem p (List.mem_cons_of_mem _ hp)) fun b hb => ?_
        cases p with
        | value t => exact hw b hb
        | note e => exact hw b hb
        | nested o' r k =>
          rcases ih hb with hb | hb
          · exact hw b hb
          · exact .inr (hb.of_part (hmem _ List.mem_cons_self))
    rw [enterBraces_succ] at h
    split at h
    · exact .inl h
    · refine hparts _ _ (fun p hp => hp) (fun b hb => ?_) b h
      rcases List.mem_cons.1 hb with rfl | hb
      · exact .inr .refl
      · exact .inl hb

/-- The walk through a program has been only in braces that are nested in the initializers it has
    come to. -/
theorem mem_seen_walkBefore {key : Int} {n b : Nat} (h : b ∈ (u.walkBefore key n).seen) :
    ∃ j < n, ∃ o r k, u.bracesOf? (some j) = some (o, r, k) ∧ u.Nests o b := by
  obtain ⟨j, hj, o, r, k, hbraces, hbefore, hb⟩ :=
    exists_step_of_walkBefore (P := fun w => b ∈ w.seen) List.not_mem_nil h
  exact ⟨j, hj, o, r, k, hbraces, (mem_seen_enterBraces hb).resolve_left hbefore⟩

/-! ### Spelled braces -/

/-- The braces that the walk comes to are the initializer of a variable without a star whose type
    names a record. -/
theorem bracesOf?_eq_some_iff {i o r k : Nat} :
    u.bracesOf? (some i) = some (o, r, k) ↔
      u.isDeclaratorName (some i) = true ∧ u.stars (some i) = [] ∧
        u.recordTypeScope (some i) = some r ∧ u.initializer (some i) = some o ∧
        u.text (some o) = "\x7b" ∧ u.arrayRank (some i) = k := by
  constructor
  · intro h
    unfold bracesOf? at h
    split at h
    · cases h
    · rename_i hname
      split at h
      · rename_i record opening hrecord hinit
        split at h
        · rename_i hbrace
          obtain ⟨rfl, rfl, rfl⟩ := by simpa using h
          simp only [Bool.or_eq_true, Bool.not_eq_true', not_or, Bool.not_eq_false,
            List.isEmpty_iff] at hname
          exact ⟨hname.1, hname.2, hrecord, hinit, hbrace, rfl⟩
        · cases h
      · cases h
  · rintro ⟨hname, hstars, hrecord, hinit, hbrace, rfl⟩
    simp [bracesOf?, hname, hstars, hrecord, hinit, hbrace]

/-- Whether the name at `i` declares a variable without a star whose elements are records `record`,
    with an initializer in the braces from `o` to `c`. These spell the entries `es`, each of which
    is for a member, with regard to the field of key `key`. -/
structure HasSpelledBraces (u : Program) (key : Int) (i o c record : Nat) (es : Entries) :
    Prop where
  name : u.isDeclaratorName (some i) = true
  stars : u.stars (some i) = []
  type : u.recordTypeScope (some i) = some record
  initializer : u.initializer (some i) = some o
  brace : u.text (some o) = "\x7b"
  link : u.link (some o) = some c
  spelled : u.Spelled (o + 1) c es
  fits : u.fits key (.records record (u.arrayRank (some i))) 0 es = true

namespace HasSpelledBraces

variable {key : Int} {i o c r : Nat} {es : Entries} (h : u.HasSpelledBraces key i o c r es)

include h

/-- The braces of a declarator of record type are those behind its initializer. -/
theorem bracesOf?_eq : u.bracesOf? (some i) = some (o, r, u.arrayRank (some i)) :=
  bracesOf?_eq_some_iff.2 ⟨h.name, h.stars, h.type, h.initializer, h.brace, rfl⟩

/-- Going into the braces finds what remains for the field. -/
theorem enterBraces_eq (seen : List Nat) : ∃ found seen',
    u.enterBraces key (u.size + 1) seen o r (u.arrayRank (some i)) =
        { found := { items := found }, seen := seen' } ∧
      u.Yields found (u.remaining key seen o r (u.arrayRank (some i)) es) := by
  have hc : c < u.size := lt_size_of_text (by simp [h.spelled.close_text])
  have hfinds : u.Finds key (u.size + 1) [.nested o r (u.arrayRank (some i))] (o :: es.openings)
      fun seen => u.remaining key seen o r (u.arrayRank (some i)) es := by
    refine .nested (parts_of_spelled h.link h.spelled h.fits) (fun hmem => ?_)
      (finds_of_spelled h.spelled h.fits (by omega))
    have := h.spelled.openings_between hmem
    omega
  obtain ⟨found, seen', hwalk, -, -, hyields⟩ := hfinds.walk { seen := seen }
  exact ⟨found, seen', hwalk, hyields⟩

/-- The expressions for the field that remain stand in the order of the source. -/
theorem pairwise_remaining (seen : List Nat) :
    (u.remaining key seen o r (u.arrayRank (some i)) es).Pairwise fun a b => a.2 < b.1 :=
  h.spelled.scalars_pairwise.sublist
    ((remaining_sublist _ _ _ _ _ _).trans (valuesFor_sublist _ _ _ _))

/-- If brackets are nested and names stand in their place, none of the braces has been gone into
    for a variable before this one. -/
theorem not_mem_seen (hnested : u.HasNestedBrackets) (hunnamed : u.HasUnnamedBrackets)
    (hplace : u.HasDeclaratorsInPlace) {b : Nat} (hb : b ∈ o :: es.openings) :
    b ∉ (u.walkBefore key i).seen := by
  intro hseen
  obtain ⟨j, hj, o', r', k', hbraces, hnests⟩ := mem_seen_walkBefore hseen
  obtain ⟨hname', -, -, hinit', hbrace', -⟩ := bracesOf?_eq_some_iff.1 hbraces
  have hbetween : o ≤ b ∧ b < c := by
    rcases List.mem_cons.1 hb with rfl | hb
    · exact ⟨Nat.le_refl _, h.spelled.le⟩
    · have := h.spelled.openings_between hb
      omega
  exact not_nests_of_declared hnested hunnamed hplace hj hname' h.name hinit' h.initializer hbrace'
    h.brace h.link hbetween.1 hbetween.2 hnests

/-- In front of a declarator, nothing of what its braces supply was entered before. -/
theorem remaining_eq (hnested : u.HasNestedBrackets) (hunnamed : u.HasUnnamedBrackets)
    (hplace : u.HasDeclaratorsInPlace) :
    u.remaining key (u.walkBefore key i).seen o r (u.arrayRank (some i)) es =
      u.valuesFor key (.records r (u.arrayRank (some i))) 0 es :=
  remaining_eq_valuesFor fun _ hb => h.not_mem_seen hnested hunnamed hplace hb

/-- A variable that has braces is not the declaration whose plan has no fault. -/
theorem declKey_ne (hplan : (u.plan d).fault = none) : u.declKey (some i) ≠ d.key := fun hkey =>
  stars_ne_nil hplan (role_eq_declarator.2 ⟨hkey, h.name⟩) h.stars

end HasSpelledBraces

/-! ### The end of a plan -/

/-- What the end of the plan for `d` does for the initializers at the first `n` tokens. -/
def endBefore (u : Program) (d : Decl) (type? : Option String) (n : Nat) : Trail Step :=
  (u.walkBefore d.key n).found.bind (u.rewriteField type?)

/-- The end of a plan is what it does for all initializers. -/
theorem planEnd_eq_endBefore (h : (u.plan d).fault = none) (hfield : d.isField = true) :
    u.planEnd d (u.knownBefore d u.size) = u.endBefore d (u.declaredType d) u.size := by
  have hend := (plan_of_fault_none h).2.1
  have htype : (u.knownBefore d u.size).type? = u.declaredType d := type?_knownBefore u d u.size
  unfold planEnd at hend ⊢
  split at hend
  · cases hend
  · rename_i hdeclared
    rw [if_neg hdeclared, if_neg (by simp [hfield])]
    rw [if_neg (by simp [hfield])] at hend
    split at hend
    · cases hend
    · rename_i hrecord
      rw [htype, fieldValues_eq, endBefore]

/-- The walk of a plan without a fault has none. -/
theorem fault_walk_of_plan (h : (u.plan d).fault = none) (hfield : d.isField = true) :
    (u.walkBefore d.key u.size).found.fault = none := by
  have hend := (plan_of_fault_none h).2.1
  rw [planEnd_eq_endBefore h hfield] at hend
  exact (Trail.bind_of_fault_none hend).1

/-- The end of a plan without a fault has none for the initializers at the first tokens either. -/
theorem endBefore_fault {type? : Option String} {n m : Nat} (hle : n ≤ m)
    (h : (u.endBefore d type? m).fault = none) : (u.endBefore d type? n).fault = none := by
  induction m, hle using Nat.le_induction with
  | base => exact h
  | succ m hle ih =>
    refine ih ?_
    rw [endBefore] at h
    rcases u.walkBefore_succ_cases d.key m with hsame | ⟨_, _, _, -, hfault, hinto⟩
    · rwa [hsame] at h
    · rw [hinto, Trail.bind_append hfault] at h
      exact ((Trail.fault_append_eq_none _ _).1 h).1

/-- What the end of a plan does for spelled braces: it narrows the values for the field that
    remain. -/
theorem endBefore_succ {type? : Option String} {i o c r : Nat} {es : Entries}
    (hfault : (u.walkBefore d.key i).found.fault = none) (hkey : u.declKey (some i) ≠ d.key)
    (h : u.HasSpelledBraces d.key i o c r es) :
    u.endBefore d type? (i + 1) = u.endBefore d type? i ++
      .concat (u.narrowRange type?)
        ((u.remaining d.key (u.walkBefore d.key i).seen o r (u.arrayRank (some i)) es).map
          Range.between) := by
  obtain ⟨found, seen, henter, hyields⟩ := h.enterBraces_eq (u.walkBefore d.key i).seen
  have hinto := walkBefore_succ_of_braces hfault hkey h.bracesOf?_eq
  rw [henter] at hinto
  rw [endBefore, hinto, Trail.bind_append hfault, Trail.bind_items, hyields.rewrite]
  rfl

/-- At the end of a plan nothing is done for a token that has no such braces. -/
theorem endBefore_of_none {type? : Option String} {i : Nat} (h : u.bracesOf? (some i) = none) :
    u.endBefore d type? (i + 1) = u.endBefore d type? i := by
  rcases u.walkBefore_succ_cases d.key i with hsame | ⟨_, _, _, hbraces, -⟩
  · rw [endBefore, hsame, endBefore]
  · simp [h] at hbraces

/-! ### What a field is supplied with -/

section Supplied

variable (hplan : (u.plan d).fault = none)
  (hall : ∀ i o r k, u.bracesOf? (some i) = some (o, r, k) →
    ∃ c es, u.HasSpelledBraces d.key i o c r es)

include hplan hall

/-- Where the braces of all variables are spelled, the values that a field is supplied with are the
    expressions for it that remain when the walk comes to their braces. -/
theorem supplied_iff {root : Nat} {range : Range} :
    u.Supplied d root range ↔
      d.isField = true ∧ u.rangeRoot range.first range.last = some root ∧
        ∃ i o c r es e, u.HasSpelledBraces d.key i o c r es ∧
          e ∈ u.remaining d.key (u.walkBefore d.key i).seen o r (u.arrayRank (some i)) es ∧
          range = .between e := by
  constructor
  · rintro ⟨hfield, start, hstart, hrange, hroot⟩
    refine ⟨hfield, hroot, ?_⟩
    rw [fieldValues_eq] at hstart
    obtain ⟨i, -, o, r, k, hbraces, hpart⟩ := exists_of_mem_walkBefore hstart
    obtain ⟨c, es, hspelled⟩ := hall i o r k hbraces
    obtain rfl := (bracesOf?_eq_some_iff.1 hbraces).2.2.2.2.2
    obtain ⟨found, seen, henter, hyields⟩ :=
      hspelled.enterBraces_eq (u.walkBefore d.key i).seen
    rw [henter] at hpart
    obtain ⟨e, he, heq⟩ := hyields.mem_iff.1 ⟨start, hpart, hrange⟩
    exact ⟨i, o, c, r, es, e, hspelled, he, heq⟩
  · rintro ⟨hfield, hroot, i, o, c, r, es, e, hspelled, he, heq⟩
    have hi : i < u.size := lt_size_of_isDeclaratorName hspelled.name
    have hfault : (u.walkBefore d.key i).found.fault = none :=
      walkBefore_fault hi.le (fault_walk_of_plan hplan hfield)
    obtain ⟨found, seen, henter, hyields⟩ :=
      hspelled.enterBraces_eq (u.walkBefore d.key i).seen
    obtain ⟨start, hstart, hrange⟩ := hyields.mem_iff.2 ⟨e, he, heq⟩
    refine ⟨hfield, start, ?_, hrange, hroot⟩
    -- the value is found at this variable and stays
    rw [fieldValues_eq]
    refine mem_walkBefore_of_le (show i + 1 ≤ u.size from hi) ?_
    have hinto :=
      walkBefore_succ_of_braces hfault (hspelled.declKey_ne hplan) hspelled.bracesOf?_eq
    rw [hinto, henter, Trail.append_of_fault_none hfault]
    exact List.mem_append_right _ hstart

/-- Where also brackets are nested and names stand in their place, these are all expressions in
    braces for the field. -/
theorem supplied_iff_mem_valuesFor (hnested : u.HasNestedBrackets)
    (hunnamed : u.HasUnnamedBrackets) (hplace : u.HasDeclaratorsInPlace) {root : Nat}
    {range : Range} :
    u.Supplied d root range ↔
      d.isField = true ∧ u.rangeRoot range.first range.last = some root ∧
        ∃ i o c r es e, u.HasSpelledBraces d.key i o c r es ∧
          e ∈ u.valuesFor d.key (.records r (u.arrayRank (some i))) 0 es ∧ range = .between e := by
  rw [supplied_iff hplan hall]
  refine and_congr_right fun _ => and_congr_right fun _ => ?_
  constructor
  · rintro ⟨i, o, c, r, es, e, hspelled, he, heq⟩
    rw [hspelled.remaining_eq hnested hunnamed hplace] at he
    exact ⟨i, o, c, r, es, e, hspelled, he, heq⟩
  · rintro ⟨i, o, c, r, es, e, hspelled, he, heq⟩
    rw [← hspelled.remaining_eq hnested hunnamed hplace] at he
    exact ⟨i, o, c, r, es, e, hspelled, he, heq⟩

end Supplied

/-! ### Narrowed values -/

/-- The changes for some expressions, one after the other: each loses a level at the root of its
    tree. -/
def narrowEach (u : Program) (type? : Option String) (values : List (Nat × Nat)) : Trail Step :=
  .concat (fun e => u.narrow type? (u.rangeRoot (some e.1) (some e.2)) (.between e)) values

/-- Expressions can be narrowed if each of them has a root. -/
theorem narrowEach_of_fault_none {type? : Option String} {values : List (Nat × Nat)}
    (h : (Trail.concat (u.narrowRange type?) (values.map Range.between)).fault = none) :
    (∀ e ∈ values, (u.rangeRoot (some e.1) (some e.2)).isSome = true) ∧
      Trail.concat (u.narrowRange type?) (values.map Range.between) =
        u.narrowEach type? values := by
  rw [Trail.concat_map] at h ⊢
  have hroot : ∀ e ∈ values, (u.rangeRoot (some e.1) (some e.2)).isSome = true := by
    intro e he
    have hfault := Trail.fault_concat_eq_none.1 h e he
    unfold narrowRange at hfault
    split at hfault
    · rename_i root hroot
      exact Option.isSome_of_mem hroot
    · cases hfault
  refine ⟨hroot, Trail.concat_congr fun e he => ?_⟩
  obtain ⟨root, hroot⟩ := Option.isSome_iff_exists.1 (hroot e he)
  have hbetween : u.rangeRoot (Range.between e).first (Range.between e).last = some root := hroot
  rw [narrowRange, hbetween, hroot]

/-- **Values in braces.** Take a declaration whose reduction runs through.

    At the end of the plan for a field the initializers of the variables are taken up, one after the
    other. For one in braces whose variable has no star and elements of record type, and whose
    entries are for members, the plan narrows exactly the values that the braces supply for the
    field, each at the root of its tree and in the order of the source. An entry with a designator
    is for the member that it names and any other for the member behind that of the entry before it;
    braces in it are taken up for what they are for.

    * What stands in braces of a record that have been gone into for a variable before is left out.
    * These are nested in the initializer of such a variable.
    * There are none in a program with nested brackets, none of them a name, and with names in
      declarators only where they can stand.

    In the initializer in braces of a declarator of the declaration itself, the plan narrows exactly
    the expressions, in the order of the source. -/
theorem braces_narrowed (h : (u.performPlan sources d).fault = none) :
    (d.isField = true →
      u.planEnd d (u.knownBefore d u.size) = u.endBefore d (u.declaredType d) u.size ∧
      u.endBefore d (u.declaredType d) 0 = .nil ∧
      (∀ i, u.bracesOf? (some i) = none →
        u.endBefore d (u.declaredType d) (i + 1) = u.endBefore d (u.declaredType d) i) ∧
      (∀ i o c r es, u.HasSpelledBraces d.key i o c r es →
        let seen := (u.walkBefore d.key i).seen
        let supplied := u.valuesFor d.key (.records r (u.arrayRank (some i))) 0 es
        let values := u.remaining d.key seen o r (u.arrayRank (some i)) es
        u.endBefore d (u.declaredType d) (i + 1) =
            u.endBefore d (u.declaredType d) i ++ u.narrowEach (u.declaredType d) values ∧
          (∀ e ∈ values, (u.rangeRoot (some e.1) (some e.2)).isSome = true) ∧
          (values.Pairwise fun a b => a.2 < b.1) ∧ values.Sublist supplied ∧
          ((∀ b ∈ o :: es.openings, b ∉ seen) → values = supplied) ∧
          (u.HasNestedBrackets → u.HasUnnamedBrackets → u.HasDeclaratorsInPlace →
            ∀ b ∈ o :: es.openings, b ∉ seen)) ∧
      ∀ i, ∀ b ∈ (u.walkBefore d.key i).seen,
        ∃ j < i, ∃ o r k, u.bracesOf? (some j) = some (o, r, k) ∧ u.Nests o b) ∧
    ∀ t o c es, u.role d.key (some t) = .declarator → u.initializer (some t) = some o →
      u.text (some o) = "\x7b" → u.link (some o) = some c → u.Spelled (o + 1) c es →
      (∃ star, u.stepAt d t = .one (.change (.remove (some star))) ++
          u.narrowEach (u.knownBefore d (t + 1)).type? es.scalars) ∧
        (∀ e ∈ es.scalars, (u.rangeRoot (some e.1) (some e.2)).isSome = true) ∧
        es.scalars.Pairwise fun a b => a.2 < b.1 := by
  have hplan : (u.plan d).fault = none := (performPlan_recordAll h).1
  refine ⟨fun hfield => ⟨planEnd_eq_endBefore hplan hfield, rfl, fun i => endBefore_of_none,
    fun i o c r es hbraces => ?_, fun i b hb => mem_seen_walkBefore hb⟩, ?_⟩
  · intro seen supplied values
    have hi : i < u.size := lt_size_of_isDeclaratorName hbraces.name
    have hstep : u.endBefore d (u.declaredType d) (i + 1) = u.endBefore d (u.declaredType d) i ++
        .concat (u.narrowRange (u.declaredType d)) (values.map Range.between) :=
      endBefore_succ (walkBefore_fault hi.le (fault_walk_of_plan hplan hfield))
        (hbraces.declKey_ne hplan) hbraces
    -- the narrowings have no fault, since the whole end of the plan has none
    have hend := (plan_of_fault_none hplan).2.1
    rw [planEnd_eq_endBefore hplan hfield] at hend
    have hfault := endBefore_fault (show i + 1 ≤ u.size from hi) hend
    rw [hstep] at hfault
    obtain ⟨hroots, hnarrow⟩ :=
      narrowEach_of_fault_none ((Trail.fault_append_eq_none _ _).1 hfault).2
    rw [hnarrow] at hstep
    exact ⟨hstep, hroots, hbraces.pairwise_remaining _, remaining_sublist _ _ _ _ _ _,
      remaining_eq_valuesFor, fun hnested hunnamed hplace b hb =>
        hbraces.not_mem_seen hnested hunnamed hplace hb⟩
  · intro t o c es hrole hinit hbrace hlink hspelled
    obtain ⟨star, hstep⟩ := stepAt_of_initializer hplan hrole hinit
    rw [narrowInitializer, values_of_spelled hbrace hlink hspelled, Trail.bind_items] at hstep
    have hfault := (plan_of_fault_none hplan).1 t
      (lt_size_of_isDeclaratorName (role_eq_declarator.1 hrole).2)
    rw [hstep] at hfault
    obtain ⟨hroots, hnarrow⟩ :=
      narrowEach_of_fault_none ((Trail.fault_append_eq_none _ _).1 hfault).2
    exact ⟨⟨star, hnarrow ▸ hstep⟩, hroots, hspelled.scalars_pairwise⟩

/-- The tokens of the text `struct S { int n; int *f; };` and, on two lines of their own,
    `struct T { int m; struct S s[2]; } t =` and `  { 0, { { 1, q }, { .f = r } } };`. -/
def nestedRecords : Program where
  tokens := #[{ text := "struct", file := "a.c", line := 1, column := 1, isName := true },
    { text := "S", file := "a.c", line := 1, column := 8, isName := true },
    { text := "\x7b", file := "a.c", line := 1, column := 10, link := some 10 },
    { text := "int", file := "a.c", line := 1, column := 12, isName := true },
    { text := "n", file := "a.c", line := 1, column := 16, varId := 1, var := some 0,
      isName := true },
    { text := ";", file := "a.c", line := 1, column := 17 },
    { text := "int", file := "a.c", line := 1, column := 19, isName := true },
    { text := "*", file := "a.c", line := 1, column := 23 },
    { text := "f", file := "a.c", line := 1, column := 24, varId := 2, var := some 1,
      isName := true },
    { text := ";", file := "a.c", line := 1, column := 25 },
    { text := "\x7d", file := "a.c", line := 1, column := 27, link := some 2 },
    { text := ";", file := "a.c", line := 1, column := 28 },
    { text := "struct", file := "a.c", line := 2, column := 1, isName := true },
    { text := "T", file := "a.c", line := 2, column := 8, isName := true },
    { text := "\x7b", file := "a.c", line := 2, column := 10, link := some 25 },
    { text := "int", file := "a.c", line := 2, column := 12, isName := true },
    { text := "m", file := "a.c", line := 2, column := 16, varId := 3, var := some 2,
      isName := true },
    { text := ";", file := "a.c", line := 2, column := 17 },
    { text := "struct", file := "a.c", line := 2, column := 19, isName := true },
    { text := "S", file := "a.c", line := 2, column := 26, isName := true },
    { text := "s", file := "a.c", line := 2, column := 28, varId := 4, var := some 3,
      valueType := some 0, isName := true },
    { text := "[", file := "a.c", line := 2, column := 29, link := some 23 },
    { text := "2", file := "a.c", line := 2, column := 30, isNumber := true },
    { text := "]", file := "a.c", line := 2, column := 31, link := some 21 },
    { text := ";", file := "a.c", line := 2, column := 32 },
    { text := "\x7d", file := "a.c", line := 2, column := 34, link := some 14 },
    { text := "t", file := "a.c", line := 2, column := 36, varId := 5, var := some 4,
      valueType := some 1, parent := some 27, isName := true },
    { text := "=", file := "a.c", line := 2, column := 38, operand1 := some 26, operand2 := some 28,
      isAssignmentOp := true },
    { text := "\x7b", file := "a.c", line := 3, column := 3, link := some 45, operand1 := some 30,
      parent := some 27 },
    { text := "0", file := "a.c", line := 3, column := 5, parent := some 30, isNumber := true },
    { text := ",", file := "a.c", line := 3, column := 6, operand1 := some 29, operand2 := some 31,
      parent := some 28 },
    { text := "\x7b", file := "a.c", line := 3, column := 8, link := some 44, operand1 := some 37,
      parent := some 30 },
    { text := "\x7b", file := "a.c", line := 3, column := 10, link := some 36, operand1 := some 34,
      parent := some 37 },
    { text := "1", file := "a.c", line := 3, column := 12, parent := some 34, isNumber := true },
    { text := ",", file := "a.c", line := 3, column := 13, operand1 := some 33, operand2 := some 35,
      parent := some 32 },
    { text := "q", file := "a.c", line := 3, column := 15, parent := some 34, isName := true },
    { text := "\x7d", file := "a.c", line := 3, column := 17, link := some 32 },
    { text := ",", file := "a.c", line := 3, column := 18, operand1 := some 32, operand2 := some 38,
      parent := some 31 },
    { text := "\x7b", file := "a.c", line := 3, column := 20, link := some 43, operand1 := some 41,
      parent := some 37 },
    { text := ".", file := "a.c", line := 3, column := 22, operand1 := some 40, parent := some 41 },
    { text := "f", file := "a.c", line := 3, column := 23, varId := 2, var := some 1,
      parent := some 39, isName := true },
    { text := "=", file := "a.c", line := 3, column := 25, operand1 := some 39, operand2 := some 42,
      parent := some 38, isAssignmentOp := true },
    { text := "r", file := "a.c", line := 3, column := 27, parent := some 41, isName := true },
    { text := "\x7d", file := "a.c", line := 3, column := 29, link := some 38 },
    { text := "\x7d", file := "a.c", line := 3, column := 31, link := some 31 },
    { text := "\x7d", file := "a.c", line := 3, column := 33, link := some 28 },
    { text := ";", file := "a.c", line := 3, column := 34 }]
  vars := #[{ nameToken := some 4, typeStart := some 3, scope := some 1 },
    { nameToken := some 8, typeStart := some 6, scope := some 1 },
    { nameToken := some 16, scope := some 2 }, { nameToken := some 20, scope := some 2 },
    { nameToken := some 26, scope := some 0 }]
  scopes := #[{ type := some "Global", className := some "", members := [4] },
    { type := some "Struct", className := some "S", members := [0, 1] },
    { type := some "Struct", className := some "T", members := [2, 3] }]
  valueTypes := #[{ type := some "record", scope := some 1 },
    { type := some "record", scope := some 2 }]

/-- The entries of the braces at the end of `nestedRecords`. -/
def nestedRecords.entries : Entries :=
  .scalar none 29 29 (.braces none 31 44
    (.braces none 32 36 (.scalar none 33 33 (.scalar none 35 35 .nil))
      (.braces none 38 43 (.scalar (some "f") 42 42 .nil) .nil)) .nil)

/-- The braces of the first example are spelled. -/
theorem nestedRecords.spelled : nestedRecords.Spelled 29 45 nestedRecords.entries := by
  have hrun : ∀ i ∈ [29, 33, 35, 42], nestedRecords.Run i i := by
    have hplain : ∀ i ∈ [29, 33, 35, 42], nestedRecords.text (some i) ∉ openers ∧
        nestedRecords.text (some i) ∉ terminators := by decide +kernel
    exact fun i hi => .one (.single rfl (hplain i hi))
  have hcomma : ∀ i ∈ [30, 34, 37], nestedRecords.text (some i) = "," := by decide +kernel
  have hclose : ∀ i ∈ [36, 43, 44, 45], nestedRecords.text (some i) = "\x7d" := by decide +kernel
  have hfirst : ∀ i ∈ [29, 31, 32, 33, 35, 38],
      nestedRecords.text (some i) ∉ [".", "["] := by decide +kernel
  have hbrace : ∀ i ∈ [31, 32, 38], nestedRecords.text (some i) = "\x7b" := by decide +kernel
  have hscalar : ∀ i ∈ [29, 33, 35, 42],
      nestedRecords.text (some i) ≠ "\x7b" := by decide +kernel
  have hnamed : nestedRecords.Designates 39 42 (some "f") :=
    .member (by decide +kernel) (by decide +kernel) (by decide +kernel)
  have hpositional : nestedRecords.Spelled 33 36 (.scalar none 33 33 (.scalar none 35 35 .nil)) :=
    .scalar (.none (hfirst 33 (by decide))) (hrun 33 (by decide)) (hscalar 33 (by decide))
      (.inr (hcomma 34 (by decide))) (.comma (hcomma 34 (by decide))
        (.scalar (.none (hfirst 35 (by decide))) (hrun 35 (by decide)) (hscalar 35 (by decide))
          (.inl rfl) (.done (hclose 36 (by decide)))))
  have hdesignated : nestedRecords.Spelled 39 43 (.scalar (some "f") 42 42 .nil) :=
    .scalar hnamed (hrun 42 (by decide)) (hscalar 42 (by decide)) (.inl rfl)
      (.done (hclose 43 (by decide)))
  exact .scalar (.none (hfirst 29 (by decide))) (hrun 29 (by decide)) (hscalar 29 (by decide))
    (.inr (hcomma 30 (by decide))) (.comma (hcomma 30 (by decide))
      (.braces (.none (hfirst 31 (by decide))) (hbrace 31 (by decide)) (by decide +kernel)
        (.braces (.none (hfirst 32 (by decide))) (hbrace 32 (by decide)) (by decide +kernel)
          hpositional (.inr (hcomma 37 (by decide))) (.comma (hcomma 37 (by decide))
            (.braces (.none (hfirst 38 (by decide))) (hbrace 38 (by decide)) (by decide +kernel)
              hdesignated (.inl rfl) (.done (hclose 44 (by decide))))))
        (.inl rfl) (.done (hclose 45 (by decide)))))

/-- The tokens of the text `int *d[2] = { &x, y };`. -/
def pointerRow : Program where
  tokens := #[{ text := "int", file := "a.c", line := 1, column := 1, isName := true },
    { text := "*", file := "a.c", line := 1, column := 5 },
    { text := "d", file := "a.c", line := 1, column := 6, varId := 1, var := some 0,
      parent := some 3, isName := true },
    { text := "[", file := "a.c", line := 1, column := 7, link := some 5, operand1 := some 2,
      operand2 := some 4, parent := some 6 },
    { text := "2", file := "a.c", line := 1, column := 8, parent := some 3, isNumber := true },
    { text := "]", file := "a.c", line := 1, column := 9, link := some 3 },
    { text := "=", file := "a.c", line := 1, column := 11, operand1 := some 3, operand2 := some 7,
      isAssignmentOp := true },
    { text := "\x7b", file := "a.c", line := 1, column := 13, link := some 12, operand1 := some 10,
      parent := some 6 },
    { text := "&", file := "a.c", line := 1, column := 15, operand1 := some 9, parent := some 10 },
    { text := "x", file := "a.c", line := 1, column := 16, parent := some 8, isName := true },
    { text := ",", file := "a.c", line := 1, column := 17, operand1 := some 8, operand2 := some 11,
      parent := some 7 },
    { text := "y", file := "a.c", line := 1, column := 19, parent := some 10, isName := true },
    { text := "\x7d", file := "a.c", line := 1, column := 21, link := some 7 },
    { text := ";", file := "a.c", line := 1, column := 22 }]
  vars := #[{ nameToken := some 2, typeStart := some 0, scope := some 0 }]
  scopes := #[{ type := some "Global", className := some "", members := [0] }]

/-- The braces of the second example are spelled. -/
theorem pointerRow.spelled :
    pointerRow.Spelled 8 12 (.scalar none 8 9 (.scalar none 11 11 .nil)) := by
  have hplain : ∀ i ∈ [8, 9, 11], pointerRow.text (some i) ∉ openers ∧
      pointerRow.text (some i) ∉ terminators := by decide +kernel
  have hitem : ∀ i ∈ [8, 9, 11], pointerRow.Item i i := fun i hi => .single rfl (hplain i hi)
  have haddress : pointerRow.Run 8 9 := .cons (hitem 8 (by decide)) (.one (hitem 9 (by decide)))
  exact .scalar (.none (by decide +kernel)) haddress
    (by decide +kernel) (.inr (by decide +kernel)) (.comma (by decide +kernel)
      (.scalar (.none (by decide +kernel)) (.one (hitem 11 (by decide))) (by decide +kernel)
        (.inl rfl) (.done (by decide +kernel))))

/-- In the reduction of `S::f` the two expressions that the braces of `t` supply for it are
    narrowed: `q` by its place and `r` by its designator. In the reduction of an array of pointers
    both of its values are. -/
theorem braces_narrowed_nestedRecords_pointerRow :
    let f : Decl := { key := 2, name := "f", level := 1, isField := true, record := some "S" }
    let d : Decl := { key := 1, name := "d", level := 1, rank := 1 }
    let sources : Sources := fun _ => .ok (
      "struct S \x7b int n; int *f; \x7d;\n" ++
      "struct T \x7b int m; struct S s[2]; \x7d t =\n" ++
      "  \x7b 0, \x7b \x7b 1, q \x7d, \x7b .f = r \x7d \x7d \x7d;\n")
    let row : Sources := fun _ => .ok "int *d[2] = \x7b &x, y \x7d;"
    (nestedRecords.performPlan sources f).fault = none ∧
      nestedRecords.HasSpelledBraces 2 26 28 45 2 nestedRecords.entries ∧
      nestedRecords.HasNestedBrackets ∧ nestedRecords.HasUnnamedBrackets ∧
      nestedRecords.HasDeclaratorsInPlace ∧
      nestedRecords.valuesFor 2 (.records 2 0) 0 nestedRecords.entries = [(35, 35), (42, 42)] ∧
      nestedRecords.endBefore f (nestedRecords.declaredType f) 27 =
        nestedRecords.endBefore f (nestedRecords.declaredType f) 26 ++
          nestedRecords.narrowEach (nestedRecords.declaredType f) [(35, 35), (42, 42)] ∧
      (pointerRow.performPlan row d).fault = none ∧
      ∃ star, pointerRow.stepAt d 2 = .one (.change (.remove (some star))) ++
        pointerRow.narrowEach (pointerRow.knownBefore d 3).type? [(8, 9), (11, 11)] := by
  intro f d sources row
  have hfault : (nestedRecords.performPlan sources f).fault = none := by decide +kernel
  have hbraces : nestedRecords.HasSpelledBraces 2 26 28 45 2 nestedRecords.entries :=
    ⟨by decide +kernel, by decide +kernel, by decide +kernel, by decide +kernel, by decide +kernel,
      by decide +kernel, nestedRecords.spelled, by decide +kernel⟩
  have hnested : nestedRecords.HasNestedBrackets := by
    refine ⟨?_, by decide +kernel⟩
    constructor <;> decide +kernel
  have hunnamed : nestedRecords.HasUnnamedBrackets := by
    unfold HasUnnamedBrackets
    decide +kernel
  have hplace : nestedRecords.HasDeclaratorsInPlace := by
    unfold HasDeclaratorsInPlace
    decide +kernel
  have hvalues : nestedRecords.valuesFor 2 (.records 2 0) 0 nestedRecords.entries =
      [(35, 35), (42, 42)] := by decide +kernel
  have hrank : nestedRecords.arrayRank (some 26) = 0 := by decide +kernel
  obtain ⟨-, -, -, hnarrowed, -⟩ := (braces_narrowed hfault).1 rfl
  obtain ⟨hstep, -, -, -, hall, hfresh⟩ := hnarrowed 26 28 45 2 nestedRecords.entries hbraces
  rw [hall (hfresh hnested hunnamed hplace), hrank, hvalues] at hstep
  have hfault' : (pointerRow.performPlan row d).fault = none := by decide +kernel
  have hrow := ((braces_narrowed hfault').2 2 7 12 _ (by decide +kernel) (by decide +kernel)
    (by decide +kernel) (by decide +kernel) pointerRow.spelled).1
  exact ⟨hfault, hbraces, hnested, hunnamed, hplace, hvalues, hstep, hfault', hrow⟩

/-- The tokens of the texts `struct R { int *n; };`, `struct S { int *f; };`, `int *q;` and
    `struct T { struct R b; } t =` with `  { .b = { q } };` behind it, each on a line of its own.
    The name in the designator is the declarator of a variable of type `struct S`. -/
def sharedBraces : Program where
  tokens := #[{ text := "struct", file := "a.c", line := 1, column := 1, isName := true },
    { text := "R", file := "a.c", line := 1, column := 8, isName := true },
    { text := "\x7b", file := "a.c", line := 1, column := 10, link := some 7 },
    { text := "int", file := "a.c", line := 1, column := 12, isName := true },
    { text := "*", file := "a.c", line := 1, column := 16 },
    { text := "n", file := "a.c", line := 1, column := 17, varId := 1, var := some 0,
      isName := true },
    { text := ";", file := "a.c", line := 1, column := 18 },
    { text := "\x7d", file := "a.c", line := 1, column := 20, link := some 2 },
    { text := ";", file := "a.c", line := 1, column := 21 },
    { text := "struct", file := "a.c", line := 2, column := 1, isName := true },
    { text := "S", file := "a.c", line := 2, column := 8, isName := true },
    { text := "\x7b", file := "a.c", line := 2, column := 10, link := some 16 },
    { text := "int", file := "a.c", line := 2, column := 12, isName := true },
    { text := "*", file := "a.c", line := 2, column := 16 },
    { text := "f", file := "a.c", line := 2, column := 17, varId := 2, var := some 1,
      isName := true },
    { text := ";", file := "a.c", line := 2, column := 18 },
    { text := "\x7d", file := "a.c", line := 2, column := 20, link := some 11 },
    { text := ";", file := "a.c", line := 2, column := 21 },
    { text := "int", file := "a.c", line := 3, column := 1, isName := true },
    { text := "*", file := "a.c", line := 3, column := 5 },
    { text := "q", file := "a.c", line := 3, column := 6, varId := 3, var := some 2,
      isName := true },
    { text := ";", file := "a.c", line := 3, column := 7 },
    { text := "struct", file := "a.c", line := 4, column := 1, isName := true },
    { text := "T", file := "a.c", line := 4, column := 8, isName := true },
    { text := "\x7b", file := "a.c", line := 4, column := 10, link := some 29 },
    { text := "struct", file := "a.c", line := 4, column := 12, isName := true },
    { text := "R", file := "a.c", line := 4, column := 19, isName := true },
    { text := "b", file := "a.c", line := 4, column := 21, varId := 4, var := some 3,
      valueType := some 0, isName := true },
    { text := ";", file := "a.c", line := 4, column := 22 },
    { text := "\x7d", file := "a.c", line := 4, column := 24, link := some 24 },
    { text := "t", file := "a.c", line := 4, column := 26, varId := 5, var := some 4,
      valueType := some 2, parent := some 31, isName := true },
    { text := "=", file := "a.c", line := 4, column := 28, operand1 := some 30, operand2 := some 32,
      isAssignmentOp := true },
    { text := "\x7b", file := "a.c", line := 5, column := 3, link := some 39, operand1 := some 35,
      parent := some 31 },
    { text := ".", file := "a.c", line := 5, column := 5, operand1 := some 34, parent := some 35 },
    { text := "b", file := "a.c", line := 5, column := 6, varId := 6, var := some 5,
      valueType := some 1, parent := some 33, isName := true },
    { text := "=", file := "a.c", line := 5, column := 8, operand1 := some 33, operand2 := some 36,
      parent := some 32, isAssignmentOp := true },
    { text := "\x7b", file := "a.c", line := 5, column := 10, link := some 38, operand1 := some 37,
      parent := some 35 },
    { text := "q", file := "a.c", line := 5, column := 12, varId := 3, var := some 2,
      parent := some 36, isName := true },
    { text := "\x7d", file := "a.c", line := 5, column := 14, link := some 36 },
    { text := "\x7d", file := "a.c", line := 5, column := 16, link := some 32 },
    { text := ";", file := "a.c", line := 5, column := 17 }]
  vars := #[{ nameToken := some 5, typeStart := some 3, scope := some 1 },
    { nameToken := some 14, typeStart := some 12, scope := some 2 },
    { nameToken := some 20, typeStart := some 18, scope := some 0 },
    { nameToken := some 27, scope := some 3 }, { nameToken := some 30, scope := some 0 },
    { nameToken := some 34, scope := some 0 }]
  scopes := #[{ type := some "Global", className := some "", members := [2, 4] },
    { type := some "Struct", className := some "R", members := [0] },
    { type := some "Struct", className := some "S", members := [1] },
    { type := some "Struct", className := some "T", members := [3] }]
  valueTypes := #[{ type := some "record", scope := some 1 },
    { type := some "record", scope := some 2 }, { type := some "record", scope := some 3 }]

/-- The braces around `q` are the initializer of a `struct S`, for whose only member `f` they have
    `q`. They stand in the initializer of `t` as those of a `struct R`, and have been gone into for
    it. So nothing is narrowed in the reduction of `S::f`, which only removes a star. -/
theorem sharedBraces_not_narrowed :
    let f : Decl := { key := 2, name := "f", level := 1, isField := true, record := some "S" }
    let sources : Sources := fun _ => .ok (
      "struct R \x7b int *n; \x7d;\nstruct S \x7b int *f; \x7d;\nint *q;\n" ++
      "struct T \x7b struct R b; \x7d t =\n  \x7b .b = \x7b q \x7d \x7d;\n")
    let entries : Entries := .scalar none 37 37 .nil
    (sharedBraces.performPlan sources f).fault = none ∧
      sharedBraces.HasNestedBrackets ∧ sharedBraces.HasUnnamedBrackets ∧
      sharedBraces.members 2 = [1] ∧ sharedBraces.HasSpelledBraces 2 34 36 38 2 entries ∧
      sharedBraces.valuesFor 2 (.records 2 (sharedBraces.arrayRank (some 34))) 0 entries =
        [(37, 37)] ∧
      36 ∈ (sharedBraces.walkBefore 2 34).seen ∧
      sharedBraces.endBefore f (sharedBraces.declaredType f) 35 =
        sharedBraces.endBefore f (sharedBraces.declaredType f) 34 ∧
      (sharedBraces.performPlan sources f).script.recorded "a.c" = [⟨37, 38, "", 1⟩] := by
  intro f sources entries
  have hnested : sharedBraces.HasNestedBrackets := by
    refine ⟨?_, by decide +kernel⟩
    constructor <;> decide +kernel
  have hunnamed : sharedBraces.HasUnnamedBrackets := by
    unfold HasUnnamedBrackets
    decide +kernel
  have hrun : sharedBraces.Run 37 37 := .one (.inr (by decide +kernel))
  have hspelled : sharedBraces.Spelled 37 38 entries :=
    .scalar (.none (by decide +kernel)) hrun (by decide +kernel) (.inl rfl)
      (.done (by decide +kernel))
  have hbraces : sharedBraces.HasSpelledBraces 2 34 36 38 2 entries :=
    ⟨by decide +kernel, by decide +kernel, by decide +kernel, by decide +kernel, by decide +kernel,
      by decide +kernel, hspelled, by decide +kernel⟩
  have hseen : 36 ∈ (sharedBraces.walkBefore 2 34).seen := by decide +kernel
  have hwalk : (sharedBraces.walkBefore f.key 34).found.fault = none := by decide +kernel
  have hend : sharedBraces.endBefore f (sharedBraces.declaredType f) 35 =
      sharedBraces.endBefore f (sharedBraces.declaredType f) 34 := by
    -- of braces that have been gone into nothing remains
    rw [endBefore_succ hwalk (by decide +kernel) hbraces, remaining, if_pos hseen]
    exact Trail.append_nil _
  exact ⟨by decide +kernel, hnested, hunnamed, by decide +kernel, hbraces, by decide +kernel, hseen,
    hend, by decide +kernel⟩

end Indirection.Program
