import Indirection.Program.Record

/-!
# Which members the elements of a brace initializer are for

The walk through a brace initializer keeps the place of the member for the next element. Behind an
element that names no member it has no such place, but goes on as if it had. Main definitions:

* `Program.placeOf?`, `Program.placesOf` — the places that elements are for: one with a name has the
  place of its member, any other the place behind that of the element before it;
* `Program.IsFor` — the member and the value that an element is for;
* `Program.IsLost` — an element has neither a name nor a place;
* `Program.FollowsUnknown` — an element without a name follows one that names no member.

Main statements: `exists_suppliesFrom_cons` — what one element supplies; `suppliesFrom_of_not_lost`,
`suppliesFrom_of_first_lost` — what all of them do, and what the first lost one does;
`exists_followsUnknown` — elements are lost behind unknown names only; `supplies_inside_iff` — when
each element goes to the member it is for, or to none.
-/

namespace Indirection

namespace Program

variable {u : Program} {members : List Nat} {cursor : Option Nat} {e : Nat × Nat}
  {es : List (Nat × Nat)} {k : Nat}

/-! ### Places -/

/-- The place among `members` that an element is for: that of the member it names, or else `cursor`,
    the one behind the place of the element before it. It has none if it names no member, or if it
    has no name and the element before it has no place. -/
def placeOf? (u : Program) (members : List Nat) (cursor : Option Nat) (e : Nat × Nat) :
    Option Nat :=
  match (u.designated e.1 e.2).1 with
  | some name => u.memberIndex? members name
  | none => cursor

/-- The places of elements, the first of which would go to `cursor` without a name. -/
def placesOf (u : Program) (members : List Nat) :
    (cursor : Option Nat) → List (Nat × Nat) → List (Option Nat)
  | _, [] => []
  | cursor, e :: es =>
    let place := u.placeOf? members cursor e
    place :: placesOf u members (place.map (· + 1)) es

/-- Whether the element at `k` is come to: no element in front of it is for a place behind the last
    member. -/
def IsReached (u : Program) (members : List Nat) (cursor : Option Nat) (es : List (Nat × Nat))
    (k : Nat) : Prop :=
  ∀ j < k, ∀ p, (u.placesOf members cursor es)[j]? = some (some p) → p < members.length

/-- Whether the element at `k` is for the member `v`, with the value that begins at `value`. -/
def IsFor (u : Program) (members : List Nat) (cursor : Option Nat) (es : List (Nat × Nat))
    (k v : Nat) (value : Ref) : Prop :=
  u.IsReached members cursor es k ∧ ∃ e p, es[k]? = some e ∧ (u.designated e.1 e.2).2 = value ∧
    (u.placesOf members cursor es)[k]? = some (some p) ∧ members[p]? = some v

/-- Whether the element at `k` has neither a name nor a place. -/
def IsLost (u : Program) (members : List Nat) (cursor : Option Nat) (es : List (Nat × Nat))
    (k : Nat) : Prop :=
  u.IsReached members cursor es k ∧ (u.placesOf members cursor es)[k]? = some none ∧
    ∃ e, es[k]? = some e ∧ (u.designated e.1 e.2).1 = none

@[simp] theorem getElem?_placesOf_zero :
    (u.placesOf members cursor (e :: es))[0]? = some (u.placeOf? members cursor e) := rfl

@[simp] theorem getElem?_placesOf_succ : (u.placesOf members cursor (e :: es))[k + 1]? =
    (u.placesOf members ((u.placeOf? members cursor e).map (· + 1)) es)[k]? := rfl

/-- The first element is always reached. -/
theorem isReached_zero : u.IsReached members cursor es 0 := fun _ h => absurd h (Nat.not_lt_zero _)

/-- A later element is reached when the place of the first one, if it has any, is among the members,
    and the later one is reached behind it. -/
theorem isReached_succ : u.IsReached members cursor (e :: es) (k + 1) ↔
    (∀ p, u.placeOf? members cursor e = some p → p < members.length) ∧
      u.IsReached members ((u.placeOf? members cursor e).map (· + 1)) es k := by
  constructor
  · intro h
    refine ⟨fun p hp => ?_, fun j hj p hp => ?_⟩
    · exact h 0 (Nat.succ_pos k) p (by rw [getElem?_placesOf_zero, hp])
    · exact h (j + 1) (Nat.succ_lt_succ hj) p (by rwa [getElem?_placesOf_succ])
  · rintro ⟨hfirst, hrest⟩ j hj p hp
    cases j with
    | zero => exact hfirst p (Option.some.inj hp)
    | succ j => exact hrest j (Nat.lt_of_succ_lt_succ hj) p hp

/-- Behind the first element, things stand as if the others began at the place behind its own. -/
theorem isLost_succ : u.IsLost members cursor (e :: es) (k + 1) ↔
    (∀ p, u.placeOf? members cursor e = some p → p < members.length) ∧
      u.IsLost members ((u.placeOf? members cursor e).map (· + 1)) es k := by
  rw [IsLost, isReached_succ, and_assoc, getElem?_placesOf_succ, List.getElem?_cons_succ, IsLost]

/-- A later element supplies what it supplies behind the first one, if the place of that one, if it
    has any, is among the members. -/
theorem isFor_succ {v : Nat} {value : Ref} : u.IsFor members cursor (e :: es) (k + 1) v value ↔
    (∀ p, u.placeOf? members cursor e = some p → p < members.length) ∧
      u.IsFor members ((u.placeOf? members cursor e).map (· + 1)) es k v value := by
  rw [IsFor, isReached_succ, and_assoc, getElem?_placesOf_succ, List.getElem?_cons_succ, IsFor]

/-- The first element is lost when nothing is known of the place and it names no member. -/
theorem isLost_zero : u.IsLost members cursor (e :: es) 0 ↔
    cursor = none ∧ (u.designated e.1 e.2).1 = none := by
  simp only [IsLost, getElem?_placesOf_zero, List.getElem?_cons_zero, Option.some.injEq,
    exists_eq_left', placeOf?]
  constructor
  · rintro ⟨-, hcursor, hname⟩
    rw [hname] at hcursor
    exact ⟨hcursor, hname⟩
  · rintro ⟨rfl, hname⟩
    exact ⟨isReached_zero, by rw [hname], hname⟩

/-- The first element supplies the member at its own place. -/
theorem isFor_zero {v : Nat} {value : Ref} : u.IsFor members cursor (e :: es) 0 v value ↔
    (u.designated e.1 e.2).2 = value ∧
      ∃ p, u.placeOf? members cursor e = some p ∧ members[p]? = some v := by
  simp only [IsFor, getElem?_placesOf_zero, List.getElem?_cons_zero, Option.some.injEq,
    isReached_zero, true_and]
  constructor
  · rintro ⟨_, p, rfl, hvalue, hp⟩
    exact ⟨hvalue, p, hp⟩
  · rintro ⟨hvalue, p, hp⟩
    exact ⟨e, p, rfl, hvalue, hp⟩

/-! ### One element -/

/-- An element with a place is for the member there; behind the last member it ends the walk. -/
theorem suppliesFrom_of_place {p : Nat} (hplace : u.placeOf? members cursor e = some p) :
    u.suppliesFrom members cursor (e :: es) =
      match members[p]? with
      | some v =>
        .one (.member v (u.designated e.1 e.2).2) ++ u.suppliesFrom members (some (p + 1)) es
      | none => .nil := by
  rw [suppliesFrom]
  rw [placeOf?] at hplace
  cases hname : (u.designated e.1 e.2).1 with
  | none =>
    have hcursor : cursor = some p := by simpa only [hname] using hplace
    cases hv : members[p]? <;>
      simp only [hname, hcursor, Option.bind_none, Option.none_or, hv]
  | some name =>
    have hmember : u.memberIndex? members name = some p := by simpa only [hname] using hplace
    cases hv : members[p]? <;>
      simp only [hname, hmember, Option.bind_some, Option.some_or, hv]

/-- An element that names no member is for none. -/
theorem suppliesFrom_of_unknown {name : String} (hname : (u.designated e.1 e.2).1 = some name)
    (hmember : u.memberIndex? members name = none) : u.suppliesFrom members cursor (e :: es) =
      .one (.unknown name) ++ u.suppliesFrom members none es := by
  rw [suppliesFrom]
  simp only [hname, Option.bind_some, hmember]

/-- An element without a name is for the last member if there is no place to go on from. -/
theorem suppliesFrom_none (hname : (u.designated e.1 e.2).1 = none) :
    u.suppliesFrom members none (e :: es) =
      match members.getLast? with
      | some v =>
        .one (.member v (u.designated e.1 e.2).2) ++ u.suppliesFrom members (some 0) es
      | none => .fail .noMember := by
  rw [suppliesFrom]
  cases members.getLast? <;> simp only [hname, Option.bind_none, Option.none_or]

/-- Every other element has a place or names no member. -/
theorem place_cases (h : ¬ u.IsLost members cursor (e :: es) 0) :
    (∃ p, u.placeOf? members cursor e = some p) ∨
      (u.placeOf? members cursor e = none ∧
        ∃ name, (u.designated e.1 e.2).1 = some name ∧ u.memberIndex? members name = none) := by
  rw [isLost_zero] at h
  rw [placeOf?]
  cases hname : (u.designated e.1 e.2).1 with
  | none =>
    cases cursor with
    | none => exact absurd ⟨rfl, hname⟩ h
    | some p => exact .inl ⟨p, rfl⟩
  | some name =>
    cases hmember : u.memberIndex? members name with
    | none => exact .inr ⟨hmember, name, rfl, hmember⟩
    | some p => exact .inl ⟨p, hmember⟩

/-- An element that has a name or a place supplies one item, for the member it is for. -/
theorem exists_suppliesFrom_cons (h : ¬ u.IsLost members cursor (e :: es) 0)
    (hinside : ∀ p, u.placeOf? members cursor e = some p → p < members.length) :
    ∃ supply, u.suppliesFrom members cursor (e :: es) =
        .one supply ++ u.suppliesFrom members ((u.placeOf? members cursor e).map (· + 1)) es ∧
      ∀ v value, supply = .member v value ↔ u.IsFor members cursor (e :: es) 0 v value := by
  rcases place_cases h with ⟨p, hplace⟩ | ⟨hplace, name, hname, hmember⟩
  · have hv := List.getElem?_eq_getElem (hinside p hplace)
    refine ⟨_, by rw [suppliesFrom_of_place hplace, hv, hplace]; rfl, fun v value => ?_⟩
    rw [isFor_zero, Supply.member.injEq, hplace]
    constructor
    · rintro ⟨rfl, rfl⟩
      exact ⟨rfl, p, rfl, hv⟩
    · rintro ⟨hvalue, q, hq, hmember⟩
      obtain rfl := Option.some.inj hq
      exact ⟨Option.some.inj (hv.symm.trans hmember), hvalue⟩
  · refine ⟨_, by rw [suppliesFrom_of_unknown hname hmember, hplace]; rfl, fun v value => ?_⟩
    rw [isFor_zero, hplace]
    simp

/-! ### All elements -/

/-- If each element has a name or a place, the items are those of the members that the elements are
    for. -/
theorem suppliesFrom_of_not_lost (h : ∀ k, ¬ u.IsLost members cursor es k) :
    (u.suppliesFrom members cursor es).fault = none ∧ ∀ k v value,
      (u.suppliesFrom members cursor es).items[k]? = some (.member v value) ↔
        u.IsFor members cursor es k v value := by
  -- the others are supplied as if they began at the place behind that of the first
  induction es generalizing cursor with
  | nil => exact ⟨rfl, fun k v value => by simp [suppliesFrom, IsFor]⟩
  | cons e es ih =>
    by_cases hinside : ∀ p, u.placeOf? members cursor e = some p → p < members.length
    · obtain ⟨supply, hsupply, hfirst⟩ := exists_suppliesFrom_cons (h 0) hinside
      obtain ⟨hfault, hitems⟩ := ih fun k hk => h (k + 1) (isLost_succ.2 ⟨hinside, hk⟩)
      rw [hsupply, Trail.append_of_fault_none rfl]
      refine ⟨hfault, fun k v value => ?_⟩
      cases k with
      | zero => exact Option.some_inj.trans (hfirst v value)
      | succ k =>
        rw [isFor_succ, and_iff_right hinside]
        exact hitems k v value
    · -- the element and all behind it are left out
      simp only [Classical.not_forall, Nat.not_lt] at hinside
      obtain ⟨p, hplace, hout⟩ := hinside
      have hnone : members[p]? = none := List.getElem?_eq_none hout
      rw [suppliesFrom_of_place hplace, hnone]
      refine ⟨rfl, fun k v value => ⟨fun hk => by simp at hk, fun hfor => ?_⟩⟩
      cases k with
      | zero =>
        obtain ⟨-, q, hq, hv⟩ := isFor_zero.1 hfor
        obtain rfl := Option.some.inj (hplace.symm.trans hq)
        rw [hnone] at hv
        cases hv
      | succ k => exact absurd ((isFor_succ.1 hfor).1 p hplace) (Nat.not_lt.2 hout)

/-- The first element that has neither a name nor a place is for the last member, or ends the walk
    with a fault if there is none. -/
theorem suppliesFrom_of_first_lost (he : es[k]? = some e) (h : u.IsLost members cursor es k)
    (hfirst : ∀ j < k, ¬ u.IsLost members cursor es j) :
    match members.getLast? with
    | some v => (u.suppliesFrom members cursor es).items[k]? =
        some (.member v (u.designated e.1 e.2).2)
    | none => (u.suppliesFrom members cursor es).fault = some .noMember := by
  induction es generalizing cursor k with
  | nil => cases he
  | cons a es ih =>
    cases k with
    | zero =>
      obtain rfl := Option.some.inj he
      obtain ⟨rfl, hname⟩ := isLost_zero.1 h
      rw [suppliesFrom_none hname]
      cases members.getLast? with
      | some v => rfl
      | none => rfl
    | succ k =>
      obtain ⟨hinside, hlost⟩ := isLost_succ.1 h
      obtain ⟨supply, hsupply, -⟩ :=
        exists_suppliesFrom_cons (hfirst 0 (Nat.succ_pos k)) hinside
      have hrest := ih he hlost fun j hj hlost' =>
        hfirst (j + 1) (Nat.succ_lt_succ hj) (isLost_succ.2 ⟨hinside, hlost'⟩)
      rw [hsupply, Trail.append_of_fault_none rfl]
      exact hrest

/-! ### Unknown names -/

/-- Whether the element at `k` is come to and names no member, and the one behind it has no name of
    its own. -/
def FollowsUnknown (u : Program) (members : List Nat) (es : List (Nat × Nat)) (k : Nat) : Prop :=
  u.IsReached members (some 0) es k ∧ ∃ e e' name, es[k]? = some e ∧ es[k + 1]? = some e' ∧
    (u.designated e.1 e.2).1 = some name ∧ u.memberIndex? members name = none ∧
    (u.designated e'.1 e'.2).1 = none

/-- Each element has a place behind some other one, and the next element one behind that. -/
theorem getElem?_placesOf (u : Program) (members : List Nat) (cursor : Option Nat) {e' : Nat × Nat}
    (he : es[k]? = some e) (he' : es[k + 1]? = some e') :
    ∃ c, (u.placesOf members cursor es)[k]? = some (u.placeOf? members c e) ∧
      (u.placesOf members cursor es)[k + 1]? =
        some (u.placeOf? members ((u.placeOf? members c e).map (· + 1)) e') := by
  induction es generalizing cursor k with
  | nil => cases he
  | cons a es ih =>
    cases k with
    | zero =>
      obtain rfl := Option.some.inj he
      cases es with
      | nil => cases he'
      | cons b es =>
        obtain rfl := Option.some.inj he'
        exact ⟨cursor, rfl, rfl⟩
    | succ k => exact ih _ he he'

/-- An element behind an unknown designator is lost. -/
theorem isLost_of_followsUnknown (h : u.FollowsUnknown members es k) :
    u.IsLost members (some 0) es (k + 1) := by
  obtain ⟨hreached, e, e', name, he, he', hname, hmember, hnone⟩ := h
  obtain ⟨c, hplace, hnext⟩ :=
    getElem?_placesOf u members (some 0) he he'
  have hlost : u.placeOf? members c e = none := by simp only [placeOf?, hname, hmember]
  refine ⟨fun j hj p hp => ?_, ?_, e', he', hnone⟩
  · rcases Nat.lt_or_eq_of_le (Nat.le_of_lt_succ hj) with hlt | rfl
    · exact hreached j hlt p hp
    · rw [hplace, hlost] at hp
      cases hp
  · rw [hnext, hlost]
    simp only [placeOf?, hnone, Option.map_none]

/-- Only unknown names leave elements behind them without a place. -/
theorem exists_followsUnknown (h : u.IsLost members (some 0) es k) :
    ∃ j < k, u.FollowsUnknown members es j := by
  -- the first lost element has an unknown name in front of it, and the others follow it
  induction k with
  | zero =>
    obtain ⟨-, -, e, he, -⟩ := id h
    cases es with
    | nil => cases he
    | cons a es => cases (isLost_zero.1 h).1
  | succ k ih =>
    by_cases hbefore : u.IsLost members (some 0) es k
    · obtain ⟨j, hj, hfollows⟩ := ih hbefore
      exact ⟨j, Nat.lt_succ_of_lt hj, hfollows⟩
    · obtain ⟨hreached, hplace, e', he', hnone⟩ := h
      obtain ⟨e, he⟩ : ∃ e, es[k]? = some e := by
        have hlt := (List.getElem?_eq_some_iff.1 he').1
        exact ⟨_, List.getElem?_eq_getElem (by omega)⟩
      obtain ⟨c, hc, hnext⟩ := getElem?_placesOf u members (some 0) he he'
      have hlost : u.placeOf? members c e = none := by
        rw [hplace] at hnext
        simpa [placeOf?, hnone] using hnext.symm
      have hreached' : u.IsReached members (some 0) es k := fun j hj =>
        hreached j (Nat.lt_succ_of_lt hj)
      refine ⟨k, Nat.lt_succ_self k, hreached', e, e', ?_⟩
      cases hname : (u.designated e.1 e.2).1 with
      | none =>
        have hplace' : (u.placesOf members (some 0) es)[k]? = some none := by rw [hc, hlost]
        exact absurd ⟨hreached', hplace', e, he, hname⟩ hbefore
      | some name =>
        refine ⟨name, he, he', rfl, ?_, hnone⟩
        simpa only [placeOf?, hname] using hlost

/-- The first unknown name with such an element behind it is the cause of the first element that has
    neither a name nor a place. -/
theorem not_isLost_of_first (hfirst : ∀ j < k, ¬ u.FollowsUnknown members es j) :
    ∀ j < k + 1, ¬ u.IsLost members (some 0) es j := by
  intro j hj hlost
  obtain ⟨i, hi, hfollows⟩ := exists_followsUnknown hlost
  exact hfirst i (by omega) hfollows

/-- Behind an unknown name the walk goes to the last member, or fails without one. -/
theorem supplies_of_first_followsUnknown {record : Nat}
    (h : u.FollowsUnknown (u.members record) es k)
    (hfirst : ∀ j < k, ¬ u.FollowsUnknown (u.members record) es j) (he : es[k + 1]? = some e) :
    match (u.members record).getLast? with
    | some v => (u.supplies record es).items[k + 1]? =
        some (.member v (u.designated e.1 e.2).2)
    | none => (u.supplies record es).fault = some .noMember :=
  suppliesFrom_of_first_lost he (isLost_of_followsUnknown h) (not_isLost_of_first hfirst)

/-- **When the members for elements are inside their record.** An element is for the member it
    names, or for the one behind that of the element before it, up to the last member.

    * Each element goes to the member it is for or to none, and no fault ends the walk, exactly when
      no element without a name follows one that names no member.
    * Then all members that elements are for get them.
    * The first element that follows one that names no member goes to the last member, although it
      is for none; in a record without members the walk ends in a fault there. -/
theorem supplies_inside_iff (u : Program) (record : Nat) (es : List (Nat × Nat)) :
    let members := u.members record
    let s := u.supplies record es
    ((s.fault = none ∧ ∀ k v value, s.items[k]? = some (.member v value) →
        u.IsFor members (some 0) es k v value) ↔ ∀ k, ¬ u.FollowsUnknown members es k) ∧
    ((∀ k, ¬ u.FollowsUnknown members es k) → ∀ k v value,
      u.IsFor members (some 0) es k v value → s.items[k]? = some (.member v value)) ∧
    ∀ k e, u.FollowsUnknown members es k → (∀ j < k, ¬ u.FollowsUnknown members es j) →
      es[k + 1]? = some e → (∀ v value, ¬ u.IsFor members (some 0) es (k + 1) v value) ∧
        match members.getLast? with
        | some v => s.items[k + 1]? = some (.member v (u.designated e.1 e.2).2)
        | none => s.fault = some .noMember := by
  intro members s
  have hsound (h : ∀ k, ¬ u.FollowsUnknown members es k) :
      s.fault = none ∧ ∀ k v value, s.items[k]? = some (.member v value) ↔
        u.IsFor members (some 0) es k v value := by
    apply suppliesFrom_of_not_lost
    intro k hlost
    obtain ⟨j, -, hfollows⟩ := exists_followsUnknown hlost
    exact h j hfollows
  have hnone (k : Nat) (h : u.FollowsUnknown members es k) (v : Nat) (value : Ref) :
      ¬ u.IsFor members (some 0) es (k + 1) v value := by
    rintro ⟨-, _, p, -, -, hplace, -⟩
    rw [(isLost_of_followsUnknown h).2.1] at hplace
    cases hplace
  refine ⟨⟨?_, fun h => ⟨(hsound h).1, fun k v value => ((hsound h).2 k v value).1⟩⟩,
    fun h k v value => ((hsound h).2 k v value).2,
    fun k e h hfirst he => ⟨hnone k h, supplies_of_first_followsUnknown h hfirst he⟩⟩
  rintro ⟨hfault, hitems⟩ k
  -- no unknown name is the first one
  induction k using Nat.strongRecOn with
  | ind k hfirst =>
    intro h
    obtain ⟨-, -, e, -, -, he, -⟩ := id h
    have hlast := supplies_of_first_followsUnknown h hfirst he
    cases hmember : members.getLast? with
    | some v =>
      rw [hmember] at hlast
      exact hnone k h v _ (hitems _ _ _ hlast)
    | none =>
      rw [hmember] at hlast
      rw [hfault] at hlast
      cases hlast

/-! ### A record with an unnamed union in front -/

/-- The program
    `struct S { union { int a; int b; }; int *g; int *h; };`
    `int x, y;`
    `struct S s = { .a = 1, &x, &y };`
    The members of the union are none of the record. -/
def anonymousUnion : Program where
  tokens := #[{ text := "struct", file := "a.c", line := 1, column := 1, isName := true },
    { text := "S", file := "a.c", line := 1, column := 8, isName := true },
    { text := "\x7b", file := "a.c", line := 1, column := 10, link := some 21 },
    { text := "union", file := "a.c", line := 1, column := 12, isName := true },
    { text := "\x7b", file := "a.c", line := 1, column := 18, link := some 11 },
    { text := "int", file := "a.c", line := 1, column := 20, isName := true },
    { text := "a", file := "a.c", line := 1, column := 24, varId := 1, var := some 0,
      valueType := some 1, isName := true },
    { text := ";", file := "a.c", line := 1, column := 25 },
    { text := "int", file := "a.c", line := 1, column := 27, isName := true },
    { text := "b", file := "a.c", line := 1, column := 31, varId := 2, var := some 1,
      valueType := some 1, isName := true },
    { text := ";", file := "a.c", line := 1, column := 32 },
    { text := "\x7d", file := "a.c", line := 1, column := 34, link := some 4 },
    { text := ";", file := "a.c", line := 1, column := 35 },
    { text := "int", file := "a.c", line := 1, column := 37, isName := true },
    { text := "*", file := "a.c", line := 1, column := 41 },
    { text := "g", file := "a.c", line := 1, column := 42, varId := 3, var := some 2,
      valueType := some 0, isName := true },
    { text := ";", file := "a.c", line := 1, column := 43 },
    { text := "int", file := "a.c", line := 1, column := 45, isName := true },
    { text := "*", file := "a.c", line := 1, column := 49 },
    { text := "h", file := "a.c", line := 1, column := 50, varId := 4, var := some 3,
      valueType := some 0, isName := true },
    { text := ";", file := "a.c", line := 1, column := 51 },
    { text := "\x7d", file := "a.c", line := 1, column := 53, link := some 2 },
    { text := ";", file := "a.c", line := 1, column := 54 },
    { text := "int", file := "a.c", line := 2, column := 1, isName := true },
    { text := "x", file := "a.c", line := 2, column := 5, varId := 5, var := some 4,
      valueType := some 1, isName := true },
    { text := ",", file := "a.c", line := 2, column := 6 },
    { text := "y", file := "a.c", line := 2, column := 8, varId := 6, var := some 5,
      valueType := some 1, isName := true },
    { text := ";", file := "a.c", line := 2, column := 9 },
    { text := "struct", file := "a.c", line := 3, column := 1, isName := true },
    { text := "S", file := "a.c", line := 3, column := 8, isName := true },
    { text := "s", file := "a.c", line := 3, column := 10, varId := 7, var := some 6,
      valueType := some 2, parent := some 31, isName := true },
    { text := "=", file := "a.c", line := 3, column := 12, valueType := some 2, operand1 := some 30,
      operand2 := some 32, isAssignmentOp := true },
    { text := "\x7b", file := "a.c", line := 3, column := 14, link := some 43, parent := some 31 },
    { text := ".", file := "a.c", line := 3, column := 16, operand1 := some 34, parent := some 35 },
    { text := "a", file := "a.c", line := 3, column := 17, parent := some 33, isName := true },
    { text := "=", file := "a.c", line := 3, column := 19, operand1 := some 33, operand2 := some 36,
      isAssignmentOp := true },
    { text := "1", file := "a.c", line := 3, column := 21, parent := some 35, isNumber := true },
    { text := ",", file := "a.c", line := 3, column := 22 },
    { text := "&", file := "a.c", line := 3, column := 24, valueType := some 0,
      operand1 := some 39 },
    { text := "x", file := "a.c", line := 3, column := 25, varId := 5, var := some 4,
      valueType := some 1, parent := some 38, isName := true },
    { text := ",", file := "a.c", line := 3, column := 26 },
    { text := "&", file := "a.c", line := 3, column := 28, valueType := some 0,
      operand1 := some 42 },
    { text := "y", file := "a.c", line := 3, column := 29, varId := 6, var := some 5,
      valueType := some 1, parent := some 41, isName := true },
    { text := "\x7d", file := "a.c", line := 3, column := 31, link := some 32 },
    { text := ";", file := "a.c", line := 3, column := 32 }]
  vars := #[{ nameToken := some 6, typeStart := some 5, scope := some 2 },
    { nameToken := some 9, typeStart := some 8, scope := some 2 },
    { nameToken := some 15, typeStart := some 13, scope := some 1 },
    { nameToken := some 19, typeStart := some 17, scope := some 1 },
    { nameToken := some 24, typeStart := some 23, scope := some 0 },
    { nameToken := some 26, typeStart := some 23, scope := some 0 },
    { nameToken := some 30, typeStart := some 28, scope := some 0 }]
  scopes := #[{ type := some "Global", className := some "", members := [4, 5, 6] },
    { type := some "Struct", className := some "S", members := [2, 3] },
    { type := some "Union", className := some "", members := [0, 1] }]
  valueTypes := #[{ type := some "int", pointer := 1 }, { type := some "int" },
    { type := some "record", scope := some 1 }]

/-- Without `.a = 1` in front, `&y` goes to `h`, behind `&x` for `g`. -/
theorem supplies_inside_iff_positional :
    let u := anonymousUnion
    let es := [(38, 39), (41, 42)]
    (u.supplies 1 es).fault = none ∧ u.IsFor (u.members 1) (some 0) es 1 3 (some 41) := by
  intro u es
  have hnames : ∀ e ∈ es, (u.designated e.1 e.2).1 = none := by decide +kernel
  have hknown (k : Nat) : ¬ u.FollowsUnknown (u.members 1) es k := by
    rintro ⟨-, e, e', name, he, -, hname, -⟩
    rw [hnames e (List.mem_of_getElem? he)] at hname
    cases hname
  obtain ⟨hfault, hinside⟩ := (supplies_inside_iff u 1 es).1.2 hknown
  exact ⟨hfault, hinside 1 3 (some 41) rfl⟩

/-- `&x` goes to `h`, the last member, although it follows `.a`, which is no member of the
    record. -/
theorem anonymousUnion_lastMember :
    let u := anonymousUnion
    let es := [(33, 36), (38, 39), (41, 42)]
    u.elements 32 = .ok es ∧ u.members 1 = [2, 3] ∧ u.FollowsUnknown (u.members 1) es 0 ∧
      u.text (u.nameToken (some 3)) = "h" ∧
      (u.supplies 1 es).items[1]? = some (.member 3 (some 38)) := by
  refine ⟨rfl, by decide +kernel, ?_, by decide +kernel, rfl⟩
  exact ⟨isReached_zero, (33, 36), (38, 39), "a", rfl, rfl, by decide +kernel, by decide +kernel,
    by decide +kernel⟩

end Program

end Indirection
