import Indirection.Proofs.Nesting

/-!
# Which values braces supply for a field

Main definitions:

* `Aim` — what the values in braces are for: the field, a record or an array of records, or neither;
* `Program.entryAim`, `Program.memberAt` — what an entry is for: one with a designator for the
  member of that name, any other for the member behind that of the entry before it;
* `Program.valuesFor` — the expressions in braces that are for the field;
* `Program.remainingFor`, `Program.remaining` — those of them that are left when some braces of
  records have been gone into before;
* `Program.fits` — each entry is for a member that the record has;
* `Program.Yields` — parts of what braces hold are values of the field, and spell some expressions;
* `Program.Finds` — what the walk through some braces finds, and where it goes.

Main statements: `remaining_eq_valuesFor` — nothing is missing if none of the braces has been gone
into; `finds_of_spelled` — the walk through braces finds what remains for the field and nothing
else.
-/

namespace Indirection

/-- What the values in braces are for. -/
inductive Aim where
  /-- the field, or the elements of an array that is the field -/
  | target
  /-- a record, or an array of records with `rank` dimensions -/
  | records (record rank : Nat)
  | other
  deriving DecidableEq

namespace Program

variable {u : Program}

/-! ### What entries are for -/

/-- The place among the members of `record` that an entry is for: the one that it names, or else
    `cursor`, the one behind that of the entry before it. -/
def memberAt (u : Program) (record cursor : Nat) : (name? : Option String) → Nat
  | none => cursor
  | some name => (u.members record).findIdx fun v => u.text (u.nameToken (some v)) = name

/-- What the value of the member at `index` is for. -/
def memberAim (u : Program) (key : Int) (record index : Nat) : Aim :=
  match (u.members record)[index]? with
  | none => .other
  | some v =>
    let name := u.nameToken (some v)
    if u.declKey name = key then .target
    else
      match u.recordTypeScope name with
      | some r => if u.stars name = [] then .records r (u.arrayRank name) else .other
      | none => .other

/-- The place that an entry takes in braces for `aim`. -/
def entryPlace (u : Program) (aim : Aim) (cursor : Nat) (name? : Option String) : Nat :=
  match aim with
  | .records record 0 => u.memberAt record cursor name?
  | _ => cursor

/-- What an entry of braces for `aim` is for. -/
def entryAim (u : Program) (key : Int) (aim : Aim) (cursor : Nat) (name? : Option String) : Aim :=
  match aim with
  | .target => .target
  | .records record 0 => u.memberAim key record (u.memberAt record cursor name?)
  | .records record (rank + 1) => .records record rank
  | .other => .other

/-- The expressions in entries of braces for `aim` that are for the field of key `key`. An
    expression for a record or for a row of records is the whole of it: none of its values stands in
    braces. -/
def valuesFor (u : Program) (key : Int) : (aim : Aim) → (cursor : Nat) → Entries → List (Nat × Nat)
  | _, _, .nil => []
  | aim, cursor, .scalar name? first last rest =>
    (if u.entryAim key aim cursor name? = .target then [(first, last)] else []) ++
      valuesFor u key aim (u.entryPlace aim cursor name? + 1) rest
  | aim, cursor, .braces name? _ _ inner rest =>
    valuesFor u key (u.entryAim key aim cursor name?) 0 inner ++
      valuesFor u key aim (u.entryPlace aim cursor name? + 1) rest

/-- Those of the expressions for the field that are left when the braces `seen` have been gone into:
    what stands in braces of a record among them is not. Braces for the field itself are taken
    whole. -/
def remainingFor (u : Program) (key : Int) (seen : List Nat) :
    (aim : Aim) → (cursor : Nat) → Entries → List (Nat × Nat)
  | _, _, .nil => []
  | aim, cursor, .scalar name? first last rest =>
    (if u.entryAim key aim cursor name? = .target then [(first, last)] else []) ++
      remainingFor u key seen aim (u.entryPlace aim cursor name? + 1) rest
  | aim, cursor, .braces name? o _ inner rest =>
    (if o ∈ seen ∧ u.entryAim key aim cursor name? ≠ .target then []
      else remainingFor u key seen (u.entryAim key aim cursor name?) 0 inner) ++
      remainingFor u key seen aim (u.entryPlace aim cursor name? + 1) rest

/-- What is left of the expressions that the braces at `o`, for a record or an array of records,
    have for the field. -/
def remaining (u : Program) (key : Int) (seen : List Nat) (o record rank : Nat) (es : Entries) :
    List (Nat × Nat) :=
  if o ∈ seen then [] else u.remainingFor key seen (.records record rank) 0 es

/-- Whether braces for `aim` have a member for an entry. -/
def hasPlace (u : Program) (aim : Aim) (cursor : Nat) (name? : Option String) : Bool :=
  match aim with
  | .records record 0 => u.memberAt record cursor name? < (u.members record).length
  | _ => true

/-- Whether each entry of braces for `aim`, and of the braces in them, is for a member. -/
def fits (u : Program) (key : Int) : (aim : Aim) → (cursor : Nat) → Entries → Bool
  | _, _, .nil => true
  | aim, cursor, .scalar name? _ _ rest =>
    u.hasPlace aim cursor name? && fits u key aim (u.entryPlace aim cursor name? + 1) rest
  | aim, cursor, .braces name? _ _ inner rest =>
    u.hasPlace aim cursor name? && fits u key (u.entryAim key aim cursor name?) 0 inner &&
      fits u key aim (u.entryPlace aim cursor name? + 1) rest

/-- The values for the field stand in the order of the source. -/
theorem valuesFor_sublist (key : Int) (aim : Aim) (cursor : Nat) (es : Entries) :
    (u.valuesFor key aim cursor es).Sublist es.scalars := by
  induction es generalizing aim cursor with
  | nil => exact List.Sublist.refl _
  | scalar name? first last rest ih =>
    rw [valuesFor, Entries.scalars]
    split
    · exact (ih _ _).cons_cons _
    · exact (ih _ _).cons _
  | braces name? o c inner rest ih ih' => exact (ih _ _).append (ih' _ _)

/-! ### What remains -/

/-- Braces for the field hold nothing else. -/
theorem remainingFor_target (key : Int) (seen : List Nat) (cursor : Nat) (es : Entries) :
    u.remainingFor key seen .target cursor es = es.scalars := by
  induction es generalizing cursor with
  | nil => rfl
  | scalar name? first last rest ih => simp [remainingFor, entryAim, Entries.scalars, ih]
  | braces name? o c inner rest ih ih' => simp [remainingFor, entryAim, Entries.scalars, ih, ih']

/-- Braces for neither the field nor a record hold nothing for it. -/
theorem remainingFor_other (key : Int) (seen : List Nat) (cursor : Nat) (es : Entries) :
    u.remainingFor key seen .other cursor es = [] := by
  induction es generalizing cursor with
  | nil => rfl
  | scalar name? first last rest ih => simp [remainingFor, entryAim, ih]
  | braces name? o c inner rest ih ih' => simp [remainingFor, entryAim, ih, ih']

/-- Nothing but expressions for the field remains. -/
theorem remainingFor_sublist (key : Int) (seen : List Nat) (aim : Aim) (cursor : Nat)
    (es : Entries) :
    (u.remainingFor key seen aim cursor es).Sublist (u.valuesFor key aim cursor es) := by
  induction es generalizing aim cursor with
  | nil => exact List.Sublist.refl _
  | scalar name? first last rest ih => exact (List.Sublist.refl _).append (ih _ _)
  | braces name? o c inner rest ih ih' =>
    rw [remainingFor, valuesFor]
    refine List.Sublist.append ?_ (ih' _ _)
    split
    · exact List.nil_sublist _
    · exact ih _ _

/-- What remains is part of what the braces supply, in the same order. -/
theorem remaining_sublist (key : Int) (seen : List Nat) (o record rank : Nat) (es : Entries) :
    (u.remaining key seen o record rank es).Sublist
      (u.valuesFor key (.records record rank) 0 es) := by
  unfold remaining
  split
  · exact List.nil_sublist _
  · exact remainingFor_sublist _ _ _ _ _

/-- All expressions for the field remain if none of the braces has been gone into. -/
theorem remainingFor_eq_valuesFor {key : Int} {seen : List Nat} {aim : Aim} {cursor : Nat}
    {es : Entries} (h : ∀ b ∈ es.openings, b ∉ seen) :
    u.remainingFor key seen aim cursor es = u.valuesFor key aim cursor es := by
  induction es generalizing aim cursor with
  | nil => rfl
  | scalar name? first last rest ih => rw [remainingFor, valuesFor, ih h]
  | braces name? o c inner rest ih ih' =>
    simp only [Entries.openings, List.mem_cons, List.mem_append] at h
    have hopening : o ∉ seen := h o (.inl rfl)
    rw [remainingFor, valuesFor, if_neg (by simp [hopening]),
      ih fun b hb => h b (.inr (.inl hb)), ih' fun b hb => h b (.inr (.inr hb))]

/-- When nothing was entered before, all that the braces supply remains. -/
theorem remaining_eq_valuesFor {key : Int} {seen : List Nat} {o record rank : Nat} {es : Entries}
    (h : ∀ b ∈ o :: es.openings, b ∉ seen) :
    u.remaining key seen o record rank es = u.valuesFor key (.records record rank) 0 es := by
  rw [remaining, if_neg (h o List.mem_cons_self),
    remainingFor_eq_valuesFor fun b hb => h b (List.mem_cons_of_mem _ hb)]

/-! ### What the walk makes of entries -/

/-- What a value that is for `aim` means for the field. -/
def aimParts (u : Program) : Aim → (value : Ref) → List FieldPart
  | .target, value => [.value value]
  | .records record rank, some o =>
    if u.text (some o) = "\x7b" then [.nested o record rank] else []
  | .records .., none => []
  | .other, _ => []

/-- What entries of braces for `aim` mean for the field, braces in them not entered. -/
def partsFor (u : Program) (key : Int) : (aim : Aim) → (cursor : Nat) → List Head → List FieldPart
  | _, _, [] => []
  | aim, cursor, h :: hs =>
    u.aimParts (u.entryAim key aim cursor h.name?) h.value ++
      partsFor u key aim (u.entryPlace aim cursor h.name? + 1) hs

/-- A name that a member has is the member with that name that stands first. -/
theorem memberIndex?_eq {members : List Nat} {name : String}
    (h : members.findIdx (fun v => u.text (u.nameToken (some v)) = name) < members.length) :
    u.memberIndex? members name =
      some (members.findIdx fun v => u.text (u.nameToken (some v)) = name) :=
  List.findIdx?_eq_some_of_exists (by
    obtain ⟨v, hv, hname⟩ := List.findIdx_lt_length.1 h
    exact ⟨v, hv, hname⟩)

/-- An element for a member that the record has. -/
theorem suppliesFrom_cons {record cursor : Nat} {e : Nat × Nat} (rs : List (Nat × Nat))
    (h : u.hasPlace (.records record 0) cursor (u.head e).name? = true) :
    ∃ v, (u.members record)[u.memberAt record cursor (u.head e).name?]? = some v ∧
      u.suppliesFrom (u.members record) (some cursor) (e :: rs) =
        .one (.member v (u.head e).value) ++
          u.suppliesFrom (u.members record) (some (u.memberAt record cursor (u.head e).name? + 1))
            rs := by
  simp only [hasPlace, decide_eq_true_eq] at h
  obtain ⟨v, hget⟩ : ∃ v, (u.members record)[u.memberAt record cursor (u.head e).name?]? = some v :=
    ⟨_, List.getElem?_eq_getElem h⟩
  refine ⟨v, hget, ?_⟩
  rw [suppliesFrom]
  simp only [head] at h hget ⊢
  cases hname : (u.designated e.1 e.2).1 with
  | none =>
    simp only [hname, memberAt] at hget ⊢
    simp only [Option.bind_none, Option.none_or, hget]
  | some name =>
    simp only [hname, memberAt] at h hget ⊢
    simp only [Option.bind_some, memberIndex?_eq h, Option.some_or, hget]

/-- What a member means for the field is what its value is for. -/
theorem fieldParts_member {key : Int} {record index v : Nat}
    (h : (u.members record)[index]? = some v) (value : Ref) :
    u.fieldParts key (.member v value) = u.aimParts (u.memberAim key record index) value := by
  unfold fieldParts memberAim
  simp only [h]
  by_cases hkey : u.declKey (u.nameToken (some v)) = key
  · simp only [if_pos hkey, aimParts]
  · simp only [if_neg hkey]
    -- any other member matters only if it is a record whose value is in braces
    cases value with
    | none =>
      cases u.recordTypeScope (u.nameToken (some v)) with
      | none => rfl
      | some r =>
        dsimp only
        split <;> rfl
    | some o =>
      cases u.recordTypeScope (u.nameToken (some v)) with
      | none => rfl
      | some r =>
        by_cases hstars : u.stars (u.nameToken (some v)) = []
        · simp [hstars, aimParts]
        · simp [hstars, aimParts]

/-- What the elements of a record are for, if each of them is for a member. -/
theorem suppliesFrom_of_fits {key : Int} {record cursor : Nat} {es : Entries}
    {rs : List (Nat × Nat)} (hheads : rs.map u.head = es.heads)
    (hfits : u.fits key (.records record 0) cursor es = true) :
    ∃ items, u.suppliesFrom (u.members record) (some cursor) rs = { items := items } ∧
      items.flatMap (u.fieldParts key) = u.partsFor key (.records record 0) cursor es.heads := by
  -- one element, whatever its value is
  have hcons {cursor : Nat} {h : Head} {hs : List Head} {rs : List (Nat × Nat)}
      (hheads : rs.map u.head = h :: hs)
      (hplace : u.hasPlace (.records record 0) cursor h.name? = true)
      (ih : ∀ rs : List (Nat × Nat), rs.map u.head = hs → ∃ items,
        u.suppliesFrom (u.members record)
          (some (u.memberAt record cursor h.name? + 1)) rs = { items := items } ∧
        items.flatMap (u.fieldParts key) =
          u.partsFor key (.records record 0) (u.memberAt record cursor h.name? + 1) hs) :
      ∃ items, u.suppliesFrom (u.members record) (some cursor) rs = { items := items } ∧
        items.flatMap (u.fieldParts key) =
          u.partsFor key (.records record 0) cursor (h :: hs) := by
    obtain ⟨e, rest, rfl, rfl, hrest⟩ := List.map_eq_cons_iff.1 hheads
    obtain ⟨v, hv, hsupply⟩ := suppliesFrom_cons rest hplace
    obtain ⟨items, hitems, hparts⟩ := ih rest hrest
    refine ⟨.member v (u.head e).value :: items, ?_, ?_⟩
    · rw [hsupply, hitems, Trail.append_of_fault_none (Trail.fault_one _)]
      rfl
    · rw [List.flatMap_cons, hparts, fieldParts_member hv]
      rfl
  induction es generalizing cursor rs with
  | nil =>
    obtain rfl := List.map_eq_nil_iff.1 hheads
    exact ⟨[], rfl, rfl⟩
  | scalar name? first last rest ih =>
    simp only [fits, Bool.and_eq_true] at hfits
    exact hcons hheads hfits.1 fun rs hrs => ih hrs hfits.2
  | braces name? o c inner rest _ ih =>
    simp only [fits, Bool.and_eq_true] at hfits
    exact hcons hheads hfits.1.1 fun rs hrs => ih hrs hfits.2

/-- The elements of an array of records. -/
theorem rowParts_eq (key : Int) (record rank cursor : Nat) (rs : List (Nat × Nat)) :
    u.rowParts record rank rs =
      u.partsFor key (.records record (rank + 1)) cursor (rs.map u.head) := by
  induction rs generalizing cursor with
  | nil => rfl
  | cons e rest ih =>
    rw [List.map_cons, partsFor, ← ih, rowParts, List.filterMap_cons]
    simp only [entryAim, head]
    cases (u.designated e.1 e.2).2 with
    | none => rfl
    | some o =>
      by_cases hbrace : u.text (some o) = "\x7b"
      · simp only [hbrace, if_true, aimParts]
        rfl
      · simp only [hbrace, if_false, aimParts]
        rfl

/-- What braces mean for the field, if they are spelled and each entry is for a member. -/
theorem parts_of_spelled {key : Int} {o c record rank : Nat} {es : Entries}
    (hlink : u.link (some o) = some c) (h : u.Spelled (o + 1) c es)
    (hfits : u.fits key (.records record rank) 0 es = true) :
    u.parts key o record rank = { items := u.partsFor key (.records record rank) 0 es.heads } := by
  obtain ⟨rs, hrs, hheads⟩ := elements_of_spelled hlink h
  rw [parts, hrs]
  cases rank with
  | zero =>
    obtain ⟨items, hitems, hparts⟩ := suppliesFrom_of_fits hheads hfits
    simp only [Trail.ofExcept, supplies, hitems, hparts]
  | succ rank =>
    simp only [Trail.ofExcept]
    rw [rowParts_eq key record rank 0 rs, hheads]

/-! ### The walk through braces -/

/-- What the walk does with one part of what braces hold. -/
def enterPart (u : Program) (key : Int) (depth : Nat) (w : BraceWalk) : FieldPart → BraceWalk
  | .nested o r k =>
    let inner := u.enterBraces key depth w.seen o r k
    { found := w.found ++ inner.found, seen := inner.seen }
  | part => { w with found := w.found ++ .one part }

/-- Braces that were entered before are left out, and any others are marked and entered part by
    part. -/
theorem enterBraces_succ (key : Int) (depth : Nat) (seen : List Nat) (o record rank : Nat) :
    u.enterBraces key (depth + 1) seen o record rank =
      if seen.contains o then { seen := seen }
      else
        let held := u.parts key o record rank
        let walk := held.items.foldl (u.enterPart key depth) { seen := o :: seen }
        { walk with found := walk.found ++ { fault := held.fault } } := by
  have hstep : u.enterPart key depth = fun (w : BraceWalk) part =>
      match part with
      | .nested o r k =>
        let inner := u.enterBraces key depth w.seen o r k
        { found := w.found ++ inner.found, seen := inner.seen }
      | p => { w with found := w.found ++ .one p } := by
    funext w part
    cases part <;> rfl
  rw [hstep]
  exact enterBraces.eq_2 u key seen o record rank depth

/-- The ranges that a value of the field spells. -/
def partRanges (u : Program) : FieldPart → Trail Range
  | .value start => u.values start
  | .note _ | .nested .. => .nil

/-- Whether the parts `found` are values of the field and nothing else, and together spell the
    expressions `values`. -/
structure Yields (u : Program) (found : List FieldPart) (values : List (Nat × Nat)) : Prop where
  all_values : ∀ p ∈ found, ∃ start, p = .value start
  ranges : Trail.concat u.partRanges found = { items := values.map Range.between }

namespace Yields

/-- Nothing yields nothing. -/
theorem nil : u.Yields [] [] := ⟨by simp, rfl⟩

/-- One value of the field. -/
theorem value {t : Ref} {values : List (Nat × Nat)}
    (h : u.values t = { items := values.map Range.between }) : u.Yields [.value t] values := by
  refine ⟨by simp, ?_⟩
  rw [Trail.concat_cons, Trail.concat_nil, Trail.append_nil]
  exact h

/-- Parts that yield values yield them one behind the other. -/
theorem append {found found' : List FieldPart} {values values' : List (Nat × Nat)}
    (h : u.Yields found values) (h' : u.Yields found' values') :
    u.Yields (found ++ found') (values ++ values') := by
  refine ⟨fun p hp => (List.mem_append.1 hp).elim (h.all_values p) (h'.all_values p), ?_⟩
  rw [Trail.concat_append, h.ranges, h'.ranges, List.map_append]
  rfl

/-- What is done for the parts is done for the expressions. -/
theorem rewrite {found : List FieldPart} {values : List (Nat × Nat)} (h : u.Yields found values)
    (type? : Option String) :
    Trail.concat (u.rewriteField type?) found =
      .concat (u.narrowRange type?) (values.map Range.between) := by
  have hparts : ∀ p ∈ found,
      u.rewriteField type? p = (u.partRanges p).bind (u.narrowRange type?) := by
    intro p hp
    obtain ⟨start, rfl⟩ := h.all_values p hp
    rfl
  rw [Trail.concat_congr hparts, Trail.concat_bind (by rw [h.ranges]), h.ranges, Trail.bind_items]

/-- The ranges that the values among the parts spell are the expressions. -/
theorem mem_iff {found : List FieldPart} {values : List (Nat × Nat)} (h : u.Yields found values)
    {range : Range} :
    (∃ start, .value start ∈ found ∧ range ∈ (u.values start).items) ↔
      ∃ e ∈ values, range = .between e := by
  have hall : ∀ p ∈ found, (u.partRanges p).fault = none :=
    Trail.fault_concat_eq_none.1 (by rw [h.ranges])
  have hitems : (found.flatMap fun p => (u.partRanges p).items) = values.map Range.between := by
    have := h.ranges
    rw [Trail.concat_of_faultless hall] at this
    exact congrArg Trail.items this
  have hmem : (∃ e ∈ values, range = .between e) ↔
      ∃ p ∈ found, range ∈ (u.partRanges p).items := by
    rw [← List.mem_flatMap, hitems, List.mem_map]
    simp only [eq_comm]
  rw [hmem]
  constructor
  · rintro ⟨start, hstart, hrange⟩
    exact ⟨_, hstart, hrange⟩
  · rintro ⟨p, hp, hrange⟩
    obtain ⟨start, rfl⟩ := h.all_values p hp
    exact ⟨start, hp, hrange⟩

end Yields

/-- Whether the walk through `parts` finds the expressions `values seen` for the field and nothing
    else, when it has been in the braces `seen`. It goes only into the braces `openings`, and what
    it finds depends on these alone. -/
structure Finds (u : Program) (key : Int) (depth : Nat) (parts : List FieldPart)
    (openings : List Nat) (values : List Nat → List (Nat × Nat)) : Prop where
  congr {seen seen' : List Nat} (h : ∀ b ∈ openings, b ∈ seen ↔ b ∈ seen') :
    values seen = values seen'
  walk (w : BraceWalk) : ∃ found seen,
    parts.foldl (u.enterPart key depth) w =
        { found := w.found ++ { items := found }, seen := seen } ∧
      (∀ b ∈ w.seen, b ∈ seen) ∧ (∀ b ∈ seen, b ∈ w.seen ∨ b ∈ openings) ∧
      u.Yields found (values w.seen)

namespace Finds

variable {key : Int} {depth : Nat}

theorem nil (openings : List Nat) : u.Finds key depth [] openings fun _ => [] := by
  refine ⟨fun _ => rfl, fun w => ⟨[], w.seen, ?_, fun _ hb => hb, fun _ hb => .inl hb, .nil⟩⟩
  have hsame : w.found ++ { items := [] } = w.found := Trail.append_nil _
  rw [hsame]
  rfl

/-- A value for the field is found, and no braces are entered. -/
theorem value {t : Ref} {values : List (Nat × Nat)}
    (h : u.values t = { items := values.map Range.between }) (openings : List Nat) :
    u.Finds key depth [.value t] openings fun _ => values :=
  ⟨fun _ => rfl, fun w => ⟨[.value t], w.seen, rfl, fun _ hb => hb, fun _ hb => .inl hb, .value h⟩⟩

/-- Braces are gone into if that has not been done before. -/
theorem nested {o record rank : Nat} {parts : List FieldPart} {openings : List Nat}
    {values : List Nat → List (Nat × Nat)}
    (hparts : u.parts key o record rank = { items := parts }) (ho : o ∉ openings)
    (h : u.Finds key depth parts openings values) :
    u.Finds key (depth + 1) [.nested o record rank] (o :: openings)
      fun seen => if o ∈ seen then [] else values seen := by
  constructor
  · intro seen seen' hsame
    have hopening := hsame o List.mem_cons_self
    have hvalues := h.congr fun b hb => hsame b (List.mem_cons_of_mem _ hb)
    simp only [hopening, hvalues]
  · intro w
    rw [List.foldl_cons, List.foldl_nil, enterPart, enterBraces_succ]
    by_cases hseen : o ∈ w.seen
    · refine ⟨[], w.seen, ?_, fun _ hb => hb, fun _ hb => .inl hb, ?_⟩
      · rw [if_pos (by simpa using hseen)]
        rfl
      · rw [if_pos hseen]
        exact .nil
    · -- the walk marks these braces and goes through what they hold, with a trail of its own
      obtain ⟨found, seen, hwalk, hold, hnew, hyields⟩ := h.walk { seen := o :: w.seen }
      have hmarked : values (o :: w.seen) = values w.seen := by
        refine h.congr fun b hb => ?_
        have hne : b ≠ o := fun heq => ho (heq ▸ hb)
        simp [hne]
      refine ⟨found, seen, ?_, fun b hb => hold b (List.mem_cons_of_mem _ hb), ?_, ?_⟩
      · rw [if_neg (by simpa using hseen), hparts]
        simp only [hwalk]
        have hsame :
            Trail.nil ++ { items := found } ++ Trail.nil = ({ items := found } : Trail FieldPart) :=
          Trail.append_nil _
        exact congrArg (fun t => BraceWalk.mk (w.found ++ t) seen) hsame
      · intro b hb
        rcases hnew b hb with hb | hb
        · exact (List.mem_cons.1 hb).elim (fun h => .inr (h ▸ List.mem_cons_self)) .inl
        · exact .inr (List.mem_cons_of_mem _ hb)
      · rw [if_neg hseen, ← hmarked]
        exact hyields

/-- One part behind the other. -/
theorem append {parts parts' : List FieldPart} {openings openings' : List Nat}
    {values values' : List Nat → List (Nat × Nat)} (h : u.Finds key depth parts openings values)
    (h' : u.Finds key depth parts' openings' values') (hapart : ∀ b ∈ openings, b ∉ openings') :
    u.Finds key depth (parts ++ parts') (openings ++ openings')
      fun seen => values seen ++ values' seen := by
  constructor
  · intro seen seen' hsame
    rw [h.congr fun b hb => hsame b (List.mem_append_left _ hb),
      h'.congr fun b hb => hsame b (List.mem_append_right _ hb)]
  · intro w
    obtain ⟨found, seen, hwalk, hold, hnew, hyields⟩ := h.walk w
    obtain ⟨found', seen', hwalk', hold', hnew', hyields'⟩ :=
      h'.walk { found := w.found ++ { items := found }, seen := seen }
    -- the first part goes into none of the braces of the second one
    have hvalues : values' seen = values' w.seen := by
      refine h'.congr fun b hb => ⟨fun hmem => ?_, hold b⟩
      exact (hnew b hmem).resolve_right fun hmem => hapart b hmem hb
    refine ⟨found ++ found', seen', ?_, fun b hb => hold' b (hold b hb), ?_, ?_⟩
    · have happend : ({ items := found } : Trail FieldPart) ++ { items := found' } =
          { items := found ++ found' } := rfl
      rw [List.foldl_append, hwalk, hwalk', Trail.append_assoc, happend]
    · intro b hb
      rcases hnew' b hb with hb | hb
      · exact (hnew b hb).imp_right (List.mem_append_left _)
      · exact .inr (List.mem_append_right _ hb)
    · rw [← hvalues]
      exact hyields.append hyields'

end Finds

/-- The walk through what is spelled in braces finds exactly what remains for the field. -/
theorem finds_of_spelled {key : Int} {start close : Nat} {es : Entries}
    (h : u.Spelled start close es) {aim : Aim} {cursor depth : Nat}
    (hfits : u.fits key aim cursor es = true) (hdepth : close - start ≤ depth) :
    u.Finds key depth (u.partsFor key aim cursor es.heads) es.openings
      fun seen => u.remainingFor key seen aim cursor es := by
  induction h generalizing aim cursor depth with
  | done => exact .nil _
  | comma _ hrest ih => exact ih hfits (by omega)
  | @scalar i v last close name? es hdesignator hvalue hexpression hbehind hrest ih =>
    have := hdesignator.le
    have := hvalue.le
    simp only [fits, Bool.and_eq_true] at hfits
    have hvalues := values_of_run hvalue hexpression (hrest.stop hbehind)
    -- an expression that is not for the field itself means nothing for it
    have hentry : u.Finds key depth (u.aimParts (u.entryAim key aim cursor name?) (some v)) []
        fun _ => if u.entryAim key aim cursor name? = .target then [(v, last)] else [] := by
      cases u.entryAim key aim cursor name? with
      | target => exact .value hvalues _
      | records r k =>
        rw [aimParts, if_neg hexpression]
        exact .nil _
      | other => exact .nil _
    exact hentry.append (ih hfits.2 (by omega)) (by simp)
  | @braces i v c close name? inner es hdesignator hbrace hlink hinner hbehind hrest ih ih' =>
    have := hdesignator.le
    have := hinner.le
    have := hrest.le
    simp only [fits, Bool.and_eq_true] at hfits
    obtain ⟨⟨-, hinnerfits⟩, hrestfits⟩ := hfits
    -- the braces are taken for the field whole, gone into, or left alone
    have hentry : u.Finds key depth (u.aimParts (u.entryAim key aim cursor name?) (some v))
        (v :: inner.openings) fun seen =>
          if v ∈ seen ∧ u.entryAim key aim cursor name? ≠ .target then []
          else u.remainingFor key seen (u.entryAim key aim cursor name?) 0 inner := by
      generalize u.entryAim key aim cursor name? = a at hinnerfits
      cases a with
      | target =>
        simp only [ne_eq, not_true_eq_false, and_false, if_false, remainingFor_target]
        exact .value (values_of_spelled hbrace hlink hinner) _
      | records r k =>
        obtain ⟨depth, rfl⟩ : ∃ n, depth = n + 1 := ⟨depth - 1, by omega⟩
        simp only [ne_eq, reduceCtorEq, not_false_eq_true, and_true]
        rw [aimParts, if_pos hbrace]
        refine .nested (parts_of_spelled hlink hinner hinnerfits) (fun hmem => ?_)
          (ih hinnerfits (by omega))
        have := hinner.openings_between hmem
        omega
      | other =>
        simp only [remainingFor_other, ite_self]
        exact .nil _
    refine hentry.append (ih' hrestfits (by omega)) fun b hb hmem => ?_
    -- the braces of this entry end in front of the next one
    have := hrest.openings_between hmem
    rcases List.mem_cons.1 hb with rfl | hb
    · omega
    · have := hinner.openings_between hb
      omega

end Program

end Indirection
