import Indirection.Proofs.Acyclic
import Indirection.Proofs.Performance
import Indirection.Proofs.Stepwise

/-!
# What a reduction may edit

Main definitions:

* `Program.openings` — the texts that may be written in front of a value that loses a level;
* `Program.Permits` — the changes that the reduction of a declaration may make.

Main statements: `ArisesAt.permitted` and `Supplied.permitted` — the two sources of changes make no
others; `performPlan_frame` — every recorded edit is permitted, and every declarator of the
declaration loses its nearest star.
-/

namespace Indirection.Program

variable {u : Program} {sources : Sources} {d : Decl}

/-- The texts that may be written in front of a value that loses a level for `d`. -/
def openings (u : Program) (d : Decl) : List String :=
  ["*", "*("] ++
    ((u.declaredType d).map fun type => ["*(" ++ type ++ ")", "*(" ++ type ++ ")("]).getD []

/-- The changes that the reduction of `d` may make. -/
inductive Permits (u : Program) (d : Decl) : Change → Prop
  /-- the nearest star of a declarator goes away -/
  | declaratorStar {i star : Nat} (key : u.declKey (some i) = d.key)
    (declarator : u.isDeclaratorName (some i) = true)
    (nearest : (u.stars (some i)).head? = some star) : Permits u d (.remove (some star))
  /-- a dereference of the value goes away -/
  | dereference {i node star : Nat} (site : u.IsValueSite d i (some node))
    (parent : u.parent (some node) = some star)
    (dereference : u.isDereference (some star) = true) : Permits u d (.remove (some star))
  /-- the address operator of a narrowed value goes away -/
  | address {root : Nat} {range : Range} (value : u.IsNarrowed d root range)
    (address : u.isAddressOf (some root) = true) : Permits u d (.remove (some root))
  /-- the indexing of the value goes away, with all that stands between its brackets -/
  | subscript {i node opening close : Nat} (site : u.IsValueSite d i (some node))
    (subscript : u.isSubscript (some opening) = true)
    (base : u.operand1 (some opening) = some node) (link : u.link (some opening) = some close) :
    Permits u d (.removeRange (some opening) (some close))
  /-- an access through the value becomes one to the value -/
  | arrow {i node operator : Nat} (site : u.IsValueSite d i (some node))
    (arrow : u.isArrow (some operator) = true) (base : u.operand1 (some operator) = some node) :
    Permits u d (.replace (some operator) ".")
  /-- the address of the value is taken -/
  | reference {i node first last : Nat} (site : u.IsValueSite d i (some node))
    (bounds : u.bounds (some node) = some (first, last)) :
    Permits u d (.insertBefore (some first) "&")
  /-- a narrowed value is dereferenced -/
  | opening {root : Nat} {range : Range} {text : String} (value : u.IsNarrowed d root range)
    (mem : text ∈ u.openings d) : Permits u d (.insertBefore range.first text)
  /-- the parenthesis around a narrowed value is closed -/
  | closing {root : Nat} {range : Range} (value : u.IsNarrowed d root range) :
    Permits u d (.insertAfter range.last ")")

/-- What a narrowing writes in front of a value is an opening of the known type. -/
theorem opening_mem_openings {type? : Option String} (htype : ∀ type ∈ type?,
    u.declaredType d = some type) {root : Ref} {text : String}
    (h : (u.narrowing type? root).opening = some text) : text ∈ u.openings d := by
  have hplain {wrap : Bool} (hw : Narrowing.opening (.dereference "" wrap) = some text) :
      text ∈ u.openings d := by
    obtain rfl := Option.some.inj hw
    cases wrap <;> simp [openings]
  unfold narrowing at h
  split at h
  · -- an address operator goes away without an opening
    cases h
  · split at h
    · -- a null pointer stays as it is
      cases h
    · cases type? with
      | none => exact hplain h
      | some type =>
        dsimp only at h
        split at h
        · -- a value of type `void *` is dereferenced through the declared type
          obtain rfl := Option.some.inj h
          have hcast : "*" ++ ("(" ++ type ++ ")") = "*(" ++ type ++ ")" := by
            rw [← String.append_assoc, ← String.append_assoc]
            rfl
          have hwrap : "*(" ++ type ++ ")" ++ "(" = "*(" ++ type ++ ")(" := by
            rw [String.append_assoc]
            rfl
          rw [hcast]
          cases u.isPostfixOrPrimary root <;> simp [openings, htype type rfl, hwrap]
        · exact hplain h

/-- The changes for a narrowed value are permitted. -/
theorem IsNarrowed.permitted {root : Nat} {range : Range} (hvalue : u.IsNarrowed d root range)
    {type? : Option String} (htype : ∀ type ∈ type?, u.declaredType d = some type) {c : Change}
    (hc : .change c ∈ (u.narrow type? (some root) range).items) : u.Permits d c := by
  rcases mem_narrow.1 hc with ⟨hkind, rfl⟩ | ⟨text, hopening, rfl⟩ | ⟨cast, -, rfl⟩
  · have haddress : u.isAddressOf (some root) = true := by
      unfold narrowing at hkind
      grind
    exact .address hvalue haddress
  · exact .opening hvalue (opening_mem_openings htype hopening)
  · exact .closing hvalue

/-- The changes at a token are permitted. -/
theorem ArisesAt.permitted {i : Nat} (hi : i < u.size) {c : Change} (h : u.ArisesAt d i c) :
    u.Permits d c := by
  cases h with
  | star hrole hnearest =>
    obtain ⟨hkey, hdeclarator⟩ := role_eq_declarator.1 hrole
    exact .declaratorStar hkey hdeclarator hnearest
  | @dereferenced node operator hsite huse =>
    have hspec := u.use_spec node
    simp only [huse] at hspec
    obtain ⟨hparent, hderef⟩ := hspec
    obtain ⟨node, rfl⟩ := hsite.exists_token
    obtain ⟨star, rfl⟩ := exists_token_of rfl hderef
    exact .dereference hsite hparent.symm hderef
  | @indexed node operator close hsite huse hlink =>
    have hspec := u.use_spec node
    simp only [huse] at hspec
    obtain ⟨-, hsub, hbase⟩ := hspec
    obtain ⟨node, rfl⟩ := hsite.exists_token
    obtain ⟨opening, rfl⟩ := exists_token_of rfl hsub
    exact .subscript hsite hsub hbase hlink
  | @arrow node operator hsite huse =>
    have hspec := u.use_spec node
    simp only [huse] at hspec
    obtain ⟨-, harrow, hbase⟩ := hspec
    obtain ⟨node, rfl⟩ := hsite.exists_token
    obtain ⟨operator, rfl⟩ := exists_token_of rfl harrow
    exact .arrow hsite harrow hbase
  | other hsite huse hbounds =>
    obtain ⟨node, rfl⟩ := hsite.exists_token
    exact .reference hsite hbounds
  | narrowed hvalue hc =>
    have htype : ∀ type ∈ (u.knownBefore d (i + 1)).type?, u.declaredType d = some type :=
      fun type htype => declaredType_of_known hi htype
    exact IsNarrowed.permitted (.inl ⟨i, hi, hvalue⟩) htype hc

/-- The changes for what braces supply are permitted. -/
theorem Supplied.permitted {root : Nat} {range : Range} (hvalue : u.Supplied d root range)
    {c : Change} (hc : .change c ∈ (u.narrow (u.declaredType d) (some root) range).items) :
    u.Permits d c :=
  IsNarrowed.permitted (.inr hvalue) (fun _ h => h) hc

/-- Every change of a plan is permitted. -/
theorem permits_of_mem_plan (h : (u.plan d).fault = none) {c : Change}
    (hc : .change c ∈ (u.plan d).items) : u.Permits d c := by
  rcases (mem_plan h).1 hc with ⟨i, hi, harises⟩ | ⟨root, range, hvalue, hc⟩
  · exact harises.permitted hi
  · exact hvalue.permitted hc

/-- Only a token of the program is a declarator's name. -/
theorem lt_size_of_isDeclaratorName {i : Nat} (h : u.isDeclaratorName (some i) = true) :
    i < u.size := by
  by_contra hout
  simp [isDeclaratorName, var, token?_eq_none (Nat.le_of_not_lt hout)] at h

/-- A replaced token is found at the replaced stretch. -/
theorem place?_replace {t : Ref} {text : String} {r : Replacement}
    (h : u.place? sources (.replace t text) = .ok r) :
    ∃ span, u.locate sources t = .ok span ∧ r = ⟨span.path, span.start, span.stop, text⟩ := by
  simp only [place?, bind, Except.bind] at h
  split at h
  · cases h
  · rename_i span hspan
    exact ⟨span, hspan, (Except.ok.inj h).symm⟩

/-- A declarator of a plan without a fault loses its nearest star. -/
theorem plan_removes_nearest (h : (u.plan d).fault = none) {i : Nat}
    (hrole : u.role d.key (some i) = .declarator) (hi : i < u.size) :
    ∃ star, (u.stars (some i)).head? = some star ∧
      .change (.remove (some star)) ∈ (u.plan d).items := by
  have hstep := (plan_of_fault_none h).1 i hi
  cases hstars : u.stars (some i) with
  | nil =>
    -- a declarator without a star ends the plan
    simp [stepAt, hrole, stepAs, rewriteDeclarator, hstars] at hstep
  | cons star others =>
    have hnearest : (u.stars (some i)).head? = some star := by rw [hstars]; rfl
    rw [← hstars]
    exact ⟨star, hnearest, (mem_plan h).2 (.inl ⟨i, hi, .star hrole hnearest⟩)⟩

/-- **What a reduction edits.** When a reduction runs through, every recorded edit does what a
    permitted change does at the place of its tokens; the nearest star of each declarator of the
    declaration is removed; and a removed token that is no unary operator is such a star. -/
theorem performPlan_frame (h : (u.performPlan sources d).fault = none) :
    (∀ path, ∀ e ∈ (u.performPlan sources d).script.recorded path,
      ∃ c, u.Permits d c ∧ u.place? sources c = .ok ⟨path, e.start, e.stop, e.text⟩) ∧
    (∀ i, u.declKey (some i) = d.key → u.isDeclaratorName (some i) = true →
      ∃ star span, (u.stars (some i)).head? = some star ∧
        u.locate sources (some star) = .ok span ∧
        ∃ e ∈ (u.performPlan sources d).script.recorded span.path,
          e.start = span.start ∧ e.stop = span.stop ∧ e.text = "") ∧
    (∀ k, .change (.remove (some k)) ∈ (u.plan d).items → u.isUnaryOp (some k) = false →
      ∃ i, u.declKey (some i) = d.key ∧ u.isDeclaratorName (some i) = true ∧
        (u.stars (some i)).head? = some k) := by
  obtain ⟨hplan, -⟩ := performPlan_recordAll h
  obtain ⟨hholds, hplaced⟩ := performPlan_holds h
  refine ⟨?_, ?_, ?_⟩
  · intro path e he
    -- a recorded edit is what some change of the plan replaces
    obtain ⟨hmem, -⟩ := (hholds.mem_recorded path e).1 he
    obtain ⟨c, hc, hplace⟩ := mem_replacements.1 hmem
    exact ⟨c, permits_of_mem_plan hplan hc, hplace⟩
  · intro i hkey hdeclarator
    have hrole : u.role d.key (some i) = .declarator := role_eq_declarator.2 ⟨hkey, hdeclarator⟩
    have hi : i < u.size := lt_size_of_isDeclaratorName hdeclarator
    obtain ⟨star, hnearest, hc⟩ := plan_removes_nearest hplan hrole hi
    obtain ⟨r, hplace⟩ := hplaced _ hc
    -- the removal is recorded under the number of its first recording
    have hr : r ∈ u.replacements sources (u.plan d).items := mem_replacements.2 ⟨_, hc, hplace⟩
    obtain ⟨span, hlocate, rfl⟩ := place?_replace hplace
    let seq := (u.replacements sources (u.plan d).items).idxOf
      ⟨span.path, span.start, span.stop, ""⟩ + 1
    exact ⟨star, span, hnearest, hlocate, ⟨span.start, span.stop, "", seq⟩,
      (hholds.mem_recorded _ _).2 ⟨hr, rfl⟩, rfl, rfl, rfl⟩
  · intro k hk hunary
    have hpermits := permits_of_mem_plan hplan hk
    generalize hchange : Change.remove (some k) = c at hpermits
    -- all other permitted changes remove a unary operator, or more or less than one token
    cases hpermits with
    | declaratorStar hkey hdeclarator hnearest =>
      obtain rfl := Option.some.inj (Change.replace.inj hchange).1
      exact ⟨_, hkey, hdeclarator, hnearest⟩
    | dereference _ _ hderef =>
      obtain rfl := Option.some.inj (Change.replace.inj hchange).1
      simp [isDereference, hunary] at hderef
    | address _ haddress =>
      obtain rfl := Option.some.inj (Change.replace.inj hchange).1
      simp [isAddressOf, hunary] at haddress
    | arrow => exact absurd (Change.replace.inj hchange).2 (by decide)
    | subscript | reference | opening | closing => cases hchange

/-- The tokens of the text `int *p = q; *p; g(p);`. -/
def pointerUses : Program where
  tokens := #[{ text := "int", file := "a.c", line := 1, column := 1, isName := true },
    { text := "*", file := "a.c", line := 1, column := 5 },
    { text := "p", file := "a.c", line := 1, column := 6, varId := 1, var := some 0,
      parent := some 3, isName := true },
    { text := "=", file := "a.c", line := 1, column := 8, operand1 := some 2,
      operand2 := some 4, isAssignmentOp := true },
    { text := "q", file := "a.c", line := 1, column := 10, parent := some 3, isName := true },
    { text := ";", file := "a.c", line := 1, column := 11 },
    { text := "*", file := "a.c", line := 1, column := 13, operand1 := some 7 },
    { text := "p", file := "a.c", line := 1, column := 14, varId := 1, var := some 0,
      parent := some 6, isName := true },
    { text := ";", file := "a.c", line := 1, column := 15 },
    { text := "g", file := "a.c", line := 1, column := 17, parent := some 10, isName := true },
    { text := "(", file := "a.c", line := 1, column := 18, link := some 12,
      operand1 := some 9, operand2 := some 11 },
    { text := "p", file := "a.c", line := 1, column := 19, varId := 1, var := some 0,
      parent := some 10, isName := true },
    { text := ")", file := "a.c", line := 1, column := 20, link := some 10 },
    { text := ";", file := "a.c", line := 1, column := 21 }]
  vars := #[{ nameToken := some 2, typeStart := some 0 }]

/-- The reduction of `p` to `int p = *q; p; g(&p);` keeps to the permitted changes. -/
theorem performPlan_frame_pointerUses :
    let d : Decl := { key := 1, name := "p", level := 1 }
    let sources : Sources := fun _ => .ok "int *p = q; *p; g(p);"
    (pointerUses.performPlan sources d).fault = none ∧
      (pointerUses.performPlan sources d).script.recorded "a.c" =
        [⟨4, 5, "", 1⟩, ⟨9, 9, "*", 2⟩, ⟨12, 13, "", 3⟩, ⟨18, 18, "&", 4⟩] ∧
      ∀ e ∈ (pointerUses.performPlan sources d).script.recorded "a.c", ∃ c,
        pointerUses.Permits d c ∧
          pointerUses.place? sources c = .ok ⟨"a.c", e.start, e.stop, e.text⟩ := by
  intro d sources
  have hfault : (pointerUses.performPlan sources d).fault = none := by decide +kernel
  exact ⟨hfault, by decide +kernel, (performPlan_frame hfault).1 "a.c"⟩

end Indirection.Program
