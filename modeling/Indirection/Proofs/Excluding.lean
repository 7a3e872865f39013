import Indirection.Proofs.Filtering

/-!
# What excluded names leave out

The names that a collection never reports are those of members that a front end makes up. But a
declarator is passed over for its name before it is asked what it declares, so that a variable with
such a name is left out, too. Main definitions:

* `Program.IsOffered` — a declarator that is reported unless its name is excluded;
* `Program.IsFirstOutside` — the first of these of its key with a name that is not excluded;
* `Table.nonMembers` — the declarations that are not those of members;
* `Table.AgreeOnNonMembers` — two tables have the same ones of these, and the same valid ones.

Main statements: `Tabulates.mem_nonMembers` — which declarations of non-members are collected;
`agreeOnNonMembers_iff` — when two collections with different excluded names agree on them;
`reservedGlobal_left_out` — a global variable that one of them leaves out.
-/

namespace Indirection

/-- The same choice of members and local variables, with other excluded names. -/
def Scoping.excluding (scoping : Scoping) (names : List String) : Scoping :=
  { scoping with excluded := names }

namespace Table

/-- The declarations of variables that are not members of a record, in order of first report. -/
def nonMembers (t : Table) : List Decl := t.decls.filter (!·.isField)

/-- Whether two tables have the same declarations of non-members, with the same levels and in the
    same order, and the same of them are valid. -/
structure AgreeOnNonMembers (t t' : Table) : Prop where
  decls : t.nonMembers = t'.nonMembers
  valid : ∀ d ∈ t.nonMembers, t.isValid d.key = t'.isValid d.key

end Table

namespace Program

variable {u : Program} {scoping : Scoping} {names names' : List String} {t t' : Table} {d : Decl}
  {i j n : Nat}

/-! ### Declarators and their names -/

/-- Whether the token at `i` is a declarator that would be reported if no name were excluded. -/
def IsOffered (u : Program) (scoping : Scoping) (i : Nat) : Prop :=
  u.Declares (scoping.excluding []) i

/-- Whether the variable of the name at `i` is a member of a record. -/
def isOfMember (u : Program) (i : Nat) : Bool := u.isRecordScope (u.scopeOf (u.var (some i)))

/-- Whether the token at `i` is offered, and the first one of its key whose name is not among
    `names`. -/
structure IsFirstOutside (u : Program) (scoping : Scoping) (names : List String) (i : Nat) :
    Prop where
  offered : u.IsOffered scoping i
  outside : u.text (some i) ∉ names
  first : ∀ j < i, u.IsOffered scoping j → u.declKey (some j) = u.declKey (some i) →
    u.text (some j) ∈ names

/-- Whether the declarator names of a key all have one spelling. -/
def HasSingleNames (u : Program) : Prop :=
  ∀ i j, u.isDeclaratorName (some i) = true → u.isDeclaratorName (some j) = true →
    u.declKey (some i) = u.declKey (some j) → u.text (some i) = u.text (some j)

/-- With names left out, a place declares when it is offered and its name is not among them. -/
theorem declares_excluding_iff : u.Declares (scoping.excluding names) i ↔
    u.IsOffered scoping i ∧ u.text (some i) ∉ names := by
  constructor
  · intro h
    exact ⟨{ h with excluded := List.not_mem_nil }, h.excluded⟩
  · rintro ⟨h, hname⟩
    exact { h with excluded := hname }

/-- With names left out, a place declares first when it is the first one outside them. -/
theorem declaresFirst_excluding_iff : u.DeclaresFirst (scoping.excluding names) i ↔
    u.IsFirstOutside scoping names i := by
  constructor
  · rintro ⟨h, hfirst⟩
    obtain ⟨hoffered, hname⟩ := declares_excluding_iff.1 h
    refine ⟨hoffered, hname, fun j hj hother hkey => ?_⟩
    by_contra hout
    exact hfirst j hj (declares_excluding_iff.2 ⟨hother, hout⟩) hkey
  · rintro ⟨hoffered, hname, hfirst⟩
    refine ⟨declares_excluding_iff.2 ⟨hoffered, hname⟩, fun j hj h hkey => ?_⟩
    obtain ⟨hother, hout⟩ := declares_excluding_iff.1 h
    exact hout (hfirst j hj hother hkey)

/-- Two first declarators of one key that have one name are the same, whatever is excluded. -/
theorem IsFirstOutside.eq (h : u.IsFirstOutside scoping names i)
    (h' : u.IsFirstOutside scoping names' j) (hkey : u.declKey (some i) = u.declKey (some j))
    (htext : u.text (some i) = u.text (some j)) : i = j := by
  rcases Nat.lt_trichotomy i j with hij | rfl | hji
  · exact absurd (htext ▸ h'.first i hij h.offered hkey) h'.outside
  · rfl
  · exact absurd (htext ▸ h.first j hji h'.offered hkey.symm) h.outside

/-! ### Tables -/

/-- The declarations of non-members in tables, by their declarators in token order. -/
theorem Tabulates.nonMembers (h : u.Tabulates (scoping.excluding names) n t) :
    ∃ firsts : List Nat, firsts.Pairwise (· < ·) ∧
      (∀ i, i ∈ firsts ↔ i < n ∧ u.IsFirstOutside scoping names i ∧ u.isOfMember i = false) ∧
      t.nonMembers = firsts.map fun i => u.declarationAt (some i) := by
  obtain ⟨firsts, hsorted, hmem, hdecls⟩ := h.decls
  refine ⟨firsts.filter (!u.isOfMember ·), hsorted.filter _, fun i => ?_, ?_⟩
  · rw [List.mem_filter, hmem, declaresFirst_excluding_iff, Bool.not_eq_true', and_assoc]
  · show t.decls.filter _ = _
    rw [hdecls, List.filter_map]
    rfl

/-- The declarations that are no members are those of the first places outside the names left out.
    -/
theorem Tabulates.mem_nonMembers (h : u.Tabulates (scoping.excluding names) n t) :
    d ∈ t.nonMembers ↔ ∃ i < n, u.IsFirstOutside scoping names i ∧ u.isOfMember i = false ∧
      u.declarationAt (some i) = d := by
  obtain ⟨firsts, -, hmem, hdecls⟩ := h.nonMembers
  simp only [hdecls, List.mem_map, hmem, and_assoc]

/-- A declaration of a non-member that is also in other tables comes from the same declarator. -/
theorem Tabulates.isFirstOutside_of_mem (h : u.Tabulates (scoping.excluding names') n t)
    (hi : u.IsFirstOutside scoping names i)
    (hmem : u.declarationAt (some i) ∈ t.nonMembers) : u.IsFirstOutside scoping names' i := by
  obtain ⟨j, -, hj, -, heq⟩ := h.mem_nonMembers.1 hmem
  have hkey : u.declKey (some j) = u.declKey (some i) := congrArg Decl.key heq
  have htext : u.text (some j) = u.text (some i) := congrArg Decl.name heq
  rwa [← hj.eq hi hkey htext]

/-- Tables of the same tokens agree on non-members when their first declarators do. -/
theorem Tabulates.agree_iff (h : u.Tabulates (scoping.excluding names) n t)
    (h' : u.Tabulates (scoping.excluding names') n t') : t.AgreeOnNonMembers t' ↔
      ∀ i < n, u.isOfMember i = false →
        (u.IsFirstOutside scoping names i ↔ u.IsFirstOutside scoping names' i) := by
  constructor
  · rintro ⟨hdecls, -⟩ i hi hmember
    constructor
    · intro hfirst
      refine h'.isFirstOutside_of_mem hfirst ?_
      rw [← hdecls]
      exact h.mem_nonMembers.2 ⟨i, hi, hfirst, hmember, rfl⟩
    · intro hfirst
      refine h.isFirstOutside_of_mem hfirst ?_
      rw [hdecls]
      exact h'.mem_nonMembers.2 ⟨i, hi, hfirst, hmember, rfl⟩
  · intro hsame
    obtain ⟨firsts, hsorted, hmem, hdecls⟩ := h.nonMembers
    obtain ⟨firsts', hsorted', hmem', hdecls'⟩ := h'.nonMembers
    have hfirsts : firsts = firsts' := by
      refine hsorted.eq_of_mem_iff hsorted' fun i => ?_
      rw [hmem, hmem']
      refine and_congr_right fun hi => and_congr_left fun hmember => ?_
      exact hsame i hi hmember
    have heq : t.nonMembers = t'.nonMembers := by rw [hdecls, hdecls', hfirsts]
    refine ⟨heq, fun d hd => ?_⟩
    -- the declaration is known to both, and the same keys are disqualified in both
    have hknows : t.knows d.key = true :=
      List.any_eq_true.2 ⟨d, (List.mem_filter.1 hd).1, by simp⟩
    have hknows' : t'.knows d.key = true :=
      List.any_eq_true.2 ⟨d, (List.mem_filter.1 (heq ▸ hd)).1, by simp⟩
    have hdisqualified : t.disqualified.contains d.key = t'.disqualified.contains d.key := by
      rw [Bool.eq_iff_iff]
      simp only [List.contains_iff_mem, h.disqualified, h'.disqualified]
    rw [Table.isValid, Table.isValid, hknows, hknows', hdisqualified]

/-! ### Names of one key -/

/-- Where the declarator names of a key have one spelling, the first one decides for all. -/
theorem isFirstOutside_iff_of_single (hvars : u.HasSingleVariables) (hnames : u.HasSingleNames) :
    (∀ i, u.IsRead i → u.isOfMember i = false →
      (u.IsFirstOutside scoping names i ↔ u.IsFirstOutside scoping names' i)) ↔
    ∀ i, u.IsRead i → u.isOfMember i = false → u.IsOffered scoping i →
      (u.text (some i) ∈ names ↔ u.text (some i) ∈ names') := by
  have htext (i j : Nat) (hi : u.IsOffered scoping i) (hj : u.IsOffered scoping j)
      (hkey : u.declKey (some j) = u.declKey (some i)) : u.text (some j) = u.text (some i) :=
    hnames j i hj.declarator hi.declarator hkey
  constructor
  · intro hsame i hread hmember hoffered
    have hex : ∃ j, u.IsOffered scoping j ∧ u.declKey (some j) = u.declKey (some i) :=
      ⟨i, hoffered, rfl⟩
    classical
    -- the first declarator of the key has the same name, and none in front of it
    obtain ⟨hfirst, hkey⟩ := Nat.find_spec hex
    have hle : Nat.find hex ≤ i := Nat.find_min' hex ⟨hoffered, rfl⟩
    have hread' : u.IsRead (Nat.find hex) := fun j hj => hread j (by omega)
    have hmember' : u.isOfMember (Nat.find hex) = false := by
      rw [isOfMember, hvars _ i hfirst.declarator hoffered.declarator hkey]
      exact hmember
    have houtside (names : List String) :
        u.IsFirstOutside scoping names (Nat.find hex) ↔ u.text (some i) ∉ names := by
      rw [← htext i _ hoffered hfirst hkey]
      refine ⟨fun h => h.outside, fun h => ⟨hfirst, h, fun j hj hother hkey' => ?_⟩⟩
      exact absurd ⟨hother, hkey'.trans hkey⟩ (Nat.find_min hex hj)
    have := hsame _ hread' hmember'
    rwa [houtside, houtside, not_iff_not] at this
  · have hmono {names names' : List String} {i : Nat}
        (hsame : u.IsOffered scoping i →
          (u.text (some i) ∈ names ↔ u.text (some i) ∈ names'))
        (h : u.IsFirstOutside scoping names i) : u.IsFirstOutside scoping names' i := by
      refine ⟨h.offered, fun hin => h.outside ((hsame h.offered).2 hin), ?_⟩
      intro j hj hother hkey
      have hin := h.first j hj hother hkey
      rw [htext i j h.offered hother hkey] at hin
      exact absurd hin h.outside
    intro hsame i hread hmember
    exact ⟨hmono fun hoffered => hsame i hread hmember hoffered,
      hmono fun hoffered => (hsame i hread hmember hoffered).symm⟩

/-- **When excluded names leave non-members alone.** Two collections that differ in the excluded
    names only have the same declarations of variables that are no members, with the same levels, in
    the same order and with the same of them valid:

    * exactly when every token that is read and names no member is for both or for neither the first
      declarator of its key whose name is not excluded;
    * where the declarator names of a key stand for one variable and have one spelling, exactly when
      of the names of such declarators both exclude the same. -/
theorem agreeOnNonMembers_iff (u : Program) (scoping : Scoping) (names names' : List String) :
    let t := (u.collect (scoping.excluding names)).table
    let t' := (u.collect (scoping.excluding names')).table
    (t.AgreeOnNonMembers t' ↔ ∀ i, u.IsRead i → u.isOfMember i = false →
      (u.IsFirstOutside scoping names i ↔ u.IsFirstOutside scoping names' i)) ∧
    (u.HasSingleVariables → u.HasSingleNames →
      (t.AgreeOnNonMembers t' ↔ ∀ i, u.IsRead i → u.isOfMember i = false →
        u.IsOffered scoping i → (u.text (some i) ∈ names ↔ u.text (some i) ∈ names'))) := by
  intro t t'
  obtain ⟨n, fault, hread, hextent⟩ := u.collect_reads
  have htab : u.Tabulates (scoping.excluding names) n t := (hextent _).2.2
  have htab' : u.Tabulates (scoping.excluding names') n t' := (hextent _).2.2
  have hagree : t.AgreeOnNonMembers t' ↔ ∀ i, u.IsRead i → u.isOfMember i = false →
      (u.IsFirstOutside scoping names i ↔ u.IsFirstOutside scoping names' i) := by
    rw [htab.agree_iff htab']
    refine forall_congr' fun i => ?_
    by_cases hi : i < u.size
    · rw [hread i hi]
    · -- what is no token of the program declares nothing
      have hnot (names : List String) : ¬ u.IsFirstOutside scoping names i := fun h =>
        hi (lt_size_of_isDeclaratorName h.offered.declarator)
      simp [hnot]
  exact ⟨hagree, fun hvars hnames => hagree.trans (isFirstOutside_iff_of_single hvars hnames)⟩

/-- The tokens of the text `struct S { int *reg_save_area; }; int *p;`. -/
def reservedMember : Program where
  tokens := #[{ text := "struct", isName := true }, { text := "S", isName := true },
    { text := "\x7b", link := some 7 }, { text := "int", isName := true }, { text := "*" },
    { text := "reg_save_area", varId := 1, var := some 0, isName := true }, { text := ";" },
    { text := "\x7d", link := some 2 }, { text := ";" },
    { text := "int", isName := true }, { text := "*" },
    { text := "p", varId := 2, var := some 1, isName := true }, { text := ";" }]
  vars := #[{ nameToken := some 5, typeStart := some 3, scope := some 1 },
    { nameToken := some 11, typeStart := some 9, scope := some 0 }]
  scopes := #[{ type := some "Global", className := some "", members := [1] },
    { type := some "Struct", className := some "S", members := [0] }]

/-- A member with an excluded name comes and goes without the global variable beside it. -/
theorem agreeOnNonMembers_iff_reservedMember :
    let t := (reservedMember.collect {}).table
    let t' := (reservedMember.collect (Scoping.excluding {} [])).table
    reservedMember.HasSingleVariables ∧ reservedMember.HasSingleNames ∧
      t.decls.map Decl.name = ["p"] ∧ t'.decls.map Decl.name = ["reg_save_area", "p"] ∧
      t.AgreeOnNonMembers t' := by
  intro t t'
  have hvars : reservedMember.HasSingleVariables :=
    hasSingleVariables_of_places (by decide +kernel)
  have hnames : reservedMember.HasSingleNames := by
    intro i j hi hj
    have hall :
        ∀ i ∈ reservedMember.places.filter fun i => reservedMember.isDeclaratorName (some i),
        ∀ j ∈ reservedMember.places.filter fun j => reservedMember.isDeclaratorName (some j),
          reservedMember.declKey (some i) = reservedMember.declKey (some j) →
            reservedMember.text (some i) = reservedMember.text (some j) := by decide +kernel
    exact hall i (mem_places_of_isDeclaratorName hi) j (mem_places_of_isDeclaratorName hj)
  refine ⟨hvars, hnames, by decide +kernel, by decide +kernel, ?_⟩
  apply ((reservedMember.agreeOnNonMembers_iff {} _ []).2 hvars hnames).2
  intro i _ hmember hoffered
  -- the one declarator that names no member has another name
  have hall :
      ∀ i ∈ reservedMember.places.filter fun i => reservedMember.isDeclaratorName (some i),
      reservedMember.isOfMember i = false → reservedMember.text (some i) = "p" := by
    decide +kernel
  rw [hall i (mem_places_of_isDeclaratorName hoffered.declarator) hmember]
  decide

/-! ### A global variable with the name of a synthesised member -/

/-- The tokens of the text `int *reg_save_area; int *p;`. -/
def reservedGlobal : Program where
  tokens := #[{ text := "int", file := "a.c", line := 1, column := 1, isName := true },
    { text := "*", file := "a.c", line := 1, column := 5 },
    { text := "reg_save_area", file := "a.c", line := 1, column := 6, varId := 1, var := some 0,
      valueType := some 0, isName := true },
    { text := ";", file := "a.c", line := 1, column := 19 },
    { text := "int", file := "a.c", line := 2, column := 1, isName := true },
    { text := "*", file := "a.c", line := 2, column := 5 },
    { text := "p", file := "a.c", line := 2, column := 6, varId := 2, var := some 1,
      valueType := some 0, isName := true },
    { text := ";", file := "a.c", line := 2, column := 7 }]
  vars := #[{ nameToken := some 2, typeStart := some 0, scope := some 0 },
    { nameToken := some 6, typeStart := some 4, scope := some 0 }]
  scopes := #[{ type := some "Global", className := some "", members := [0, 1] }]
  valueTypes := #[{ type := some "int", pointer := 1 }]

/-- The names that are excluded if nothing is said leave out a global variable, which is reported
    when no name is excluded. -/
theorem reservedGlobal_left_out :
    let t := (reservedGlobal.collect {}).table
    let t' := (reservedGlobal.collect (Scoping.excluding {} [])).table
    t.nonMembers.map Decl.name = ["p"] ∧ t'.nonMembers.map Decl.name = ["reg_save_area", "p"] ∧
      ¬ t.AgreeOnNonMembers t' := by
  intro t t'
  have hnames : t.nonMembers.map Decl.name = ["p"] := by decide +kernel
  have hnames' : t'.nonMembers.map Decl.name = ["reg_save_area", "p"] := by decide +kernel
  refine ⟨hnames, hnames', fun h => ?_⟩
  rw [h.decls, hnames'] at hnames
  simp at hnames

end Program

end Indirection
