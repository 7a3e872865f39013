import Indirection.Proofs.Frame
import Indirection.Proofs.Outcome
import Indirection.Proofs.SourceFiles

/-!
# A collected declaration is found again

A collection and a plan walk through the same tokens, but not alike: a collection passes over what
is not reported and takes the first declarator of each key, while a plan takes up every declarator
of its key, the ones that were passed over among them. Main definitions:

* `Program.Revisits` — a token is a declarator from which a star can be taken, in a record if the
  declaration is a member;
* `Fault.MissesDeclaration` — the two faults of a plan that has met no such declarator;
* `Run.fault?` — the fault that a run ended in, also where it became its result.

Main statements: `knownBefore_declared_iff`, `knownBefore_record_iff` — what a plan knows at some
point is what the declarators so far tell, and no later one takes it back; `exists_revisits` — the
token that a declaration was collected from is taken up by its plan; `targets_revisited` — so that
no plan of a candidate and no run misses the declaration.
-/

namespace Indirection

/-! ### Faults that a declaration is missing -/

/-- The faults of a plan that has met no declarator, or none in a record. -/
def Fault.MissesDeclaration (f : Fault) : Prop :=
  ∃ name p, f = .of (.noDeclarator name) p ∨ f = .of (.noRecord name) p

/-- A quoted text begins with a quotation mark. -/
theorem Text.head?_quote (s : String) :
    (Text.quote s).toList.head? = some '"' ∨ (Text.quote s).toList.head? = some '\'' := by
  simp only [quote, String.toList_ofList, List.head?_cons, Option.some.injEq, quoteMark]
  split
  · exact .inl rfl
  · exact .inr rfl

/-- A star that is missing is not a declaration that is missing: they share a code, and differ in
    what is said about them. -/
theorem not_missesDeclaration_noStar (spelling : String) (p : Position) :
    ¬ (Fault.of (.noStar spelling) p).MissesDeclaration := by
  have hhead (rest : String) : (Text.quote spelling ++ rest).toList.head? = some '"' ∨
      (Text.quote spelling ++ rest).toList.head? = some '\'' := by
    rw [String.toList_append, List.head?_append]
    rcases Text.head?_quote spelling with h | h
    · exact .inl (by rw [h, Option.some_or])
    · exact .inr (by rw [h, Option.some_or])
  rintro ⟨name, q, h | h⟩
  · have hmessage := congrArg Diagnostic.message (Fault.refused.inj h)
    have hquote := hhead " has no pointer declarator to remove"
    change Text.quote spelling ++ " has no pointer declarator to remove" =
      "no declarator found for " ++ name at hmessage
    rw [hmessage, String.toList_append] at hquote
    simp at hquote
  · have hmessage := congrArg Diagnostic.message (Fault.refused.inj h)
    have hquote := hhead " has no pointer declarator to remove"
    change Text.quote spelling ++ " has no pointer declarator to remove" =
      "field " ++ name ++ " has no enclosing record" at hmessage
    rw [hmessage, String.toList_append, String.toList_append] at hquote
    simp at hquote

/-- A diagnostic with the code of another cause misses no declaration. -/
theorem not_missesDeclaration_of_code {c : Cause} (h : c.code ≠ .noPointerDeclarator)
    (p : Position) : ¬ (Fault.of c p).MissesDeclaration := by
  rintro ⟨name, q, hf | hf⟩
  · exact h (congrArg Diagnostic.code (Fault.refused.inj hf))
  · exact h (congrArg Diagnostic.code (Fault.refused.inj hf))

/-- A fault that is no diagnostic misses no declaration. -/
theorem not_missesDeclaration_of_ne {f : Fault} (h : ∀ d, f ≠ .refused d) :
    ¬ f.MissesDeclaration := by
  rintro ⟨name, q, hf | hf⟩
  · exact h _ hf
  · exact h _ hf

/-- A fault of the tokens does not say that a declaration is missing. -/
theorem Fault.OfTokens.not_missesDeclaration {f : Fault} (h : f.OfTokens) :
    ¬ f.MissesDeclaration := by
  cases h with
  | noStar spelling p => exact not_missesDeclaration_noStar spelling p
  | unmatched _ p | noTree _ p | deepArrow _ _ p =>
    exact not_missesDeclaration_of_code (by rw [Cause.code]; decide) p
  | noMember | endlessChain => exact not_missesDeclaration_of_ne (by simp)

/-- A fault of the texts does not say that a declaration is missing. -/
theorem Fault.OfTexts.not_missesDeclaration {f : Fault} (h : f.OfTexts) :
    ¬ f.MissesDeclaration := by
  cases h with
  | outsideFile _ p | notOnLine _ _ p | brokenRange p =>
    exact not_missesDeclaration_of_code (by rw [Cause.code]; decide) p

/-- A fault of the files does not say that a declaration is missing. -/
theorem Fault.OfFiles.not_missesDeclaration {f : Fault} (h : f.OfFiles) :
    ¬ f.MissesDeclaration := by
  cases h with
  | sourceNotFound _ p => exact not_missesDeclaration_of_code (by rw [Cause.code]; decide) p
  | obstructed | undecodable | unknownEncoding => exact not_missesDeclaration_of_ne (by simp)

namespace Program

variable {u : Program} {scoping : Scoping} {sources : Sources} {d : Decl} {f : Fault}

/-! ### What a plan knows at its end -/

/-- A declarator that is met is known of from there on. -/
theorem knownBefore_declared_iff (u : Program) (d : Decl) (n : Nat) :
    (u.knownBefore d n).declared = true ↔ ∃ i < n, u.role d.key (some i) = .declarator := by
  induction n with
  | zero => simp [knownBefore]
  | succ n ih =>
    rw [knownBefore_succ, Nat.exists_lt_succ_right, ← ih]
    by_cases hrole : u.role d.key (some n) = .declarator
    · simp [hrole, learn]
    · simp [hrole]

/-- The record of a member is known from the first declarator on that is in a scope: one in front of
    it, which is in none, does not spoil it. -/
theorem knownBefore_record_iff (hfield : d.isField = true) (n : Nat) :
    (u.knownBefore d n).record.isSome = true ↔
      ∃ i < n, u.role d.key (some i) = .declarator ∧
        (u.scopeOf (u.var (some i))).isSome = true := by
  induction n with
  | zero => simp [knownBefore]
  | succ n ih =>
    rw [knownBefore_succ, Nat.exists_lt_succ_right, ← ih]
    by_cases hrole : u.role d.key (some n) = .declarator
    · simp [hrole, learn, hfield, Option.isSome_or]
    · simp [hrole]

/-- A step at a token fails for a fault of the tokens only. -/
theorem stepAt_faults (u : Program) (d : Decl) (i : Nat) :
    (u.stepAt d i).FaultsIn Fault.OfTokens := by
  unfold stepAt
  cases u.role d.key (some i) with
  | declarator => exact rewriteDeclarator_faults _ _
  | use => exact rewriteUse_faults _ _ _
  | unrelated | label => exact .nil

/-! ### The token that a declaration was collected from -/

/-- Whether the token at `i` is a declarator of `d` that a reduction can take up: it has a star, and
    is in a record if `d` is a member. -/
structure Revisits (u : Program) (d : Decl) (i : Nat) : Prop where
  declarator : u.role d.key (some i) = .declarator
  starred : u.stars (some i) ≠ []
  record : d.isField = true → u.isRecordScope (u.scopeOf (u.var (some i))) = true

/-- Only a scope of the program is that of a record. -/
theorem isSome_of_isRecordScope {s : Option Nat} (h : u.isRecordScope s = true) :
    s.isSome = true := by
  cases s with
  | none => simp [isRecordScope, scope?] at h
  | some k => rfl

/-- A declaration that is collected, also in front of a fault, is that of a token which its plan
    takes up. -/
theorem exists_revisits (h : d ∈ (u.collect scoping).table.decls) :
    ∃ i < u.size, u.declarationAt (some i) = d ∧ u.Revisits d i := by
  obtain ⟨n, fault, hextent⟩ := u.collect_extent
  obtain ⟨-, -, htab⟩ := hextent scoping
  obtain ⟨firsts, -, hmem, hdecls⟩ := htab.decls
  rw [hdecls] at h
  obtain ⟨i, hi, rfl⟩ := List.mem_map.1 h
  have hdeclares : u.Declares scoping i := ((hmem i).1 hi).2.1
  exact ⟨i, lt_size_of_isDeclaratorName hdeclares.declarator, rfl,
    role_eq_declarator.2 ⟨rfl, hdeclares.declarator⟩, hdeclares.starred, id⟩

/-- A plan that takes up such a token fails only because of broken tokens. -/
theorem plan_faults_of_revisits {i : Nat} (hi : i < u.size) (h : u.Revisits d i) :
    (u.plan d).FaultsIn Fault.OfTokens := by
  rw [plan_eq]
  refine .append (.concat fun i _ => stepAt_faults u d i) ?_
  refine (planEnd_faults d _).mono ?_
  rintro f (hf | ⟨hdeclared, -⟩ | ⟨hfield, hrecord, -⟩)
  · exact hf
  · have hknown := (knownBefore_declared_iff u d u.size).2 ⟨i, hi, h.declarator⟩
    rw [hknown] at hdeclared
    cases hdeclared
  · have hscope := isSome_of_isRecordScope (h.record hfield)
    have hknown := (knownBefore_record_iff hfield u.size).2 ⟨i, hi, h.declarator, hscope⟩
    rw [hrecord] at hknown
    cases hknown

/-- A reduction of a collected declaration misses it only where the sources say so. -/
theorem performPlan_misses (h : d ∈ (u.collect scoping).table.decls)
    (hf : (u.performPlan sources d).fault = some f) (hmisses : f.MissesDeclaration) :
    u.IsAnswerOf sources f := by
  obtain ⟨i, hi, -, hrevisits⟩ := exists_revisits h
  simp only [performPlan, Option.or_eq_some_iff] at hf
  rcases hf with hf | ⟨-, hf⟩
  · exact (perform_faults hf).resolve_left fun htexts => htexts.not_missesDeclaration hmisses
  · have htokens := plan_faults_of_revisits hi hrevisits f hf
    exact absurd hmisses htokens.not_missesDeclaration

/-- A candidate is a declaration of the table. -/
theorem mem_decls_of_mem_candidates {t : Table} (h : d ∈ t.candidates) : d ∈ t.decls := by
  rw [Table.candidates_eq_flatMap] at h
  obtain ⟨level, -, hd⟩ := List.mem_flatMap.1 h
  exact (List.mem_filter.1 (List.mem_filter.1 hd).1).1

end Program

/-! ### Whole runs -/

/-- The fault that a run ended in, whether it reached the caller or became the result. -/
def Run.fault? (r : Run) : Option Fault :=
  match r.outcome with
  | .error f => some f
  | .ok result => result.error.map .refused

/-- A run that a fault ends has that fault. -/
theorem Run.fault?_ofFault (events : List Event) (r : Result) (f : Fault) :
    (Run.ofFault events r f).fault? = some f := by
  cases f with
  | refused d =>
    simp only [Run.ofFault]
    split
    · rfl
    · rfl
  | _ => rfl

namespace Program

variable {u : Program} {scoping : Scoping} {sources : Sources} {d : Decl} {f : Fault}

/-- The run that reduces a candidate misses it only where the sources say so. -/
theorem reduceTarget_misses {events : List Event} {r : Result} (hr : r.error = none)
    (hd : d ∈ (u.collect scoping).table.decls)
    (hf : (u.reduceTarget sources events r d).fault? = some f) (hmisses : f.MissesDeclaration) :
    u.IsAnswerOf sources f := by
  unfold reduceTarget at hf
  dsimp only at hf
  cases hfault : (u.performPlan sources d).fault with
  | some g =>
    simp only [hfault, Run.fault?_ofFault] at hf
    exact performPlan_misses hd (Option.some.inj hf ▸ hfault) hmisses
  | none =>
    simp only [hfault] at hf
    rcases performPlan_apply hfault with ⟨texts, -, happly⟩ | ⟨path, offset, happly⟩
    · simp [happly, Run.fault?, hr] at hf
    · simp only [happly, Run.fault?_ofFault] at hf
      obtain rfl := Option.some.inj hf
      exact absurd hmisses (not_missesDeclaration_of_code (by rw [Cause.code]; decide) _)

/-- A run misses its target only where the sources say so. -/
theorem reduce_misses {counter : Option Int} {queryOnly : Bool}
    (hf : (u.reduce scoping sources counter queryOnly).fault? = some f)
    (hmisses : f.MissesDeclaration) : u.IsAnswerOf sources f := by
  cases hfault : (u.collect scoping).fault with
  | some g =>
    rw [reduce_of_collect_fault hfault, Run.fault?_ofFault] at hf
    obtain rfl := Option.some.inj hf
    rcases fault_collect_eq_some hfault with rfl | ⟨spelling, p, rfl⟩
    · exact absurd hmisses (not_missesDeclaration_of_ne (by simp))
    · exact absurd hmisses (not_missesDeclaration_of_code (by rw [Cause.code]; decide) p)
  | none =>
    cases queryOnly with
    | true => simp [Run.fault?, reduce_query hfault, classified] at hf
    | false =>
      cases counter with
      | none =>
        simp only [reduce, hfault, reduceChosen, Bool.false_eq_true, if_false,
          Run.fault?_ofFault] at hf
        obtain rfl := Option.some.inj hf
        exact absurd hmisses (not_missesDeclaration_of_ne (by simp))
      | some number =>
        by_cases hpos : 1 ≤ number
        · rw [reduce_of_classified hfault hpos] at hf
          split at hf
          · simp [Run.fault?, classified] at hf
          · rename_i target htarget
            have hmem := mem_decls_of_mem_candidates (List.mem_of_getElem? htarget)
            exact reduceTarget_misses rfl hmem hf hmisses
        · have hlt : number < 1 := by omega
          simp only [reduce, hfault, reduceChosen, Table.select_eq_error _ hlt, Bool.false_eq_true,
            if_false, Run.fault?_ofFault] at hf
          obtain rfl := Option.some.inj hf
          exact absurd hmisses (not_missesDeclaration_of_code (by rw [Cause.code]; decide) _)

/-- **A collected declaration is found again.** Let a declaration be a candidate in the tables of a
    collection, which may have left out declarators of the same key, or have ended in a fault.

    * Its plan meets the token that it was collected from, which is a declarator with a star and in
      a record if the declaration is a member, so that at its end the plan knows of a declarator,
      and of the scope of a member.
    * The plan does not fail because it has met no declarator or no record, and a reduction does
      not, unless the sources answer so.
    * The files of a tree never do: neither the reduction of a candidate nor any run, whatever it is
      for and however it ends, fails for one of these two reasons. -/
theorem targets_revisited (u : Program) (scoping : Scoping) :
    (∀ d ∈ (u.collect scoping).table.candidates,
      (∃ i < u.size, u.declarationAt (some i) = d ∧ u.Revisits d i) ∧
      (u.knownBefore d u.size).declared = true ∧
      (d.isField = true → (u.knownBefore d u.size).record.isSome = true) ∧
      (∀ f, (u.plan d).fault = some f → ¬ f.MissesDeclaration) ∧
      ∀ (sources : Sources) (f : Fault), (u.performPlan sources d).fault = some f →
        f.MissesDeclaration → u.IsAnswerOf sources f) ∧
    ∀ (search : SearchPath) (tree : FileTree),
      (∀ d ∈ (u.collect scoping).table.candidates, ∀ f,
        (u.performPlan (search.sources tree) d).fault = some f → ¬ f.MissesDeclaration) ∧
      ∀ (counter : Option Int) (queryOnly : Bool) (f : Fault),
        (u.reduce scoping (search.sources tree) counter queryOnly).fault? = some f →
          ¬ f.MissesDeclaration := by
  have answers {search : SearchPath} {tree : FileTree} {f : Fault}
      (h : u.IsAnswerOf (search.sources tree) f) : ¬ f.MissesDeclaration := by
    obtain ⟨t, ht⟩ := h
    exact (SearchPath.sources_faults ht).1.not_missesDeclaration
  refine ⟨fun d hd => ?_, fun search tree => ⟨fun d hd f hf hmisses => ?_, ?_⟩⟩
  · have hdecls := mem_decls_of_mem_candidates hd
    obtain ⟨i, hi, hdecl, hrevisits⟩ := exists_revisits hdecls
    refine ⟨⟨i, hi, hdecl, hrevisits⟩, ?_, fun hfield => ?_, fun f hf => ?_, ?_⟩
    · exact (knownBefore_declared_iff u d u.size).2 ⟨i, hi, hrevisits.declarator⟩
    · have hscope := isSome_of_isRecordScope (hrevisits.record hfield)
      exact (knownBefore_record_iff hfield u.size).2 ⟨i, hi, hrevisits.declarator, hscope⟩
    · exact (plan_faults_of_revisits hi hrevisits f hf).not_missesDeclaration
    · exact fun sources f hf hmisses => performPlan_misses hdecls hf hmisses
  · exact answers (performPlan_misses (mem_decls_of_mem_candidates hd) hf hmisses) hmisses
  · exact fun counter queryOnly f hf hmisses => answers (reduce_misses hf hmisses) hmisses

/-- The tokens of the text `(int *f) { int *f; }`, the first `f` an argument and the second one a
    member, both of one key. -/
def sharedKey : Program where
  tokens := #[{ text := "(" }, { text := "int" }, { text := "*" },
    { text := "f", varId := 1, var := some 0, isName := true }, { text := ")" },
    { text := "\x7b" }, { text := "int" }, { text := "*" },
    { text := "f", varId := 1, var := some 1, isName := true }, { text := ";" },
    { text := "\x7d" }]
  vars := #[{ nameToken := some 3, typeStart := some 1, isArgument := true },
    { nameToken := some 8, typeStart := some 6, scope := some 0 }]
  scopes := #[{ type := some "Struct", className := some "S", members := [1] }]

/-- The plan of the member meets the argument first, which is in no scope, and still knows the
    record at its end. Its reduction ends for want of a text. -/
theorem targets_revisited_sharedKey :
    ∃ d ∈ (sharedKey.collect {}).table.candidates, d.isField = true ∧
      sharedKey.role d.key (some 3) = .declarator ∧
      sharedKey.scopeOf (sharedKey.var (some 3)) = none ∧
      (sharedKey.knownBefore d sharedKey.size).record.isSome = true ∧
      ∃ f, (sharedKey.performPlan (SearchPath.sources {} { base := [] }) d).fault = some f ∧
        ¬ f.MissesDeclaration := by
  let d : Decl := { key := 1, name := "f", level := 1, isField := true, record := some "S" }
  have hd : d ∈ (sharedKey.collect {}).table.candidates := by decide +kernel
  have hfault : (sharedKey.performPlan (SearchPath.sources {} { base := [] }) d).fault =
      some (.of (.sourceNotFound "<unknown>") { file := "<unknown>" }) := by decide +kernel
  obtain ⟨hcandidates, hruns⟩ := targets_revisited sharedKey {}
  obtain ⟨-, -, hrecord, -, -⟩ := hcandidates d hd
  obtain ⟨hperformed, -⟩ := hruns {} { base := [] }
  exact ⟨d, hd, rfl, by decide +kernel, by decide +kernel, hrecord rfl, _, hfault,
    hperformed d hd _ hfault⟩

end Program

end Indirection
