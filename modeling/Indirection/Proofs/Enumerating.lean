import Indirection.Proofs.Classifying
import Indirection.Table.Candidates
import Mathlib.Data.List.Sort

/-!
# How candidates are enumerated

Candidates are listed by going down through all numbers from the deepest level to one, while all
declarations are listed by the levels that occur. Main definitions:

* `Table.Before` — a declaration is deeper than another one, or as deep and declared earlier;
* `Table.isEligible` — a declaration is valid, and it is at the deepest level or its address is not
  taken.

Main statements: `pairwise_flatMap_bucket` — going down through any levels lists declarations in
this order, so that such a list is told by its members; `mem_candidates`, `candidates_eq_filter` —
so the candidates are the eligible ones among all declarations; `foldl_count` — counting them ends
with the one at the place of the number; `candidates_serveAll` — the same for all tables that can be
reached, with the number that each candidate is selected by.
-/

namespace Indirection

namespace Table

variable {t : Table}

/-! ### The levels -/

/-- Inserting a level adds that level and no other. -/
theorem mem_insertLevel {level l : Int} {levels : List Int} :
    l ∈ insertLevel level levels ↔ l = level ∨ l ∈ levels := by
  induction levels with
  | nil => simp [insertLevel]
  | cons k rest ih =>
    unfold insertLevel
    split
    · simp
    · split
      · rename_i heq
        simp [heq]
      · simp only [List.mem_cons, ih]
        exact or_left_comm

/-- A list that decreases strictly goes on doing so with one more level in it. -/
theorem pairwise_insertLevel {level : Int} {levels : List Int}
    (h : levels.Pairwise (· > ·)) : (insertLevel level levels).Pairwise (· > ·) := by
  induction levels with
  | nil => simp [insertLevel]
  | cons k rest ih =>
    obtain ⟨hk, hrest⟩ := List.pairwise_cons.1 h
    unfold insertLevel
    split
    · rename_i hlt
      refine List.pairwise_cons.2 ⟨?_, h⟩
      intro l hl
      rcases List.mem_cons.1 hl with rfl | hl
      · exact hlt
      · have := hk l hl
        omega
    · split
      · exact h
      · rename_i hle hne
        refine List.pairwise_cons.2 ⟨?_, ih hrest⟩
        intro l hl
        rcases mem_insertLevel.1 hl with rfl | hl
        · omega
        · exact hk l hl

/-- The levels that are listed are those that occur. -/
theorem mem_levels {level : Int} : level ∈ t.levels ↔ ∃ d ∈ t.decls, d.level = level := by
  have mem_foldl (decls : List Decl) (ls : List Int) :
      level ∈ decls.foldl (fun ls d => insertLevel d.level ls) ls ↔
        level ∈ ls ∨ ∃ d ∈ decls, d.level = level := by
    induction decls generalizing ls with
    | nil => simp
    | cons d rest ih =>
      rw [List.foldl_cons, ih, mem_insertLevel, List.exists_mem_cons_iff, @eq_comm _ level,
        or_assoc, or_left_comm]
  rw [levels, mem_foldl]
  simp

/-- The levels stand in falling order, each one once. -/
theorem pairwise_levels (t : Table) : t.levels.Pairwise (· > ·) := by
  have pairwise_foldl (decls : List Decl) (ls : List Int) (h : ls.Pairwise (· > ·)) :
      (decls.foldl (fun ls d => insertLevel d.level ls) ls).Pairwise (· > ·) := by
    induction decls generalizing ls with
    | nil => exact h
    | cons d rest ih => exact ih _ (pairwise_insertLevel h)
  exact pairwise_foldl t.decls [] List.Pairwise.nil

/-- Below the deepest level all numbers down to one are gone through. -/
theorem mem_lowerLevels {level : Int} :
    level ∈ t.lowerLevels ↔ 1 ≤ level ∧ level < t.maxLevel := by
  rw [lowerLevels, List.mem_reverse, List.mem_map]
  constructor
  · rintro ⟨n, hn, rfl⟩
    have := List.mem_range.1 hn
    simp only [Int.ofNat_eq_natCast]
    omega
  · rintro ⟨hone, hlt⟩
    refine ⟨(level - 1).toNat, List.mem_range.2 (by omega), ?_⟩
    simp only [Int.ofNat_eq_natCast]
    omega

/-- The lower levels stand in falling order, each one once. -/
theorem pairwise_lowerLevels (t : Table) : t.lowerLevels.Pairwise (· > ·) := by
  rw [lowerLevels, List.pairwise_reverse, List.pairwise_map]
  refine List.pairwise_lt_range.imp fun hlt => ?_
  simp only [Int.ofNat_eq_natCast]
  omega

/-- No declaration is above the greatest level. -/
theorem level_le_maxLevel {d : Decl} (hd : d ∈ t.decls) : d.level ≤ t.maxLevel :=
  ((t.maxLevel_le_iff _).1 le_rfl).2 d hd

/-! ### The order of declarations -/

/-- Whether `d` comes before `e`: it is deeper, or as deep and declared earlier. -/
def Before (t : Table) (d e : Decl) : Prop :=
  e.level < d.level ∨ (d.level = e.level ∧ t.decls.idxOf d < t.decls.idxOf e)

instance (t : Table) : Std.Asymm t.Before where
  asymm d e hde hed := by
    unfold Before at *
    omega

/-- Declarations that do not repeat themselves stand in the order of their places. -/
theorem pairwise_idxOf {ds : List Decl} (h : ds.Nodup) :
    ds.Pairwise fun d e => ds.idxOf d < ds.idxOf e := by
  rw [List.pairwise_iff_getElem]
  intro i j hi hj hij
  rw [h.idxOf_getElem i hi, h.idxOf_getElem j hj]
  exact hij

/-- Going down through levels lists declarations of their buckets in order. -/
theorem pairwise_flatMap_bucket (hnodup : t.decls.Nodup) {levels : List Int}
    (hlevels : levels.Pairwise (· > ·)) (p : Int → Decl → Bool) :
    (levels.flatMap fun level => (t.bucket level).filter (p level)).Pairwise t.Before := by
  have hlevel {level : Int} {d : Decl} (hd : d ∈ (t.bucket level).filter (p level)) :
      d.level = level := by
    simpa using (List.mem_filter.1 (List.mem_filter.1 hd).1).2
  rw [List.pairwise_flatMap]
  constructor
  · intro level _
    have hbucket : ((t.bucket level).filter (p level)).Pairwise
        fun d e => t.decls.idxOf d < t.decls.idxOf e :=
      (pairwise_idxOf hnodup).sublist (List.filter_sublist.trans List.filter_sublist)
    refine hbucket.imp_of_mem fun hd he hlt => .inr ⟨?_, hlt⟩
    rw [hlevel hd, hlevel he]
  · refine hlevels.imp fun hgt d hd e he => .inl ?_
    rw [hlevel hd, hlevel he]
    exact hgt

/-! ### All declarations and the candidates -/

/-- Declarations by level stand in the order of the enumeration. -/
theorem pairwise_byLevel (hnodup : t.decls.Nodup) : t.byLevel.Pairwise t.Before := by
  have h := pairwise_flatMap_bucket hnodup (pairwise_levels t) fun _ _ => true
  simpa [byLevel] using h

/-- Ordering by level neither adds nor drops a declaration. -/
theorem mem_byLevel {d : Decl} : d ∈ t.byLevel ↔ d ∈ t.decls := by
  simp only [byLevel, List.mem_flatMap, bucket, List.mem_filter, decide_eq_true_eq]
  constructor
  · rintro ⟨level, -, hd, -⟩
    exact hd
  · intro hd
    exact ⟨d.level, mem_levels.2 ⟨d, hd, rfl⟩, hd, rfl⟩

/-- Whether a declaration is counted as a candidate: it is valid, and it is at the deepest level or
    its address is not taken. -/
def isEligible (t : Table) (d : Decl) : Bool :=
  t.isValid d.key && (d.level = t.maxLevel || !t.isTaken d.key)

/-- The candidates are what the buckets hold of eligible declarations, from the deepest level down
    to one. -/
theorem candidates_eq_flatMap (t : Table) :
    t.candidates =
      (t.maxLevel :: t.lowerLevels).flatMap fun level => (t.bucket level).filter t.isEligible := by
  rw [candidates, List.flatMap_cons]
  congr 1
  · refine List.filter_congr fun d hd => ?_
    have hlevel : d.level = t.maxLevel := by simpa using (List.mem_filter.1 hd).2
    simp [isEligible, hlevel]
  · refine List.flatMap_congr fun level hlevel => List.filter_congr fun d hd => ?_
    have hlt := (mem_lowerLevels.1 hlevel).2
    have hlevel : d.level = level := by simpa using (List.mem_filter.1 hd).2
    have hne : d.level ≠ t.maxLevel := by omega
    simp [isEligible, hne]

/-- Candidates stand in the order of the enumeration. -/
theorem pairwise_candidates (hnodup : t.decls.Nodup) : t.candidates.Pairwise t.Before := by
  rw [candidates_eq_flatMap]
  refine pairwise_flatMap_bucket hnodup (List.pairwise_cons.2 ⟨?_, pairwise_lowerLevels t⟩) _
  intro level hlevel
  exact (mem_lowerLevels.1 hlevel).2

/-- Where every declaration has a star, no eligible one is missed. -/
theorem mem_candidates (hlevels : ∀ d ∈ t.decls, 1 ≤ d.level) {d : Decl} :
    d ∈ t.candidates ↔ d ∈ t.decls ∧ t.isEligible d = true := by
  simp only [candidates_eq_flatMap, List.mem_flatMap, bucket, List.mem_filter, decide_eq_true_eq]
  constructor
  · rintro ⟨level, -, ⟨hd, -⟩, heligible⟩
    exact ⟨hd, heligible⟩
  · rintro ⟨hd, heligible⟩
    refine ⟨d.level, ?_, ⟨hd, rfl⟩, heligible⟩
    rw [List.mem_cons, mem_lowerLevels]
    have hone := hlevels d hd
    have hmax := level_le_maxLevel hd
    omega

/-- The candidates are the eligible ones of all declarations, in the same order. -/
theorem candidates_eq_filter (hnodup : t.decls.Nodup) (hlevels : ∀ d ∈ t.decls, 1 ≤ d.level) :
    t.candidates = t.byLevel.filter t.isEligible := by
  refine (pairwise_candidates hnodup).eq_of_mem_iff ((pairwise_byLevel hnodup).filter _)
    fun d => ?_
  rw [mem_candidates hlevels, List.mem_filter, mem_byLevel]

/-! ### The numbers of candidates -/

section Counting

variable {counter : Int} (h : 1 ≤ counter)

include h

/-- One more candidate is counted, and is the target if it stands at the place of the number. -/
theorem count_of_passed (ds : List Decl) (d : Decl) :
    Tally.count counter { instances := ds.length, target := ds[(counter - 1).toNat]? } d =
      { instances := (ds ++ [d]).length, target := (ds ++ [d])[(counter - 1).toNat]? } := by
  simp only [Tally.count, List.length_append, List.length_singleton, Tally.mk.injEq, true_and]
  rcases Nat.lt_trichotomy (counter - 1).toNat ds.length with hlt | heq | hgt
  · rw [if_neg (by omega), List.getElem?_append_left hlt]
  · rw [if_pos (by omega), heq, List.getElem?_concat_length]
  · rw [if_neg (by omega), List.getElem?_eq_none hgt.le, List.getElem?_eq_none]
    rw [List.length_append, List.length_singleton]
    exact hgt

/-- Counting passes all candidates and ends with the one at the place of the number. -/
theorem foldl_count (ds : List Decl) :
    ds.foldl (Tally.count counter) {} =
      { instances := ds.length, target := ds[(counter - 1).toNat]? } := by
  -- from the end, since a step is about what has been passed
  induction ds using List.reverseRecOn with
  | nil => rfl
  | append_singleton passed d ih =>
    rw [List.foldl_append, ih, List.foldl_cons, List.foldl_nil, count_of_passed h]

/-- A positive number selects the candidate of that number, and none beyond the last one. -/
theorem select_eq_ok (t : Table) :
    t.select counter =
      .ok { counter, target := t.candidates[(counter - 1).toNat]?,
            instances := t.candidates.length } := by
  have : ¬ counter < 1 := by omega
  simp only [select, if_neg this, foldl_count h]

end Counting

/-- No other number is counted up to. -/
theorem select_eq_error (t : Table) {counter : Int} (h : counter < 1) :
    t.select counter = .error (.of (.badCounter counter) {}) :=
  if_pos h

/-- A number selects the candidate that has one less than this number of candidates before it. -/
theorem target_eq_some {counter : Int} {d : Decl} :
    (∃ s, t.select counter = .ok s ∧ s.target = some d) ↔
      ∃ before after, t.candidates = before ++ d :: after ∧ counter = before.length + 1 := by
  by_cases hcounter : 1 ≤ counter
  · simp only [select_eq_ok hcounter t, Except.ok.injEq, exists_eq_left']
    constructor
    · intro h
      obtain ⟨hi, rfl⟩ := List.getElem?_eq_some_iff.1 h
      refine ⟨t.candidates.take (counter - 1).toNat, t.candidates.drop ((counter - 1).toNat + 1),
        ?_, ?_⟩
      · rw [← List.drop_eq_getElem_cons hi, List.take_append_drop]
      · rw [List.length_take_of_le hi.le]
        omega
    · rintro ⟨before, after, hsplit, rfl⟩
      simp [hsplit]
  · constructor
    · rintro ⟨s, hs, -⟩
      rw [select_eq_error t (by omega)] at hs
      cases hs
    · rintro ⟨before, after, -, rfl⟩
      omega

/-- In a list without repetitions, what stands before a member is told by its place. -/
theorem length_eq_idxOf {ds before after : List Decl} {d : Decl} (h : ds.Nodup)
    (hsplit : ds = before ++ d :: after) : before.length = ds.idxOf d := by
  subst hsplit
  have hd : d ∉ before := fun hd =>
    (List.nodup_append'.1 h).2.2 hd List.mem_cons_self
  rw [List.idxOf_append_of_notMem hd, List.idxOf_cons_self, Nat.add_zero]

/-- **Candidates.** After any requests that declare nothing without a star, with whatever gaps
    between the levels:

    * the candidates are what is left of all declarations, listed by their levels, without those
      that are not valid, and without those below the deepest level whose address is taken;
    * they go down in level and keep the order of first report inside a level, and no key is
      repeated;
    * a first declaration of its key is among them exactly if nothing disqualifies it and it is at
      the deepest level or its address is not taken;
    * a positive number selects the candidate at its place, counted from one, and comes with how
      many there are; it selects none exactly if it is greater than that;
    * each candidate is selected by one number, and a number that is not positive is refused. -/
theorem candidates_serveAll {rs : List Request}
    (hlevels : ∀ d ∈ Fact.declarations (reported rs), 1 ≤ d.level) :
    let t := serveAll {} rs
    let facts := reported rs
    let decls := Decl.firsts (Fact.declarations facts)
    t.candidates = t.byLevel.filter
        (fun d => t.isValid d.key && (d.level = t.maxLevel || !t.isTaken d.key)) ∧
      t.candidates.Pairwise (fun d e => e.level < d.level ∨
        (d.level = e.level ∧ decls.idxOf d < decls.idxOf e)) ∧
      (t.candidates.map Decl.key).Nodup ∧
      (∀ d, d ∈ t.candidates ↔ d ∈ decls ∧ .disqualified d.key ∉ facts ∧
        (d.level = t.maxLevel ∨ .addressTaken d.key ∉ facts)) ∧
      (∀ counter, 1 ≤ counter → ∃ s, t.select counter = .ok s ∧ s.counter = counter ∧
        s.instances = t.candidates.length ∧
        (s.target = none ↔ (t.candidates.length : Int) < counter) ∧
        ∀ d, s.target = some d ↔
          ∃ before after, t.candidates = before ++ d :: after ∧ counter = before.length + 1) ∧
      (∀ d ∈ t.candidates, ∃! counter, ∃ s, t.select counter = .ok s ∧ s.target = some d) ∧
      ∀ counter < 1, ∃ d, t.select counter = .error (.refused d) ∧ d.kind = .usage := by
  intro t facts decls
  have h : t.Records facts := records_serveAll rs
  have hnodup : t.decls.Nodup := h.nodup_keys.of_map
  have hone : ∀ d ∈ t.decls, 1 ≤ d.level := by
    intro d hd
    rw [h.decls] at hd
    exact hlevels d (Decl.mem_of_mem_firsts hd)
  have hcandidates : t.candidates.Pairwise t.Before := pairwise_candidates hnodup
  have hunique := hcandidates.nodup
  refine ⟨candidates_eq_filter hnodup hone, ?_, ?_, ?_, ?_, ?_, ?_⟩
  · unfold Before at hcandidates
    rwa [h.decls] at hcandidates
  · refine hunique.map_on fun d hd e he => ?_
    exact h.eq_of_key ((mem_candidates hone).1 hd).1 ((mem_candidates hone).1 he).1
  · intro d
    rw [mem_candidates hone, ← h.disqualified, ← h.taken,
      show decls = t.decls from h.decls.symm]
    refine and_congr_right fun hd => ?_
    have hknows : t.knows d.key = true := (knows_iff t d.key).2 (List.mem_map_of_mem hd)
    simp [isEligible, isValid, isTaken, hknows]
  · intro counter hcounter
    refine ⟨_, select_eq_ok hcounter t, rfl, rfl, ?_, fun d => ?_⟩
    · rw [List.getElem?_eq_none_iff]
      omega
    · rw [← target_eq_some, select_eq_ok hcounter t]
      simp
  · intro d hd
    obtain ⟨before, after, hsplit⟩ := List.append_of_mem hd
    refine ⟨before.length + 1, target_eq_some.2 ⟨before, after, hsplit, rfl⟩, ?_⟩
    intro counter hcounter
    obtain ⟨before', after', hsplit', rfl⟩ := target_eq_some.1 hcounter
    rw [length_eq_idxOf hunique hsplit, length_eq_idxOf hunique hsplit']
  · intro counter hcounter
    exact ⟨_, select_eq_error t hcounter, rfl⟩

/-- No declaration has two stars here. At the deepest level an address that is taken does not count,
    below it `held` is passed over for this, and `barred` because it is not valid. -/
theorem candidates_serveAll_gap :
    let deep : Decl := { key := 1, name := "deep", level := 3 }
    let held : Decl := { key := 2, name := "held", level := 1 }
    let plain : Decl := { key := 3, name := "plain", level := 1 }
    let barred : Decl := { key := 4, name := "barred", level := 1 }
    let rs : List Request := [.report (.addressTaken 1), .report (.declared barred),
      .report (.declared held), .report (.declared plain), .report (.disqualified 4),
      .report (.declared deep), .report (.addressTaken 2)]
    (∀ d ∈ Fact.declarations (reported rs), 1 ≤ d.level) ∧
      (serveAll {} rs).candidates = [deep, plain] ∧
      ∃! counter, ∃ s, (serveAll {} rs).select counter = .ok s ∧ s.target = some plain := by
  intro deep held plain barred rs
  have hlevels : ∀ d ∈ Fact.declarations (reported rs), 1 ≤ d.level := by decide
  obtain ⟨-, -, -, -, -, hunique, -⟩ := candidates_serveAll hlevels
  exact ⟨hlevels, by decide, hunique plain (by decide)⟩

end Table

end Indirection
