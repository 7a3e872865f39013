import Indirection.Table.Basic
import Mathlib.Data.Finset.Max
import Mathlib.Data.List.Nodup

/-!
# What tables show

Tables keep three lists, and all that they show is computed from these. This file relates it to the
requests that the tables have served. Main definitions:

* `Decl.firsts` — of a list of declarations, the first one of each key;
* `Table.reported` — the facts that a list of requests reports before it makes the tables final;
* `Table.Records` — the three lists hold what a list of facts reports;
* `Overview` — all that tables show: the buckets, the keys that are valid, disqualified, taken and
  visited, and the deepest level;
* `Overview.enter`, `Overview.of` — an overview brought up to date with one fact, and the overview
  of a list of facts in closed form.

Main statements: `overview_record` — what one fact changes in an overview; `Records.record` and
`records_foldl` — what one fact adds to the lists, and what all facts make of them;
`overview_serveAll` — the closed form of all tables that can be reached.
-/

namespace Indirection

/-! ### First declarations -/

namespace Decl

/-- The declarations of a list in order, each unless one before it has its key. -/
def firsts : List Decl → List Decl
  | [] => []
  | d :: rest => d :: (firsts rest).filter (·.key ≠ d.key)

/-- Among the first declarations a key is found as it is among all. -/
theorem find?_firsts (ds : List Decl) (key : Int) :
    (firsts ds).find? (·.key = key) = ds.find? (·.key = key) := by
  induction ds with
  | nil => rfl
  | cons d rest ih =>
    rw [firsts]
    by_cases hd : d.key = key
    · simp [hd]
    · rw [List.find?_cons_of_neg (by simpa using hd), List.find?_cons_of_neg (by simpa using hd),
        List.find?_filter, ← ih]
      -- what the filter takes out has another key than the one looked for
      congr 1
      funext e
      by_cases he : e.key = key
      · simp [he, Ne.symm hd]
      · simp [he]

/-- A first declaration is a declaration. -/
theorem mem_of_mem_firsts {ds : List Decl} {d : Decl} (h : d ∈ firsts ds) : d ∈ ds := by
  induction ds with
  | nil => exact h
  | cons e rest ih =>
    rcases List.mem_cons.1 h with rfl | h
    · exact List.mem_cons_self
    · exact List.mem_cons_of_mem e (ih (List.mem_filter.1 h).1)

/-- The first declarations have different keys. -/
theorem nodup_map_key_firsts (ds : List Decl) : ((firsts ds).map key).Nodup := by
  induction ds with
  | nil => simp [firsts]
  | cons d rest ih =>
    rw [firsts, List.map_cons, List.nodup_cons]
    refine ⟨by simp, ?_⟩
    exact ih.sublist (List.filter_sublist.map key)

/-- Every key of a declaration has a first one. -/
theorem mem_map_key_firsts {ds : List Decl} {k : Int} :
    k ∈ (firsts ds).map key ↔ k ∈ ds.map key := by
  have found (es : List Decl) : k ∈ es.map key ↔ (es.find? (·.key = k)).isSome = true := by
    simp [List.find?_isSome]
  rw [found, found, find?_firsts]

/-- A declaration at the end is a first one if its key is new. -/
theorem firsts_concat (ds : List Decl) (d : Decl) :
    firsts (ds ++ [d]) = if d.key ∈ ds.map key then firsts ds else firsts ds ++ [d] := by
  induction ds with
  | nil => rfl
  | cons e rest ih =>
    rw [List.cons_append, firsts, firsts, ih]
    simp only [List.map_cons, List.mem_cons]
    by_cases he : d.key = e.key
    · -- the declaration in front takes out the one at the end
      rw [if_pos (Or.inl he)]
      split
      · rfl
      · simp [List.filter_append, he]
    · simp only [he, false_or]
      split
      · rfl
      · simp [List.filter_append, he]

end Decl

/-! ### Facts and requests -/

namespace Fact

/-- The declarations that facts report, in order. -/
def declarations (facts : List Fact) : List Decl :=
  facts.filterMap fun
    | declared d => some d
    | _ => none

/-- The keys whose address facts report to be taken. -/
def takenKeys (facts : List Fact) : List Int :=
  facts.filterMap fun
    | addressTaken key => some key
    | _ => none

/-- The keys that facts disqualify. -/
def barredKeys (facts : List Fact) : List Int :=
  facts.filterMap fun
    | disqualified key => some key
    | _ => none

@[simp] theorem mem_takenKeys {facts : List Fact} {key : Int} :
    key ∈ takenKeys facts ↔ .addressTaken key ∈ facts := by
  rw [takenKeys, List.mem_filterMap]
  constructor
  · rintro ⟨_ | k | _, hf, hk⟩
    · cases hk
    · obtain rfl := Option.some.inj hk
      exact hf
    · cases hk
  · exact fun h => ⟨_, h, rfl⟩

@[simp] theorem mem_barredKeys {facts : List Fact} {key : Int} :
    key ∈ barredKeys facts ↔ .disqualified key ∈ facts := by
  rw [barredKeys, List.mem_filterMap]
  constructor
  · rintro ⟨_ | _ | k, hf, hk⟩
    · cases hk
    · cases hk
    · obtain rfl := Option.some.inj hk
      exact hf
  · exact fun h => ⟨_, h, rfl⟩

end Fact

namespace Table

/-- The facts that requests report before the tables become final. -/
def reported : List Request → List Fact
  | [] => []
  | .report f :: rest => f :: reported rest
  | .freeze :: _ => []

/-- The tables behind a list of requests, answered one after the other. -/
def serveAll (t : Table) (rs : List Request) : Table := rs.foldl (fun t r => (t.serve r).1) t

/-- Entering a fact does not make tables final. -/
theorem frozen_record (t : Table) (fact : Fact) : (t.record fact).frozen = t.frozen := by
  cases fact with
  | declared d =>
    simp only [record, declare]
    split <;> rfl
  | addressTaken _ | disqualified _ => rfl

/-- Final tables refuse every fact, and others enter it. -/
theorem serve_report (t : Table) (f : Fact) :
    t.serve (.report f) =
      if t.frozen then (t, .refused .frozenTables) else (t.record f, t.answer f) := by
  unfold serve report
  cases t.frozen <;> rfl

/-- Final tables stay as they are. -/
theorem serveAll_of_frozen {t : Table} (h : t.frozen = true) (rs : List Request) :
    t.serveAll rs = t := by
  induction rs with
  | nil => rfl
  | cons r rest ih =>
    have hserve : (t.serve r).1 = t := by
      cases r with
      | report f => rw [serve_report, if_pos h]
      | freeze =>
        obtain ⟨decls, disqualified, taken, frozen⟩ := t
        subst h
        rfl
    show (t.serve r).1.serveAll rest = t
    rw [hserve, ih]

/-- Requests enter the facts reported before the tables become final, and nothing else. -/
theorem serveAll_eq {t : Table} (h : t.frozen = false) (rs : List Request) :
    t.serveAll rs =
      { (reported rs).foldl record t with frozen := decide (.freeze ∈ rs) } := by
  induction rs generalizing t with
  | nil =>
    obtain ⟨decls, disqualified, taken, frozen⟩ := t
    subst h
    rfl
  | cons r rest ih =>
    show (t.serve r).1.serveAll rest = _
    cases r with
    | report f =>
      rw [serve_report, if_neg (by simp [h]), ih ((frozen_record t f).trans h)]
      simp [reported]
    | freeze =>
      rw [serve, serveAll_of_frozen rfl]
      simp [reported, freeze]

/-! ### The lists of tables -/

/-- Whether the lists of tables hold what facts report. -/
structure Records (t : Table) (facts : List Fact) : Prop where
  /-- the first declaration of each key, in order -/
  decls : t.decls = Decl.firsts (Fact.declarations facts)
  taken : ∀ key, key ∈ t.taken ↔ .addressTaken key ∈ facts
  disqualified : ∀ key, key ∈ t.disqualified ↔ .disqualified key ∈ facts

variable {t : Table} {facts : List Fact}

/-- The known keys are those of the declarations. -/
theorem knows_iff (t : Table) (key : Int) :
    t.knows key = true ↔ key ∈ t.decls.map Decl.key := by
  simp [knows]

/-- The keys of the table are the keys that are declared. -/
theorem Records.mem_map_key (h : t.Records facts) {key : Int} :
    key ∈ t.decls.map Decl.key ↔ key ∈ (Fact.declarations facts).map Decl.key := by
  rw [h.decls, Decl.mem_map_key_firsts]

/-- A declaration of a known key is not entered again. -/
theorem decls_declare (t : Table) (d : Decl) :
    (t.declare d).decls = if d.key ∈ t.decls.map Decl.key then t.decls else t.decls ++ [d] := by
  simp only [← knows_iff]
  unfold declare
  split <;> rfl

/-- One fact marks at most its own key as taken. -/
theorem mem_taken_record {f : Fact} {key : Int} :
    key ∈ (t.record f).taken ↔ key ∈ t.taken ∨ .addressTaken key = f := by
  cases f with
  | declared d =>
    have : (t.declare d).taken = t.taken := by
      unfold declare
      split <;> rfl
    simp [record, this]
  | addressTaken k => simp [record, mem_addKey]
  | disqualified k => simp [record]

/-- One fact marks at most its own key as disqualified. -/
theorem mem_disqualified_record {f : Fact} {key : Int} :
    key ∈ (t.record f).disqualified ↔ key ∈ t.disqualified ∨ .disqualified key = f := by
  cases f with
  | declared d =>
    have : (t.declare d).disqualified = t.disqualified := by
      unfold declare
      split <;> rfl
    simp [record, this]
  | addressTaken k => simp [record]
  | disqualified k => simp [record, mem_addKey]

/-- **One fact.** Tables that record some facts record one more when it is entered. -/
theorem Records.record (h : t.Records facts) (f : Fact) :
    (t.record f).Records (facts ++ [f]) where
  decls := by
    cases f with
    | declared d =>
      have happend : Fact.declarations (facts ++ [.declared d]) =
          Fact.declarations facts ++ [d] := List.filterMap_append
      rw [happend, Decl.firsts_concat, ← h.decls]
      simp only [← h.mem_map_key]
      exact decls_declare t d
    | addressTaken _ | disqualified _ => simpa [Fact.declarations, Table.record] using h.decls
  taken key := by rw [mem_taken_record, h.taken, List.mem_append, List.mem_singleton]
  disqualified key := by
    rw [mem_disqualified_record, h.disqualified, List.mem_append, List.mem_singleton]

/-- **All facts.** Empty tables into which facts are entered record them. -/
theorem records_foldl (facts : List Fact) : (facts.foldl Table.record {}).Records facts := by
  induction facts using List.reverseRecOn with
  | nil => exact ⟨rfl, by simp, by simp⟩
  | append_singleton facts f ih =>
    rw [List.foldl_append]
    exact ih.record f

end Table

/-! ### Overviews -/

/-- All that tables show. -/
@[ext] structure Overview where
  /-- for each level its declarations, in order -/
  buckets : Int → List Decl := fun _ => []
  /-- the valid keys, in order -/
  valid : List Int := []
  disqualified : Finset Int := ∅
  taken : Finset Int := ∅
  visited : Finset Int := ∅
  maxLevel : Int := 0

namespace Overview

/-- An overview brought up to date with one fact. A declaration whose key was visited changes
    nothing; another one gets to the end of its bucket, and its key to the end of the valid ones,
    unless it is disqualified. A disqualified key is valid no longer. -/
def enter (v : Overview) : Fact → Overview
  | .declared d =>
    if d.key ∈ v.visited then v
    else
      { v with
        buckets := Function.update v.buckets d.level (v.buckets d.level ++ [d])
        valid := if d.key ∈ v.disqualified then v.valid else v.valid ++ [d.key]
        visited := insert d.key v.visited
        maxLevel := max v.maxLevel d.level }
  | .addressTaken key => { v with taken := insert key v.taken }
  | .disqualified key =>
    { v with
      disqualified := insert key v.disqualified
      valid := v.valid.filter (· ≠ key) }

/-- The overview of facts: the first declaration of each key counts, in the bucket of its level,
    and its key is valid unless some fact disqualifies it, no matter which. -/
def of (facts : List Fact) : Overview where
  buckets level := (Decl.firsts (Fact.declarations facts)).filter (·.level = level)
  valid := ((Decl.firsts (Fact.declarations facts)).map Decl.key).filter
    (· ∉ Fact.barredKeys facts)
  disqualified := (Fact.barredKeys facts).toFinset
  taken := (Fact.takenKeys facts).toFinset
  visited := ((Fact.declarations facts).map Decl.key).toFinset
  maxLevel := (insert 0 ((Decl.firsts (Fact.declarations facts)).map Decl.level).toFinset).max'
    (Finset.insert_nonempty _ _)

end Overview

namespace Table

variable {t : Table} {facts : List Fact}

/-- What tables show. -/
def overview (t : Table) : Overview where
  buckets := t.bucket
  valid := t.valid
  disqualified := t.disqualified.toFinset
  taken := t.taken.toFinset
  visited := (t.decls.map Decl.key).toFinset
  maxLevel := t.maxLevel

/-- The deepest level is the least bound of all levels and zero. -/
theorem maxLevel_le_iff (t : Table) (level : Int) :
    t.maxLevel ≤ level ↔ 0 ≤ level ∧ ∀ d ∈ t.decls, d.level ≤ level := by
  have foldl_le_iff (decls : List Decl) (m : Int) :
      decls.foldl (fun m d => max m d.level) m ≤ level ↔
        m ≤ level ∧ ∀ d ∈ decls, d.level ≤ level := by
    induction decls generalizing m with
    | nil => simp
    | cons d rest ih =>
      rw [List.foldl_cons, ih, List.forall_mem_cons, max_le_iff, and_assoc]
  exact foldl_le_iff t.decls 0

/-- **An overview never has to be made anew.** What a fact changes in it depends on the fact and the
    overview only. -/
theorem overview_record (t : Table) (f : Fact) : (t.record f).overview = t.overview.enter f := by
  cases f with
  | declared d =>
    show (t.declare d).overview = _
    rw [Overview.enter]
    by_cases hknown : d.key ∈ t.decls.map Decl.key
    · rw [if_pos (by simpa [overview] using hknown), declare, if_pos ((knows_iff t d.key).2 hknown)]
    · have hdeclare : t.declare d = { t with decls := t.decls ++ [d] } :=
        if_neg (fun h => hknown ((knows_iff t d.key).1 h))
      rw [if_neg (by simpa [overview] using hknown), hdeclare]
      ext1
      · funext level
        show (t.decls ++ [d]).filter (·.level = level) = _
        rw [List.filter_append]
        by_cases hlevel : d.level = level
        · subst hlevel
          simp [overview, bucket]
        · simp [overview, bucket, hlevel, Ne.symm hlevel]
      · show ((t.decls ++ [d]).map Decl.key).filter (!t.disqualified.contains ·) = _
        rw [List.map_append, List.filter_append]
        by_cases hbarred : d.key ∈ t.disqualified
        · simp [overview, valid, hbarred]
        · simp [overview, valid, hbarred]
      · rfl
      · rfl
      · ext key
        simp [overview]
      · show (t.decls ++ [d]).foldl (fun m d => max m d.level) 0 = _
        rw [List.foldl_append]
        rfl
  | addressTaken key =>
    ext1
    · rfl
    · rfl
    · rfl
    · ext k
      simp [overview, Overview.enter, record, mem_addKey, or_comm]
    · rfl
    · rfl
  | disqualified key =>
    ext1
    · rfl
    · show (t.decls.map Decl.key).filter (!(addKey t.disqualified key).contains ·) =
        ((t.decls.map Decl.key).filter (!t.disqualified.contains ·)).filter (· ≠ key)
      rw [List.filter_filter]
      refine List.filter_congr fun k _ => ?_
      simp [mem_addKey, Bool.and_comm]
    · ext k
      simp [overview, Overview.enter, record, mem_addKey, or_comm]
    · rfl
    · rfl
    · rfl

/-- Tables that record facts show their overview. -/
theorem Records.overview_eq (h : t.Records facts) : t.overview = .of facts := by
  ext1
  · funext level
    show t.decls.filter (·.level = level) = _
    rw [h.decls]
    rfl
  · show (t.decls.map Decl.key).filter (!t.disqualified.contains ·) = _
    rw [h.decls]
    refine List.filter_congr fun key _ => ?_
    simp [h.disqualified]
  · ext key
    simp [overview, Overview.of, h.disqualified]
  · ext key
    simp [overview, Overview.of, h.taken]
  · ext key
    rw [overview, Overview.of, List.mem_toFinset, List.mem_toFinset, h.mem_map_key]
  · apply le_antisymm
    · refine (t.maxLevel_le_iff _).2 ⟨Finset.le_max' _ _ (Finset.mem_insert_self _ _), ?_⟩
      intro d hd
      refine Finset.le_max' _ _ (Finset.mem_insert_of_mem ?_)
      rw [h.decls] at hd
      exact List.mem_toFinset.2 (List.mem_map_of_mem hd)
    · obtain ⟨hzero, hlevels⟩ := (t.maxLevel_le_iff t.maxLevel).1 le_rfl
      refine Finset.max'_le _ (Finset.insert_nonempty _ _) _ fun level hlevel => ?_
      rw [Finset.mem_insert, List.mem_toFinset, ← h.decls] at hlevel
      rcases hlevel with rfl | hlevel
      · exact hzero
      · obtain ⟨d, hd, rfl⟩ := List.mem_map.1 hlevel
        exact hlevels d hd

/-! ### Tables that can be reached -/

/-- What requests have left in empty tables. -/
theorem records_serveAll (rs : List Request) : (serveAll {} rs).Records (reported rs) := by
  have h := records_foldl (reported rs)
  rw [serveAll_eq rfl]
  exact ⟨h.decls, h.taken, h.disqualified⟩

/-- The views are frozen once a request to freeze was served. -/
theorem frozen_serveAll (rs : List Request) :
    (serveAll {} rs).frozen = decide (.freeze ∈ rs) := by
  rw [serveAll_eq rfl]

/-- No two declarations of the table have the same key. -/
theorem Records.nodup_keys (h : t.Records facts) : (t.decls.map Decl.key).Nodup := by
  rw [h.decls]
  exact Decl.nodup_map_key_firsts _

/-- The declarations of tables that can be reached are told by their keys. -/
theorem Records.eq_of_key (h : t.Records facts) {d e : Decl} (hd : d ∈ t.decls)
    (he : e ∈ t.decls) (hkey : d.key = e.key) : d = e :=
  List.inj_on_of_nodup_map h.nodup_keys hd he hkey

/-- A key is looked up to the declaration of the table that has it. -/
theorem Records.lookup_eq_some (h : t.Records facts) {key : Int} {d : Decl} :
    t.lookup key = some d ↔ d ∈ t.decls ∧ d.key = key := by
  constructor
  · intro hlookup
    exact ⟨List.mem_of_find?_eq_some hlookup, by simpa using List.find?_some hlookup⟩
  · rintro ⟨hd, rfl⟩
    obtain ⟨e, he⟩ : ∃ e, t.lookup d.key = some e :=
      Option.isSome_iff_exists.1 (List.find?_isSome.2 ⟨d, hd, by simp⟩)
    have hkey : e.key = d.key := by simpa using List.find?_some he
    rw [he, h.eq_of_key (List.mem_of_find?_eq_some he) hd hkey]

/-- A key that was visited is in one bucket. -/
theorem Records.existsUnique_bucket (h : t.Records facts) {key : Int}
    (hkey : key ∈ t.decls.map Decl.key) : ∃! level, key ∈ (t.bucket level).map Decl.key := by
  obtain ⟨d, hd, rfl⟩ := List.mem_map.1 hkey
  refine ⟨d.level, List.mem_map_of_mem (List.mem_filter.2 ⟨hd, by simp⟩), ?_⟩
  intro level hlevel
  obtain ⟨e, he, hkey⟩ := List.mem_map.1 hlevel
  obtain ⟨hmem, rfl⟩ : e ∈ t.decls ∧ e.level = level := by simpa using List.mem_filter.1 he
  rw [h.eq_of_key hmem hd hkey]

/-- The overview of empty tables into which facts are entered, fact by fact. -/
theorem overview_foldl (facts : List Fact) (t : Table) :
    (facts.foldl record t).overview = facts.foldl Overview.enter t.overview := by
  induction facts generalizing t with
  | nil => rfl
  | cons f rest ih => rw [List.foldl_cons, List.foldl_cons, ih, overview_record]

/-- **Tables in closed form.** After any requests, with the facts that were reported before the
    first one to freeze:

    * what the tables show is what an overview shows that is brought up to date with these facts
      one by one, and it has a closed form;
    * each visited key is in one bucket, that of the first declaration of the key, and it is looked
      up there;
    * whether a key is valid or taken is told as the overview has it, and the number of declarations
      is that of the visited keys;
    * frozen tables refuse every fact and stay as they are; others take it in, and a declaration is
      new exactly when its key was not visited;
    * other requests with the same declarations in the same order, and with the same keys taken and
      disqualified, at whatever places between them, leave the same tables. -/
theorem overview_serveAll (rs : List Request) :
    let t := serveAll {} rs
    let facts := reported rs
    (t.overview = facts.foldl Overview.enter {} ∧ t.overview = .of facts) ∧
      ((∀ key ∈ t.overview.visited, ∃! level, key ∈ (t.bucket level).map Decl.key) ∧
        (∀ key d, t.lookup key = some d ↔ d ∈ t.bucket d.level ∧ d.key = key) ∧
        ∀ key, t.lookup key = (Fact.declarations facts).find? (·.key = key)) ∧
      ((∀ key, t.isValid key = true ↔ key ∈ t.valid) ∧
        (∀ key, t.isTaken key = true ↔ key ∈ t.overview.taken) ∧
        t.decls.length = t.overview.visited.card) ∧
      ((∀ f, t.serve (.report f) =
          if .freeze ∈ rs then (t, .refused .frozenTables) else (t.record f, t.answer f)) ∧
        ∀ d, t.answer (.declared d) = .declared (decide (d.key ∉ t.overview.visited))) ∧
      ∀ rs', Fact.declarations (reported rs') = Fact.declarations facts →
        (∀ key, .addressTaken key ∈ reported rs' ↔ .addressTaken key ∈ facts) →
        (∀ key, .disqualified key ∈ reported rs' ↔ .disqualified key ∈ facts) →
        (serveAll {} rs').decls = t.decls ∧ (serveAll {} rs').overview = t.overview := by
  intro t facts
  have h : t.Records facts := records_serveAll rs
  have hvisited (key : Int) : key ∈ t.overview.visited ↔ key ∈ t.decls.map Decl.key :=
    List.mem_toFinset
  refine ⟨⟨?_, h.overview_eq⟩, ⟨?_, ?_, ?_⟩, ⟨?_, ?_, ?_⟩, ⟨?_, ?_⟩, ?_⟩
  · exact ((records_foldl facts).overview_eq.trans h.overview_eq.symm).symm.trans
      (overview_foldl facts {})
  · intro key hkey
    exact h.existsUnique_bucket ((hvisited key).1 hkey)
  · intro key d
    rw [h.lookup_eq_some]
    simp [bucket]
  · intro key
    rw [lookup, h.decls, Decl.find?_firsts]
  · intro key
    rw [isValid, Bool.and_eq_true, knows_iff, valid, List.mem_filter]
  · intro key
    simp [isTaken, overview]
  · show t.decls.length = (t.decls.map Decl.key).toFinset.card
    rw [List.toFinset_card_of_nodup h.nodup_keys, List.length_map]
  · intro f
    rw [serve_report, frozen_serveAll]
    simp
  · intro d
    have hknows : t.knows d.key = decide (d.key ∈ t.overview.visited) := by
      rw [Bool.eq_iff_iff, knows_iff, decide_eq_true_eq, hvisited]
    rw [answer, hknows, decide_not]
  · intro rs' hdecls htaken hbarred
    have h' := records_serveAll rs'
    refine ⟨by rw [h'.decls, h.decls, hdecls], ?_⟩
    rw [h'.overview_eq, h.overview_eq]
    ext1
    · simp [Overview.of, hdecls]
    · simp [Overview.of, hdecls, hbarred]
    · ext key
      simp [Overview.of, hbarred]
    · ext key
      simp [Overview.of, htaken]
    · simp [Overview.of, hdecls]
    · simp [Overview.of, hdecls]

/-- The declaration of `p` comes behind what disqualifies it, and once more with a deeper level: it
    is not valid, and the repetition counts for nothing. -/
theorem overview_serveAll_lateDeclaration :
    let p : Decl := { key := 5, name := "p", level := 1 }
    let q : Decl := { key := 6, name := "q", level := 2 }
    let deeper : Decl := { key := 5, name := "p", level := 3 }
    let early : List Request := [.report (.declared p), .report (.addressTaken 6),
      .report (.declared q), .report (.declared deeper), .report (.disqualified 5), .freeze]
    let late : List Request := [.report (.disqualified 5), .report (.declared p),
      .report (.declared q), .report (.addressTaken 6), .report (.declared deeper), .freeze,
      .report (.disqualified 6)]
    (serveAll {} late).overview = (serveAll {} early).overview ∧
      (serveAll {} late).valid = [6] ∧ (serveAll {} late).lookup 5 = some p ∧
      (serveAll {} late).maxLevel = 2 := by
  intro p q deeper early late
  obtain ⟨-, -, -, -, hsame⟩ := overview_serveAll early
  refine ⟨(hsame late rfl ?_ ?_).2, by decide, by decide, by decide⟩
  · intro key
    simp [early, late, reported]
  · intro key
    simp [early, late, reported]

end Table

end Indirection
