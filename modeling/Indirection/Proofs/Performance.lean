import Indirection.Proofs.Recording
import Indirection.Proofs.Refusal

/-!
# What performing a plan does

Performing a plan records its changes. Main statements:

* `perform_recordAll`, `perform_replacements` — a performance without a fault has recorded all
  changes of the plan, in order, and nothing else;
* `perform_faults` — a performance ends in a fault of the texts, unless a file has none;
* `performPlan_paths_ne_nil` — a reduction that runs through has edited a file.
-/

namespace Indirection

/-- The faults of a change whose tokens do not stand in the texts as they should. -/
inductive Fault.OfTexts : Fault → Prop
  | outsideFile (spelling : String) (p : Position) : OfTexts (.of (.outsideFile spelling) p)
  | notOnLine (spelling : String) (line : Int) (p : Position) :
    OfTexts (.of (.notOnLine spelling line) p)
  | brokenRange (p : Position) : OfTexts (.of .brokenRange p)

/-- A fault of the texts is treated. -/
theorem Fault.OfTexts.isTreated {f : Fault} (h : f.OfTexts) : f.IsTreated := by
  cases h <;> exact .inl rfl

/-- The change that a step makes, if it makes one. -/
def Step.change? : Step → Option Change
  | .change c => some c
  | .tell _ => none

namespace Program

variable {u : Program} {sources : Sources}

/-- The changes of a list of steps, each with the program that its tokens are of. -/
def changesOf (u : Program) (steps : List Step) : List (Program × Change) :=
  (steps.filterMap Step.change?).map fun c => (u, c)

/-- A performance without a fault has recorded the changes of its steps. -/
theorem perform_recordAll {s : Script} {steps : List Step}
    (h : (u.perform sources s steps).fault = none) :
    s.recordAll sources (u.changesOf steps) = .ok (u.perform sources s steps).script := by
  induction steps generalizing s with
  | nil => rfl
  | cons step rest ih =>
    cases step with
    | tell e => exact ih h
    | change c =>
      -- what `perform` does with a change is what `recordAll` does with it
      have hchanges : u.changesOf (.change c :: rest) = (u, c) :: u.changesOf rest := rfl
      rw [perform] at h ⊢
      cases hplace : u.place? sources c with
      | error f => simp [hplace] at h
      | ok r =>
        simp only [hplace] at h ⊢
        have hchange : s.change u sources c = .ok (s.add r) := by
          simp [Script.change, hplace, bind, Except.bind]
        rw [hchanges, Script.recordAll, hchange]
        exact ih h

/-! ### What is recorded -/

/-- The replacements behind the changes of a list of steps whose tokens are found. -/
def replacements (u : Program) (sources : Sources) (steps : List Step) : List Replacement :=
  steps.filterMap fun step => step.change?.bind fun c => (u.place? sources c).toOption

/-- The replacements of steps are those of the changes among them that find their place. -/
theorem mem_replacements {steps : List Step} {r : Replacement} :
    r ∈ u.replacements sources steps ↔
      ∃ c, Step.change c ∈ steps ∧ u.place? sources c = .ok r := by
  have htoOption (c : Change) :
      (u.place? sources c).toOption = some r ↔ u.place? sources c = .ok r := by
    cases u.place? sources c with
    | ok r' => simp [Except.toOption]
    | error f => simp [Except.toOption]
  simp only [replacements, List.mem_filterMap, Option.bind_eq_some_iff, htoOption]
  constructor
  · rintro ⟨step, hstep, c, hc, hr⟩
    cases step with
    | change c' =>
      obtain rfl := Option.some.inj hc
      exact ⟨c', hstep, hr⟩
    | tell e => cases hc
  · rintro ⟨c, hc, hr⟩
    exact ⟨.change c, hc, c, rfl, hr⟩

/-- The replacements of two lists of steps stand one behind the other. -/
theorem replacements_append (steps more : List Step) :
    u.replacements sources (steps ++ more) =
      u.replacements sources steps ++ u.replacements sources more :=
  List.filterMap_append

/-- The replacements of steps that are made place by place are made place by place. -/
theorem replacements_flatMap (xs : List Nat) (f : Nat → List Step) :
    u.replacements sources (xs.flatMap f) =
      xs.flatMap fun x => u.replacements sources (f x) :=
  List.filterMap_flatMap

/-- A performance without a fault finds the tokens of all changes, and records their replacements
    in order. -/
theorem perform_replacements {s : Script} {steps : List Step}
    (h : (u.perform sources s steps).fault = none) :
    (u.perform sources s steps).script = (u.replacements sources steps).foldl Script.add s ∧
      ∀ c, Step.change c ∈ steps → ∃ r, u.place? sources c = .ok r := by
  induction steps generalizing s with
  | nil => exact ⟨rfl, by simp⟩
  | cons step rest ih =>
    cases step with
    | tell e =>
      obtain ⟨hscript, hplaced⟩ := ih h
      exact ⟨hscript, fun c hc => hplaced c (by simpa using hc)⟩
    | change c =>
      rw [perform] at h ⊢
      cases hplace : u.place? sources c with
      | error f => simp [hplace] at h
      | ok r =>
        simp only [hplace] at h ⊢
        obtain ⟨hscript, hplaced⟩ := ih h
        have hcons : u.replacements sources (.change c :: rest) =
            r :: u.replacements sources rest := by
          simp [replacements, Step.change?, hplace, Except.toOption]
        refine ⟨by rw [hcons, List.foldl_cons, hscript], ?_⟩
        intro c' hc'
        rcases List.mem_cons.1 hc' with heq | hc'
        · obtain rfl := Step.change.inj heq
          exact ⟨r, hplace⟩
        · exact hplaced c' hc'

/-! ### Faults -/

/-- Whether a fault is the answer of the sources for the file of some token. -/
def IsAnswerOf (u : Program) (sources : Sources) (f : Fault) : Prop :=
  ∃ t, sources (u.place t).file = .error f

/-- A token is not found where it should stand, or its file has no text. -/
theorem locate_faults {t : Ref} {f : Fault} (h : u.locate sources t = .error f) :
    f.OfTexts ∨ u.IsAnswerOf sources f := by
  cases htext : sources (u.place t).file with
  | error g =>
    simp only [locate, htext, bind, Except.bind] at h
    obtain rfl := Except.error.inj h
    exact .inr ⟨t, htext⟩
  | ok text =>
    simp only [locate, htext, bind, Except.bind] at h
    split at h
    · exact .inl (Except.error.inj h ▸ .outsideFile _ _)
    · split at h
      · exact .inl (Except.error.inj h ▸ .outsideFile _ _)
      · split at h
        · exact .inl (Except.error.inj h ▸ .notOnLine _ _ _)
        · cases h

/-- A change fails for a fault of the texts, or because of what a source answers. -/
theorem place?_faults {c : Change} {f : Fault} (h : u.place? sources c = .error f) :
    f.OfTexts ∨ u.IsAnswerOf sources f := by
  cases c with
  | removeRange first last =>
    simp only [place?, bind, Except.bind] at h
    split at h
    · rename_i hfirst
      exact Except.error.inj h ▸ locate_faults hfirst
    · split at h
      · rename_i hlast
        exact Except.error.inj h ▸ locate_faults hlast
      · split at h
        · exact .inl (Except.error.inj h ▸ .brokenRange _)
        · cases h
  | insertBefore t w | insertAfter t w | replace t w =>
    simp only [place?, bind, Except.bind] at h
    split at h
    · rename_i hlocate
      exact Except.error.inj h ▸ locate_faults hlocate
    · cases h

/-- A performance ends in a fault of the texts, or with what the sources answer. -/
theorem perform_faults {s : Script} {steps : List Step} {f : Fault}
    (h : (u.perform sources s steps).fault = some f) :
    f.OfTexts ∨ u.IsAnswerOf sources f := by
  induction steps generalizing s with
  | nil => cases h
  | cons step rest ih =>
    cases step with
    | tell e => exact ih h
    | change c =>
      rw [perform] at h
      split at h
      · rename_i hplace
        exact Option.some.inj h ▸ place?_faults hplace
      · exact ih h

/-! ### Whole plans -/

/-- A plan fails for a treated fault, or because of what a source answers. -/
theorem performPlan_faults {d : Decl} {f : Fault} (h : (u.performPlan sources d).fault = some f) :
    f.IsTreated ∨ u.IsAnswerOf sources f := by
  simp only [performPlan, Option.or_eq_some_iff] at h
  rcases h with h | ⟨-, h⟩
  · exact (perform_faults h).imp_left Fault.OfTexts.isTreated
  · exact .inl (plan_faults d f h)

/-- A reduction that runs through has a whole plan and has recorded all of its changes. -/
theorem performPlan_recordAll {d : Decl} (h : (u.performPlan sources d).fault = none) :
    (u.plan d).fault = none ∧
      Script.recordAll sources {} (u.changesOf (u.plan d).items) =
        .ok (u.performPlan sources d).script := by
  simp only [performPlan, Option.or_eq_none_iff] at h ⊢
  exact ⟨h.2, perform_recordAll h.1⟩

/-- The script of a reduction that runs through is one that recordings build. -/
theorem performPlan_sound {d : Decl} (h : (u.performPlan sources d).fault = none) :
    (u.performPlan sources d).script.Sound sources :=
  (Script.Sound.empty sources).recordAll (performPlan_recordAll h).2

/-- The script of a reduction that runs through holds the replacements of its plan, in order, and
    those of all changes. -/
theorem performPlan_holds {d : Decl} (h : (u.performPlan sources d).fault = none) :
    (u.performPlan sources d).script.Holds (u.replacements sources (u.plan d).items) ∧
      ∀ c, Step.change c ∈ (u.plan d).items → ∃ r, u.place? sources c = .ok r := by
  simp only [performPlan, Option.or_eq_none_iff] at h ⊢
  obtain ⟨hscript, hplaced⟩ := perform_replacements h.1
  rw [hscript]
  exact ⟨by simpa using Script.Holds.empty.foldl_add _, hplaced⟩

/-- What is recorded is what the changes of the plan replace. -/
theorem performPlan_recorded_iff {d : Decl} (h : (u.performPlan sources d).fault = none)
    {path text : String} {start stop : Nat} :
    (∃ e ∈ (u.performPlan sources d).script.recorded path,
      e.start = start ∧ e.stop = stop ∧ e.text = text) ↔
      ∃ c, Step.change c ∈ (u.plan d).items ∧
        u.place? sources c = .ok ⟨path, start, stop, text⟩ := by
  obtain ⟨hholds, -⟩ := performPlan_holds h
  rw [← mem_replacements]
  constructor
  · rintro ⟨e, he, rfl, rfl, rfl⟩
    exact ((hholds.mem_recorded _ _).1 he).1
  · intro hr
    let seq := (u.replacements sources (u.plan d).items).idxOf ⟨path, start, stop, text⟩ + 1
    exact ⟨⟨start, stop, text, seq⟩, (hholds.mem_recorded _ _).2 ⟨hr, rfl⟩, rfl, rfl, rfl⟩

/-- No two recorded edits of a file do the same. -/
theorem performPlan_recorded_nodup {d : Decl} (h : (u.performPlan sources d).fault = none)
    (path : String) :
    ((u.performPlan sources d).script.recorded path).Nodup ∧
      ∀ e ∈ (u.performPlan sources d).script.recorded path,
        ∀ f ∈ (u.performPlan sources d).script.recorded path,
          e.replacement path = f.replacement path → e = f := by
  obtain ⟨hholds, -⟩ := performPlan_holds h
  refine ⟨((performPlan_sound h).numbered path).imp ?_,
    fun e he f hf => hholds.eq_of_replacement_eq he hf⟩
  rintro e f hlt rfl
  exact Nat.lt_irrefl _ hlt

/-- A reduction that runs through has edited a file: it has removed a star. -/
theorem performPlan_paths_ne_nil {d : Decl} (h : (u.performPlan sources d).fault = none) :
    (u.performPlan sources d).script.paths ≠ [] := by
  obtain ⟨hplan, hrecord⟩ := performPlan_recordAll h
  obtain ⟨star, hstar⟩ := plan_removes_star hplan
  refine Script.paths_ne_nil_of_recordAll hrecord ?_
  have hmem : Change.remove (some star) ∈ (u.plan d).items.filterMap Step.change? :=
    List.mem_filterMap.2 ⟨_, hstar, rfl⟩
  exact List.ne_nil_of_mem (List.mem_map_of_mem hmem)

end Program

end Indirection
