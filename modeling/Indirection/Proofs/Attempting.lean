import Indirection.Proofs.Simultaneous

/-!
# Attempts to record changes

Recording a change fails when a token of it is not found, or when a range of tokens is broken, and
whoever asked for it may go on with other changes. Main definitions:

* `Script.attemptAll` — attempts to record a list of changes, going on behind those that fail;
* `Script.isPlaced`, `Script.placed` — whether the tokens of a change are found, and the
  replacements behind the changes of a list whose tokens are;
* `Script.Extends` — a script has the edits of another one, and beyond them only edits with larger
  numbers.

Main statements: `place?_eq_error` — when a change fails; `attemptAll_eq` — only replacements of
changes that do not fail get into a script; `extends_add`, `extends_foldl_add` — what one recording
and all later ones leave as it is; `attemptAll_invariant` — what holds of every script that attempts
build.
-/

namespace Indirection

/-! ### Changes that fail -/

/-- The tokens that a change is made of. -/
def Change.tokens : Change → List Ref
  | .insertBefore t _ | .insertAfter t _ | .replace t _ => [t]
  | .removeRange first last => [first, last]

/-- Whether a change is the removal of a range whose tokens stand in different files, or that ends
    before it begins. -/
def Change.IsBroken (u : Program) (sources : Sources) (c : Change) : Prop :=
  ∃ first last a b, c = .removeRange first last ∧ u.locate sources first = .ok a ∧
    u.locate sources last = .ok b ∧ (b.path ≠ a.path ∨ b.stop < a.start)

/-- A change fails exactly when a token of it is not found, or when it is a broken range. -/
theorem place?_eq_error {u : Program} {sources : Sources} {c : Change} :
    (∃ f, u.place? sources c = .error f) ↔
      (∃ t ∈ c.tokens, ∃ f, u.locate sources t = .error f) ∨ c.IsBroken u sources := by
  cases c with
  | insertBefore t w | insertAfter t w | replace t w =>
    cases ht : u.locate sources t with
    | ok a => simp [Program.place?, Change.tokens, Change.IsBroken, ht, bind, Except.bind]
    | error f => simp [Program.place?, Change.tokens, Change.IsBroken, ht, bind, Except.bind]
  | removeRange first last =>
    cases ha : u.locate sources first with
    | error f => simp [Program.place?, Change.tokens, ha, bind, Except.bind]
    | ok a =>
      cases hb : u.locate sources last with
      | error f => simp [Program.place?, Change.tokens, ha, hb, bind, Except.bind]
      | ok b =>
        -- both tokens are found: only the range can be wrong
        by_cases hbroken : b.path ≠ a.path ∨ b.stop < a.start
        · simp [Program.place?, Change.tokens, Change.IsBroken, ha, hb, hbroken, bind, Except.bind]
        · simp [Program.place?, Change.tokens, Change.IsBroken, ha, hb, hbroken, bind, Except.bind]

namespace Script

variable {sources : Sources} {s : Script}

/-- A change that finds its place is added, and nothing is reported. -/
theorem attempt_of_ok {u : Program} {c : Change} {r : Replacement}
    (h : u.place? sources c = .ok r) : s.attempt u sources c = (s.add r, none) := by
  simp [attempt, change, h, bind, Except.bind]

/-- An attempt that fails leaves a script as it was. -/
theorem attempt_of_error {u : Program} {c : Change} {f : Fault}
    (h : u.place? sources c = .error f) : s.attempt u sources c = (s, some f) := by
  simp [attempt, change, h, bind, Except.bind]

/-! ### Lists of attempts -/

/-- The script behind attempts to record changes, each of tokens of some program, one after the
    other. One that fails does not end them. -/
def attemptAll (sources : Sources) (s : Script) (calls : List (Program × Change)) : Script :=
  calls.foldl (fun s call => (s.attempt call.1 sources call.2).1) s

/-- Whether a change does not fail. -/
def isPlaced (sources : Sources) (call : Program × Change) : Bool :=
  (call.1.place? sources call.2).isOk

/-- The replacements behind those changes that do not fail, in order. -/
def placed (sources : Sources) (calls : List (Program × Change)) : List Replacement :=
  calls.filterMap fun call => (call.1.place? sources call.2).toOption

/-- The placed replacements are those of the calls that find their place. -/
theorem mem_placed {calls : List (Program × Change)} {r : Replacement} :
    r ∈ placed sources calls ↔ ∃ call ∈ calls, call.1.place? sources call.2 = .ok r := by
  rw [placed, List.mem_filterMap]
  refine exists_congr fun call => and_congr_right fun _ => ?_
  cases call.1.place? sources call.2 <;> simp [Except.toOption]

/-- What is placed fits into the texts. -/
theorem fits_of_mem_placed {calls : List (Program × Change)} {r : Replacement}
    (h : r ∈ placed sources calls) : r.Fits sources := by
  obtain ⟨call, -, hplace⟩ := mem_placed.1 h
  exact place?_fits hplace

/-- A call that finds its place stands in front of the others. -/
theorem placed_cons_of_ok {call : Program × Change} {r : Replacement}
    (h : call.1.place? sources call.2 = .ok r) (calls : List (Program × Change)) :
    placed sources (call :: calls) = r :: placed sources calls :=
  List.filterMap_cons_some (by rw [h]; rfl)

/-- A call that fails leaves no replacement behind. -/
theorem placed_cons_of_error {call : Program × Change} {f : Fault}
    (h : call.1.place? sources call.2 = .error f) (calls : List (Program × Change)) :
    placed sources (call :: calls) = placed sources calls :=
  List.filterMap_cons_none (by rw [h]; rfl)

/-- Each change that does not fail has one replacement behind it. -/
theorem length_placed (calls : List (Program × Change)) :
    (placed sources calls).length = calls.countP (isPlaced sources) := by
  rw [placed, List.length_filterMap_eq_countP]
  congr 1
  funext call
  rw [isPlaced]
  cases call.1.place? sources call.2 <;> rfl

/-- Attempts record the replacements behind those changes that do not fail. -/
theorem attemptAll_eq (calls : List (Program × Change)) :
    s.attemptAll sources calls = (placed sources calls).foldl add s := by
  induction calls generalizing s with
  | nil => rfl
  | cons call rest ih =>
    show (s.attempt call.1 sources call.2).1.attemptAll sources rest = _
    cases hplace : call.1.place? sources call.2 with
    | ok r => rw [attempt_of_ok hplace, ih, placed_cons_of_ok hplace, List.foldl_cons]
    | error f => rw [attempt_of_error hplace, ih, placed_cons_of_error hplace]

/-- A list of changes is recorded when none of them fails, and then it is what attempts record. -/
theorem recordAll_eq_ok {calls : List (Program × Change)} {s' : Script} :
    s.recordAll sources calls = .ok s' ↔
      (∀ call ∈ calls, isPlaced sources call = true) ∧ s.attemptAll sources calls = s' := by
  induction calls generalizing s with
  | nil => simp [recordAll, attemptAll]
  | cons call rest ih =>
    rw [recordAll, List.forall_mem_cons]
    show _ ↔ _ ∧ (s.attempt call.1 sources call.2).1.attemptAll sources rest = s'
    cases hplace : call.1.place? sources call.2 with
    | ok r =>
      have hchange : s.change call.1 sources call.2 = .ok (s.add r) := by
        simp [change, hplace, bind, Except.bind]
      simp [hchange, ih, attempt_of_ok hplace, isPlaced, hplace, Except.isOk, Except.toBool]
    | error f =>
      have hchange : s.change call.1 sources call.2 = .error f := by
        simp [change, hplace, bind, Except.bind]
      simp [hchange, isPlaced, hplace, Except.isOk, Except.toBool]

/-- Changes that fail leave no trace. -/
theorem attemptAll_filter (calls : List (Program × Change)) :
    s.attemptAll sources (calls.filter (isPlaced sources)) = s.attemptAll sources calls := by
  rw [attemptAll_eq, attemptAll_eq, placed, placed, List.filterMap_filter]
  congr 2
  funext call
  rw [isPlaced]
  cases call.1.place? sources call.2 <;> rfl

/-! ### What later recordings leave as it is -/

/-- Whether a script has all edits of another one, in their places, and beyond them only such as are
    counted later. -/
structure Extends (s s' : Script) : Prop where
  attempts : s.attempts ≤ s'.attempts
  kept : ∀ path, s.recorded path <+: s'.recorded path
  newer : ∀ path, ∀ e ∈ s'.recorded path, e ∉ s.recorded path → s.attempts < e.seq

/-- Every script extends itself. -/
theorem Extends.refl (s : Script) : s.Extends s where
  attempts := le_rfl
  kept _ := List.prefix_rfl
  newer _ _ he hnew := absurd he hnew

/-- What extends an extension of a script extends the script. -/
theorem Extends.trans {s₁ s₂ s₃ : Script} (h : s₁.Extends s₂) (h' : s₂.Extends s₃) :
    s₁.Extends s₃ where
  attempts := h.attempts.trans h'.attempts
  kept path := (h.kept path).trans (h'.kept path)
  newer path e he hnew := by
    by_cases hmem : e ∈ s₂.recorded path
    · exact h.newer path e hmem hnew
    · exact h.attempts.trans_lt (h'.newer path e he hmem)

/-- A recording only adds an edit, with the next number. -/
theorem extends_add (s : Script) (r : Replacement) : s.Extends (s.add r) where
  attempts := by
    rw [attempts_add]
    exact Nat.le_succ _
  kept path := by
    rw [recorded_add]
    split
    · exact List.prefix_append _ _
    · exact List.prefix_rfl
  newer path e he hnew := by
    rcases mem_recorded_add he with hold | ⟨-, rfl⟩
    · exact absurd hold hnew
    · exact Nat.lt_succ_self _

/-- Adding replacements one after the other only ever extends a script. -/
theorem extends_foldl_add (s : Script) (rs : List Replacement) :
    s.Extends (rs.foldl add s) := by
  induction rs generalizing s with
  | nil => exact .refl s
  | cons r rest ih => exact (extends_add s r).trans (ih (s.add r))

/-! ### What holds of every script -/

/-- Adding replacements that fit keeps a script sound. -/
theorem Sound.foldl_add (h : Sound sources s) {rs : List Replacement}
    (hrs : ∀ r ∈ rs, r.Fits sources) : Sound sources (rs.foldl Script.add s) := by
  induction rs generalizing s with
  | nil => exact h
  | cons r rest ih =>
    obtain ⟨hr, hrest⟩ := List.forall_mem_cons.1 hrs
    exact ih (h.add hr) hrest

/-- Every script that attempts build is sound. -/
theorem sound_attemptAll (sources : Sources) (calls : List (Program × Change)) :
    Sound sources (attemptAll sources {} calls) := by
  rw [attemptAll_eq]
  exact (Sound.empty sources).foldl_add fun _ => fits_of_mem_placed

/-- A script that attempts build has the replacements of the changes that do not fail. -/
theorem holds_attemptAll (sources : Sources) (calls : List (Program × Change)) :
    (attemptAll sources {} calls).Holds (placed sources calls) := by
  rw [attemptAll_eq]
  exact Holds.empty.foldl_add _

/-- No two edits of a file do the same. -/
theorem Sound.nodup_replacements (h : Sound sources s) {rs : List Replacement} (hrs : s.Holds rs)
    (path : String) : ((s.recorded path).map (Edit.replacement path)).Nodup := by
  rw [List.Nodup, List.pairwise_map]
  refine (h.numbered path).imp_of_mem fun he hf hlt heq => ?_
  obtain rfl := hrs.eq_of_replacement_eq he hf heq
  exact lt_irrefl _ hlt

/-- **Recording.** After any attempts to record changes:

    * each edit of a file replaces a stretch of its text, no two edits of a file do the same, and
      their numbers increase and are all counted;
    * as many are counted as there were changes that did not fail;
    * whatever is attempted later keeps the edits in their places, and what it adds to any file has
      larger numbers than all edits before it;
    * an attempt fails exactly when a token is not found or a range is broken; it leaves the script
      as it was, and so the texts that it gives after whatever follows;
    * the script is what the changes that do not fail would have made of it alone. -/
theorem attemptAll_invariant (sources : Sources) (calls : List (Program × Change)) :
    let s := attemptAll sources {} calls
    (∀ path,
        (∀ e ∈ s.recorded path, e.start ≤ e.stop ∧
          ∃ text, sources path = .ok text ∧ e.stop ≤ text.toList.length) ∧
        ((s.recorded path).map (Edit.replacement path)).Nodup ∧
        (s.recorded path).Pairwise (·.seq < ·.seq) ∧
        ∀ e ∈ s.recorded path, e.seq ≤ s.attempts) ∧
      s.attempts = calls.countP (isPlaced sources) ∧
      (∀ more, s.Extends (s.attemptAll sources more) ∧
        ∀ path path', ∀ e ∈ s.recorded path, ∀ f ∈ (s.attemptAll sources more).recorded path',
          f ∉ s.recorded path' → e.seq < f.seq) ∧
      (∀ u c, (∃ f, (s.attempt u sources c).2 = some f) ↔
        (∃ t ∈ c.tokens, ∃ f, u.locate sources t = .error f) ∨ c.IsBroken u sources) ∧
      (∀ u c f, (s.attempt u sources c).2 = some f → (s.attempt u sources c).1 = s ∧
        ∀ more, (s.attemptAll sources ((u, c) :: more)).apply sources =
          (s.attemptAll sources more).apply sources) ∧
      recordAll sources {} (calls.filter (isPlaced sources)) = .ok s := by
  intro s
  have hs : Sound sources s := sound_attemptAll sources calls
  have hholds : s.Holds (placed sources calls) := holds_attemptAll sources calls
  refine ⟨?_, ?_, ?_, ?_, ?_, ?_⟩
  · intro path
    exact ⟨hs.fits path, hs.nodup_replacements hholds path, hs.numbered path, hs.counted path⟩
  · rw [hholds.attempts, length_placed]
  · intro more
    have hextends : s.Extends (s.attemptAll sources more) := by
      rw [attemptAll_eq]
      exact extends_foldl_add s _
    refine ⟨hextends, fun path path' e he f hf hnew => ?_⟩
    exact (hs.counted path e he).trans_lt (hextends.newer path' f hf hnew)
  · intro u c
    rw [← place?_eq_error]
    cases hplace : u.place? sources c with
    | ok r => simp [attempt_of_ok hplace]
    | error f => simp [attempt_of_error hplace]
  · intro u c f hf
    cases hplace : u.place? sources c with
    | ok r =>
      rw [attempt_of_ok hplace] at hf
      cases hf
    | error g =>
      refine ⟨by rw [attempt_of_error hplace], fun more => ?_⟩
      show ((s.attempt u sources c).1.attemptAll sources more).apply sources = _
      rw [attempt_of_error hplace]
  · refine recordAll_eq_ok.2 ⟨fun call hcall => (List.mem_filter.1 hcall).2, ?_⟩
    exact attemptAll_filter calls

/-- Between the first removal of a star and its repetition, the removal of a range fails that ends
    before it begins. -/
theorem attemptAll_invariant_brokenRange :
    let sources : Sources := fun _ => .ok "int **p;"
    let calls : List (Program × Change) := [(twoStars, .remove (some 2)),
      (twoStars, .removeRange (some 3) (some 1)), (twoStars, .insertBefore (some 3) "&"),
      (twoStars, .remove (some 2))]
    let s := attemptAll sources {} calls
    s.recorded "a.c" = [⟨5, 6, "", 1⟩, ⟨6, 6, "&", 2⟩] ∧ s.attempts = 3 ∧
      (∃ f, (s.attempt twoStars sources (.removeRange (some 3) (some 1))).2 = some f) ∧
      (s.attempt twoStars sources (.removeRange (some 3) (some 1))).1 = s := by
  intro sources calls s
  obtain ⟨-, hcount, -, -, hfails, -⟩ := attemptAll_invariant sources calls
  obtain ⟨f, hf⟩ : ∃ f, (s.attempt twoStars sources (.removeRange (some 3) (some 1))).2 = some f :=
    Option.isSome_iff_exists.1 (by decide +kernel)
  exact ⟨by decide +kernel, hcount.trans (by decide +kernel), ⟨f, hf⟩, (hfails _ _ f hf).1⟩

end Script

end Indirection
