import Indirection.Edit.Script
import Mathlib.Data.List.Infix

/-!
# Where tokens stand in a text

What `Program.locate` promises about the span it gives:

* `mem_occurrences` — every occurrence that the search reports is one;
* `anchor?_standsAt` — a word stands at its anchor, whichever of the two searches found it;
* `locate_eq_ok` — the span of a token has the length of its spelling, and its spelling stands
  there;
* `Replacement.Fits`, `place?_fits` — the replacement behind a change lies inside its file.
-/

namespace Indirection

/-! ### Words in a text -/

/-- A word that stands at an offset ends inside the text. -/
theorem add_length_le_of_standsAt {cs word : List Char} {offset : Nat} (hw : word ≠ [])
    (h : standsAt cs offset word = true) : offset + word.length ≤ cs.length := by
  have hp : word <+: cs.drop offset := by simpa [standsAt] using h
  have hlen : word.length ≤ cs.length - offset := by simpa using hp.length_le
  have hpos : 0 < word.length := List.length_pos_iff.2 hw
  omega

/-- An occurrence stands at its offset; `skip` only leaves occurrences out. -/
theorem mem_occurrences {word : List Char} {o : Nat} {cs : List Char} {skip offset : Nat}
    (h : o ∈ occurrences word skip offset cs) :
    ∃ k, o = offset + k ∧ word <+: cs.drop k := by
  induction cs generalizing skip offset with
  | nil => cases skip <;> simp [occurrences] at h
  | cons c cs ih =>
    -- an occurrence in the rest stands one place further on in the whole
    have later : ∀ {skip}, o ∈ occurrences word skip (offset + 1) cs →
        ∃ k, o = offset + k ∧ word <+: (c :: cs).drop k := by
      intro skip hm
      obtain ⟨k, hk, hp⟩ := ih hm
      exact ⟨k + 1, by omega, by simpa using hp⟩
    cases skip with
    | succ skip =>
      rw [occurrences] at h
      exact later h
    | zero =>
      rw [occurrences] at h
      split at h
      · rename_i hp
        rcases List.mem_cons.1 h with rfl | h
        · exact ⟨0, rfl, by simpa using hp⟩
        · exact later h
      · exact later h

/-- What stands in a line stands in the text. -/
theorem standsAt_of_mem_occurrences_lineAt {cs word : List Char} {start o : Nat}
    (h : o ∈ occurrences word 0 start (lineAt cs start)) : standsAt cs o word = true := by
  obtain ⟨k, rfl, hp⟩ := mem_occurrences h
  have hline : lineAt cs start <+: cs.drop start := List.takeWhile_prefix _
  have hk : (lineAt cs start).drop k <+: cs.drop (start + k) := by
    rw [← List.drop_drop]
    exact hline.drop k
  simpa [standsAt] using hp.trans hk

/-- The closest element is one of the list. -/
theorem mem_of_closest? {wanted o : Nat} {os : List Nat} (h : closest? wanted os = some o) :
    o ∈ os := by
  cases os with
  | nil => simp [closest?] at h
  | cons a rest =>
    simp only [closest?, Option.some.injEq] at h
    subst h
    induction rest generalizing a with
    | nil => simp
    | cons b rest ih =>
      rw [List.foldl_cons]
      split
      · exact List.mem_cons_of_mem _ (ih b)
      · rcases List.mem_cons.1 (ih a) with h | h
        · rw [h]; exact List.mem_cons_self
        · exact List.mem_cons_of_mem _ (List.mem_cons_of_mem _ h)

/-- A word stands at its anchor. -/
theorem anchor?_standsAt {cs word : List Char} {start o : Nat} {column : Int}
    (h : anchor? cs start column word = some o) : standsAt cs o word = true := by
  simp only [anchor?] at h
  split at h
  · -- the word stands at the column that is reported
    rename_i hw
    obtain rfl : start + (column - 1).toNat = o := by simpa using h
    exact (Bool.and_eq_true _ _ ▸ hw).1
  · -- the closest occurrence on the line is taken
    have hm := List.mem_filter.1 (mem_of_closest? h)
    exact standsAt_of_mem_occurrences_lineAt hm.1

/-! ### Tokens -/

variable {u : Program} {sources : Sources}

/-- The span of a token lies in the token's file, is as long as its spelling, which is not empty,
    and holds this spelling. -/
theorem locate_eq_ok {t : Ref} {s : Span} (h : u.locate sources t = .ok s) :
    s.path = (u.place t).file ∧ u.sourceText t ≠ "" ∧
      ∃ text, sources s.path = .ok text ∧
        s.stop = s.start + (u.sourceText t).toList.length ∧
        standsAt text.toList s.start (u.sourceText t).toList = true := by
  unfold Program.locate at h
  cases htext : sources (u.place t).file with
  | error f => simp [htext, bind, Except.bind] at h
  | ok text =>
    simp only [htext, bind, Except.bind] at h
    split at h
    · simp at h
    · rename_i hne
      split at h
      · simp at h
      · split at h
        · simp at h
        · rename_i offset hanchor
          obtain rfl := Except.ok.inj h
          exact ⟨rfl, hne, text, htext, rfl, anchor?_standsAt hanchor⟩

/-- The span of a token is not empty and ends inside its file. -/
theorem locate_bounds {t : Ref} {s : Span} (h : u.locate sources t = .ok s) :
    s.start < s.stop ∧ ∃ text, sources s.path = .ok text ∧ s.stop ≤ text.toList.length := by
  obtain ⟨-, hne, text, htext, hstop, hstands⟩ := locate_eq_ok h
  have hword : (u.sourceText t).toList ≠ [] := by simpa using hne
  have hpos : 0 < (u.sourceText t).toList.length := List.length_pos_iff.2 hword
  have hle := add_length_le_of_standsAt hword hstands
  exact ⟨by omega, text, htext, by omega⟩

/-! ### Changes -/

/-- Whether a replacement is one of a stretch of its file. -/
def Replacement.Fits (sources : Sources) (r : Replacement) : Prop :=
  r.start ≤ r.stop ∧ ∃ text, sources r.path = .ok text ∧ r.stop ≤ text.toList.length

/-- The replacement behind a change of tokens fits into its file. -/
theorem place?_fits {c : Change} {r : Replacement} (h : u.place? sources c = .ok r) :
    r.Fits sources := by
  cases c with
  | removeRange first last =>
    simp only [Program.place?, bind, Except.bind] at h
    split at h
    · simp at h
    · rename_i a ha
      split at h
      · simp at h
      · rename_i b hb
        split at h
        · simp at h
        · rename_i hrange
          obtain rfl := Except.ok.inj h
          simp only [ne_eq, Bool.or_eq_true, decide_eq_true_eq, not_or, not_not, not_lt] at hrange
          obtain ⟨hpath, hle⟩ := hrange
          obtain ⟨-, text, htext, hlen⟩ := locate_bounds hb
          exact ⟨hle, text, hpath ▸ htext, hlen⟩
  | insertBefore t w | insertAfter t w | replace t w =>
    simp only [Program.place?, bind, Except.bind] at h
    split at h
    · simp at h
    · rename_i s hs
      obtain rfl := Except.ok.inj h
      obtain ⟨hlt, text, htext, hle⟩ := locate_bounds hs
      exact ⟨by simp only; omega, text, htext, by simp only; omega⟩

end Indirection
