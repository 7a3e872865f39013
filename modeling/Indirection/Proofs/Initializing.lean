import Indirection.Proofs.Bounds
import Indirection.Proofs.Frame

/-!
# The values behind signs of equality

An `=` behind a name either introduces the initial value of a declaration or assigns. Main
definitions:

* `Program.HasMatchedBrackets` — each bracket is linked to one of the other kind, and back;
* `Program.HasUnnamedBrackets` — no bracket is a name;
* `Program.Dimensions` — only array dimensions stand between two places;
* `Program.Introduces` — a declarator is followed by an `=`, or by a `;`, its name again and an `=`;
* `Program.NarrowsBehind` — the value behind an `=` is narrowed when some token is taken up;
* `Program.NarrowsOnce` — it is narrowed at one token only, and that token has the role given.

Main statements: `initializer_eq_iff` — where the initial value of a declarator begins;
`narrowsOnce_iff` — which values behind signs of equality are narrowed exactly once.
`functionPointer_not_narrowed` shows an initial value that is not narrowed at all: that of a
declarator with its name in parentheses.
-/

namespace Indirection.Program

variable {u : Program} {sources : Sources} {d : Decl}

/-! ### Brackets -/

/-- The pairs of brackets. -/
def bracketPairs : List (String × String) := [("(", ")"), ("[", "]"), ("\x7b", "\x7d")]

/-- A pair of brackets begins with an opener. -/
theorem opener_of_pair {p : String × String} (hp : p ∈ bracketPairs) : p.1 ∈ openers := by
  have hopeners : ∀ p ∈ bracketPairs, p.1 ∈ openers := by decide
  exact hopeners p hp

/-- A pair of brackets ends with a bracket that is no opener. -/
theorem closer_of_pair {p : String × String} (hp : p ∈ bracketPairs) :
    p.2 ∉ openers ∧ p.2 ∈ brackets := by
  have hclosers : ∀ p ∈ bracketPairs, p.2 ∉ openers ∧ p.2 ∈ brackets := by decide
  exact hclosers p hp

/-- Whether each bracket is linked to a bracket of the other kind, the closing one behind the
    opening one. -/
structure HasMatchedBrackets (u : Program) : Prop where
  opening : ∀ p ∈ bracketPairs, ∀ i < u.size, u.text (some i) = p.1 →
    ∃ j < u.size, i < j ∧ u.text (some j) = p.2 ∧
      u.link (some i) = some j ∧ u.link (some j) = some i
  closing : ∀ p ∈ bracketPairs, ∀ j < u.size, u.text (some j) = p.2 →
    ∃ i < j, u.text (some i) = p.1 ∧ u.link (some i) = some j ∧ u.link (some j) = some i

/-- Whether no bracket has the key of a declaration. -/
def HasUnnamedBrackets (u : Program) : Prop :=
  ∀ i < u.size, u.text (some i) ∈ brackets → u.declKey (some i) = 0

/-- The partner of an opening bracket stands behind it, closes it and is linked back. -/
theorem HasMatchedBrackets.pair (h : u.HasMatchedBrackets) {p : String × String}
    (hp : p ∈ bracketPairs) {i j : Nat} (htext : u.text (some i) = p.1)
    (hlink : u.link (some i) = some j) :
    i < j ∧ u.text (some j) = p.2 ∧ u.link (some j) = some i := by
  obtain ⟨k, -, hlt, hclose, hk, hback⟩ := h.opening p hp i (lt_size_of_link hlink) htext
  obtain rfl := Option.some.inj (hk.symm.trans hlink)
  exact ⟨hlt, hclose, hback⟩

/-- The partner of the bracket that opens a dimension closes it. -/
theorem HasMatchedBrackets.dimension (h : u.HasMatchedBrackets) {i j : Nat}
    (htext : u.text (some i) = "[") (hlink : u.link (some i) = some j) :
    i < j ∧ u.text (some j) = "]" ∧ u.link (some j) = some i :=
  h.pair (p := ("[", "]")) (by decide) htext hlink

/-- The bracket that closes a dimension is no name. -/
theorem HasUnnamedBrackets.declKey_eq_zero (hunnamed : u.HasUnnamedBrackets)
    (h : u.HasMatchedBrackets) {i j : Nat} (htext : u.text (some i) = "[")
    (hlink : u.link (some i) = some j) : u.declKey (some j) = 0 := by
  obtain ⟨-, hclose, -⟩ := h.dimension htext hlink
  exact hunnamed j (ref_lt u hlink) (by simp [hclose, brackets])

/-! ### Dimensions -/

/-- Whether only array dimensions stand between the place `first` and the place `behind`. -/
inductive Dimensions (u : Program) : (first behind : Nat) → Prop
  | none (i : Nat) : Dimensions u i i
  | cons {i close behind : Nat} (bracket : u.text (some i) = "[")
    (link : u.link (some i) = some close) (others : Dimensions u (close + 1) behind) :
    Dimensions u i behind

namespace Dimensions

/-- Dimensions end no earlier than they begin. -/
theorem le (h : u.HasMatchedBrackets) {i j : Nat} (hd : u.Dimensions i j) : i ≤ j := by
  induction hd with
  | none => exact Nat.le_refl _
  | cons hbracket hlink _ ih =>
    obtain ⟨hlt, -⟩ := h.dimension hbracket hlink
    omega

/-- Dimensions end at their first place or behind a last one. -/
theorem eq_or_last {i j : Nat} (hd : u.Dimensions i j) :
    i = j ∨ ∃ opening close, u.Dimensions i opening ∧ u.text (some opening) = "[" ∧
      u.link (some opening) = some close ∧ j = close + 1 := by
  induction hd with
  | none => exact .inl rfl
  | @cons i close behind hbracket hlink _ ih =>
    right
    rcases ih with rfl | ⟨opening, last, hfirst, hopening, hlast, heq⟩
    · exact ⟨i, close, .none i, hbracket, hlink, rfl⟩
    · exact ⟨opening, last, .cons hbracket hlink hfirst, hopening, hlast, heq⟩

/-- Going back over dimensions, no two places but brackets are reached. -/
theorem unique (h : u.HasMatchedBrackets) (hunnamed : u.HasUnnamedBrackets) {s t j : Nat}
    (hs : u.declKey (some s) ≠ 0) (ht : u.declKey (some t) ≠ 0) (hds : u.Dimensions (s + 1) j)
    (hdt : u.Dimensions (t + 1) j) : s = t := by
  induction j using Nat.strongRecOn with
  | ind j ih =>
    rcases hds.eq_or_last with rfl | ⟨o, c, hdo, hopening, hlink, rfl⟩
    · rcases hdt.eq_or_last with heq | ⟨o', c', -, hopening', hlink', heq⟩
      · omega
      · obtain rfl : s = c' := by omega
        exact absurd (hunnamed.declKey_eq_zero h hopening' hlink') hs
    · rcases hdt.eq_or_last with heq | ⟨o', c', hdo', hopening', hlink', heq⟩
      · obtain rfl : t = c := by omega
        exact absurd (hunnamed.declKey_eq_zero h hopening hlink) ht
      · -- both end in the same dimension, whose bracket leads back to one place
        obtain rfl : c = c' := by omega
        obtain ⟨hlt, -, hback⟩ := h.dimension hopening hlink
        obtain ⟨-, -, hback'⟩ := h.dimension hopening' hlink'
        obtain rfl := Option.some.inj (hback.symm.trans hback')
        exact ih o (by omega) hdo hdo'

end Dimensions

/-- What is reached by passing dimensions over. -/
theorem dimensions_of_skip {steps i j : Nat} (h : u.skipDimensionsWithin steps (some i) = some j) :
    u.Dimensions i j := by
  induction steps generalizing i with
  | zero =>
    obtain rfl := Option.some.inj h
    exact .none i
  | succ steps ih =>
    rw [skipDimensionsWithin] at h
    split at h
    · rename_i hbracket
      split at h
      · obtain rfl := Option.some.inj h
        exact .none i
      · rename_i close hlink
        cases hnext : u.next (some close) with
        | none =>
          -- nothing is reached behind the last token
          have hskip : u.skipDimensionsWithin steps none = none := by
            cases steps <;> simp [skipDimensionsWithin, text]
          rw [hnext, hskip] at h
          cases h
        | some k =>
          rw [hnext] at h
          obtain ⟨_, heq, rfl, -⟩ := next_eq_some_iff.1 hnext
          obtain rfl := Option.some.inj heq
          exact .cons hbracket hlink (ih h)
    · obtain rfl := Option.some.inj h
      exact .none i

/-- All dimensions are passed over. -/
theorem skip_of_dimensions (h : u.HasMatchedBrackets) {i j : Nat} (hd : u.Dimensions i j)
    (hj : u.text (some j) ≠ "[") (hlt : j < u.size) {steps : Nat} (hsteps : j - i ≤ steps) :
    u.skipDimensionsWithin steps (some i) = some j := by
  induction hd generalizing steps with
  | none i => cases steps <;> simp [skipDimensionsWithin, hj]
  | @cons i close behind hbracket hlink hothers ih =>
    obtain ⟨hclose, -⟩ := h.dimension hbracket hlink
    have hle := hothers.le h
    obtain ⟨steps, rfl⟩ : ∃ k, steps = k + 1 := ⟨steps - 1, by omega⟩
    have hnext : u.next (some close) = some (close + 1) := next_of_lt (by omega)
    rw [skipDimensionsWithin, if_pos hbracket]
    simp only [hlink, hnext]
    exact ih hj hlt (by omega)

/-- The token behind the dimensions of a declarator. -/
theorem skip_next_iff (h : u.HasMatchedBrackets) {t j : Nat} (hj : u.text (some j) ≠ "[")
    (hne : u.text (some j) ≠ "") :
    u.skipDimensionsWithin u.size (u.next (some t)) = some j ↔ u.Dimensions (t + 1) j := by
  have hlt := lt_size_of_text hne
  constructor
  · intro hskip
    cases hnext : u.next (some t) with
    | none =>
      have hnone : u.skipDimensionsWithin u.size none = none := by
        cases u.size <;> simp [skipDimensionsWithin, text]
      rw [hnext, hnone] at hskip
      cases hskip
    | some k =>
      rw [hnext] at hskip
      obtain ⟨_, heq, rfl, -⟩ := next_eq_some_iff.1 hnext
      obtain rfl := Option.some.inj heq
      exact dimensions_of_skip hskip
  · intro hd
    have hle := hd.le h
    rw [next_of_lt (by omega)]
    exact skip_of_dimensions h hd hj hlt (by omega)

/-! ### Initializers -/

/-- Whether the declarator's name at `t` is followed by the `=` at `e`, array dimensions passed
    over; or by a `;` and by the first operand of that `=`, with the `=` directly behind it. -/
inductive Introduces (u : Program) (t e : Nat) : Prop
  | direct (dimensions : u.Dimensions (t + 1) e)
  | split {stop : Nat} (dimensions : u.Dimensions (t + 1) stop)
    (semicolon : u.text (some stop) = ";") (name : u.operand1 (some e) = some (stop + 1))
    (behind : e = stop + 2)

/-- A value begins behind the `=` of a declarator, or behind the one that was split off it. -/
theorem initializer_eq_iff (h : u.HasMatchedBrackets) {t e : Nat} (heq : u.text (some e) = "=")
    (hright : e + 1 < u.size) :
    u.initializer (some t) = some (e + 1) ↔
      u.Dimensions (t + 1) e ∨
      ∃ stop, u.Dimensions (t + 1) stop ∧ u.text (some stop) = ";" ∧ e = stop + 2 ∧
        u.operand1 (some e) = some (stop + 1) ∧
        u.declKey (some (stop + 1)) = u.declKey (some t) ∧
        u.isSplitInitializer (some e) = true := by
  have hnext (i : Nat) (hi : i ≤ e) : u.next (some i) = some (i + 1) := next_of_lt (by omega)
  unfold initializer
  dsimp only
  constructor
  · intro hinit
    split at hinit
    · -- the `=` stands behind the dimensions
      rename_i htext
      obtain ⟨k, hskip, hk, -⟩ := next_eq_some_iff.1 hinit
      obtain rfl : e = k := by omega
      exact .inl ((skip_next_iff h (by simp [heq]) (by simp [heq])).1 hskip)
    · split at hinit
      · rename_i htext
        split at hinit
        · rename_i hsplit
          -- three steps lead from the `;` to the value
          obtain ⟨b, hb, hbe, -⟩ := next_eq_some_iff.1 hinit
          obtain ⟨a, ha, hab, -⟩ := next_eq_some_iff.1 hb
          obtain ⟨stop, hskip, hstop, -⟩ := next_eq_some_iff.1 ha
          rw [hb, ha] at hsplit
          rw [hskip] at htext
          obtain rfl : a = stop + 1 := hstop
          obtain rfl : e = stop + 2 := by omega
          obtain rfl : b = stop + 2 := by omega
          simp only [Bool.and_eq_true, decide_eq_true_eq] at hsplit
          obtain ⟨⟨hkey, hoperand⟩, hmark⟩ := hsplit
          exact .inr ⟨stop, (skip_next_iff h (by simp [htext]) (by simp [htext])).1 hskip, htext,
            rfl, hoperand, hkey, hmark⟩
        · cases hinit
      · cases hinit
  · rintro (hd | ⟨stop, hd, htext, rfl, hoperand, hkey, hmark⟩)
    · rw [(skip_next_iff h (by simp [heq]) (by simp [heq])).2 hd, if_pos heq]
      exact hnext e (Nat.le_refl _)
    · rw [(skip_next_iff h (by simp [htext]) (by simp [htext])).2 hd, if_neg (by simp [htext]),
        if_pos htext, hnext stop (by omega), hnext (stop + 1) (by omega),
        if_pos (by simp [hkey, hoperand, hmark])]
      exact hnext (stop + 2) (Nat.le_refl _)

/-! ### Narrowing behind a sign of equality -/

/-- Whether the plan for `d` narrows the value behind the `=` at `e` when it takes up the token at
    `i`: as the initial value of the declarator there, or as what the use there is assigned. -/
def NarrowsBehind (u : Program) (d : Decl) (e i : Nat) : Prop :=
  (u.role d.key (some i) = .declarator ∧ u.initializer (some i) = some (e + 1)) ∨
  ∃ node, u.IsValueSite d i node ∧ u.use node = .assigned (some e) true

/-- Whether the value behind the `=` at `e` is narrowed at exactly one token, one of the role
    `role`. -/
def NarrowsOnce (u : Program) (d : Decl) (e : Nat) (role : Role) : Prop :=
  ∃ i, u.NarrowsBehind d e i ∧ u.role d.key (some i) = role ∧ ∀ j, u.NarrowsBehind d e j → j = i

/-- The name of a declarator has a key. -/
theorem declKey_ne_zero_of_isDeclaratorName {i : Nat} (h : u.isDeclaratorName (some i) = true) :
    u.declKey (some i) ≠ 0 := by
  have hid : u.varId (some i) ≠ 0 := by
    intro hzero
    simp [isDeclaratorName, hzero] at h
  unfold declKey
  dsimp only
  split
  · assumption
  · exact hid

/-- A name at the beginning of a statement has no star. -/
theorem stars_behind_semicolon {i : Nat} (h : u.text (some i) = ";") :
    u.stars (some (i + 1)) = [] := by
  have hnone : u.starsBefore (i + 1) = [] := by
    simp [starsBefore, h, pointerQualifiers]
  unfold stars
  split
  · rfl
  · rename_i href
    simp only [ref, Option.filter_eq_some_iff, Option.some.injEq] at href
    rw [← href.1, hnone]

/-- Each declarator of a plan without a fault has a star. -/
theorem stars_ne_nil (h : (u.plan d).fault = none) {i : Nat}
    (hrole : u.role d.key (some i) = .declarator) : u.stars (some i) ≠ [] := by
  have hi := lt_size_of_isDeclaratorName (role_eq_declarator.1 hrole).2
  obtain ⟨star, hnearest, -⟩ := plan_removes_nearest h hrole hi
  intro hnil
  simp [hnil] at hnearest

/-- What the declarator at `i` narrows behind an `=`. -/
theorem stepAt_of_initializer (h : (u.plan d).fault = none) {i start : Nat}
    (hrole : u.role d.key (some i) = .declarator) (hinit : u.initializer (some i) = some start) :
    ∃ star, u.stepAt d i = .one (.change (.remove (some star))) ++
      u.narrowInitializer (u.knownBefore d (i + 1)).type? (some start) := by
  cases hstars : u.stars (some i) with
  | nil => exact absurd hstars (stars_ne_nil h hrole)
  | cons star others =>
    refine ⟨star, ?_⟩
    simp only [stepAt, hrole, stepAs, rewriteDeclarator, hstars, hinit]

/-- What the use at `i` narrows behind an `=`. -/
theorem stepAt_of_assigned {i : Nat} {node operator : Ref} (hsite : u.IsValueSite d i node)
    (huse : u.use node = .assigned operator true) :
    u.stepAt d i = u.narrowExpression (u.knownBefore d (i + 1)).type? (u.operand2 operator) := by
  simp only [stepAt, hsite.1, stepAs, rewriteUse, hsite.2, huse, rewriteValue]

/-- Only the name in front of an `=` is assigned there, when it stands for the whole value. -/
theorem assigned_iff {e n : Nat} (heq : u.text (some e) = "=")
    (hname : u.operand1 (some e) = some n) (hleaf : u.hasOperands (some n) = false)
    (hfield : d.isField = false) (hrank : d.rank ≤ 0)
    (hvalue : (u.operand2 (some e)).isSome = true) {i : Nat} :
    (∃ node, u.IsValueSite d i node ∧ u.use node = .assigned (some e) true) ↔
      i = n ∧ u.parent (some n) = some e ∧ u.role d.key (some n) = .use := by
  have hzero : d.rank.toNat = 0 := by omega
  simp only [hasOperands, Bool.or_eq_false_iff] at hleaf
  have hmember : u.isMemberAccess (some n) = false := by simp [isMemberAccess, hleaf.2]
  constructor
  · rintro ⟨node, ⟨hrole, hsite⟩, huse⟩
    have hspec := u.use_spec node
    simp only [huse, hname] at hspec
    obtain ⟨hparent, -, rfl, -⟩ := hspec
    -- without a record and without dimensions the value of a use is its name
    simp only [site, hfield, hzero, subscripted, Bool.false_and, Bool.false_eq_true, if_false,
      Site.value.injEq] at hsite
    split at hsite
    · -- a member access has operands
      rename_i haccess
      rw [hsite, hmember] at haccess
      simp at haccess
    · obtain rfl := Option.some.inj hsite
      exact ⟨rfl, hparent.symm, hrole⟩
  · rintro ⟨rfl, hparent, hrole⟩
    have haccess : u.isMemberAccess (some e) = false := by simp [isMemberAccess, heq]
    refine ⟨some i, ⟨hrole, ?_⟩, ?_⟩
    · simp [site, hfield, hzero, subscripted, hparent, haccess]
    · simp [use, hparent, hname, heq, isDereference, isSubscript, isArrow, isMemberAccess,
        isAssignment, assignmentOps, isBinaryOp, hvalue]

section Sides

variable (h : (u.plan d).fault = none) (hmatched : u.HasMatchedBrackets) {e : Nat}
  (heq : u.text (some e) = "=") (hright : e + 1 < u.size)

include hmatched heq hright

/-- The token in front of an initializer introduces it. -/
theorem introduces_of_initializer {t : Nat} (hinit : u.initializer (some t) = some (e + 1)) :
    u.Introduces t e := by
  rcases (initializer_eq_iff hmatched heq hright).1 hinit with
    hd | ⟨stop, hd, hstop, rfl, hname, -⟩
  · exact .direct hd
  · exact .split hd hstop hname rfl

/-- Behind an `=` begins the initial value of at most one name, if no name begins a statement. -/
theorem eq_of_initializer (hunnamed : u.HasUnnamedBrackets) {s t : Nat}
    (hs : u.declKey (some s) ≠ 0) (ht : u.declKey (some t) ≠ 0)
    (hplaces : ∀ stop, s = stop + 1 → u.text (some stop) ≠ ";")
    (hplacet : ∀ stop, t = stop + 1 → u.text (some stop) ≠ ";")
    (hinits : u.initializer (some s) = some (e + 1))
    (hinitt : u.initializer (some t) = some (e + 1)) : s = t := by
  -- what is introduced directly is not split off another declaration
  have hmixed {k l stop : Nat} (hl : u.declKey (some l) ≠ 0)
      (hplace : ∀ stop, k = stop + 1 → u.text (some stop) ≠ ";")
      (hd : u.Dimensions (k + 1) (stop + 2)) (hstop : u.text (some stop) = ";")
      (hkey : u.declKey (some (stop + 1)) = u.declKey (some l)) : False := by
    rcases hd.eq_or_last with hlast | ⟨opening, close, -, hopening, hlink, hlast⟩
    · exact hplace stop (by omega) hstop
    · obtain rfl : close = stop + 1 := by omega
      exact hl (hkey ▸ hunnamed.declKey_eq_zero hmatched hopening hlink)
  rcases (initializer_eq_iff hmatched heq hright).1 hinits with
    hds | ⟨stop, hds, hstop, rfl, -, hkey, -⟩
  · rcases (initializer_eq_iff hmatched heq hright).1 hinitt with
      hdt | ⟨stop, -, hstop, rfl, -, hkey, -⟩
    · exact hds.unique hmatched hunnamed hs ht hdt
    · exact (hmixed ht hplaces hds hstop hkey).elim
  · rcases (initializer_eq_iff hmatched heq hright).1 hinitt with
      hdt | ⟨stop', hdt, -, hsame, -⟩
    · exact (hmixed hs hplacet hdt hstop hkey).elim
    · obtain rfl : stop = stop' := by omega
      exact hds.unique hmatched hunnamed hs ht hdt

include h

/-- Behind an `=` begins the initial value of at most one declarator. -/
theorem declarator_unique (hunnamed : u.HasUnnamedBrackets) {s t : Nat}
    (hs : u.role d.key (some s) = .declarator) (ht : u.role d.key (some t) = .declarator)
    (hinits : u.initializer (some s) = some (e + 1))
    (hinitt : u.initializer (some t) = some (e + 1)) : s = t := by
  -- a declarator has a star, and does not begin a statement
  have hplace {k stop : Nat} (hk : u.role d.key (some k) = .declarator) (heq : k = stop + 1) :
      u.text (some stop) ≠ ";" := by
    rintro hstop
    subst heq
    exact stars_ne_nil h hk (stars_behind_semicolon hstop)
  exact eq_of_initializer hmatched heq hright hunnamed
    (declKey_ne_zero_of_isDeclaratorName (role_eq_declarator.1 hs).2)
    (declKey_ne_zero_of_isDeclaratorName (role_eq_declarator.1 ht).2)
    (fun _ => hplace hs) (fun _ => hplace ht) hinits hinitt

/-- A declarator that introduces an `=` has its initial value behind it, if that is no
    assignment. -/
theorem initializer_of_introduces {n : Nat} (hname : u.operand1 (some e) = some n)
    (hkey : u.declKey (some n) = d.key) (hinitial : u.isInitializer (some e) = true) {t : Nat}
    (ht : u.role d.key (some t) = .declarator) (hintro : u.Introduces t e) :
    u.initializer (some t) = some (e + 1) := by
  refine (initializer_eq_iff hmatched heq hright).2 ?_
  cases hintro with
  | direct hd => exact .inl hd
  | @split stop hd hstop hfirst hbehind =>
    obtain rfl : stop + 1 = n := Option.some.inj (hfirst.symm.trans hname)
    have hkeys : u.declKey (some (stop + 1)) = u.declKey (some t) :=
      hkey.trans (role_eq_declarator.1 ht).1.symm
    have hsplit : u.isSplitInitializer (some e) = true := by
      by_contra hno
      -- otherwise the name behind the `;` would be a declarator's
      have hdeclarator : u.isDeclaratorName (some (stop + 1)) = true := by
        simpa [isInitializer, heq, hname, hno] using hinitial
      exact stars_ne_nil h (role_eq_declarator.2 ⟨hkey, hdeclarator⟩) (stars_behind_semicolon hstop)
    exact .inr ⟨stop, hd, hstop, hbehind, hfirst, hkeys, hsplit⟩

end Sides

/-- A name whose `=` introduces an initial value is no use. -/
theorem role_ne_use_of_isInitializer {e n : Nat} (hname : u.operand1 (some e) = some n)
    (hparent : u.parent (some n) = some e) (hinitial : u.isInitializer (some e) = true)
    {key : Int} : u.role key (some n) ≠ .use := by
  intro hrole
  obtain ⟨-, hdeclarator, -, hsplit⟩ := role_eq_use.1 hrole
  simp only [isSplitName, hparent, hname, decide_true, Bool.true_and] at hsplit
  simp [isInitializer, hname, hdeclarator, hsplit] at hinitial

/-- **Values behind signs of equality.** Take a variable whose reduction runs through and an `=`
    with its name in front, in a program with matched brackets.

    * If the `=` introduces an initial value, that value is narrowed exactly once, at a declarator,
      when one declarator and no other is followed by this `=`, or by a `;`, the name again and this
      `=`, but for array dimensions. There is no other one if no bracket is a name. Without any such
      declarator the value is not narrowed.
    * If the `=` assigns, the value is narrowed exactly once, at the name in front of the `=`, when
      that name is an operand of the `=` alone, stands in no designator, and no declarator with
      dimensions stands in front of the `=` too. -/
theorem narrowsOnce_iff (h : (u.performPlan sources d).fault = none)
    (hmatched : u.HasMatchedBrackets) (hfield : d.isField = false) (hrank : d.rank ≤ 0) {e n : Nat}
    (heq : u.text (some e) = "=") (hname : u.operand1 (some e) = some n)
    (hleaf : u.hasOperands (some n) = false) (hkey : u.declKey (some n) = d.key)
    (hvalue : (u.operand2 (some e)).isSome = true) (hright : e + 1 < u.size) :
    (u.isInitializer (some e) = true →
      (u.NarrowsOnce d e .declarator ↔
        ∃! t, u.role d.key (some t) = .declarator ∧ u.Introduces t e) ∧
      (u.HasUnnamedBrackets → (∃ t, u.role d.key (some t) = .declarator ∧ u.Introduces t e) →
        u.NarrowsOnce d e .declarator) ∧
      ((¬ ∃ t, u.role d.key (some t) = .declarator ∧ u.Introduces t e) →
        ∀ i, ¬ u.NarrowsBehind d e i)) ∧
    (u.isInitializer (some e) = false →
      (u.NarrowsOnce d e .use ↔ u.parent (some n) = some e ∧ u.isDesignator (some n) = false ∧
        ∀ t, u.role d.key (some t) = .declarator → ¬ u.Dimensions (t + 1) e)) ∧
    ∀ i, u.NarrowsBehind d e i → i < u.size ∧
      ((∃ star, u.stepAt d i = .one (.change (.remove (some star))) ++
          u.narrowInitializer (u.knownBefore d (i + 1)).type? (some (e + 1))) ∨
        u.stepAt d i =
          u.narrowExpression (u.knownBefore d (i + 1)).type? (u.operand2 (some e))) := by
  have hplan : (u.plan d).fault = none := (performPlan_recordAll h).1
  have hassigned (i : Nat) := assigned_iff heq hname hleaf hfield hrank hvalue (i := i)
  refine ⟨fun hinitial => ?_, fun hinitial => ?_, fun i hi => ?_⟩
  · -- the name in front is no use, so that only a declarator can narrow the value
    have hdeclarator {i : Nat} (hi : u.NarrowsBehind d e i) :
        u.role d.key (some i) = .declarator ∧ u.initializer (some i) = some (e + 1) := by
      refine hi.resolve_right fun huse => ?_
      obtain ⟨rfl, hparent, hrole⟩ := (hassigned i).1 huse
      exact role_ne_use_of_isInitializer hname hparent hinitial hrole
    have hnarrows (i : Nat) : u.NarrowsBehind d e i ↔
        u.role d.key (some i) = .declarator ∧ u.Introduces i e := by
      constructor
      · intro hi
        obtain ⟨hrole, hinit⟩ := hdeclarator hi
        exact ⟨hrole, introduces_of_initializer hmatched heq hright hinit⟩
      · rintro ⟨hrole, hintro⟩
        exact .inl ⟨hrole,
          initializer_of_introduces hplan hmatched heq hright hname hkey hinitial hrole hintro⟩
    refine ⟨?_, ?_, ?_⟩
    · constructor
      · rintro ⟨t, ht, -, honly⟩
        exact ⟨t, (hnarrows t).1 ht, fun j hj => honly j ((hnarrows j).2 hj)⟩
      · rintro ⟨t, ht, honly⟩
        exact ⟨t, (hnarrows t).2 ht, ht.1, fun j hj => honly j ((hnarrows j).1 hj)⟩
    · rintro hunnamed ⟨t, ht⟩
      refine ⟨t, (hnarrows t).2 ht, ht.1, fun j hj => ?_⟩
      obtain ⟨-, hinit⟩ := hdeclarator ((hnarrows t).2 ht)
      obtain ⟨hrole, hinitj⟩ := hdeclarator hj
      exact declarator_unique hplan hmatched heq hright hunnamed hrole ht.1 hinitj hinit
    · exact fun hno i hi => hno ⟨i, (hnarrows i).1 hi⟩
  · have hsplit : u.isSplitInitializer (some e) = false := by
      simp only [isInitializer, Bool.and_eq_false_iff, Bool.or_eq_false_iff] at hinitial
      exact (hinitial.resolve_left (by simp [heq])).2
    have hdeclarator : u.isDeclaratorName (some n) = false := by
      simp only [isInitializer, hname, Bool.and_eq_false_iff, Bool.or_eq_false_iff] at hinitial
      exact (hinitial.resolve_left (by simp [heq])).1
    constructor
    · rintro ⟨i, hi, hrole, honly⟩
      -- the one narrowing is that of the use in front of the `=`
      obtain ⟨rfl, hparent, -⟩ := (hassigned i).1 (hi.resolve_left (by simp [hrole]))
      refine ⟨hparent, (role_eq_use.1 hrole).2.2.1, fun t ht hd => ?_⟩
      have hinit := (initializer_eq_iff hmatched heq hright (t := t)).2 (.inl hd)
      obtain rfl := honly t (.inl ⟨ht, hinit⟩)
      simp [hrole] at ht
    · rintro ⟨hparent, hdesignator, hdimensions⟩
      have hrole : u.role d.key (some n) = .use := by
        refine role_eq_use.2 ⟨hkey, hdeclarator, hdesignator, ?_⟩
        simp [isSplitName, hparent, hsplit]
      -- a declarator could only introduce this `=` directly, which is excluded
      refine ⟨n, .inr ((hassigned n).2 ⟨rfl, hparent, hrole⟩), hrole, fun j hj => ?_⟩
      rcases hj with ⟨hj, hinit⟩ | huse
      · rcases (initializer_eq_iff hmatched heq hright).1 hinit with
          hd | ⟨_, _, _, _, _, _, hmark⟩
        · exact absurd hd (hdimensions j hj)
        · simp [hsplit] at hmark
      · exact ((hassigned j).1 huse).1
  · rcases hi with ⟨hrole, hinit⟩ | ⟨node, hsite, huse⟩
    · exact ⟨lt_size_of_isDeclaratorName (role_eq_declarator.1 hrole).2,
        .inl (stepAt_of_initializer hplan hrole hinit)⟩
    · obtain ⟨rfl, -⟩ := (hassigned i).1 ⟨node, hsite, huse⟩
      exact ⟨ref_lt u hname, .inr (stepAt_of_assigned hsite huse)⟩

/-- The tokens of the text `int *p = q; p = r;`, with the declaration split in two. -/
def pointerReset : Program where
  tokens := #[{ text := "int", file := "a.c", line := 1, column := 1, isName := true },
    { text := "*", file := "a.c", line := 1, column := 5 },
    { text := "p", file := "a.c", line := 1, column := 6, varId := 1, var := some 0,
      isName := true },
    { text := ";", file := "a.c", line := 1, column := 6 },
    { text := "p", file := "a.c", line := 1, column := 6, varId := 1, var := some 0,
      parent := some 5, isName := true },
    { text := "=", file := "a.c", line := 1, column := 8, operand1 := some 4, operand2 := some 6,
      isAssignmentOp := true, isSplit := some true },
    { text := "q", file := "a.c", line := 1, column := 10, parent := some 5, isName := true },
    { text := ";", file := "a.c", line := 1, column := 11 },
    { text := "p", file := "a.c", line := 1, column := 13, varId := 1, var := some 0,
      parent := some 9, isName := true },
    { text := "=", file := "a.c", line := 1, column := 15, operand1 := some 8, operand2 := some 10,
      isAssignmentOp := true, isSplit := some false },
    { text := "r", file := "a.c", line := 1, column := 17, parent := some 9, isName := true },
    { text := ";", file := "a.c", line := 1, column := 18 }]
  vars := #[{ nameToken := some 2, typeStart := some 0 }]

/-- In the reduction of `p` to `int p = *q; p = *r;` each of the two values is narrowed once. -/
theorem narrowsOnce_iff_pointerReset :
    let d : Decl := { key := 1, name := "p", level := 1 }
    let sources : Sources := fun _ => .ok "int *p = q; p = r;"
    (pointerReset.performPlan sources d).fault = none ∧ pointerReset.HasMatchedBrackets ∧
      pointerReset.HasUnnamedBrackets ∧
      pointerReset.isInitializer (some 5) = true ∧ pointerReset.NarrowsOnce d 5 .declarator ∧
      pointerReset.isInitializer (some 9) = false ∧ pointerReset.NarrowsOnce d 9 .use := by
  intro d sources
  have hfault : (pointerReset.performPlan sources d).fault = none := by decide +kernel
  have hmatched : pointerReset.HasMatchedBrackets := by constructor <;> decide +kernel
  have hunnamed : pointerReset.HasUnnamedBrackets := by
    unfold HasUnnamedBrackets
    decide +kernel
  have hinitial : pointerReset.isInitializer (some 5) = true := by decide +kernel
  have hassigns : pointerReset.isInitializer (some 9) = false := by decide +kernel
  have hfirst := (narrowsOnce_iff hfault hmatched rfl (Int.le_refl 0) (e := 5) (n := 4)
    (by decide +kernel) (by decide +kernel) (by decide +kernel) (by decide +kernel)
    (by decide +kernel) (by decide +kernel)).1 hinitial
  have hsecond := (narrowsOnce_iff hfault hmatched rfl (Int.le_refl 0) (e := 9) (n := 8)
    (by decide +kernel) (by decide +kernel) (by decide +kernel) (by decide +kernel)
    (by decide +kernel) (by decide +kernel)).2.1 hassigns
  have hintro : pointerReset.Introduces 2 5 :=
    .split (.none 3) (by decide +kernel) (by decide +kernel) rfl
  refine ⟨hfault, hmatched, hunnamed, hinitial,
    hfirst.2.1 hunnamed ⟨2, by decide +kernel, hintro⟩, hassigns,
    hsecond.2 ⟨by decide +kernel, by decide +kernel, ?_⟩⟩
  intro t ht hd
  have hbrackets : ∀ i < pointerReset.size, pointerReset.text (some i) ≠ "[" := by decide +kernel
  have hnames : ∀ i < pointerReset.size,
      pointerReset.role d.key (some i) = .declarator → i = 2 := by decide +kernel
  obtain rfl := hnames t (lt_size_of_isDeclaratorName (role_eq_declarator.1 ht).2) ht
  cases hd with
  | cons hbracket => exact hbrackets 3 (by decide) hbracket

/-- The tokens of the text `int (*gp)(void);` and, on a line of its own,
    `int (**fp)(void) = &gp;`, with the second declaration split in two. -/
def functionPointer : Program where
  tokens := #[{ text := "int", file := "a.c", line := 1, column := 1, isName := true },
    { text := "(", file := "a.c", line := 1, column := 5, link := some 4 },
    { text := "*", file := "a.c", line := 1, column := 6 },
    { text := "gp", file := "a.c", line := 1, column := 7, varId := 1, var := some 0,
      valueType := some 0, isName := true },
    { text := ")", file := "a.c", line := 1, column := 9, link := some 1 },
    { text := "(", file := "a.c", line := 1, column := 10, link := some 7 },
    { text := "void", file := "a.c", line := 1, column := 11, isName := true },
    { text := ")", file := "a.c", line := 1, column := 15, link := some 5 },
    { text := ";", file := "a.c", line := 1, column := 16 },
    { text := "int", file := "a.c", line := 2, column := 1, isName := true },
    { text := "(", file := "a.c", line := 2, column := 5, link := some 14 },
    { text := "*", file := "a.c", line := 2, column := 6 },
    { text := "*", file := "a.c", line := 2, column := 7 },
    { text := "fp", file := "a.c", line := 2, column := 8, varId := 2, var := some 1,
      valueType := some 1, isName := true },
    { text := ")", file := "a.c", line := 2, column := 10, link := some 10 },
    { text := "(", file := "a.c", line := 2, column := 11, link := some 17 },
    { text := "void", file := "a.c", line := 2, column := 12, isName := true },
    { text := ")", file := "a.c", line := 2, column := 16, link := some 15 },
    { text := ";", file := "a.c", line := 2, column := 8 },
    { text := "fp", file := "a.c", line := 2, column := 8, varId := 2, var := some 1,
      valueType := some 1, parent := some 20, isName := true },
    { text := "=", file := "a.c", line := 2, column := 18, valueType := some 1, operand1 := some 19,
      operand2 := some 21, isAssignmentOp := true, isSplit := some true },
    { text := "&", file := "a.c", line := 2, column := 20, valueType := some 1, operand1 := some 22,
      parent := some 20 },
    { text := "gp", file := "a.c", line := 2, column := 21, varId := 1, var := some 0,
      valueType := some 0, parent := some 21, isName := true },
    { text := ";", file := "a.c", line := 2, column := 23 }]
  vars := #[{ nameToken := some 3, typeStart := some 0, scope := some 0 },
    { nameToken := some 13, typeStart := some 9, scope := some 0 }]
  scopes := #[{ type := some "Global", className := some "" }]
  valueTypes := #[{ type := some "int", pointer := 1 }, { type := some "int", pointer := 2 }]

/-- The reduction of `fp` only removes a star and leaves `int (*fp)(void) = &gp;`: the initial value
    of the declarator with its name in parentheses is not narrowed. -/
theorem functionPointer_not_narrowed :
    let d : Decl := { key := 2, name := "fp", level := 2 }
    let sources : Sources := fun _ => .ok "int (*gp)(void);\nint (**fp)(void) = &gp;\n"
    (functionPointer.performPlan sources d).fault = none ∧
      functionPointer.HasMatchedBrackets ∧ functionPointer.HasUnnamedBrackets ∧
      functionPointer.text (some 20) = "=" ∧ functionPointer.operand1 (some 20) = some 19 ∧
      functionPointer.declKey (some 19) = d.key ∧
      functionPointer.isInitializer (some 20) = true ∧
      (∀ i, ¬ functionPointer.NarrowsBehind d 20 i) ∧
      (functionPointer.performPlan sources d).script.recorded "a.c" = [⟨23, 24, "", 1⟩] := by
  intro d sources
  have hoperand : functionPointer.operand1 (some 20) = some 19 := by decide +kernel
  have hunnamed : functionPointer.HasUnnamedBrackets := by
    unfold HasUnnamedBrackets
    decide +kernel
  refine ⟨by decide +kernel, by constructor <;> decide +kernel, hunnamed, by decide +kernel,
    hoperand, by decide +kernel, by decide +kernel, ?_, by decide +kernel⟩
  rintro i (⟨hrole, hinit⟩ | huse)
  · have hnone : ∀ i < functionPointer.size,
        functionPointer.role d.key (some i) = .declarator →
          functionPointer.initializer (some i) ≠ some 21 := by decide +kernel
    exact hnone i (lt_size_of_isDeclaratorName (role_eq_declarator.1 hrole).2) hrole hinit
  · obtain ⟨-, -, hrole⟩ := (assigned_iff (by decide +kernel) hoperand (by decide +kernel) rfl
      (Int.le_refl 0) (by decide +kernel)).1 huse
    have hlabel : functionPointer.role d.key (some 19) = .label := by decide +kernel
    rw [hlabel] at hrole
    cases hrole

end Indirection.Program
