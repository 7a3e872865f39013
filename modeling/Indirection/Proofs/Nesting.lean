import Indirection.Proofs.Braces

/-!
# Braces inside braces

Main definitions:

* `Program.HasNestedBrackets` — brackets are matched, and each pair holds whole pairs;
* `Program.HasDeclaratorsInPlace` — the names in declarators stand where such names can stand;
* `Program.Complete`, `Program.BeginsElement`, `Program.ValueAt` — where the elements of braces and
  their values begin;
* `Program.Nests` — braces are reached from others by going into the values of elements.

Main statements: `elements_begin` and `head_valueAt` — the elements of braces and their values stand
outside all inner brackets; `not_nests_of_declared` — the initializers of two variables share no
braces.
-/

namespace Indirection.Program

variable {u : Program}

/-- Whether the brackets of a program are matched, and between two partners stand only whole
    pairs. -/
structure HasNestedBrackets (u : Program) : Prop extends HasMatchedBrackets u where
  nested : ∀ i < u.size, u.text (some i) ∈ openers → ∀ j < u.size, u.link (some i) = some j →
    u.Encloses i j

/-- Whether no comma is a name in a declarator, and no such name stands behind a `.` or a `;`. In C
    a declarator stands behind a type or behind another declarator and a comma, so that its name
    begins no statement and is none in a designator. -/
def HasDeclaratorsInPlace (u : Program) : Prop :=
  ∀ i < u.size, u.isDeclaratorName (some i) = true →
    u.text (some i) ≠ "," ∧ u.text (u.previous (some i)) ∉ [".", ";"]

/-- An opening brace is an opener. -/
theorem mem_openers_of_brace {i : Nat} (htext : u.text (some i) = "\x7b") :
    u.text (some i) ∈ openers := by
  rw [htext]
  decide

/-- An opening bracket is an opener. -/
theorem mem_openers_of_bracket {i : Nat} (htext : u.text (some i) = "[") :
    u.text (some i) ∈ openers := by
  rw [htext]
  decide

/-- Whether every bracket that is opened behind `p` and in front of `t` is closed there. -/
def Complete (u : Program) (p t : Nat) : Prop :=
  ∀ k, p < k → k < t → u.text (some k) ∈ openers → ∀ l, u.link (some k) = some l → l < t

namespace HasNestedBrackets

variable (h : u.HasNestedBrackets)

include h

/-- The partner of an opener stands behind it, is a bracket but no opener, and leads back to it. -/
theorem opener {i j : Nat} (htext : u.text (some i) ∈ openers) (hlink : u.link (some i) = some j) :
    i < j ∧ u.text (some j) ∉ openers ∧ u.text (some j) ∈ brackets ∧
      u.link (some j) = some i := by
  obtain ⟨p, hp, hopen⟩ : ∃ p ∈ bracketPairs, u.text (some i) = p.1 := by
    have hpairs : ∀ s ∈ openers, ∃ p ∈ bracketPairs, s = p.1 := by decide
    exact hpairs _ htext
  obtain ⟨hlt, hclose, hback⟩ := h.pair hp hopen hlink
  exact ⟨hlt, hclose ▸ (closer_of_pair hp).1, hclose ▸ (closer_of_pair hp).2, hback⟩

/-- The partner of a bracket between two partners stands between them. -/
theorem between {i j k l : Nat} (htext : u.text (some i) ∈ openers)
    (hlink : u.link (some i) = some j) (hik : i < k) (hkj : k < j)
    (hk : u.link (some k) = some l) : i < l ∧ l < j :=
  h.nested i (lt_size_of_link hlink) htext j (ref_lt u hlink) hlink k hkj hik l (ref_lt u hk) hk

/-- Behind a pair of brackets all is closed that was closed in front of it. -/
theorem complete_pair {p t m : Nat} (hc : u.Complete p t)
    (htext : u.text (some t) ∈ openers) (hlink : u.link (some t) = some m) :
    u.Complete p (m + 1) := by
  obtain ⟨hlt, hclose, -⟩ := h.opener htext hlink
  intro k hpk hkm hk l hl
  rcases Nat.lt_trichotomy k t with hkt | rfl | hkt
  · have := hc k hpk hkt hk l hl
    omega
  · obtain rfl := Option.some.inj (hl.symm.trans hlink)
    omega
  · rcases Nat.lt_succ_iff_lt_or_eq.1 hkm with hkm | rfl
    · have := h.between htext hlink hkt hkm hl
      omega
    · exact absurd hk hclose

end HasNestedBrackets

/-- Behind a token that opens nothing all is closed that was closed in front of it. -/
theorem Complete.succ {p t : Nat} (hc : u.Complete p t) (htext : u.text (some t) ∉ openers) :
    u.Complete p (t + 1) := by
  intro k hpk hkt hk l hl
  rcases Nat.lt_succ_iff_lt_or_eq.1 hkt with hkt | rfl
  · have := hc k hpk hkt hk l hl
    omega
  · exact absurd hk htext

/-- Whether an element of the braces at `p` can begin at `f`. -/
structure BeginsElement (u : Program) (p f : Nat) : Prop where
  behind : p < f
  complete : u.Complete p f
  separated : f = p + 1 ∨ u.text (some (f - 1)) = ","

/-- Whether the value of an element of the braces at `p` can begin at `b`. -/
inductive ValueAt (u : Program) (p : Nat) : (b : Nat) → Prop
  | plain {b : Nat} (begins : u.BeginsElement p b) : ValueAt u p b
  | member {dot : Nat} (begins : u.BeginsElement p dot) (text : u.text (some dot) = ".")
    (eq : u.text (some (dot + 2)) = "=") : ValueAt u p (dot + 3)
  | index {opening close : Nat} (begins : u.BeginsElement p opening)
    (bracket : u.text (some opening) = "[") (link : u.link (some opening) = some close)
    (eq : u.text (some (close + 1)) = "=") : ValueAt u p (close + 2)

/-- The elements of braces that are found from a place in them where all is closed. -/
theorem elementsWithin_begin (h : u.HasNestedBrackets) {p q : Nat}
    (hbrace : u.text (some p) ∈ openers) (hlink : u.link (some p) = some q) {steps t : Nat}
    {current : Option (Nat × Nat)} {es : List (Nat × Nat)} (hpt : p < t) (htq : t ≤ q)
    (hcomplete : u.Complete p t)
    (hnone : current = none → t = p + 1 ∨ u.text (some (t - 1)) = ",")
    (hsome : ∀ e ∈ current, u.BeginsElement p e.1 ∧ e.1 ≤ e.2 ∧ e.2 < t)
    (hes : u.elementsWithin q steps (some t) current = .ok es) {e : Nat × Nat} (he : e ∈ es) :
    u.BeginsElement p e.1 ∧ e.1 ≤ e.2 ∧ e.2 < q := by
  have hq : q < u.size := ref_lt u hlink
  have hcurrent (hmem : e ∈ current.toList) : u.BeginsElement p e.1 ∧ e.1 ≤ e.2 ∧ e.2 < q := by
    obtain ⟨hbegins, hle, hlt⟩ := hsome e (by simpa using hmem)
    exact ⟨hbegins, hle, by omega⟩
  -- along the walk all is closed in front of `t`, and the element so far begins as it must
  induction steps generalizing t current es with
  | zero =>
    obtain rfl := Except.ok.inj hes
    exact hcurrent he
  | succ steps ih =>
    rw [elementsWithin] at hes
    split at hes
    · obtain rfl := Except.ok.inj hes
      exact hcurrent he
    · rename_i hne
      have hlt : t < q := by omega
      have hnext {m : Nat} (hm : m < q) : u.next (some m) = some (m + 1) := next_of_lt (by omega)
      split at hes
      · -- a comma completes the element, and the next one begins behind it
        rename_i hcomma
        cases hrest : u.elementsWithin q steps (u.next (some t)) none with
        | error f => simp [hrest] at hes
        | ok rest =>
          simp only [hrest] at hes
          obtain rfl := Except.ok.inj hes
          rcases List.mem_append.1 he with he | he
          · exact hcurrent he
          · rw [hnext hlt] at hrest
            have hplain : u.text (some t) ∉ openers := by
              rw [hcomma]
              decide
            exact ih (by omega) (by omega) (hcomplete.succ hplain)
              (fun _ => .inr (by simpa using hcomma)) (by simp) hrest he (by simp)
      · -- an item goes on with the element, or begins one
        have hfirst : ∀ f, (current.map Prod.fst).getD t = f → u.BeginsElement p f ∧ f ≤ t := by
          rintro f rfl
          cases hc : current with
          | none => exact ⟨⟨hpt, hcomplete, hnone hc⟩, Nat.le_refl _⟩
          | some e' =>
            obtain ⟨hbegins, hle, hlt⟩ := hsome e' (by simp [hc])
            exact ⟨hbegins, by simp only [Option.map_some, Option.getD_some]; omega⟩
        obtain ⟨hbegins, hle⟩ := hfirst _ rfl
        cases hclosing : u.closing t with
        | error f => simp [hclosing] at hes
        | ok m =>
          simp only [hclosing] at hes
          have hm : t ≤ m ∧ m < q ∧ u.Complete p (m + 1) := by
            unfold closing at hclosing
            split at hclosing
            · -- a pair of brackets inside the braces ends inside them
              rename_i hopener
              have hopener : u.text (some t) ∈ openers := by simpa using hopener
              unfold partner at hclosing
              split at hclosing
              · rename_i hmlink
                obtain rfl := Except.ok.inj hclosing
                obtain ⟨htm, -⟩ := h.opener hopener hmlink
                exact ⟨Nat.le_of_lt htm, (h.between hbrace hlink hpt hlt hmlink).2,
                  h.complete_pair hcomplete hopener hmlink⟩
              · cases hclosing
            · rename_i hplain
              obtain rfl := Except.ok.inj hclosing
              exact ⟨Nat.le_refl _, hlt, hcomplete.succ (by simpa using hplain)⟩
          obtain ⟨htm, hmq, hcomplete'⟩ := hm
          rw [hnext hmq] at hes
          refine ih (by omega) (by omega) hcomplete' (by simp) ?_ hes he ?_
          · rintro e' he'
            obtain rfl := Option.some.inj he'
            exact ⟨hbegins, by dsimp only; omega, by dsimp only; omega⟩
          · intro hmem
            obtain rfl : e = ((current.map Prod.fst).getD t, m) := by simpa using hmem
            exact ⟨hbegins, by dsimp only; omega, hmq⟩

/-- Each element of braces begins behind the opening brace or behind a comma, outside all inner
    brackets, and ends in front of the closing brace. -/
theorem elements_begin (h : u.HasNestedBrackets) {p q : Nat} (hbrace : u.text (some p) ∈ openers)
    (hlink : u.link (some p) = some q) {es : List (Nat × Nat)} (hes : u.elements p = .ok es)
    {e : Nat × Nat} (he : e ∈ es) : u.BeginsElement p e.1 ∧ e.1 ≤ e.2 ∧ e.2 < q := by
  have hq : q < u.size := ref_lt u hlink
  obtain ⟨hlt, -⟩ := h.opener hbrace hlink
  rw [elements, partner, hlink] at hes
  dsimp only at hes
  rw [next_of_lt (show p + 1 < u.size by omega)] at hes
  exact elementsWithin_begin h hbrace hlink (by omega) (by omega) (fun k hpk hkp => by omega)
    (fun _ => .inl rfl) (by simp) hes he

/-- The value of each element of braces that is in braces begins as a value can begin. -/
theorem head_valueAt (h : u.HasNestedBrackets) {p q : Nat} (hbrace : u.text (some p) ∈ openers)
    (hlink : u.link (some p) = some q) (hclose : u.text (some q) = "\x7d")
    {es : List (Nat × Nat)} (hes : u.elements p = .ok es) {e : Nat × Nat} (he : e ∈ es) {b : Nat}
    (hvalue : (u.head e).value = some b) (hb : u.text (some b) = "\x7b") :
    u.ValueAt p b ∧ p < b ∧ b < q := by
  obtain ⟨first, last⟩ := e
  obtain ⟨hbegins, hle, hlt⟩ := elements_begin h hbrace hlink hes he
  dsimp only at hbegins hle hlt
  have hpf := hbegins.behind
  have hne {k : Nat} (heq : u.text (some k) = "=") : q ≠ k := by
    rintro rfl
    simp [hclose] at heq
  have hbq : q ≠ b := by
    rintro rfl
    simp [hclose] at hb
  rcases designated_cases hvalue with ⟨rfl, -⟩ | ⟨hlast, hdot, heq, rfl⟩ |
    ⟨m, hbracket, hm, heq, rfl⟩
  · exact ⟨.plain hbegins, hpf, by omega⟩
  · have := hne heq
    exact ⟨.member hbegins hdot heq, by omega, by omega⟩
  · have hmq := h.between hbrace hlink hpf (by omega) hm
    have hfm := (h.dimension hbracket hm).1
    have := hne heq
    exact ⟨.index hbegins hbracket hm heq, by omega, by omega⟩

/-- A bracket that encloses the value of an element stands in the place of a member's name, or in
    front of the braces of the element. -/
theorem ValueAt.text_of_encloses (h : u.HasNestedBrackets) {p b k l : Nat} (hv : u.ValueAt p b)
    (hpk : p < k) (hkb : k < b) (htext : u.text (some k) ∈ openers)
    (hlink : u.link (some k) = some l) (hbl : b < l) : u.text (some (k - 1)) = "." := by
  cases hv with
  | plain hbegins =>
    have := hbegins.complete k hpk hkb htext l hlink
    omega
  | @member dot hbegins hdot heq =>
    rcases Nat.lt_trichotomy k dot with hk | rfl | hk
    · have := hbegins.complete k hpk hk htext l hlink
      omega
    · rw [hdot] at htext
      exact absurd htext (by decide)
    · rcases (by omega : k = dot + 1 ∨ k = dot + 2) with rfl | rfl
      · simpa using hdot
      · rw [heq] at htext
        exact absurd htext (by decide)
  | @index opening close hbegins hbracket hclose heq =>
    have hlt := (h.dimension hbracket hclose).1
    rcases Nat.lt_trichotomy k opening with hk | rfl | hk
    · have := hbegins.complete k hpk hk htext l hlink
      omega
    · obtain rfl := Option.some.inj (hclose.symm.trans hlink)
      omega
    · have hopener := mem_openers_of_bracket hbracket
      rcases Nat.lt_trichotomy k close with hk' | rfl | hk'
      · have := h.between hopener hclose hk hk' hlink
        omega
      · exact absurd htext (h.opener hopener hclose).2.1
      · obtain rfl : k = close + 1 := by omega
        rw [heq] at htext
        exact absurd htext (by decide)

/-! ### Nested braces -/

/-- Whether the braces at `b` are reached from those at `o` by going into the values of elements. -/
inductive Nests (u : Program) (o : Nat) : Nat → Prop
  | refl : Nests u o o
  | step {b b' : Nat} {es : List (Nat × Nat)} {e : Nat × Nat} (outer : Nests u o b)
    (elements : u.elements b = .ok es) (element : e ∈ es) (value : (u.head e).value = some b')
    (brace : u.text (some b') = "\x7b") : Nests u o b'

/-- The partner of a brace. -/
theorem HasNestedBrackets.brace (h : u.HasNestedBrackets) {o : Nat}
    (htext : u.text (some o) = "\x7b") :
    ∃ c, u.link (some o) = some c ∧ o < c ∧ u.text (some c) = "\x7d" := by
  obtain ⟨c, -, hlt, hclose, hlink, -⟩ := h.opening ("\x7b", "\x7d") (by decide) o
    (lt_size_of_text (by simp [htext])) htext
  exact ⟨c, hlink, hlt, hclose⟩

/-- Nested braces are braces, and stand between the outer ones. -/
theorem Nests.between (h : u.HasNestedBrackets) {o c b : Nat} (hb : u.Nests o b)
    (htext : u.text (some o) = "\x7b") (hlink : u.link (some o) = some c) :
    u.text (some b) = "\x7b" ∧ o ≤ b ∧ b < c := by
  induction hb with
  | refl => exact ⟨htext, Nat.le_refl _, (h.opener (mem_openers_of_brace htext) hlink).1⟩
  | @step p b es e _ hes he hvalue hbrace ih =>
    obtain ⟨hp, hop, hpc⟩ := ih
    obtain ⟨q, hq, -, hclose⟩ := h.brace hp
    obtain ⟨-, hpb, hbq⟩ := head_valueAt h (mem_openers_of_brace hp) hq hclose hes he hvalue hbrace
    refine ⟨hbrace, by omega, ?_⟩
    -- the braces are in those at `p`, which are in the outer ones or are the outer ones
    rcases Nat.eq_or_lt_of_le hop with rfl | hop
    · obtain rfl := Option.some.inj (hq.symm.trans hlink)
      exact hbq
    · have := h.between (mem_openers_of_brace htext) hlink hop hpc hq
      omega

/-- Braces that do not stand in the place of a name are passed on the way to all braces in them. -/
theorem Nests.passes (h : u.HasNestedBrackets) {o' o c b : Nat} (hb : u.Nests o' b)
    (htext' : u.text (some o') = "\x7b") (htext : u.text (some o) = "\x7b")
    (hlink : u.link (some o) = some c) (hplace : u.text (some (o - 1)) ≠ ".") (hlt : o' < o)
    (hob : o ≤ b) (hbc : b < c) :
    ∃ p q, u.text (some p) = "\x7b" ∧ u.link (some p) = some q ∧ p < o ∧ o < q ∧
      u.ValueAt p o := by
  obtain ⟨c', hc', -⟩ := h.brace htext'
  induction hb with
  | refl => omega
  | @step p b es e hp hes he hvalue hbrace ih =>
    obtain ⟨hptext, -⟩ := hp.between h htext' hc'
    obtain ⟨q, hq, -, hclose⟩ := h.brace hptext
    obtain ⟨hvalueAt, hpb, hbq⟩ :=
      head_valueAt h (mem_openers_of_brace hptext) hq hclose hes he hvalue hbrace
    -- the way comes to `o` before `p` or goes on from in front of it
    by_cases hop : o ≤ p
    · exact ih hop (by omega)
    · rcases Nat.eq_or_lt_of_le hob with rfl | hob
      · exact ⟨p, q, hptext, hq, by omega, hbq, hvalueAt⟩
      · -- otherwise the braces would enclose the value of an element of `p`
        exact absurd (hvalueAt.text_of_encloses h (by omega) hob (mem_openers_of_brace htext) hlink
          hbc) hplace

/-! ### Initializers -/

/-- Every token among dimensions is one of theirs. -/
theorem Dimensions.exists_around (h : u.HasMatchedBrackets) {i j k : Nat} (hd : u.Dimensions i j)
    (hik : i ≤ k) (hkj : k < j) :
    ∃ x y, u.text (some x) = "[" ∧ u.link (some x) = some y ∧ x ≤ k ∧ k ≤ y ∧ y < j := by
  induction hd with
  | none => omega
  | @cons i close behind hbracket hlink hothers ih =>
    have hle := hothers.le h
    by_cases hk : k ≤ close
    · exact ⟨i, close, hbracket, hlink, hik, hk, by omega⟩
    · exact ih (by omega) hkj

/-- The initial value of a declarator stands behind an `=`. -/
theorem exists_eq_of_initializer {t o : Nat} (h : u.initializer (some t) = some o) :
    ∃ e, o = e + 1 ∧ u.text (some e) = "=" ∧ e + 1 < u.size := by
  unfold initializer at h
  dsimp only at h
  split at h
  · rename_i htext
    obtain ⟨e, he, heo, hlt⟩ := next_eq_some_iff.1 h
    exact ⟨e, heo, he ▸ htext, heo ▸ hlt⟩
  · split at h
    · split at h
      · rename_i hsplit
        obtain ⟨e, he, heo, hlt⟩ := next_eq_some_iff.1 h
        rw [he] at hsplit
        simp only [Bool.and_eq_true, decide_eq_true_eq, isSplitInitializer] at hsplit
        exact ⟨e, heo, hsplit.2.1, heo ▸ hlt⟩
      · cases h
    · cases h

/-! ### Names in place -/

section InPlace

variable (h : u.HasNestedBrackets) (hunnamed : u.HasUnnamedBrackets)

include h hunnamed

/-- The initial value of a declarator is no value of an element. -/
theorem not_valueAt_of_initializer (hplace : u.HasDeclaratorsInPlace) {i o : Nat}
    (hname : u.isDeclaratorName (some i) = true)
    (hinit : u.initializer (some i) = some o) {p q : Nat} (hp : u.text (some p) = "\x7b")
    (hq : u.link (some p) = some q) (hoq : o < q) : ¬ u.ValueAt p o := by
  obtain ⟨e, rfl, heq, hright⟩ := exists_eq_of_initializer hinit
  have hi := lt_size_of_isDeclaratorName hname
  have hkey := declKey_ne_zero_of_isDeclaratorName hname
  obtain ⟨hcomma, hbefore⟩ := hplace i hi hname
  have hdimension {x y : Nat} (hx : u.text (some x) = "[") (hy : u.link (some x) = some y)
      (hk : u.declKey (some y) = u.declKey (some i)) : False :=
    hkey (hk ▸ hunnamed.declKey_eq_zero h.toHasMatchedBrackets hx hy)
  have hforms := (initializer_eq_iff h.toHasMatchedBrackets heq hright).1 hinit
  intro hv
  generalize ho : e + 1 = o at hv
  cases hv with
  | plain hbegins =>
    -- in front of such a value stands the opening brace or a comma
    rcases hbegins.separated with hsep | hsep
    · obtain rfl : e = p := by omega
      simp [hp] at heq
    · rw [← ho, Nat.add_sub_cancel, heq] at hsep
      exact absurd hsep (by decide)
  | @member dot hbegins hdot _ =>
    obtain rfl : e = dot + 2 := by omega
    rcases hforms with hd | ⟨stop, -, hstop, hse, -⟩
    · rcases hd.eq_or_last with hlast | ⟨opening, close, -, hopening, hlink, hlast⟩
      · -- the name in a designator would be that of the declarator
        obtain rfl : i = dot + 1 := by omega
        rw [previous_of_lt hi, hdot] at hbefore
        exact hbefore (by decide)
      · obtain rfl : close = dot + 1 := by omega
        have hopener := mem_openers_of_bracket hopening
        have hlt := (h.opener hopener hlink).1
        have hpd := hbegins.behind
        rcases Nat.lt_trichotomy opening p with hop | rfl | hop
        · have := h.between hopener hlink hop (by omega) hq
          omega
        · simp [hp] at hopening
        · rcases Nat.lt_succ_iff_lt_or_eq.1 hlt with hod | rfl
          · have := hbegins.complete opening hop hod hopener _ hlink
            omega
          · simp [hdot] at hopening
    · obtain rfl : stop = dot := by omega
      simp [hdot] at hstop
  | @index opening close hbegins hbracket hclose _ =>
    obtain rfl : e = close + 1 := by omega
    rcases hforms with hd | ⟨stop, -, -, hse, -, hsame, -⟩
    · rcases hd.eq_or_last with hlast | ⟨opening', close', hfirst, hopening', hlink', hlast⟩
      · obtain rfl : i = close := by omega
        exact hdimension hbracket hclose rfl
      · -- the last dimension would be the designator
        obtain rfl : close' = close := by omega
        obtain ⟨-, -, hback⟩ := h.dimension hbracket hclose
        obtain ⟨-, -, hback'⟩ := h.dimension hopening' hlink'
        obtain rfl := Option.some.inj (hback.symm.trans hback')
        rcases hfirst.eq_or_last with hlast | ⟨x, y, -, hx, hy, hlast⟩
        · rcases hbegins.separated with hsep | hsep
          · obtain rfl : i = p := by omega
            exact hkey (hunnamed i hi (by simp [hp, brackets]))
          · rw [← hlast, Nat.add_sub_cancel] at hsep
            exact hcomma hsep
        · obtain ⟨-, hytext, -⟩ := h.dimension hx hy
          rcases hbegins.separated with hsep | hsep
          · obtain rfl : y = p := by omega
            simp [hp] at hytext
          · rw [hlast, Nat.add_sub_cancel, hytext] at hsep
            exact absurd hsep (by decide)
    · obtain rfl : close = stop + 1 := by omega
      exact hdimension hbracket hclose hsame

/-- Braces between a declarator's name and its initial value end in front of that value. -/
theorem lt_of_between_initializer {j o' : Nat} (hname : u.isDeclaratorName (some j) = true)
    (hinit : u.initializer (some j) = some o')
    {o c : Nat} (htext : u.text (some o) = "\x7b") (hlink : u.link (some o) = some c)
    (hjo : j < o) (hoo' : o < o') : c < o' := by
  obtain ⟨e, rfl, heq, hright⟩ := exists_eq_of_initializer hinit
  -- a brace among the dimensions is inside one of them
  have hdimensions {s : Nat} (hd : u.Dimensions (j + 1) s) (hos : o < s) : c < s := by
    obtain ⟨x, y, hx, hy, hxo, hoy, hys⟩ := hd.exists_around h.toHasMatchedBrackets hjo hos
    obtain ⟨-, hytext, -⟩ := h.dimension hx hy
    have hxne : x ≠ o := by
      rintro rfl
      simp [hx] at htext
    have hyne : o ≠ y := by
      rintro rfl
      simp [hytext] at htext
    have := h.between (mem_openers_of_bracket hx) hy (by omega) (by omega) hlink
    omega
  have hne {k : Nat} {s : String} (hs : u.text (some k) = s) (hbrace : s ≠ "\x7b") : o ≠ k := by
    rintro rfl
    exact hbrace (hs.symm.trans htext)
  have := hne heq (by decide)
  rcases (initializer_eq_iff h.toHasMatchedBrackets heq hright).1 hinit with
    hd | ⟨stop, hd, hstop, rfl, -, hkey, -⟩
  · have := hdimensions hd (by omega)
    omega
  · have := hne hstop (by decide)
    have hnamed : o ≠ stop + 1 := by
      rintro rfl
      have hzero := hunnamed (stop + 1) (by omega) (by simp [htext, brackets])
      exact declKey_ne_zero_of_isDeclaratorName hname (hkey ▸ hzero)
    have := hdimensions hd (by omega)
    omega

/-- The initializers of two variables share no braces: none that stand in the later one are nested
    in the one before it. -/
theorem not_nests_of_declared (hplace : u.HasDeclaratorsInPlace) {i j o o' c : Nat}
    (hji : j < i) (hj : u.isDeclaratorName (some j) = true)
    (hi : u.isDeclaratorName (some i) = true) (hinitj : u.initializer (some j) = some o')
    (hiniti : u.initializer (some i) = some o) (htext' : u.text (some o') = "\x7b")
    (htext : u.text (some o) = "\x7b") (hlink : u.link (some o) = some c) {b : Nat} (hob : o ≤ b)
    (hbc : b < c) : ¬ u.Nests o' b := by
  intro hb
  obtain ⟨c', hc', -⟩ := h.brace htext'
  obtain ⟨-, ho'b, -⟩ := hb.between h htext' hc'
  rcases Nat.lt_trichotomy o' o with hlt | rfl | hlt
  · -- on the way to inner braces the initial value would be the value of an element
    obtain ⟨e, rfl, heq, -⟩ := exists_eq_of_initializer hiniti
    obtain ⟨p, q, hp, hq, -, hoq, hv⟩ :=
      hb.passes h htext' htext hlink (by simp [heq]) hlt hob hbc
    exact not_valueAt_of_initializer h hunnamed hplace hi hiniti hp hq hoq hv
  · -- both would begin behind one `=`
    obtain ⟨e, rfl, heq, hright⟩ := exists_eq_of_initializer hiniti
    have hstart {k stop : Nat} (hk : u.isDeclaratorName (some k) = true) (hks : k = stop + 1) :
        u.text (some stop) ≠ ";" := by
      rintro hstop
      subst hks
      have hlt := lt_size_of_isDeclaratorName hk
      have hbefore := (hplace _ hlt hk).2
      rw [previous_of_lt hlt, hstop] at hbefore
      exact hbefore (by decide)
    have := eq_of_initializer h.toHasMatchedBrackets heq hright hunnamed
      (declKey_ne_zero_of_isDeclaratorName hj) (declKey_ne_zero_of_isDeclaratorName hi)
      (fun _ => hstart hj) (fun _ => hstart hi) hinitj hiniti
    omega
  · -- the later initializer would end in front of the other one
    have hio : i < o := by
      obtain ⟨e, rfl, heq, hright⟩ := exists_eq_of_initializer hiniti
      rcases (initializer_eq_iff h.toHasMatchedBrackets heq hright).1 hiniti with
        hd | ⟨stop, hd, -, rfl, -⟩
      · have := hd.le h.toHasMatchedBrackets
        omega
      · have := hd.le h.toHasMatchedBrackets
        omega
    have := lt_of_between_initializer h hunnamed hj hinitj htext hlink (by omega) hlt
    omega

end InPlace

end Indirection.Program
