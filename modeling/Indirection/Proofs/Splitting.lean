import Indirection.Proofs.Initializing
import Mathlib.Algebra.Ring.Int.Defs
import Mathlib.Data.Nat.Find

/-!
# Elements by the depth of brackets

The elements of braces are found by going from opening brackets to their partners; here they are
found by counting brackets. Main definitions:

* `Program.Balanced`, `Program.IsPair` — a stretch of tokens holds whole pairs of brackets, by their
  spellings alone; two brackets are such a pair;
* `Program.LinksPairs` — an opening bracket that has a partner has the one that it pairs with;
* `Program.depth` — the brackets that are open in front of a token and were opened behind another;
* `Program.Separates`, `Program.segments` — a comma outside all inner brackets; what stands between
  such commas;
* `Program.IsUnlinked` — braces, or an opening bracket outside all inner brackets, have no partner.

Main statements: `Balanced.depth_eq` and `IsPair.depth_lt` — a pair stands deeper inside than
outside; `elementsWithin_of_balanced` — the walk over partners finds what counting finds;
`elements_segments` — the elements of braces are their segments, unless a bracket is not linked.
-/

namespace Indirection.Program

variable {u : Program} {b c e i j k o : Nat}

/-! ### Pairs of brackets -/

/-- An opener is a bracket. -/
theorem mem_brackets_of_opener {s : String} (h : s ∈ openers) : s ∈ brackets := by
  have hopeners : ∀ s ∈ openers, s ∈ brackets := by decide
  exact hopeners s h

/-- Whether the tokens from `first` up to `stop` hold only whole pairs of brackets, each of them
    closed by a bracket of its kind. -/
inductive Balanced (u : Program) : (first stop : Nat) → Prop
  | nil {i : Nat} : Balanced u i i
  | plain {i j : Nat} (plain : u.text (some i) ∉ brackets) (rest : Balanced u (i + 1) j) :
    Balanced u i j
  | pair {p : String × String} {i c j : Nat} (kind : p ∈ bracketPairs)
    (opening : u.text (some i) = p.1) (inner : Balanced u (i + 1) c)
    (closing : u.text (some c) = p.2) (rest : Balanced u (c + 1) j) : Balanced u i j

/-- Whether `j` closes the bracket that `i` opens. -/
def IsPair (u : Program) (i j : Nat) : Prop :=
  ∃ p ∈ bracketPairs, u.text (some i) = p.1 ∧ u.text (some j) = p.2 ∧ u.Balanced (i + 1) j

/-- Whether opening brackets that have a partner pair with it. -/
def LinksPairs (u : Program) : Prop :=
  ∀ i j, u.text (some i) ∈ openers → u.link (some i) = some j → u.IsPair i j

/-- What a token adds to the number of open brackets. -/
def turn (u : Program) (i : Nat) : Int :=
  if u.text (some i) ∈ openers then 1 else if u.text (some i) ∈ brackets then -1 else 0

/-- How many brackets are open in front of token `i` that were opened behind token `o`. -/
def depth (u : Program) (o i : Nat) : Int :=
  ((List.range' (o + 1) (i - (o + 1))).map u.turn).sum

@[simp] theorem depth_start (u : Program) (o : Nat) : u.depth o (o + 1) = 0 := by
  simp [depth]

/-- A token changes the depth by its own turn. -/
theorem depth_succ (h : o < i) : u.depth o (i + 1) = u.depth o i + u.turn i := by
  have hlength : i + 1 - (o + 1) = (i - (o + 1)) + 1 := by omega
  have hlast : o + 1 + (i - (o + 1)) = i := by omega
  rw [depth, hlength, List.range'_1_concat, hlast, List.map_append, List.sum_append]
  simp [depth]

/-- What is no bracket leaves the depth as it is. -/
theorem turn_plain (h : u.text (some i) ∉ brackets) : u.turn i = 0 := by
  rw [turn, if_neg fun hopener => h (mem_brackets_of_opener hopener), if_neg h]

/-- An opening bracket goes in by one. -/
theorem turn_opening {p : String × String} (hp : p ∈ bracketPairs) (h : u.text (some i) = p.1) :
    u.turn i = 1 := by
  rw [turn, if_pos (h ▸ opener_of_pair hp)]

/-- A closing bracket goes out by one. -/
theorem turn_closing {p : String × String} (hp : p ∈ bracketPairs) (h : u.text (some i) = p.2) :
    u.turn i = -1 := by
  rw [turn, if_neg (h ▸ (closer_of_pair hp).1), if_pos (h ▸ (closer_of_pair hp).2)]

/-- A balanced stretch ends no earlier than it begins. -/
theorem Balanced.le (h : u.Balanced i j) : i ≤ j := by
  induction h with
  | nil => exact Nat.le_refl _
  | plain _ _ ih => omega
  | pair _ _ _ _ _ ih ih' => omega

/-- Whole pairs leave the depth as it is, and it is not less among them. -/
theorem Balanced.depth_eq (h : u.Balanced i j) (ho : o < i) :
    u.depth o j = u.depth o i ∧ ∀ k, i ≤ k → k < j → u.depth o i ≤ u.depth o k := by
  induction h with
  | nil => exact ⟨rfl, fun k hik hki => absurd hki (by omega)⟩
  | @plain i j hplain _ ih =>
    have hnext := depth_succ (u := u) ho
    rw [turn_plain hplain] at hnext
    obtain ⟨hend, hamong⟩ := ih (by omega)
    refine ⟨by omega, fun k hik hkj => ?_⟩
    rcases Nat.eq_or_lt_of_le hik with rfl | hik
    · exact Int.le_refl _
    · have := hamong k hik hkj
      omega
  | @pair p i c j hp hopening hinner hclosing _ ih ih' =>
    have hle := hinner.le
    have hnext := depth_succ (u := u) ho
    have hbehind := depth_succ (u := u) (show o < c by omega)
    rw [turn_opening hp hopening] at hnext
    rw [turn_closing hp hclosing] at hbehind
    -- one bracket more is open inside the pair, and as many as before behind it
    obtain ⟨hend, hamong⟩ := ih (by omega)
    obtain ⟨hend', hamong'⟩ := ih' (by omega)
    refine ⟨by omega, fun k hik hkj => ?_⟩
    rcases Nat.eq_or_lt_of_le hik with rfl | hik
    · exact Int.le_refl _
    · rcases Nat.lt_trichotomy k c with hkc | rfl | hck
      · have := hamong k hik hkc
        omega
      · omega
      · have := hamong' k hck hkj
        omega

namespace IsPair

/-- What stands between a pair is balanced. -/
theorem balanced (h : u.IsPair i j) : u.Balanced (i + 1) j := by
  obtain ⟨-, -, -, -, hinner⟩ := h
  exact hinner

/-- A pair closes behind where it opens. -/
theorem lt (h : u.IsPair i j) : i < j := h.balanced.le

/-- A pair begins with an opener. -/
theorem opener (h : u.IsPair i j) : u.text (some i) ∈ openers := by
  obtain ⟨p, hp, hopening, -⟩ := h
  exact hopening ▸ opener_of_pair hp

/-- Between the brackets of a pair, and in front of the closing one, one bracket more is open. -/
theorem depth_lt (h : u.IsPair i j) (ho : o < i) (hik : i < k) (hkj : k ≤ j) :
    u.depth o i < u.depth o k := by
  obtain ⟨p, hp, hopening, -, hinner⟩ := h
  have hnext := depth_succ (u := u) ho
  rw [turn_opening hp hopening] at hnext
  obtain ⟨hend, hamong⟩ := hinner.depth_eq (o := o) (by omega)
  rcases Nat.eq_or_lt_of_le hkj with rfl | hkj
  · omega
  · have := hamong k hik hkj
    omega

/-- A bracket is closed once. -/
theorem unique (h : u.IsPair i j) (h' : u.IsPair i k) : j = k := by
  have closed {j k : Nat} (h : u.IsPair i j) (h' : u.IsPair i k) : ¬ j < k := by
    intro hlt
    have hij := h.lt
    obtain ⟨p, hp, -, hclosing, hinner⟩ := h
    obtain ⟨-, -, -, -, hinner'⟩ := h'
    have hbehind := depth_succ (u := u) hij
    rw [turn_closing hp hclosing, (hinner.depth_eq (Nat.lt_succ_self i)).1, depth_start] at hbehind
    -- behind the first closing bracket the depth is negative, but not before the second one
    obtain ⟨hend, hamong⟩ := hinner'.depth_eq (Nat.lt_succ_self i)
    rw [depth_start] at hend hamong
    by_cases hk : k = j + 1
    · subst hk
      omega
    · have := hamong (j + 1) (by omega) (by omega)
      omega
  have := closed h h'
  have := closed h' h
  omega

end IsPair

/-- A bracket that is opened among whole pairs is closed among them. -/
theorem Balanced.exists_pair (h : u.Balanced i j) (hik : i ≤ k) (hkj : k < j)
    (hopener : u.text (some k) ∈ openers) : ∃ c, c < j ∧ u.IsPair k c := by
  induction h with
  | nil => omega
  | @plain i j hplain _ ih =>
    rcases Nat.eq_or_lt_of_le hik with rfl | hik
    · exact absurd (mem_brackets_of_opener hopener) hplain
    · exact ih hik hkj
  | @pair p i c j hp hopening hinner hclosing hrest ih ih' =>
    have hle := hrest.le
    rcases Nat.eq_or_lt_of_le hik with rfl | hik
    · exact ⟨c, hle, p, hp, hopening, hclosing, hinner⟩
    · rcases Nat.lt_trichotomy k c with hkc | rfl | hck
      · obtain ⟨c', hlt, hpair⟩ := ih hik hkc
        exact ⟨c', by omega, hpair⟩
      · exact absurd (hclosing ▸ hopener) (closer_of_pair hp).1
      · exact ih' hck hkj

/-- A pair that is opened among whole pairs is closed among them. -/
theorem Balanced.pair_lt (h : u.Balanced i j) (hik : i ≤ k) (hkj : k < j) (hpair : u.IsPair k c) :
    c < j := by
  obtain ⟨c', hlt, hpair'⟩ := h.exists_pair hik hkj hpair.opener
  exact hpair.unique hpair' ▸ hlt

/-! ### Gaps -/

/-- The first and the last token between two others, if there is any. -/
def gap (i j : Nat) : Option (Nat × Nat) := if i + 1 < j then some (i + 1, j - 1) else none

/-- The gaps between `i` and the first of some tokens, and between each of them and the next. -/
def gaps : (i : Nat) → List Nat → List (Nat × Nat)
  | _, [] => []
  | i, j :: rest => (gap i j).toList ++ gaps j rest

/-- There is nothing between a token and the next one. -/
theorem gap_succ (i : Nat) : gap i (i + 1) = none := if_neg (Nat.lt_irrefl _)

/-- A gap goes on to a token behind it, and begins with the next token if it was empty. -/
theorem gap_extend (hbi : b < i) (hij : i ≤ j) :
    some (((gap b i).map Prod.fst).getD i, j) = gap b (j + 1) := by
  rw [gap, gap, if_pos (by omega : b + 1 < j + 1)]
  split
  · rfl
  · obtain rfl : i = b + 1 := by omega
    rfl

/-- Between two tokens stands what is behind the first and in front of the second. -/
theorem mem_gap {x : Nat × Nat} : x ∈ (gap i j).toList ↔ i + 1 < j ∧ x = (i + 1, j - 1) := by
  rw [gap]
  split <;> simp [*]

/-- Between tokens in order a gap is a stretch without any of them that cannot be longer. -/
theorem mem_gaps {xs : List Nat} {x : Nat × Nat} (hxs : (i :: xs).Pairwise (· < ·))
    (hx : x ∈ gaps i xs) :
    i < x.1 ∧ x.1 ≤ x.2 ∧ x.1 - 1 ∈ i :: xs ∧ x.2 + 1 ∈ xs ∧ ∀ k ∈ xs, x.1 ≤ k → x.2 < k := by
  induction xs generalizing i with
  | nil => cases hx
  | cons j rest ih =>
    obtain ⟨hi, hrest⟩ := List.pairwise_cons.1 hxs
    have hij := hi j List.mem_cons_self
    rcases List.mem_append.1 hx with hx | hx
    · obtain ⟨hlt, rfl⟩ := mem_gap.1 hx
      have hend : j - 1 + 1 = j := by omega
      refine ⟨Nat.lt_succ_self i, Nat.le_sub_one_of_lt hlt, by simp, by simp [hend],
        fun k hk _ => ?_⟩
      show j - 1 < k
      rcases List.mem_cons.1 hk with rfl | hk
      · omega
      · have := (List.pairwise_cons.1 hrest).1 k hk
        omega
    · obtain ⟨hlt, hle, hbefore, hbehind, hnone⟩ := ih hrest hx
      refine ⟨by omega, hle, List.mem_cons_of_mem _ hbefore, List.mem_cons_of_mem _ hbehind,
        fun k hk hxk => ?_⟩
      rcases List.mem_cons.1 hk with rfl | hk
      · omega
      · exact hnone k hk hxk

/-- Each token in front of the last of some tokens is one of them or in a gap. -/
theorem exists_gap {xs : List Nat} (hik : i < k) (hk : k ∉ xs) (hlast : ∃ j ∈ xs, k < j) :
    ∃ x ∈ gaps i xs, x.1 ≤ k ∧ k ≤ x.2 := by
  induction xs generalizing i with
  | nil => simp at hlast
  | cons j rest ih =>
    rw [List.mem_cons, not_or] at hk
    rcases Nat.lt_or_gt_of_ne hk.1 with hkj | hjk
    · exact ⟨(i + 1, j - 1), List.mem_append_left _ (mem_gap.2 ⟨by omega, rfl⟩), hik,
        Nat.le_sub_one_of_lt hkj⟩
    · obtain ⟨l, hl, hkl⟩ := hlast
      rcases List.mem_cons.1 hl with rfl | hl
      · omega
      · obtain ⟨x, hx, hk⟩ := ih hjk hk.2 ⟨l, hl, hkl⟩
        exact ⟨x, List.mem_append_right _ hx, hk⟩

/-- Gaps between rising places are in order and do not meet. -/
theorem gaps_pairwise {xs : List Nat} (hxs : (i :: xs).Pairwise (· < ·)) :
    (gaps i xs).Pairwise fun x y => x.2 < y.1 := by
  induction xs generalizing i with
  | nil => exact .nil
  | cons j rest ih =>
    have hrest := (List.pairwise_cons.1 hxs).2
    refine List.pairwise_append.2 ⟨?_, ih hrest, fun x hx y hy => ?_⟩
    · rw [gap]
      split <;> simp
    · obtain ⟨hlt, rfl⟩ := mem_gap.1 hx
      have := (mem_gaps hrest hy).1
      show j - 1 < y.1
      omega

/-! ### Elements -/

/-- Whether a comma behind `o` stands outside all brackets that are opened behind `o`. -/
def Separates (u : Program) (o i : Nat) : Prop := u.text (some i) = "," ∧ u.depth o i = 0

/-- Whether token `i` opens a bracket behind `o`, outside all others, and has no partner. -/
def StandsOpen (u : Program) (o i : Nat) : Prop :=
  u.text (some i) ∈ openers ∧ u.depth o i = 0 ∧ u.link (some i) = none

instance (o i : Nat) : Decidable (u.Separates o i) := inferInstanceAs (Decidable (_ ∧ _))

instance (o i : Nat) : Decidable (u.StandsOpen o i) := inferInstanceAs (Decidable (_ ∧ _ ∧ _))

/-- The tokens from `i` up to `j`. -/
def upTo (i j : Nat) : List Nat := List.range' i (j - i)

/-- The places of a stretch are those from its start to in front of its end. -/
theorem mem_upTo : k ∈ upTo i j ↔ i ≤ k ∧ k < j := by
  simp only [upTo, List.mem_range'_1]
  omega

/-- A stretch that is not empty begins with its start. -/
theorem upTo_cons (hij : i < j) : upTo i j = i :: upTo (i + 1) j := by
  have hlength : j - i = j - (i + 1) + 1 := by omega
  rw [upTo, hlength, List.range'_succ]
  rfl

/-- Two stretches that meet are one. -/
theorem upTo_append (hij : i ≤ j) (hjk : j ≤ k) : upTo i k = upTo i j ++ upTo j k := by
  have hlength : k - i = (j - i) + (k - j) := by omega
  have hbegin : i + (j - i) = j := by omega
  rw [upTo, hlength, ← List.range'_append_1, hbegin]
  rfl

/-- The commas from `i` up to `j` that separate elements of the braces at `o`. -/
def separators (u : Program) (o i j : Nat) : List Nat := (upTo i j).filter (u.Separates o ·)

/-- The elements of the braces from `o` to `c`: what stands between two consecutive ones of the
    opening brace, the commas that separate, and the closing brace, if anything does. -/
def segments (u : Program) (o c : Nat) : List (Nat × Nat) :=
  gaps o (u.separators o (o + 1) c ++ [c])

/-- The first one of the brackets from `i` up to `j` that stand open in the braces at `o`. -/
def standsOpen? (u : Program) (o i j : Nat) : Option Nat := (upTo i j).find? (u.StandsOpen o ·)

/-- What is picked from a stretch is picked behind its first part, if none of this is. -/
theorem filter_upTo_skip {p : Nat → Bool} (hij : i ≤ j) (hjk : j ≤ k)
    (h : ∀ l, i ≤ l → l < j → p l = false) : (upTo i k).filter p = (upTo j k).filter p := by
  rw [upTo_append hij hjk, List.filter_append, List.filter_eq_nil_iff.2, List.nil_append]
  intro l hl
  obtain ⟨hil, hlj⟩ := mem_upTo.1 hl
  simp [h l hil hlj]

/-- What the walk over the braces from `o` to `c` gives that is at token `i`, when the element that
    has begun is all that stands between `b` and `i`. -/
def elementsFrom (u : Program) (o c b i : Nat) : Except Fault (List (Nat × Nat)) :=
  match u.standsOpen? o i c with
  | some k => .error (.of (.unmatched (u.text (some k))) (u.position (some k)))
  | none => .ok (gaps b (u.separators o i c ++ [c]))

/-- The walk gives the same behind tokens that separate nothing and do not stand open. -/
theorem elementsFrom_skip (hij : i ≤ j) (hjc : j ≤ c)
    (hsep : ∀ l, i ≤ l → l < j → ¬ u.Separates o l)
    (hopen : ∀ l, i ≤ l → l < j → ¬ u.StandsOpen o l) :
    u.elementsFrom o c b i = u.elementsFrom o c b j := by
  simp only [elementsFrom, standsOpen?, separators, ← List.head?_filter]
  rw [filter_upTo_skip hij hjc fun l hil hlj => by simpa using hopen l hil hlj,
    filter_upTo_skip hij hjc fun l hil hlj => by simpa using hsep l hil hlj]

/-- At the end of the braces, what is left is the last element, if there is one. -/
theorem elementsFrom_self (u : Program) (o b c : Nat) :
    u.elementsFrom o c b c = .ok (gap b c).toList := by
  simp [elementsFrom, standsOpen?, separators, upTo, gaps]

/-- A comma that separates completes the element in front of it. -/
theorem elementsFrom_separates (hic : i < c) (hsep : u.Separates o i) :
    u.elementsFrom o c b i = (u.elementsFrom o c i (i + 1)).map ((gap b i).toList ++ ·) := by
  have hplain : ¬ u.StandsOpen o i := by
    rintro ⟨hopener, -⟩
    rw [hsep.1] at hopener
    exact absurd hopener (by decide)
  have hopen : u.standsOpen? o i c = u.standsOpen? o (i + 1) c := by
    rw [standsOpen?, upTo_cons hic, List.find?_cons_of_neg (by simpa using hplain)]
    rfl
  have hseps : u.separators o i c = i :: u.separators o (i + 1) c := by
    rw [separators, upTo_cons hic, List.filter_cons_of_pos (by simpa using hsep)]
    rfl
  rw [elementsFrom, elementsFrom, hopen, hseps]
  cases u.standsOpen? o (i + 1) c <;> rfl

/-- An opening bracket that stands open is refused. -/
theorem elementsFrom_standsOpen (hic : i < c) (hopen : u.StandsOpen o i) :
    u.elementsFrom o c b i =
      .error (.of (.unmatched (u.text (some i))) (u.position (some i))) := by
  have hfirst : u.standsOpen? o i c = some i := by
    rw [standsOpen?, upTo_cons hic, List.find?_cons_of_pos (by simpa using hopen)]
  rw [elementsFrom, hfirst]

/-- **Going to partners is counting brackets.** From a token outside all inner brackets the walk
    gives the elements between the commas that separate, unless a bracket stands open. -/
theorem elementsWithin_of_balanced (h : u.Balanced i c) (hlinks : u.LinksPairs) (hc : c < u.size)
    (hdepth : u.depth o i = 0) (ho : o < i) (hbi : b < i) {steps : Nat} (hsteps : c - i ≤ steps) :
    u.elementsWithin c steps (some i) (gap b i) = u.elementsFrom o c b i := by
  induction h generalizing b steps with
  | @nil c =>
    rw [elementsFrom_self]
    cases steps with
    | zero => rfl
    | succ steps => rw [elementsWithin, if_pos rfl]
  | @plain i c hplain hrest ih =>
    have hle := hrest.le
    obtain ⟨steps, rfl⟩ : ∃ n, steps = n + 1 := ⟨steps - 1, by omega⟩
    have hnext : u.next (some i) = some (i + 1) := next_of_lt (by omega)
    have hopener : u.text (some i) ∉ openers := fun h => hplain (mem_brackets_of_opener h)
    have hdepth' : u.depth o (i + 1) = 0 := by rw [depth_succ ho, hdepth, turn_plain hplain]; rfl
    rw [elementsWithin, if_neg (by omega)]
    by_cases hcomma : u.text (some i) = ","
    · rw [if_pos hcomma, hnext, ← gap_succ i, ih hc hdepth' (by omega) (by omega) (by omega),
        elementsFrom_separates hle ⟨hcomma, hdepth⟩]
      cases u.elementsFrom o c i (i + 1) <;> rfl
    · have hclosing : u.closing i = .ok i := by simp [closing, hopener]
      rw [if_neg hcomma, hclosing]
      simp only [hnext]
      rw [gap_extend hbi (Nat.le_refl i), ih hc hdepth' (by omega) (by omega) (by omega)]
      refine (elementsFrom_skip (Nat.le_succ i) hle ?_ ?_).symm
      · intro l hil hli hsep
        obtain rfl : l = i := by omega
        exact hcomma hsep.1
      · intro l hil hli hopen
        obtain rfl : l = i := by omega
        exact hopener hopen.1
  | @pair p i m c hp hopening hinner hclosing hrest _ ih =>
    have hpair : u.IsPair i m := ⟨p, hp, hopening, hclosing, hinner⟩
    have him := hpair.lt
    have hle := hrest.le
    obtain ⟨steps, rfl⟩ : ∃ n, steps = n + 1 := ⟨steps - 1, by omega⟩
    have hopener : u.text (some i) ∈ openers := hpair.opener
    have hcomma : u.text (some i) ≠ "," := fun heq => absurd (heq ▸ hopener) (by decide)
    rw [elementsWithin, if_neg (by omega), if_neg hcomma]
    cases hlink : u.link (some i) with
    | none =>
      have hclosing : u.closing i =
          .error (.of (.unmatched (u.text (some i))) (u.position (some i))) := by
        simp [closing, hopener, partner, hlink]
      rw [hclosing, elementsFrom_standsOpen (by omega) ⟨hopener, hdepth, hlink⟩]
    | some l =>
      obtain rfl : l = m := (hlinks i l hopener hlink).unique hpair
      have hclosing : u.closing i = .ok l := by simp [closing, hopener, partner, hlink]
      have hdepth' : u.depth o (l + 1) = 0 := by
        have hwhole : u.Balanced i (l + 1) := .pair hp hopening hinner ‹_› .nil
        rw [(hwhole.depth_eq ho).1, hdepth]
      rw [hclosing]
      simp only [next_of_lt (show l + 1 < u.size by omega)]
      rw [gap_extend hbi (Nat.le_of_lt him), ih hc hdepth' (by omega) (by omega) (by omega)]
      -- nothing inside the pair stands outside all inner brackets
      refine (elementsFrom_skip (by omega) hle ?_ ?_).symm
      · intro k hik hkl hsep
        rcases Nat.eq_or_lt_of_le hik with rfl | hik
        · exact hcomma hsep.1
        · have := hpair.depth_lt ho hik (by omega)
          have := hsep.2
          omega
      · intro k hik hkl hopen
        rcases Nat.eq_or_lt_of_le hik with rfl | hik
        · exact absurd (hlink.symm.trans hopen.2.2) (by simp)
        · have := hpair.depth_lt ho hik (by omega)
          have := hopen.2.1
          omega

/-! ### Braces -/

/-- Whether `i` is the opening bracket of the braces from `o` to `c`, or one that is opened in them
    outside all others, and has no partner. -/
def IsUnlinked (u : Program) (o c i : Nat) : Prop :=
  (i = o ∧ u.link (some o) = none) ∨ (o < i ∧ i < c ∧ u.StandsOpen o i)

instance (o c i : Nat) : Decidable (u.IsUnlinked o c i) :=
  inferInstanceAs (Decidable (_ ∧ _ ∨ _ ∧ _ ∧ _))

/-- The commas that separate, between the braces. -/
theorem mem_separators : k ∈ u.separators o (o + 1) c ↔ o < k ∧ k < c ∧ u.Separates o k := by
  simp only [separators, List.mem_filter, mem_upTo, decide_eq_true_eq, and_assoc]
  exact Iff.rfl

/-- The brace, the separators and its partner stand in order. -/
theorem separators_pairwise (hoc : o < c) :
    (o :: (u.separators o (o + 1) c ++ [c])).Pairwise (· < ·) := by
  have hinside {k : Nat} (hk : k ∈ u.separators o (o + 1) c) : o < k ∧ k < c :=
    ⟨(mem_separators.1 hk).1, (mem_separators.1 hk).2.1⟩
  refine List.pairwise_cons.2 ⟨fun k hk => ?_, List.pairwise_append.2 ⟨?_, by simp, ?_⟩⟩
  · rcases List.mem_append.1 hk with hk | hk
    · exact (hinside hk).1
    · rwa [List.mem_singleton.1 hk]
  · exact List.Pairwise.filter _ List.pairwise_lt_range'
  · intro k hk l hl
    rw [List.mem_singleton.1 hl]
    exact (hinside hk).2

/-- A segment stands between the braces, and as far as the next commas that separate. -/
theorem mem_segments (hoc : o < c) {e : Nat × Nat} (he : e ∈ u.segments o c) :
    o < e.1 ∧ e.1 ≤ e.2 ∧ e.2 < c ∧ (∀ k, e.1 ≤ k → k ≤ e.2 → ¬ u.Separates o k) ∧
      (e.1 = o + 1 ∨ u.Separates o (e.1 - 1)) ∧ (e.2 + 1 = c ∨ u.Separates o (e.2 + 1)) := by
  obtain ⟨hlt, hle, hbefore, hbehind, hnone⟩ := mem_gaps (separators_pairwise hoc) he
  have hend := hnone c (by simp)
  have hlast : e.2 + 1 ≤ c := by
    rcases List.mem_append.1 hbehind with hbehind | hbehind
    · exact Nat.le_of_lt (mem_separators.1 hbehind).2.1
    · exact Nat.le_of_eq (List.mem_singleton.1 hbehind)
  refine ⟨hlt, hle, hlast, fun k hek hke hsep => ?_, ?_, ?_⟩
  · have := hnone k (List.mem_append_left _ (mem_separators.2 ⟨by omega, by omega, hsep⟩)) hek
    omega
  · rcases List.mem_cons.1 hbefore with hbefore | hbefore
    · exact .inl (by omega)
    · rcases List.mem_append.1 hbefore with hbefore | hbefore
      · exact .inr (mem_separators.1 hbefore).2.2
      · have := List.mem_singleton.1 hbefore
        omega
  · rcases List.mem_append.1 hbehind with hbehind | hbehind
    · exact .inr (mem_separators.1 hbehind).2.2
    · exact .inl (List.mem_singleton.1 hbehind)

/-- What stands between braces and does not separate is in a segment, and nothing else is. -/
theorem exists_segment_iff (hoc : o < c) :
    (∃ e ∈ u.segments o c, e.1 ≤ k ∧ k ≤ e.2) ↔ o < k ∧ k < c ∧ ¬ u.Separates o k := by
  constructor
  · rintro ⟨e, he, hek, hke⟩
    obtain ⟨hlt, hle, hend, hplain, -⟩ := mem_segments hoc he
    exact ⟨by omega, by omega, hplain k hek hke⟩
  · rintro ⟨hok, hkc, hplain⟩
    refine exists_gap hok (fun hk => ?_) ⟨c, by simp, hkc⟩
    rcases List.mem_append.1 hk with hk | hk
    · exact hplain (mem_separators.1 hk).2.2
    · have := List.mem_singleton.1 hk
      omega

/-- A segment holds both brackets of a pair, or none. -/
theorem segment_whole (hbraces : u.IsPair o c) {e : Nat × Nat} (he : e ∈ u.segments o c)
    (hpair : u.IsPair i j) : (e.1 ≤ i ∧ i ≤ e.2) ↔ (e.1 ≤ j ∧ j ≤ e.2) := by
  have hoc := hbraces.lt
  have hij := hpair.lt
  obtain ⟨hfirst, hle, hlast, -, hbefore, hbehind⟩ := mem_segments hoc he
  have hinner : u.Balanced (o + 1) c := hbraces.balanced
  -- no comma that separates stands in a pair inside the braces
  have hinside {k : Nat} (hoi : o < i) (hic : i < c) (hik : i ≤ k) (hkj : k ≤ j) :
      ¬ u.Separates o k := by
    rintro ⟨hcomma, hdepth⟩
    rcases Nat.eq_or_lt_of_le hik with rfl | hik
    · have hopener := hpair.opener
      rw [hcomma] at hopener
      exact absurd hopener (by decide)
    · have := hpair.depth_lt hoi hik hkj
      have := (hinner.depth_eq (Nat.lt_succ_self o)).2 i hoi hic
      rw [depth_start] at this
      omega
  constructor
  · rintro ⟨hei, hie⟩
    refine ⟨by omega, Nat.le_of_not_lt fun hej => ?_⟩
    have hjc := hinner.pair_lt (show o + 1 ≤ i by omega) (by omega) hpair
    rcases hbehind with hbehind | hbehind
    · omega
    · exact hinside (by omega) (by omega) (by omega) hej hbehind
  · rintro ⟨hej, hje⟩
    have hoi : o < i := by
      rcases Nat.lt_trichotomy o i with hoi | rfl | hio
      · exact hoi
      · have := hpair.unique hbraces
        omega
      · have := hpair.balanced.pair_lt hio (by omega) hbraces
        omega
    refine ⟨Nat.le_of_not_lt fun hie => ?_, by omega⟩
    rcases hbefore with hbefore | hbefore
    · omega
    · exact hinside hoi (by omega) (by omega) (by omega) hbefore

/-- The walk over linked braces begins behind the opening one, with nothing. -/
theorem elements_of_link (hbraces : u.IsPair o c) (hlinks : u.LinksPairs)
    (hlink : u.link (some o) = some c) : u.elements o = u.elementsFrom o c o (o + 1) := by
  have hoc := hbraces.lt
  have hc : c < u.size := u.ref_lt hlink
  rw [elements, partner, hlink]
  simp only [next_of_lt (show o + 1 < u.size by omega)]
  rw [← gap_succ o]
  exact elementsWithin_of_balanced hbraces.balanced hlinks hc (depth_start u o)
    (Nat.lt_succ_self o) (Nat.lt_succ_self o) (by omega)

/-- The first bracket of braces that is not linked is refused. -/
theorem elements_of_isUnlinked (hbraces : u.IsPair o c) (hlinks : u.LinksPairs)
    (hk : u.IsUnlinked o c k) (hfirst : ∀ l, u.IsUnlinked o c l → k ≤ l) :
    u.elements o = .error (.of (.unmatched (u.text (some k))) (u.position (some k))) := by
  cases hlink : u.link (some o) with
  | none =>
    have hko := hfirst o (.inl ⟨rfl, hlink⟩)
    obtain rfl : k = o := by
      rcases hk with ⟨hk, -⟩ | ⟨hok, -⟩ <;> omega
    rw [elements, partner, hlink]
  | some l =>
    obtain ⟨hok, hkc, hopen⟩ : o < k ∧ k < c ∧ u.StandsOpen o k :=
      hk.resolve_left fun h => by simp [hlink] at h
    obtain rfl : l = c := (hlinks o l hbraces.opener hlink).unique hbraces
    have hfind : u.standsOpen? o (o + 1) l = some k := by
      refine List.find?_range'_eq_some.2 ⟨by simpa using hopen, by simp; omega, fun j hoj hjk => ?_⟩
      have : ¬ u.StandsOpen o j := fun hj => by
        have := hfirst j (.inr ⟨hoj, by omega, hj⟩)
        omega
      simpa using this
    rw [elements_of_link hbraces hlinks hlink, elementsFrom, hfind]

/-- Braces in which all brackets are linked have their segments as elements. -/
theorem elements_of_linked (hbraces : u.IsPair o c) (hlinks : u.LinksPairs)
    (hlinked : ∀ k, ¬ u.IsUnlinked o c k) : u.elements o = .ok (u.segments o c) := by
  cases hlink : u.link (some o) with
  | none => exact absurd (.inl ⟨rfl, hlink⟩) (hlinked o)
  | some l =>
    obtain rfl : l = c := (hlinks o l hbraces.opener hlink).unique hbraces
    have hfind : u.standsOpen? o (o + 1) l = none := by
      refine List.find?_eq_none.2 fun k hk => ?_
      obtain ⟨hok, hkl⟩ := mem_upTo.1 hk
      simpa using fun hopen => hlinked k (.inr ⟨hok, hkl, hopen⟩)
    rw [elements_of_link hbraces hlinks hlink, elementsFrom, hfind]
    rfl

/-- **The elements of braces are what stands between their commas.** Let the brackets of a program
    be nested, and the opening ones be linked to their partners, if they are. For braces:

    * if they, or a bracket that is opened in them outside all inner brackets, are not linked, the
      first one of these brackets is refused as a shape that is not expected;
    * otherwise their elements are the stretches between consecutive ones of the commas that stand
      outside all inner brackets, counted from the opening to the closing brace, in this order and
      without the empty ones;
    * these stretches stand one behind the other, hold both brackets of a pair or none, and hold all
      that is between the braces but these commas. -/
theorem elements_segments (h : u.Balanced 0 u.size) (hlinks : u.LinksPairs)
    (hbrace : u.text (some o) = "\x7b") :
    ∃ c, u.IsPair o c ∧
      ((∃ k, u.IsUnlinked o c k) →
        ∃ k d, u.IsUnlinked o c k ∧ (∀ l, u.IsUnlinked o c l → k ≤ l) ∧
          u.elements o = .error (.refused d) ∧ d.code = .unexpectedShape ∧
          d = (Cause.unmatched (u.text (some k))).diagnostic (u.position (some k))) ∧
      ((∀ k, ¬ u.IsUnlinked o c k) → u.elements o = .ok (u.segments o c)) ∧
      (u.segments o c).Pairwise (fun e f => e.2 < f.1) ∧
      (∀ e ∈ u.segments o c, e.1 ≤ e.2 ∧
        ∀ i j, u.IsPair i j → ((e.1 ≤ i ∧ i ≤ e.2) ↔ (e.1 ≤ j ∧ j ≤ e.2))) ∧
      ∀ k, (∃ e ∈ u.segments o c, e.1 ≤ k ∧ k ≤ e.2) ↔ o < k ∧ k < c ∧ ¬ u.Separates o k := by
  have hsize : o < u.size := lt_size_of_text (by simp [hbrace])
  have hopener : u.text (some o) ∈ openers := by simp [hbrace, openers]
  obtain ⟨c, -, hbraces⟩ := h.exists_pair (Nat.zero_le o) hsize hopener
  have hoc := hbraces.lt
  refine ⟨c, hbraces, fun hsome => ?_, elements_of_linked hbraces hlinks,
    gaps_pairwise (separators_pairwise hoc),
    fun e he => ⟨(mem_segments hoc he).2.1, fun i j => segment_whole hbraces he⟩,
    fun k => exists_segment_iff hoc⟩
  have hfirst (l : Nat) (hl : u.IsUnlinked o c l) : Nat.find hsome ≤ l := Nat.find_min' hsome hl
  exact ⟨Nat.find hsome, _, Nat.find_spec hsome, hfirst,
    elements_of_isUnlinked hbraces hlinks (Nat.find_spec hsome) hfirst, rfl, rfl⟩

/-- The tokens of the text `{ { 1, 2 }, , f(x, y), }`. -/
def callInBraces : Program where
  tokens := #[{ text := "\x7b", link := some 15 }, { text := "\x7b", link := some 5 },
    { text := "1", isNumber := true }, { text := "," }, { text := "2", isNumber := true },
    { text := "\x7d", link := some 1 }, { text := "," }, { text := "," },
    { text := "f", isName := true }, { text := "(", link := some 13 },
    { text := "x", isName := true }, { text := "," }, { text := "y", isName := true },
    { text := ")", link := some 9 }, { text := "," }, { text := "\x7d", link := some 0 }]

/-- The braces have two elements, the inner braces and the call: of the commas only those outside
    both separate, and between two of them and behind the last one there is nothing. -/
theorem elements_segments_callInBraces :
    callInBraces.Balanced 0 callInBraces.size ∧ callInBraces.LinksPairs ∧
      callInBraces.text (some 0) = "\x7b" ∧
      callInBraces.elements 0 = .ok [(1, 5), (8, 13)] ∧
      ∀ k, (∃ e ∈ [(1, 5), (8, 13)], e.1 ≤ k ∧ k ≤ e.2) ↔
        0 < k ∧ k < 15 ∧ ¬ callInBraces.Separates 0 k := by
  have hinner : callInBraces.Balanced 2 5 :=
    .plain (by decide) (.plain (by decide) (.plain (by decide) .nil))
  have harguments : callInBraces.Balanced 10 13 :=
    .plain (by decide) (.plain (by decide) (.plain (by decide) .nil))
  have houter : callInBraces.Balanced 1 15 :=
    .pair (p := ("\x7b", "\x7d")) (by decide) rfl hinner rfl
      (.plain (by decide) (.plain (by decide) (.plain (by decide)
        (.pair (p := ("(", ")")) (by decide) rfl harguments rfl (.plain (by decide) .nil)))))
  have hwhole : callInBraces.Balanced 0 callInBraces.size :=
    .pair (p := ("\x7b", "\x7d")) (by decide) rfl houter rfl .nil
  have hlinks : callInBraces.LinksPairs := by
    have hopeners : ∀ i < callInBraces.size, callInBraces.text (some i) ∈ openers →
        i ∈ [0, 1, 9] := by decide +kernel
    have hlinked : callInBraces.link (some 0) = some 15 ∧ callInBraces.link (some 1) = some 5 ∧
        callInBraces.link (some 9) = some 13 := by decide +kernel
    intro i j hopener hlink
    have hi := hopeners i (lt_size_of_link hlink) hopener
    simp only [List.mem_cons, List.not_mem_nil, or_false] at hi
    rcases hi with rfl | rfl | rfl
    · obtain rfl := Option.some.inj (hlinked.1.symm.trans hlink)
      exact ⟨("\x7b", "\x7d"), by decide, rfl, rfl, houter⟩
    · obtain rfl := Option.some.inj (hlinked.2.1.symm.trans hlink)
      exact ⟨("\x7b", "\x7d"), by decide, rfl, rfl, hinner⟩
    · obtain rfl := Option.some.inj (hlinked.2.2.symm.trans hlink)
      exact ⟨("(", ")"), by decide, rfl, rfl, harguments⟩
  have hbraces : callInBraces.IsPair 0 15 := ⟨("\x7b", "\x7d"), by decide, rfl, rfl, houter⟩
  have hlinked : ∀ k, ¬ callInBraces.IsUnlinked 0 15 k := by
    have hbetween : ∀ k < 15, ¬ callInBraces.IsUnlinked 0 15 k := by decide +kernel
    refine fun k hk => hbetween k ?_ hk
    rcases hk with ⟨rfl, -⟩ | ⟨-, hk, -⟩ <;> omega
  have hsegments : callInBraces.segments 0 15 = [(1, 5), (8, 13)] := by decide +kernel
  obtain ⟨c, hpair, -, helements, -, -, hcover⟩ := elements_segments (o := 0) hwhole hlinks rfl
  obtain rfl := hpair.unique hbraces
  rw [hsegments] at helements hcover
  exact ⟨hwhole, hlinks, rfl, helements hlinked, hcover⟩

/-- Without a link at the call's parenthesis, which stands outside the inner braces, the braces have
    no elements. -/
example : ({ callInBraces with tokens := callInBraces.tokens.modify 9 fun t =>
    { t with link := none } } : Program).elements 0 =
      .error (.of (.unmatched "(") {}) := by decide +kernel

end Indirection.Program
