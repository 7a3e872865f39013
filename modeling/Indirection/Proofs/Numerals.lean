import Indirection.Text.Decimal
import Mathlib.Data.List.TakeWhile

/-!
# Reading numerals

Main definitions:

* `Text.readNat`, `Text.readInt` — the numeral in front of a text, with what stands behind it;
* `Text.beginsNumeral`, `Text.EndsNumeral` — a numeral begins with a character; a text does not go
  on with a digit.

Main statement: `readInt_decimalChars` — the numeral of an integer is read as this integer, whatever
stands behind it but a digit.
-/

namespace Indirection.Text

variable {n : Nat} {rest : List Char}

/-! ### Digits -/

/-- A number below ten is written as a digit. -/
theorem isDigit_digitChar {d : Nat} (h : d < 10) : (digitChar d).isDigit = true := by
  have table : ∀ d < 10, (digitChar d).isDigit = true := by decide
  exact table d h

/-- Numbers are written in digits. -/
theorem isDigit_of_mem_digits {c : Char} (h : c ∈ digits n) : c.isDigit = true := by
  induction n using Nat.strongRecOn with
  | ind n ih =>
    rw [digits] at h
    split at h
    · rename_i hlt
      rw [List.mem_singleton.1 h]
      exact isDigit_digitChar hlt
    · rcases List.mem_append.1 h with h | h
      · exact ih (n / 10) (by omega) h
      · rw [List.mem_singleton.1 h]
        exact isDigit_digitChar (by omega)

/-- Every number has at least one digit. -/
theorem digits_ne_nil (n : Nat) : digits n ≠ [] := by
  rw [digits]
  split <;> simp

/-- Only the numeral of zero begins with a zero. -/
theorem head?_digits (h : 0 < n) : (digits n).head? ≠ some '0' := by
  induction n using Nat.strongRecOn with
  | ind n ih =>
    rw [digits]
    split
    · rename_i hlt
      have table : ∀ d < 10, 0 < d → [digitChar d].head? ≠ some '0' := by decide
      exact table n hlt h
    · rw [List.head?_append, Option.or_of_isSome (by simp [digits_ne_nil])]
      exact ih (n / 10) (by omega) (by omega)

/-! ### Numerals -/

/-- The natural number in front of a text, if one stands there, and the text behind it. Of numerals
    that begin with a zero only a single zero is read. -/
def readNat (cs : List Char) : Option (Nat × List Char) :=
  match cs.takeWhile Char.isDigit with
  | [] => none
  | '0' :: _ :: _ => none
  | ds => some (value ds, cs.dropWhile Char.isDigit)

/-- The integer in front of a text, if one stands there, and the text behind it. -/
def readInt : List Char → Option (Int × List Char)
  | '-' :: cs => (readNat cs).map fun (n, rest) => (-n, rest)
  | cs => (readNat cs).map fun (n, rest) => (n, rest)

/-- Whether a numeral begins with a character. -/
def beginsNumeral (c : Char) : Bool := c = '-' || c.isDigit

/-- What begins a numeral differs from what does not. -/
theorem ne_of_beginsNumeral {c d : Char} (hc : beginsNumeral c = true)
    (hd : beginsNumeral d = false) : c ≠ d := by
  rintro rfl
  exact Bool.false_ne_true (hd.symm.trans hc)

/-- Whether a text does not go on with a digit. -/
def EndsNumeral (cs : List Char) : Prop := ∀ c ∈ cs.head?, c.isDigit = false

/-- The digits of a number end where the rest cannot go on with them. -/
theorem span_digits (n : Nat) (h : EndsNumeral rest) :
    (digits n ++ rest).takeWhile Char.isDigit = digits n ∧
      (digits n ++ rest).dropWhile Char.isDigit = rest := by
  have hdigits : ∀ c ∈ digits n, c.isDigit = true := fun c => isDigit_of_mem_digits
  rw [List.takeWhile_append_of_pos hdigits, List.dropWhile_append_of_pos hdigits]
  cases rest with
  | nil => simp
  | cons c rest =>
    have hc : c.isDigit = false := h c rfl
    simp [hc]

/-- A number that is written is read again, in front of any rest that does not go on with it. -/
theorem readNat_digits (n : Nat) (h : EndsNumeral rest) :
    readNat (digits n ++ rest) = some (n, rest) := by
  obtain ⟨htake, hdrop⟩ := span_digits n h
  rw [readNat, htake, hdrop]
  split
  · rename_i hnil
    exact absurd hnil (digits_ne_nil n)
  · rename_i d ds hzero
    rcases Nat.eq_zero_or_pos n with rfl | hpos
    · rw [digits] at hzero
      cases hzero
    · exact absurd (congrArg List.head? hzero) (head?_digits hpos)
  · rw [value_digits]

/-- **Reading a numeral.** The numeral of an integer is read as this integer. -/
theorem readInt_decimalChars (z : Int) (h : EndsNumeral rest) :
    readInt (decimalChars z ++ rest) = some (z, rest) := by
  rw [decimalChars]
  split
  · have hz : -(z.natAbs : Int) = z := by omega
    rw [List.cons_append, readInt, readNat_digits _ h]
    simp only [Option.map_some, hz]
  · -- a digit is no sign
    have hsign : ∀ cs, digits z.natAbs ++ rest ≠ '-' :: cs := by
      intro cs heq
      obtain ⟨d, ds, hds⟩ := List.exists_cons_of_ne_nil (digits_ne_nil z.natAbs)
      rw [hds, List.cons_append, List.cons.injEq] at heq
      have hd : d.isDigit = true := isDigit_of_mem_digits (hds ▸ List.mem_cons_self)
      rw [heq.1] at hd
      exact absurd hd (by decide)
    have hz : (z.natAbs : Int) = z := by omega
    rw [readInt, readNat_digits _ h]
    · simp only [Option.map_some, hz]
    · exact hsign

/-- Every integer is written with a first character that begins a numeral. -/
theorem exists_decimalChars (z : Int) :
    ∃ c cs, decimalChars z = c :: cs ∧ beginsNumeral c = true := by
  rw [decimalChars]
  split
  · exact ⟨'-', _, rfl, rfl⟩
  · obtain ⟨d, ds, hds⟩ := List.exists_cons_of_ne_nil (digits_ne_nil z.natAbs)
    have hd : d.isDigit = true := isDigit_of_mem_digits (hds ▸ List.mem_cons_self)
    exact ⟨d, ds, hds, by simp [beginsNumeral, hd]⟩

end Indirection.Text
