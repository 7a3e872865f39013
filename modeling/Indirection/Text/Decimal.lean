/-!
# Decimal numerals

Main definitions:

* `digits n` — the decimal digits of a natural number, most significant first, without leading
  zeros; `value` reads such digits back (`value_digits`);
* `decimal z` — the numeral of an integer, with a minus sign in front of a negative one;
* `zeroPadded w z` — the same numeral filled with zeros behind its sign up to `w` characters.
-/

namespace Indirection.Text

/-! ### Natural numbers -/

/-- The character of a digit below ten. -/
def digitChar (d : Nat) : Char := Char.ofNat (48 + d)

/-- The decimal digits of `n`, most significant first. -/
def digits (n : Nat) : List Char :=
  if n < 10 then [digitChar n] else digits (n / 10) ++ [digitChar (n % 10)]
  termination_by n
  decreasing_by omega

/-- The number that a list of digit characters denotes. -/
def value (cs : List Char) : Nat :=
  cs.foldl (fun v c => 10 * v + (c.toNat - 48)) 0

/-- The digits have consecutive code points. -/
theorem toNat_digitChar {d : Nat} (h : d < 10) : (digitChar d).toNat = 48 + d := by
  have table : ∀ d < 10, (digitChar d).toNat = 48 + d := by decide
  exact table d h

/-- A digit behind others makes their value ten times as great, and adds its own. -/
theorem value_concat (cs : List Char) (c : Char) :
    value (cs ++ [c]) = 10 * value cs + (c.toNat - 48) := by
  simp [value]

/-- Reading the digits of a number gives the number. -/
theorem value_digits (n : Nat) : value (digits n) = n := by
  induction n using Nat.strongRecOn with
  | ind n ih =>
    rw [digits]
    split
    · rename_i h
      simp [value, toNat_digitChar h]
    · rw [value_concat, ih (n / 10) (by omega), toNat_digitChar (by omega)]
      omega

/-! ### Integers -/

/-- The characters of an integer's numeral. -/
def decimalChars (z : Int) : List Char :=
  if z < 0 then '-' :: digits z.natAbs else digits z.natAbs

/-- The numeral of an integer. -/
def decimal (z : Int) : String :=
  String.ofList (decimalChars z)

/-- The numeral of an integer, at least `width` characters long: zeros stand between the sign and
    the digits. The sign counts towards the width. -/
def zeroPadded (width : Nat) (z : Int) : String :=
  let ds := digits z.natAbs
  if z < 0 then
    String.ofList ('-' :: (List.replicate (width - 1 - ds.length) '0' ++ ds))
  else
    String.ofList (List.replicate (width - ds.length) '0' ++ ds)

end Indirection.Text
