import Indirection.Text.Blank
import Indirection.Text.DigitChar

/-!
# Reading numerals

`readInt?` reads an integer as people write it: blanks around it, a sign, and decimal digits of any
script, between which single low lines may stand. Leading zeros are allowed. Numerals of more than
4300 digits are not read.
-/

namespace Indirection.Text

/-- Whether a character may stand around a numeral: white space other than the information
    separators. -/
def isMargin (c : Char) : Bool :=
  isBlank c && !(0x1c ≤ c.toNat && c.toNat ≤ 0x1f)

/-- The characters between the margins of a numeral. -/
def trimMargins (cs : List Char) : List Char :=
  ((cs.dropWhile isMargin).reverse.dropWhile isMargin).reverse

/-- The values of the digits of a numeral. `mayPause` says whether a low line may come next: only
    behind a digit. One low line stands between two digits, and none at the end. -/
def digitValues? : (mayPause : Bool) → List Char → Option (List Nat)
  | mayPause, [] => if mayPause then some [] else none
  | mayPause, c :: cs =>
    if c = '_' then if mayPause then digitValues? false cs else none
    else
      match digitValue? c with
      | some d => (digitValues? true cs).map (d :: ·)
      | none => none

/-- The longest numeral that is read, in digits. -/
def maxDigits : Nat := 4300

/-- The natural number of an unsigned numeral. -/
def readNat? (cs : List Char) : Option Nat :=
  match digitValues? false cs with
  | some ds => if ds.length ≤ maxDigits then some (ds.foldl (fun n d => 10 * n + d) 0) else none
  | none => none

/-- The integer of a numeral. -/
def readInt? (s : String) : Option Int :=
  match trimMargins s.toList with
  | '-' :: cs => (readNat? cs).map fun n => -Int.ofNat n
  | '+' :: cs => (readNat? cs).map Int.ofNat
  | cs => (readNat? cs).map Int.ofNat

/-- Whether a text has the form of a negative number, whole or with a decimal point; one line feed
    may follow it. -/
def isNegativeNumber (s : String) : Bool :=
  let isDigit (c : Char) : Bool := (digitValue? c).isSome
  let body (cs : List Char) : Bool :=
    match cs.dropWhile isDigit with
    | [] => !cs.isEmpty
    | c :: rest => c = '.' && !rest.isEmpty && rest.all isDigit
  match s.toList with
  | '-' :: cs => body cs || (cs.getLast? = some '\n' && body cs.dropLast)
  | _ => false

end Indirection.Text
