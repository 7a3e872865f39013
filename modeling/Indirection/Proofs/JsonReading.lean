import Indirection.Proofs.Numerals
import Indirection.Report.Summary
import Mathlib.Algebra.Group.Nat.Defs

/-!
# Reading JSON

A reader for JSON documents without fractions. Main definitions:

* `Json.units`, `Json.ofUnits` — the UTF-16 units of a character, and the characters that units
  stand for;
* `Json.readString` — the string in front of a text, whether its characters stand there themselves
  or as escapes;
* `Json.readMembers` — what is between two brackets, with any reader for one member;
* `Json.readWithin`, `Json.read` — the document in front of a text, and the one that a whole text
  spells.

Main statements: `readWithin_chars` — what is written of a document is read as this document;
`report_json_read` — the text of a report is ASCII, and is read as what is reported.
-/

namespace Indirection

namespace Report.Json

open Text

variable {c : Char} {rest : List Char} {n : Nat}

/-! ### Hexadecimal digits -/

/-- The value of a hexadecimal digit. -/
def hexValue (c : Char) : Option Nat :=
  if c.isDigit then some (c.toNat - 48)
  else if 'a' ≤ c && c ≤ 'f' then some (c.toNat - 87)
  else if 'A' ≤ c && c ≤ 'F' then some (c.toNat - 55)
  else none

/-- The number that hexadecimal digits denote. -/
def readHex (cs : List Char) : Option Nat :=
  cs.foldlM (fun n c => (hexValue c).map (16 * n + ·)) 0

/-- A hexadecimal digit has its value, and is an ASCII character. -/
theorem hexDigit_read {d : Nat} (h : d < 16) :
    hexValue (hexDigit d) = some d ∧ (hexDigit d).toNat < 128 := by
  have table : ∀ d < 16, hexValue (hexDigit d) = some d ∧ (hexDigit d).toNat < 128 := by
    decide +kernel
  exact table d h

/-- Digits of a fixed width denote the number modulo what fits into them. -/
theorem readHex_hex (width n : Nat) : readHex (hex width n) = some (n % 16 ^ width) := by
  induction width generalizing n with
  | zero => simp [readHex, hex, Nat.mod_one]
  | succ w ih =>
    have hdigit := (hexDigit_read (Nat.mod_lt n (by decide : 0 < 16))).1
    unfold readHex at ih
    rw [readHex, hex, List.foldlM_append, ih, Nat.pow_succ', Nat.mod_mul]
    simp [hdigit, Nat.add_comm]

/-! ### UTF-16 -/

/-- The UTF-16 units of a character. -/
def units (c : Char) : List Nat :=
  if c.toNat < 0x10000 then [c.toNat]
  else [0xd800 + (c.toNat - 0x10000) / 0x400, 0xdc00 + (c.toNat - 0x10000) % 0x400]

/-- A unit in front of the characters that the units behind it stand for. Halves of a pair stand for
    no character. -/
def unitThen (n : Nat) (cs : Option (List Char)) : Option (List Char) :=
  if 0xd800 ≤ n && n < 0xe000 then none else cs.map (Char.ofNat n :: ·)

/-- The characters that UTF-16 units stand for. -/
def ofUnits : List Nat → Option (List Char)
  | [] => some []
  | [n] => unitThen n (some [])
  | n :: m :: us =>
    if 0xd800 ≤ n && n < 0xdc00 && 0xdc00 ≤ m && m < 0xe000 then
      (ofUnits us).map (Char.ofNat (0x10000 + (n - 0xd800) * 0x400 + (m - 0xdc00)) :: ·)
    else unitThen n (ofUnits (m :: us))

/-- A unit that is no surrogate is a character of its own. -/
theorem ofUnits_cons (hn : n < 0xd800 ∨ 0xe000 ≤ n) (us : List Nat) :
    ofUnits (n :: us) = (ofUnits us).map (Char.ofNat n :: ·) := by
  have hthen (cs : Option (List Char)) : unitThen n cs = cs.map (Char.ofNat n :: ·) :=
    if_neg (by simp; omega)
  cases us with
  | nil => exact hthen _
  | cons m us => rw [ofUnits, if_neg (by simp; omega), hthen]

/-- The units of a character stand for it. -/
theorem ofUnits_units (c : Char) (us : List Nat) :
    ofUnits (units c ++ us) = (ofUnits us).map (c :: ·) := by
  have hvalid : c.toNat < 0xd800 ∨ 0xdfff < c.toNat ∧ c.toNat < 0x110000 := c.valid
  unfold units
  split
  · -- no character is half of a pair
    rw [List.singleton_append, ofUnits_cons (by omega), Char.ofNat_toNat]
  · have hpair : 0x10000 + (0xd800 + (c.toNat - 0x10000) / 0x400 - 0xd800) * 0x400 +
        (0xdc00 + (c.toNat - 0x10000) % 0x400 - 0xdc00) = c.toNat := by omega
    simp only [List.cons_append, List.nil_append]
    rw [ofUnits, if_pos (by simp; omega), hpair, Char.ofNat_toNat]

/-- The units of a text stand for the text. -/
theorem ofUnits_flatMap (cs : List Char) : ofUnits (cs.flatMap units) = some cs := by
  induction cs with
  | nil => rfl
  | cons c cs ih =>
    rw [List.flatMap_cons, ofUnits_units, ih]
    rfl

/-! ### Strings -/

/-- Units in front of what is read, and what stands behind it. -/
def prepend (us : List Nat) (p : List Nat × List Char) : List Nat × List Char := (us ++ p.1, p.2)

/-- The character that a letter stands for behind a backslash in a string. -/
def unescape (c : Char) : Option Char :=
  if c = '"' then some '"'
  else if c = '\\' then some '\\'
  else if c = '/' then some '/'
  else if c = 'b' then some '\x08'
  else if c = 'f' then some '\x0c'
  else if c = 'n' then some '\n'
  else if c = 'r' then some '\r'
  else if c = 't' then some '\t'
  else none

/-- The UTF-16 units of a string up to its closing quotation mark, and what stands behind that.
    Control characters must be escaped. -/
def readUnits : List Char → Option (List Nat × List Char)
  | [] | ['\\'] => none
  | '"' :: rest => some ([], rest)
  | '\\' :: 'u' :: a :: b :: c :: d :: rest =>
    (readHex [a, b, c, d]).bind fun n => (readUnits rest).map (prepend [n])
  | '\\' :: c :: rest => (unescape c).bind fun d => (readUnits rest).map (prepend (units d))
  | c :: rest => if c.toNat < 0x20 then none else (readUnits rest).map (prepend (units c))

/-- The string up to its closing quotation mark, and what stands behind that. -/
def readString (cs : List Char) : Option (String × List Char) :=
  (readUnits cs).bind fun p => (ofUnits p.1).map fun s => (String.ofList s, p.2)

/-- A unit that is written as an escape is read as this unit. -/
theorem readUnits_unitEscape (hn : n < 0x10000) (rest : List Char) :
    readUnits (unitEscape n ++ rest) = (readUnits rest).map (prepend [n]) := by
  have hread : readHex (hex 4 n) = some n := by
    have hmod : n % 16 ^ 4 = n := Nat.mod_eq_of_lt hn
    rw [readHex_hex, hmod]
  obtain ⟨a, b, c, d, hdigits⟩ : ∃ a b c d, hex 4 n = [a, b, c, d] := ⟨_, _, _, _, rfl⟩
  rw [hdigits] at hread
  rw [unitEscape, hdigits]
  simp only [List.cons_append, List.nil_append, readUnits, hread, Option.bind_some]

/-- The four ways in which a character is written: a letter behind a backslash, the character
    itself, one unit, or two units. -/
theorem escape_cases (c : Char) :
    (∃ d, escape c = ['\\', d] ∧ d ≠ 'u' ∧ d.toNat < 128 ∧ unescape d = some c) ∨
      (escape c = [c] ∧ c ≠ '"' ∧ c ≠ '\\' ∧ 0x20 ≤ c.toNat ∧ c.toNat < 128) ∨
      (escape c = unitEscape c.toNat ∧ c.toNat < 0x10000) ∨
      (escape c = unitEscape (0xd800 + (c.toNat - 0x10000) / 0x400) ++
          unitEscape (0xdc00 + (c.toNat - 0x10000) % 0x400) ∧ 0x10000 ≤ c.toNat) := by
  by_cases hletter : c ∈ ['"', '\\', '\n', '\r', '\t', '\x08', '\x0c'] <;>
    simp only [List.mem_cons, List.not_mem_nil, or_false, not_or] at hletter
  · left
    rcases hletter with rfl | rfl | rfl | rfl | rfl | rfl | rfl
    all_goals exact ⟨_, rfl, by decide, by decide, rfl⟩
  · obtain ⟨hmark, hslash, hn, hr, ht, hb, hf⟩ := hletter
    rw [escape, if_neg hmark, if_neg hslash, if_neg hn, if_neg hr, if_neg ht, if_neg hb, if_neg hf]
    simp only [Bool.and_eq_true, decide_eq_true_eq]
    split
    · exact .inr (.inl ⟨rfl, hmark, hslash, by omega, by omega⟩)
    · split
      · exact .inr (.inr (.inl ⟨rfl, ‹_›⟩))
      · exact .inr (.inr (.inr ⟨rfl, by omega⟩))

/-- What is written of a character is read as its units. -/
theorem readUnits_escape (c : Char) (rest : List Char) :
    readUnits (escape c ++ rest) = (readUnits rest).map (prepend (units c)) := by
  have hvalid : c.toNat < 0xd800 ∨ 0xdfff < c.toNat ∧ c.toNat < 0x110000 := c.valid
  obtain ⟨d, hc, hd, -, hletter⟩ | ⟨hc, hmark, hslash, hlow, -⟩ | ⟨hc, hsmall⟩ | ⟨hc, hlarge⟩ :=
    escape_cases c <;> rw [hc]
  · rw [List.cons_append, List.singleton_append, readUnits, hletter, Option.bind_some]
    -- the letter is not the one of a unit
    · exact fun _ _ _ _ _ h => absurd h hd
  · rw [List.singleton_append, readUnits, if_neg (by omega)]
    · exact fun h => absurd h hslash
    · exact hmark
    · exact fun _ _ _ _ _ h => absurd h hslash
    · exact fun _ _ h => absurd h hslash
  · rw [readUnits_unitEscape hsmall, units, if_pos hsmall]
  · rw [List.append_assoc, readUnits_unitEscape (by omega), readUnits_unitEscape (by omega),
      units, if_neg (by omega), Option.map_map]
    rfl

/-- What is written of a string, up to the closing mark, is read as this string. -/
theorem readString_flatMap (cs rest : List Char) :
    readString (cs.flatMap escape ++ '"' :: rest) = some (String.ofList cs, rest) := by
  have hunits : readUnits (cs.flatMap escape ++ '"' :: rest) = some (cs.flatMap units, rest) := by
    induction cs with
    | nil => rfl
    | cons c cs ih =>
      rw [List.flatMap_cons, List.append_assoc, readUnits_escape, ih]
      rfl
  simp [readString, hunits, ofUnits_flatMap]

/-! ### Blanks -/

/-- Whether a character may stand anywhere between the parts of a document. -/
def isBlank (c : Char) : Bool := c = ' ' || c = '\n' || c = '\r' || c = '\t'

/-- A text from its first character on that is no blank. -/
def skip (cs : List Char) : List Char := cs.dropWhile isBlank

/-- Whether a text begins neither with a blank nor with the bracket `close`. -/
def Begins (close : Char) (cs : List Char) : Prop := ∃ c ∈ cs.head?, isBlank c = false ∧ c ≠ close

/-- Only blanks are skipped. -/
theorem skip_cons (h : isBlank c = false) (rest : List Char) : skip (c :: rest) = c :: rest := by
  simp [skip, h]

/-- Nothing is skipped in front of a member. -/
theorem Begins.skip_eq {close : Char} {cs : List Char} (h : Begins close cs) (rest : List Char) :
    skip (cs ++ rest) = cs ++ rest := by
  obtain ⟨c, hc, hblank, -⟩ := h
  obtain ⟨tail, rfl⟩ := List.head?_eq_some_iff.1 hc
  exact skip_cons hblank _

/-- The end of a line and the indentation behind it are skipped. -/
theorem skip_newline (depth : Nat) (cs : List Char) : skip (newline depth ++ cs) = skip cs := by
  have hblank : ∀ c ∈ newline depth, isBlank c = true := by
    intro c hc
    rcases List.mem_cons.1 hc with rfl | hc
    · rfl
    · rw [List.eq_of_mem_replicate hc]
      rfl
  exact List.dropWhile_append_of_pos hblank

/-! ### Documents -/

/-- A member in front of the others that are read, and what stands behind them. -/
def consMember {α : Type} (x : α) (p : List α × List Char) : List α × List Char := (x :: p.1, p.2)

section Members

variable {α : Type} (item : List Char → Option (α × List Char)) (close : Char)

/-- The members behind the first one, up to the bracket `close`, and what stands behind that. There
    are at most `steps`. -/
def readMore : (steps : Nat) → List Char → Option (List α × List Char)
  | 0, _ => none
  | steps + 1, cs =>
    match skip cs with
    | [] => none
    | c :: rest =>
      if c = close then some ([], rest)
      else if c = ',' then
        (item (skip rest)).bind fun p => (readMore steps p.2).map (consMember p.1)
      else none

/-- The members up to the bracket `close`, and what stands behind that. One member is read by
    `item`, from its first character on. -/
def readMembers (steps : Nat) (cs : List Char) : Option (List α × List Char) :=
  match skip cs with
  | [] => none
  | c :: rest =>
    if c = close then some ([], rest)
    else (item (c :: rest)).bind fun p => (readMore item close steps p.2).map (consMember p.1)

end Members

/-- The field in front of a text, and what stands behind it; `value` reads its document. -/
def readField (value : List Char → Option (Json × List Char)) :
    List Char → Option ((String × Json) × List Char)
  | '"' :: rest =>
    (readString rest).bind fun p =>
      match skip p.2 with
      | ':' :: behind => (value (skip behind)).map fun q => ((p.1, q.1), q.2)
      | _ => none
  | _ => none

/-- The word or the number in front of a text, and what stands behind it. -/
def readAtom : List Char → Option (Json × List Char)
  | 'n' :: 'u' :: 'l' :: 'l' :: rest => some (null, rest)
  | 't' :: 'r' :: 'u' :: 'e' :: rest => some (bool true, rest)
  | 'f' :: 'a' :: 'l' :: 's' :: 'e' :: rest => some (bool false, rest)
  | cs => (readInt cs).map fun p => (int p.1, p.2)

/-- The document in front of a text that begins with no blank, and what stands behind it. At most
    `steps` documents stand inside each other, and a list or an object has at most that many
    members. -/
def readWithin : (steps : Nat) → List Char → Option (Json × List Char)
  | 0, _ => none
  | _ + 1, [] => none
  | steps + 1, c :: rest =>
    if c = '"' then (readString rest).map fun p => (str p.1, p.2)
    else if c = '[' then
      (readMembers (readWithin steps) ']' steps rest).map fun p => (list p.1, p.2)
    else if c = openObject then
      (readMembers (readField (readWithin steps)) closeObject steps rest).map fun p =>
        (obj p.1, p.2)
    else readAtom (c :: rest)

/-- The document that a text spells. A step for each character is enough, since a document inside of
    another one is shorter than this one. -/
def read (s : String) : Option Json :=
  match readWithin (s.toList.length + 1) (skip s.toList) with
  | some (j, rest) => if (skip rest).isEmpty then some j else none
  | none => none

/-! ### Members -/

/-- The characters of a field inside `depth` documents. -/
def memberChars (depth : Nat) (f : String × Json) : List Char :=
  quoted f.1 ++ (':' :: ' ' :: chars depth f.2)

section Members

variable {α : Type} (text : α → List Char) (depth : Nat) (close : Char)

/-- The members behind the first one. -/
def moreChars (xs : List α) : List Char :=
  xs.flatMap fun x => ',' :: (newline (depth + 1) ++ text x)

/-- All that stands behind the opening bracket of a list or an object inside `depth` documents. -/
def membersChars : List α → List Char
  | [] => [close]
  | x :: xs =>
    newline (depth + 1) ++ (text x ++ (moreChars text depth xs ++ (newline depth ++ [close])))

end Members

/-- The items behind the first one are written by one scheme. -/
theorem itemChars_eq (depth : Nat) (js : List Json) :
    itemChars (depth + 1) js = moreChars (chars (depth + 1)) depth js := by
  induction js with
  | nil => rfl
  | cons j js ih => simp [itemChars, ih, moreChars]

/-- So are the fields behind the first one. -/
theorem fieldChars_eq (depth : Nat) (fs : List (String × Json)) :
    fieldChars (depth + 1) fs = moreChars (memberChars (depth + 1)) depth fs := by
  induction fs with
  | nil => rfl
  | cons f fs ih => simp [fieldChars, ih, moreChars, memberChars]

/-- A list is written as its items between brackets. -/
theorem chars_list (depth : Nat) (js : List Json) :
    chars depth (list js) = '[' :: membersChars (chars (depth + 1)) depth ']' js := by
  cases js with
  | nil => rfl
  | cons j js => rw [chars, itemChars_eq, membersChars]

/-- An object is written as its fields between brackets. -/
theorem chars_obj (depth : Nat) (fs : List (String × Json)) :
    chars depth (obj fs) =
      openObject :: membersChars (memberChars (depth + 1)) depth closeObject fs := by
  cases fs with
  | nil => rfl
  | cons f fs => simp [chars, fieldChars_eq, membersChars, memberChars]

section Members

variable {α : Type} {text : α → List Char} {depth : Nat} {close : Char} {xs : List α}

/-- The texts of members are shorter than that of all of them, and there are no more of them than it
    has characters. -/
theorem length_moreChars (text : α → List Char) (depth : Nat) (xs : List α) :
    (∀ x ∈ xs, (text x).length < (moreChars text depth xs).length) ∧
      xs.length ≤ (moreChars text depth xs).length := by
  induction xs with
  | nil => simp
  | cons x xs ih =>
    obtain ⟨hlt, hmany⟩ := ih
    have hcons : (moreChars text depth (x :: xs)).length =
        (newline (depth + 1)).length + (text x).length + 1 + (moreChars text depth xs).length := by
      simp only [moreChars, List.flatMap_cons, List.length_append, List.length_cons]
    refine ⟨List.forall_mem_cons.2 ⟨by omega, fun y hy => ?_⟩, by rw [List.length_cons]; omega⟩
    have := hlt y hy
    omega

/-- A member is shorter than all of them, and there are fewer of them than characters. -/
theorem length_membersChars (text : α → List Char) (depth : Nat) (close : Char) (xs : List α) :
    (∀ x ∈ xs, (text x).length < (membersChars text depth close xs).length) ∧
      xs.length < (membersChars text depth close xs).length := by
  cases xs with
  | nil => simp [membersChars]
  | cons x xs =>
    obtain ⟨hlt, hmany⟩ := length_moreChars text depth xs
    have hcons : (membersChars text depth close (x :: xs)).length =
        (newline (depth + 1)).length + ((text x).length + ((moreChars text depth xs).length +
          ((newline depth).length + 1))) := by simp [membersChars]
    have hnewline : 0 < (newline depth).length := Nat.succ_pos _
    refine ⟨List.forall_mem_cons.2 ⟨by omega, fun y hy => ?_⟩, by rw [List.length_cons]; omega⟩
    have := hlt y hy
    omega

variable {item : List Char → Option (α × List Char)}

/-- What stands behind a member is no digit. -/
theorem endsNumeral_moreChars (text : α → List Char) (depth : Nat) (xs : List α)
    (rest : List Char) :
    EndsNumeral (moreChars text depth xs ++ (newline depth ++ rest)) := by
  cases xs <;> simp [EndsNumeral, moreChars, newline]

/-- The members behind the first one are read, whatever the reader for one of them is. -/
theorem readMore_moreChars (hblank : isBlank close = false) (hcomma : close ≠ ',')
    (hitem : ∀ x ∈ xs, Begins close (text x) ∧
      ∀ rest, EndsNumeral rest → item (text x ++ rest) = some (x, rest))
    (hn : xs.length < n) :
    readMore item close n (moreChars text depth xs ++ (newline depth ++ close :: rest)) =
      some (xs, rest) := by
  induction xs generalizing n with
  | nil =>
    obtain ⟨n, rfl⟩ : ∃ m, n = m + 1 := ⟨n - 1, by simp at hn; omega⟩
    rw [readMore, moreChars, List.flatMap_nil, List.nil_append, skip_newline, skip_cons hblank]
    exact if_pos rfl
  | cons x xs ih =>
    obtain ⟨n, rfl⟩ : ∃ m, n = m + 1 := ⟨n - 1, by simp at hn; omega⟩
    obtain ⟨⟨hbegins, hread⟩, hmore⟩ := List.forall_mem_cons.1 hitem
    have hchars : moreChars text depth (x :: xs) ++ (newline depth ++ close :: rest) =
        ',' :: (newline (depth + 1) ++ (text x ++
          (moreChars text depth xs ++ (newline depth ++ close :: rest)))) := by simp [moreChars]
    rw [hchars, readMore, skip_cons (by decide)]
    simp only [if_neg hcomma.symm, if_pos, skip_newline, hbegins.skip_eq,
      hread _ (endsNumeral_moreChars text depth xs (close :: rest)), Option.bind_some]
    rw [ih hmore (by simpa using hn)]
    rfl

/-- So are all members with the bracket behind them. -/
theorem readMembers_membersChars (hblank : isBlank close = false) (hcomma : close ≠ ',')
    (hitem : ∀ x ∈ xs, Begins close (text x) ∧
      ∀ rest, EndsNumeral rest → item (text x ++ rest) = some (x, rest))
    (hn : xs.length < n) (rest : List Char) :
    readMembers item close n (membersChars text depth close xs ++ rest) = some (xs, rest) := by
  cases xs with
  | nil =>
    rw [readMembers, membersChars, List.singleton_append, skip_cons hblank]
    exact if_pos rfl
  | cons x xs =>
    obtain ⟨⟨hbegins, hread⟩, hmore⟩ := List.forall_mem_cons.1 hitem
    have hread := hread _ (endsNumeral_moreChars text depth xs (close :: rest))
    have hchars : membersChars text depth close (x :: xs) ++ rest =
        newline (depth + 1) ++ (text x ++
          (moreChars text depth xs ++ (newline depth ++ close :: rest))) := by simp [membersChars]
    -- the first member is no closing bracket
    rw [hchars, readMembers, skip_newline, hbegins.skip_eq]
    obtain ⟨c, hc, -, hclose⟩ := hbegins
    obtain ⟨tail, htail⟩ := List.head?_eq_some_iff.1 hc
    rw [htail, List.cons_append] at hread ⊢
    simp only [if_neg hclose, hread, Option.bind_some]
    rw [readMore_moreChars hblank hcomma hmore (by simp at hn; omega)]
    rfl

end Members

/-! ### One constructor at a time -/

/-- What begins with no mark and no bracket is read as a word or a number. -/
theorem readWithin_atom (hmark : c ≠ '"') (hlist : c ≠ '[') (hobj : c ≠ openObject) :
    readWithin (n + 1) (c :: rest) = readAtom (c :: rest) := by
  rw [readWithin, if_neg hmark, if_neg hlist, if_neg hobj]

/-- What is written of a number is read as this number, unless more digits follow. -/
theorem readWithin_int (z : Int) (h : EndsNumeral rest) :
    readWithin (n + 1) (decimalChars z ++ rest) = some (int z, rest) := by
  obtain ⟨c, cs, hcs, hc⟩ := exists_decimalChars z
  have hread := readInt_decimalChars z h
  have hne (d : Char) : beginsNumeral d = false → c ≠ d := ne_of_beginsNumeral hc
  rw [hcs, List.cons_append] at hread ⊢
  rw [readWithin_atom (hne _ rfl) (hne _ rfl) (hne _ rfl), readAtom, hread]
  · rfl
  -- a numeral is none of the words
  all_goals
    intro _ h
    injection h with h
    exact absurd h (hne _ rfl)

/-- What is written of a string is read as this string. -/
theorem readWithin_str (s : String) (rest : List Char) :
    readWithin (n + 1) (quoted s ++ rest) = some (str s, rest) := by
  rw [quoted, List.cons_append, readWithin, if_pos rfl, List.append_assoc, List.singleton_append,
    readString_flatMap]
  simp

/-- A field is read if its value is. -/
theorem readField_memberChars {value : List Char → Option (Json × List Char)} {depth : Nat}
    {f : String × Json} (hbegins : Begins close (chars depth f.2))
    (hvalue : value (chars depth f.2 ++ rest) = some (f.2, rest)) :
    readField value (memberChars depth f ++ rest) = some (f, rest) := by
  have hchars : memberChars depth f ++ rest =
      '"' :: (f.1.toList.flatMap escape ++ '"' :: ':' :: ' ' :: (chars depth f.2 ++ rest)) := by
    simp [memberChars, quoted]
  have hskip : skip (' ' :: (chars depth f.2 ++ rest)) = chars depth f.2 ++ rest := by
    rw [skip, List.dropWhile_cons_of_pos (by decide)]
    exact hbegins.skip_eq rest
  rw [hchars, readField, readString_flatMap, Option.bind_some, skip_cons (by decide)]
  simp [hskip, hvalue]

/-- A document begins with no blank and with no closing bracket. -/
theorem begins_chars (depth : Nat) (j : Json) :
    Begins ']' (chars depth j) ∧ Begins closeObject (chars depth j) := by
  have first {c : Char} {cs : List Char} (h : isBlank c = false ∧ c ≠ ']' ∧ c ≠ closeObject) :
      Begins ']' (c :: cs) ∧ Begins closeObject (c :: cs) :=
    ⟨⟨c, rfl, h.1, h.2.1⟩, ⟨c, rfl, h.1, h.2.2⟩⟩
  cases j with
  | null => exact first (by decide)
  | bool b => cases b <;> exact first (by decide)
  | int z =>
    obtain ⟨c, cs, hcs, hc⟩ := exists_decimalChars z
    have hne (d : Char) : beginsNumeral d = false → c ≠ d := ne_of_beginsNumeral hc
    have hblank : isBlank c = false := by
      simp [isBlank, hne ' ' rfl, hne '\n' rfl, hne '\r' rfl, hne '\t' rfl]
    rw [chars, hcs]
    exact first ⟨hblank, hne _ rfl, hne _ rfl⟩
  | str s => exact first (by decide)
  | list js =>
    rw [chars_list]
    exact first (by decide)
  | obj fs =>
    rw [chars_obj]
    exact first (by decide)

/-! ### All documents -/

/-- What holds of every document without others in it, and of a list or an object if it holds of the
    documents in it, holds of all documents. -/
theorem induct {P : Json → Prop} (null : P null) (bool : ∀ b, P (bool b)) (int : ∀ z, P (int z))
    (str : ∀ s, P (str s)) (list : ∀ js, (∀ j ∈ js, P j) → P (list js))
    (obj : ∀ fs, (∀ f ∈ fs, P f.2) → P (obj fs)) : ∀ j, P j
  | .null => null
  | .bool b => bool b
  | .int z => int z
  | .str s => str s
  | .list js => list js fun j _ => induct null bool int str list obj j
  | .obj fs => obj fs fun f _ => induct null bool int str list obj f.2
  termination_by j => sizeOf j
  decreasing_by
    · have hlt := List.sizeOf_lt_of_mem ‹_ ∈ js›
      simp only [Json.list.sizeOf_spec]
      omega
    · have hlt := List.sizeOf_lt_of_mem ‹_ ∈ fs›
      have hfield : sizeOf f.2 < sizeOf f := by
        cases f
        simp only [Prod.mk.sizeOf_spec]
        omega
      simp only [Json.obj.sizeOf_spec]
      omega

/-- **Reading what is written.** What is written of a document is read as this document. -/
theorem readWithin_chars (j : Json) {depth : Nat} (h : EndsNumeral rest)
    (hn : (chars depth j).length ≤ n) :
    readWithin (n + 1) (chars depth j ++ rest) = some (j, rest) := by
  induction j using induct generalizing depth rest n with
  | null => rfl
  | bool b => cases b <;> rfl
  | int z => exact readWithin_int z h
  | str s => exact readWithin_str s rest
  | list js ih =>
    -- each member is shorter than the list, so that one step less is enough for it
    obtain ⟨hlt, hmany⟩ := length_membersChars (chars (depth + 1)) depth ']' js
    rw [chars_list, List.length_cons] at hn
    obtain ⟨n, rfl⟩ : ∃ m, n = m + 1 := ⟨n - 1, by omega⟩
    have hitem : ∀ j ∈ js, Begins ']' (chars (depth + 1) j) ∧ ∀ rest, EndsNumeral rest →
        readWithin (n + 1) (chars (depth + 1) j ++ rest) = some (j, rest) := fun j hj =>
      ⟨(begins_chars _ j).1, fun rest hrest => ih j hj hrest (by have := hlt j hj; omega)⟩
    rw [chars_list, List.cons_append, readWithin, if_neg (by decide), if_pos rfl,
      readMembers_membersChars (by decide) (by decide) hitem (by omega)]
    rfl
  | obj fs ih =>
    obtain ⟨hlt, hmany⟩ := length_membersChars (memberChars (depth + 1)) depth closeObject fs
    rw [chars_obj, List.length_cons] at hn
    obtain ⟨n, rfl⟩ : ∃ m, n = m + 1 := ⟨n - 1, by omega⟩
    have hitem : ∀ f ∈ fs, Begins closeObject (memberChars (depth + 1) f) ∧
        ∀ rest, EndsNumeral rest →
          readField (readWithin (n + 1)) (memberChars (depth + 1) f ++ rest) = some (f, rest) := by
      intro f hf
      refine ⟨⟨'"', rfl, by decide, by decide⟩, fun rest hrest => ?_⟩
      have hlength : (chars (depth + 1) f.2).length ≤ (memberChars (depth + 1) f).length := by
        simp [memberChars]
        omega
      exact readField_memberChars (begins_chars _ f.2).1
        (ih f hf hrest (by have := hlt f hf; omega))
    rw [chars_obj, List.cons_append, readWithin, if_neg (by decide), if_neg (by decide),
      if_pos rfl, readMembers_membersChars (by decide) (by decide) hitem (by omega)]
    rfl

/-- The text of a document spells this document. -/
theorem read_render (j : Json) : read j.render = some j := by
  have hread : readWithin ((chars 0 j).length + 1) (skip (chars 0 j)) = some (j, []) := by
    have hskip := (begins_chars 0 j).1.skip_eq []
    have hchars : readWithin ((chars 0 j).length + 1) (chars 0 j ++ []) = some (j, []) :=
      readWithin_chars j (by simp [EndsNumeral]) (Nat.le_refl _)
    rw [List.append_nil] at hskip hchars
    rwa [hskip]
  rw [read, render, String.toList_ofList, hread]
  rfl

/-! ### ASCII -/

/-- Whether all characters of a text are in ASCII. -/
def IsAscii (cs : List Char) : Prop := ∀ c ∈ cs, c.toNat < 128

/-- Two ASCII texts are one. -/
theorem IsAscii.append {cs ds : List Char} (hcs : IsAscii cs) (hds : IsAscii ds) :
    IsAscii (cs ++ ds) := List.forall_mem_append.2 ⟨hcs, hds⟩

/-- So are an ASCII character and an ASCII text. -/
theorem IsAscii.cons {cs : List Char} (hc : c.toNat < 128) (hcs : IsAscii cs) :
    IsAscii (c :: cs) := List.forall_mem_cons.2 ⟨hc, hcs⟩

/-- So are ASCII texts for the elements of a list. -/
theorem IsAscii.flatMap {α : Type} {f : α → List Char} {xs : List α} (h : ∀ x ∈ xs, IsAscii (f x)) :
    IsAscii (xs.flatMap f) := by
  intro c hc
  obtain ⟨x, hx, hc⟩ := List.mem_flatMap.1 hc
  exact h x hx c hc

/-- Hexadecimal digits are ASCII characters. -/
theorem isAscii_hex (width n : Nat) : IsAscii (hex width n) := by
  induction width generalizing n with
  | zero => simp [hex, IsAscii]
  | succ w ih =>
    have hdigit := (hexDigit_read (Nat.mod_lt n (by decide : 0 < 16))).2
    exact (ih _).append (.cons hdigit (by simp [IsAscii]))

/-- So are the escapes of units, -/
theorem isAscii_unitEscape (n : Nat) : IsAscii (unitEscape n) :=
  .cons (by decide) (.cons (by decide) (isAscii_hex 4 n))

/-- and therefore whatever is written of a character. -/
theorem isAscii_escape (c : Char) : IsAscii (escape c) := by
  have hnil : IsAscii [] := by simp [IsAscii]
  obtain ⟨d, hc, -, hd, -⟩ | ⟨hc, -, -, -, hlow⟩ | ⟨hc, -⟩ | ⟨hc, -⟩ := escape_cases c <;> rw [hc]
  · exact .cons (by decide) (.cons hd hnil)
  · exact .cons hlow hnil
  · exact isAscii_unitEscape _
  · exact (isAscii_unitEscape _).append (isAscii_unitEscape _)

/-- Strings are written in ASCII characters only. -/
theorem isAscii_quoted (s : String) : IsAscii (quoted s) :=
  .cons (by decide) ((IsAscii.flatMap fun c _ => isAscii_escape c).append (by simp [IsAscii]))

/-- Numbers are ASCII texts. -/
theorem isAscii_decimalChars (z : Int) : IsAscii (decimalChars z) := by
  have hdigits : IsAscii (digits z.natAbs) := by
    intro c hc
    exact (Char.isDigit_iff_toNat.1 (isDigit_of_mem_digits hc)).2.trans_lt (by decide)
  unfold decimalChars
  split
  · exact .cons (by decide) hdigits
  · exact hdigits

/-- So are the ends of lines. -/
theorem isAscii_newline (depth : Nat) : IsAscii (newline depth) := by
  refine .cons (by decide) fun c hc => ?_
  rw [List.eq_of_mem_replicate hc]
  decide

/-- Members between brackets are ASCII texts if each of them is. -/
theorem isAscii_membersChars {α : Type} {text : α → List Char} {depth : Nat} {close : Char}
    {xs : List α} (hclose : close.toNat < 128) (htext : ∀ x ∈ xs, IsAscii (text x)) :
    IsAscii (membersChars text depth close xs) := by
  have hlast : IsAscii [close] := .cons hclose (by simp [IsAscii])
  cases xs with
  | nil => exact hlast
  | cons x xs =>
    obtain ⟨hx, hxs⟩ := List.forall_mem_cons.1 htext
    have hmore : IsAscii (moreChars text depth xs) :=
      .flatMap fun y hy => .cons (by decide) ((isAscii_newline _).append (hxs y hy))
    exact (isAscii_newline _).append (hx.append (hmore.append ((isAscii_newline _).append hlast)))

/-- Documents are written in ASCII characters only. -/
theorem isAscii_chars (depth : Nat) (j : Json) : IsAscii (chars depth j) := by
  induction j using induct generalizing depth with
  | null => simp [IsAscii, chars]
  | bool b => cases b <;> simp [IsAscii, chars]
  | int z => exact isAscii_decimalChars z
  | str s => exact isAscii_quoted s
  | list js ih =>
    rw [chars_list]
    exact .cons (by decide) (isAscii_membersChars (by decide) fun j hj => ih j hj _)
  | obj fs ih =>
    rw [chars_obj]
    refine .cons (by decide) (isAscii_membersChars (by decide) fun f hf => ?_)
    exact (isAscii_quoted _).append (.cons (by decide) (.cons (by decide) (ih f hf _)))

end Report.Json

open Report

/-- **Reports as JSON are read back.** The text of a report holds ASCII characters only and spells
    what is reported: an object whose fields stand in a fixed order, with the error where there is
    one, and with the candidates in their order where they are asked for. -/
theorem Result.report_json_read (r : Result) (withCandidates : Bool) :
    Json.IsAscii (r.report .json withCandidates).toList ∧
      Json.read (r.report .json withCandidates) = some (r.toJson withCandidates) ∧
      ∃ fields, r.toJson withCandidates = .obj fields ∧
        fields.map Prod.fst =
          ["transformation", "status", "counter", "instances", "query_only", "target", "files"] ++
            (if r.error.isSome then ["error"] else []) ++
            (if withCandidates then ["candidates"] else []) ∧
        fields.lookup "error" = r.error.map Diagnostic.toJson ∧
        fields.lookup "candidates" =
          if withCandidates then some (.list (r.candidates.map Decl.toJson)) else none := by
  refine ⟨?ascii, Json.read_render _, _, rfl, ?names, ?error, ?candidates⟩
  case ascii =>
    rw [report, Json.render, String.toList_ofList]
    exact Json.isAscii_chars 0 _
  -- the fields that may be missing decide the shape
  all_goals cases r.error <;> cases withCandidates <;> rfl

end Indirection
