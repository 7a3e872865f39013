import Indirection.Fault

/-!
# Encodings of text files

Main definitions:

* `Encoding` — the encodings in use, and `Encoding.ofName?`, which finds one;
* `Encoding.normalName` — what counts in a name: its letters and digits, its points, and where
  something else stands between them;
* `Encoding.decode` — the text of a file, or the fault that its bytes are none.

Line ends are kept as they are.
-/

namespace Indirection

/-- An encoding of text. -/
inductive Encoding where
  | utf8
  /-- UTF-8 behind a mark that is dropped -/
  | utf8Marked
  | latin1
  | ascii
  deriving DecidableEq

namespace Encoding

/-! ### Names -/

/-- The encodings by their own names, in normal form. -/
def names : List (String × Encoding) :=
  [("utf_8", utf8), ("utf_8_sig", utf8Marked), ("latin_1", latin1), ("ascii", ascii)]

/-- The other names of encodings, in normal form. -/
def aliases : List (String × Encoding) := [
  ("cp65001", utf8), ("u8", utf8), ("utf", utf8), ("utf8", utf8), ("utf8_ucs2", utf8),
  ("utf8_ucs4", utf8),
  ("8859", latin1), ("cp819", latin1), ("csisolatin1", latin1), ("ibm819", latin1),
  ("iso8859", latin1), ("iso8859_1", latin1), ("iso_8859_1", latin1), ("iso_8859_1_1987", latin1),
  ("iso_ir_100", latin1), ("l1", latin1), ("latin", latin1), ("latin1", latin1),
  ("646", ascii), ("ansi_x3.4_1968", ascii), ("ansi_x3_4_1968", ascii), ("ansi_x3.4_1986", ascii),
  ("cp367", ascii), ("csascii", ascii), ("ibm367", ascii), ("iso646_us", ascii),
  ("iso_646.irv_1991", ascii), ("iso_ir_6", ascii), ("us", ascii), ("us_ascii", ascii)]

/-- Whether a character of a name counts by itself. -/
def isKept (c : Char) : Bool := c.isAlphanum || c = '.'

/-- The normal form of the rest of a name; `started` says whether something is kept in front of it,
    and `gap` whether other characters stand in between. -/
def normalChars : (started gap : Bool) → List Char → List Char
  | _, _, [] => []
  | started, gap, c :: cs =>
    if isKept c then
      if started && gap then '_' :: c.toLower :: normalChars true false cs
      else c.toLower :: normalChars true false cs
    else normalChars started true cs

/-- The normal form of a name: in small letters, and one low line for all that stands between two
    characters that count. -/
def normalName (name : String) : String := String.ofList (normalChars false false name.toList)

/-- A normal form with low lines in place of its points. -/
def withoutPoints (name : String) : String :=
  String.ofList (name.toList.map fun c => if c = '.' then '_' else c)

/-- The encoding of a name. -/
def ofName? (name : String) : Option Encoding :=
  let n := normalName name
  (aliases.lookup n).or ((aliases.lookup (withoutPoints n)).or (names.lookup n))

/-! ### Texts -/

/-- The bytes of the mark in front of a text. -/
def mark : List UInt8 := [0xef, 0xbb, 0xbf]

/-- The characters that stand for single bytes. -/
def ofBytes (bytes : ByteArray) : String :=
  String.ofList (bytes.toList.map fun b => Char.ofNat b.toNat)

/-- The text that the bytes of a file spell. A file that ends inside its mark holds the empty
    text. -/
def decode (e : Encoding) (bytes : ByteArray) : Except Fault String :=
  let unicode (bytes : ByteArray) : Except Fault String :=
    match String.fromUTF8? bytes with
    | some s => .ok s
    | none => .error .undecodable
  match e with
  | utf8 => unicode bytes
  | utf8Marked =>
    let all := bytes.toList
    if all.isPrefixOf mark then .ok ""
    else if mark.isPrefixOf all then unicode ⟨(all.drop 3).toArray⟩
    else unicode bytes
  | latin1 => .ok (ofBytes bytes)
  | ascii => if bytes.toList.all (· < 0x80) then .ok (ofBytes bytes) else .error .undecodable

end Encoding

end Indirection
