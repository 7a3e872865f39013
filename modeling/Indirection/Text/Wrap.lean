import Indirection.Text.Blank
import Indirection.Text.DigitChar
import Indirection.Text.WordChar

/-!
# Breaking a text into lines

Main definitions:

* `expandTabs`, `flatten` — a text with tabs filled up to columns of eight, and then with every
  white space of ASCII written as a space;
* `chunks` — the pieces between which a line may break: runs of spaces, words, parts of words up to
  a hyphen between letters, and dashes between words;
* `wrap` — the lines of at most a given width.

A piece longer than a line is cut, behind its last hyphen if that leaves anything else in front.
Runs of white space disappear at the end of a line and at the start of any line but the first.
-/

namespace Indirection.Text

/-! ### White space -/

/-- Tabs filled with spaces up to the next multiple of eight; lines begin behind a line feed or a
    carriage return. -/
def expandTabs : (column : Nat) → List Char → List Char
  | _, [] => []
  | column, '\t' :: cs =>
    List.replicate (8 - column % 8) ' ' ++ expandTabs (column + (8 - column % 8)) cs
  | column, c :: cs =>
    c :: expandTabs (if c = '\n' || c = '\r' then 0 else column + 1) cs

/-- Whether a line may break at a character: the white space of ASCII. -/
def isBreak (c : Char) : Bool :=
  c = ' ' || c = '\t' || c = '\n' || c = '\r' || c = '\x0b' || c = '\x0c'

/-- A text in which spaces are the only characters where a line may break. -/
def flatten (cs : List Char) : List Char :=
  (expandTabs 0 cs).map (fun c => if isBreak c then ' ' else c)

/-! ### Pieces -/

/-- Whether a character belongs to words, punctuation at their ends included. -/
def isWordOrPoint (c : Char) : Bool :=
  wordChars.contains c || ['!', '"', '\'', '&', '.', ',', '?'].contains c

/-- Whether a character is a letter: it belongs to words and is no decimal digit. -/
def isLetter (c : Char) : Bool := wordChars.contains c && (digitValue? c).isNone

/-- Whether a dash of two or more hyphens begins `cs`, with a word behind it. -/
def dashBegins (cs : List Char) : Bool :=
  2 ≤ (cs.takeWhile (· = '-')).length && (cs.dropWhile (· = '-')).head?.any (wordChars.contains ·)

/-- Whether a line may break behind a hyphen: there are two letters in front of it, or two letters
    with a hyphen between. `before` runs backwards. -/
def hyphenJoins : (before : List Char) → Bool
  | b :: a :: rest => isLetter b && (isLetter a || (a = '-' && rest.head?.any isLetter))
  | _ => false

/-- Whether a word goes on behind a hyphen: with two letters, or two with a hyphen between. -/
def wordGoesOn : (after : List Char) → Bool
  | a :: b :: rest => isLetter a && (isLetter b || (b = '-' && rest.head?.any isLetter))
  | _ => false

/-- How many characters of `after` a piece takes that is inside a word; `before` holds the
    characters in front of them, the last one first. -/
def wordLength : (before after : List Char) → Nat
  | _, [] => 0
  | before, c :: after =>
    if c = '-' && hyphenJoins before && wordGoesOn after then 1
    else if isBreak c then 0
    else if before.head?.any isWordOrPoint && dashBegins (c :: after) then 0
    else wordLength (c :: before) after + 1

/-- The length of the piece that begins `cs`, less one. -/
def chunkTail (before : List Char) (c : Char) (cs : List Char) : Nat :=
  if isBreak c then (cs.takeWhile isBreak).length
  else if before.head?.any isWordOrPoint && dashBegins (c :: cs) then
    (cs.takeWhile (· = '-')).length
  else wordLength (c :: before) cs

/-- The pieces of a text, of which `rest` more characters belong to the piece `current`. Both
    `current` and `before` run backwards. -/
def chunksFrom : (before current : List Char) → (rest : Nat) → List Char → List (List Char)
  | _, current, _, [] => if current.isEmpty then [] else [current.reverse]
  | before, current, rest + 1, c :: cs => chunksFrom (c :: before) (c :: current) rest cs
  | before, current, 0, c :: cs =>
    let tail := chunksFrom (c :: before) [c] (chunkTail before c cs) cs
    if current.isEmpty then tail else current.reverse :: tail

/-- The pieces of a text. -/
def chunks (cs : List Char) : List (List Char) := chunksFrom [] [] 0 cs

/-! ### Lines -/

/-- Whether a piece consists of white space. -/
def isBlankChunk (chunk : List Char) : Bool := chunk.all isBlank

/-- The pieces that fit on a line that has `room` left, and the others. -/
def fill : (room : Nat) → List (List Char) → List (List Char) × List (List Char)
  | _, [] => ([], [])
  | room, c :: cs =>
    if c.length ≤ room then
      let (line, rest) := fill (room - c.length) cs
      (c :: line, rest)
    else ([], c :: cs)

/-- Where a piece too long for `room` characters is cut. -/
def cutAt (room : Nat) (chunk : List Char) : Nat :=
  let last := ((chunk.take room).reverse.dropWhile (· ≠ '-')).length
  if 1 < last && (chunk.take (last - 1)).any (· ≠ '-') then last else room

/-- A line that ends in a blank piece, without that piece. -/
def dropBlankEnd (line : List (List Char)) : List (List Char) :=
  if line.getLast?.any isBlankChunk then line.dropLast else line

/-- The lines that hold the pieces, at most `steps` of them; `started` says whether there is a line
    in front. -/
def linesWithin (width : Nat) : (steps : Nat) → (started : Bool) → List (List Char) →
    List (List Char)
  | 0, _, _ => []
  | _ + 1, _, [] => []
  | steps + 1, started, c :: cs =>
    let pieces := if started && isBlankChunk c then cs else c :: cs
    let (line, rest) := fill width pieces
    let (line, rest) :=
      match rest with
      | long :: others =>
        if width < long.length then
          let cut := cutAt (width - line.flatten.length) long
          (line ++ [long.take cut], long.drop cut :: others)
        else (line, rest)
      | [] => (line, rest)
    let line := dropBlankEnd line
    if line.isEmpty then linesWithin width steps started rest
    else line.flatten :: linesWithin width steps true rest

/-- The lines of a text, each of at most `width` characters. Every line takes up at least one
    character of the text, so the steps suffice. -/
def wrap (width : Nat) (s : String) : List String :=
  let cs := flatten s.toList
  (linesWithin width (cs.length + 1) false (chunks cs)).map String.ofList

end Indirection.Text
