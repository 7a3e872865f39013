import Indirection.Edit.Script

/-!
# Applying a script

Main definitions:

* `splice` — the text of a file with its edits, in one pass from left to right;
* `Script.apply` — the new text of every edited file.

An edit that begins before the end of the previous one overlaps it, and then nothing is applied. Two
insertions at one offset do not overlap, nor does an insertion at either end of a removed stretch.
-/

namespace Indirection

/-- The characters of `cs` from `cursor` on, with the edits `es`. -/
def splice (path : String) (cs : List Char) : (cursor : Nat) → (es : List Edit) →
    Except Fault (List Char)
  | cursor, [] => .ok (cs.drop cursor)
  | cursor, e :: es =>
    if e.start < cursor then .error (.of (.overlap path e.start) { file := path })
    else
      match splice path cs e.stop es with
      | .ok rest => .ok ((cs.drop cursor).take (e.start - cursor) ++ (e.text.toList ++ rest))
      | .error f => .error f

/-- The new texts of the files, in the order of their first edit. -/
def Script.applyTo (s : Script) (sources : Sources) : (paths : List String) →
    Except Fault (List (String × String))
  | [] => .ok []
  | path :: rest => do
    let text ← sources path
    let cs ← splice path text.toList 0 (s.edits path)
    let others ← applyTo s sources rest
    .ok ((path, String.ofList cs) :: others)

/-- The new text of every edited file. -/
def Script.apply (s : Script) (sources : Sources) : Except Fault (List (String × String)) :=
  s.applyTo sources s.paths

end Indirection
