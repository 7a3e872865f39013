import Indirection.Edit.Anchor
import Indirection.Event

/-!
# Edit scripts

Main definitions:

* `Edit`, `Replacement` — an edit of a file, and an edit that is not numbered yet;
* `Script` — the edits of a run by file, in the order they were recorded;
* `Script.add` — records an edit; one that is there already is counted but not kept;
* `Change` — an edit in terms of tokens, and `Program.place?`, which finds its offsets;
* `Script.change`, `Script.attempt` — record a change, or leave the script as it was;
* `Script.edits` — the edits of a file in the order they apply: by start, by end, then by number.

All offsets refer to the text before any edit.
-/

namespace Indirection

/-- An edit whose offsets are known. -/
structure Replacement where
  path : String
  start : Nat
  stop : Nat
  text : String
  deriving DecidableEq

/-- A recorded edit of a file; `seq` is the number of the attempt that recorded it. -/
structure Edit where
  start : Nat
  stop : Nat
  text : String
  seq : Nat
  deriving DecidableEq

namespace Edit

/-- Whether an edit removes nothing. -/
def isInsertion (e : Edit) : Bool := e.start = e.stop

/-- Whether an edit does what the replacement does. -/
def agrees (e : Edit) (r : Replacement) : Bool :=
  e.start = r.start && e.stop = r.stop && e.text = r.text

/-- Whether `a` applies before `b`. -/
def precedes (a b : Edit) : Bool :=
  a.start < b.start ||
    (a.start = b.start && (a.stop < b.stop || (a.stop = b.stop && a.seq < b.seq)))

/-- An edit put into a list in which edits apply in order. -/
def insertOrdered (e : Edit) : List Edit → List Edit
  | [] => [e]
  | d :: rest => if e.precedes d then e :: d :: rest else d :: insertOrdered e rest

/-- The edits in the order they apply. -/
def inOrder (es : List Edit) : List Edit := es.foldr insertOrdered []

/-- Putting an edit in its place loses none. -/
theorem mem_insertOrdered {e d : Edit} {es : List Edit} :
    d ∈ insertOrdered e es ↔ d = e ∨ d ∈ es := by
  induction es with
  | nil => simp [insertOrdered]
  | cons c rest ih =>
    unfold insertOrdered
    split
    · simp
    · simp only [List.mem_cons, ih]
      constructor
      · rintro (h | h | h) <;> simp [h]
      · rintro (h | h | h) <;> simp [h]

/-- Ordering edits neither adds nor drops one. -/
theorem mem_inOrder {d : Edit} {es : List Edit} : d ∈ inOrder es ↔ d ∈ es := by
  induction es with
  | nil => simp [inOrder]
  | cons c rest ih =>
    have : inOrder (c :: rest) = insertOrdered c (inOrder rest) := rfl
    rw [this, mem_insertOrdered, ih, List.mem_cons]

end Edit

/-! ### Scripts -/

/-- The edits recorded so far: for each file, in the order of its first edit, its edits in the order
    they were recorded. `attempts` counts all recordings, also those of edits already there. -/
structure Script where
  attempts : Nat := 0
  files : List (String × List Edit) := []
  deriving DecidableEq

namespace Script

/-- The edits of a file in the order they were recorded. -/
def recorded (s : Script) (path : String) : List Edit := (s.files.lookup path).getD []

/-- The edits of a file in the order they apply. -/
def edits (s : Script) (path : String) : List Edit := Edit.inOrder (s.recorded path)

/-- The files with an edit, in the order of their first one. -/
def paths (s : Script) : List String := s.files.map Prod.fst

/-- Whether any edit is recorded. -/
def hasEdits (s : Script) : Bool := s.files.any (fun f => !f.2.isEmpty)

/-- Whether the script has an edit that does what the replacement does. -/
def contains (s : Script) (r : Replacement) : Bool := (s.recorded r.path).any (·.agrees r)

/-- An edit put behind the edits of its file. -/
def append (path : String) (e : Edit) : List (String × List Edit) → List (String × List Edit)
  | [] => [(path, [e])]
  | (p, es) :: rest =>
    if p = path then (p, es ++ [e]) :: rest else (p, es) :: append path e rest

/-- Records a replacement. -/
def add (s : Script) (r : Replacement) : Script :=
  let seq := s.attempts + 1
  if s.contains r then { s with attempts := seq }
  else { attempts := seq, files := append r.path ⟨r.start, r.stop, r.text, seq⟩ s.files }

/-- What is told about a recording. -/
def eventsOf (s : Script) (r : Replacement) : List Event :=
  if s.contains r then [] else [.edited r.path r.start r.stop r.text]

end Script

/-! ### Changes of tokens -/

/-- An edit in terms of tokens. -/
inductive Change where
  | insertBefore (t : Ref) (text : String)
  | insertAfter (t : Ref) (text : String)
  | replace (t : Ref) (text : String)
  /-- from the first token to the last one, everything between them included -/
  | removeRange (first last : Ref)
  deriving DecidableEq

/-- The removal of a token. -/
def Change.remove (t : Ref) : Change := .replace t ""

/-- A change with the offsets that its tokens have in their files. -/
def Program.place? (u : Program) (sources : Sources) : Change → Except Fault Replacement
  | .insertBefore t text => do
    let s ← u.locate sources t
    .ok ⟨s.path, s.start, s.start, text⟩
  | .insertAfter t text => do
    let s ← u.locate sources t
    .ok ⟨s.path, s.stop, s.stop, text⟩
  | .replace t text => do
    let s ← u.locate sources t
    .ok ⟨s.path, s.start, s.stop, text⟩
  | .removeRange first last => do
    let a ← u.locate sources first
    let b ← u.locate sources last
    if b.path ≠ a.path || b.stop < a.start then .error (.of .brokenRange (u.position first))
    else .ok ⟨a.path, a.start, b.stop, ""⟩

/-- Records a change; one whose tokens are not found leaves the script as it was. -/
def Script.change (s : Script) (u : Program) (sources : Sources) (c : Change) :
    Except Fault Script := do
  let r ← u.place? sources c
  .ok (s.add r)

/-- The script behind an attempt to record a change, and the fault that it ends in if a token of the
    change is not found. -/
def Script.attempt (s : Script) (u : Program) (sources : Sources) (c : Change) :
    Script × Option Fault :=
  match s.change u sources c with
  | .ok s' => (s', none)
  | .error f => (s, some f)

end Indirection
