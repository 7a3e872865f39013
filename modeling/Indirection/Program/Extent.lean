import Indirection.Program.Shape

/-!
# The extent of an expression in the token list

Main definitions:

* `Program.preorder` — the tokens of an operator tree, an operator before its operands;
* `Program.bounds` — the first and the last token of an expression, with its closing brackets and
  the redundant parentheses around it;
* `Program.stretch` — the tokens from one to another;
* `Program.rangeRoot` — the topmost operator of the expression that a stretch spells.
-/

namespace Indirection.Program

variable (u : Program)

/-! ### Traversal -/

/-- The operands that a token has, the first one first. -/
def children (i : Nat) : List Nat :=
  (u.operand1 (some i)).toList ++ (u.operand2 (some i)).toList

/-- The traversal of the trees at `pending`, without the tokens in `seen`: at most `steps` pending
    entries are taken up. -/
def preorderWithin : (steps : Nat) → (pending seen : List Nat) → List Nat
  | 0, _, _ => []
  | _ + 1, [], _ => []
  | steps + 1, i :: pending, seen =>
    if seen.contains i then preorderWithin steps pending seen
    else i :: preorderWithin steps (u.children i ++ pending) (i :: seen)

/-- The tokens that are reached from `t` through operands, each once, an operator before its
    operands and its first operand before its second. Each token puts at most two entries in
    line, so the steps suffice. -/
def preorder (t : Ref) : List Nat :=
  u.preorderWithin (2 * u.size + 1) t.toList []

/-! ### Bounds -/

/-- The one of two tokens that stands first; `a` if they stand at one place. -/
def leftmost (a b : Nat) : Nat :=
  if (u.place (some b)).before (u.place (some a)) then b else a

/-- The one of two tokens that stands last; `a` if they stand at one place. -/
def rightmost (a b : Nat) : Nat :=
  if (u.place (some a)).before (u.place (some b)) then b else a

/-- Whether the token `before` opens a redundant parenthesis that `after` closes. -/
def isRedundantPair (before after : Nat) : Bool :=
  u.text (some before) = "(" && u.link (some before) = some after && !u.hasTree (some before)

/-- Takes in the redundant parentheses around the tokens `first` to `last`, one pair at a time. -/
def widen : (first last : Nat) → Nat × Nat
  | 0, last => (0, last)
  | i + 1, last =>
    match u.next (some last) with
    | some after => if u.isRedundantPair i after then widen i after else (i + 1, last)
    | none => (i + 1, last)

/-- The first and the last token of the expression at `t`: the extreme tokens of its tree, the last
    one moved to any closing bracket behind it, and then the redundant parentheses around both. A
    missing expression has no bounds. -/
def bounds (t : Ref) : Option (Nat × Nat) :=
  match u.preorder t with
  | [] => none
  | root :: rest =>
    let first := rest.foldl u.leftmost root
    let last := rest.foldl u.rightmost root
    let links := (root :: rest).filterMap (fun i => u.link (some i))
    some (u.widen first (links.foldl u.rightmost last))

/-! ### Stretches of tokens -/

/-- The tokens from `first` to `last`, both included; all tokens from `first` on when `last` does
    not stand behind it. -/
def stretch (first last : Ref) : List Nat :=
  match u.ref first with
  | none => []
  | some i =>
    match last with
    | some j => if i ≤ j then u.places.filter (fun k => i ≤ k && k ≤ j)
                else u.places.filter (i ≤ ·)
    | none => u.places.filter (i ≤ ·)

/-- The highest operator that is reached from `i` by at most `steps` parents inside `range`. -/
def climbWithin (range : List Nat) : (steps : Nat) → (i : Nat) → Nat
  | 0, i => i
  | steps + 1, i =>
    match u.parent (some i) with
    | some p => if range.contains p then climbWithin range steps p else i
    | none => i

/-- The topmost operator of the expression spelled by the tokens from `first` to `last`: the first
    token that takes part in a tree, followed upwards for as long as the parent stays inside. -/
def rangeRoot (first last : Ref) : Ref :=
  let range := u.stretch first last
  (range.find? (fun i => u.hasTree (some i))).map (u.climbWithin range u.size)

end Indirection.Program
