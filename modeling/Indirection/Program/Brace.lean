import Indirection.Program.Declarator
import Indirection.Trail

/-!
# Brace initializers

Main definitions:

* `Range` — a stretch of tokens by its ends;
* `Program.partner` — the partner of a bracket, which has to be there;
* `Program.expressionFrom` — the expression that begins at a token, up to the next comma, semicolon
  or closing bracket outside all brackets;
* `Program.elements` — the elements of a brace initializer;
* `Program.designated` — an element without its designator;
* `Program.values` — the values that stand in an initializer, through nested braces.
-/

namespace Indirection

/-- A stretch of tokens by its first and its last one. -/
structure Range where
  first : Ref
  last : Ref
  deriving DecidableEq

namespace Program

variable (u : Program)

/-- The brackets that open a nested stretch. -/
def openers : List String := ["(", "[", "\x7b"]

/-- The tokens at which an expression ends when they stand outside all brackets. -/
def terminators : List String := [";", ",", ")", "]", "\x7d"]

/-- The partner of the bracket at `i`. A bracket without one is refused. -/
def partner (i : Nat) : Except Fault Nat :=
  match u.link (some i) with
  | some j => .ok j
  | none => .error (.of (.unmatched (u.text (some i))) (u.position (some i)))

/-- The last token of what begins at `i`: the partner of an opening bracket, else `i` itself. -/
def closing (i : Nat) : Except Fault Nat :=
  if openers.contains (u.text (some i)) then u.partner i else .ok i

/-! ### Expressions -/

/-- The last token of the expression that goes on at `t`, when `last` is the last one so far. -/
def expressionEndWithin : (steps : Nat) → (t last : Ref) → Except Fault Ref
  | 0, _, last => .ok last
  | _ + 1, none, last => .ok last
  | steps + 1, some i, last =>
    if terminators.contains (u.text (some i)) then .ok last
    else
      match u.closing i with
      | .error f => .error f
      | .ok j => expressionEndWithin steps (u.next (some j)) (some j)

/-- The expression that begins at `t`. -/
def expressionFrom (t : Ref) : Except Fault Range :=
  match u.expressionEndWithin u.size (u.ref t) t with
  | .ok last => .ok ⟨t, last⟩
  | .error f => .error f

/-! ### Elements -/

/-- The elements from `t` up to the token `close`; `current` holds the ends of the element that has
    begun. Commas count only outside brackets, and empty elements are left out. -/
def elementsWithin (close : Nat) : (steps : Nat) → (t : Ref) → (current : Option (Nat × Nat)) →
    Except Fault (List (Nat × Nat))
  | 0, _, current => .ok current.toList
  | _ + 1, none, current => .ok current.toList
  | steps + 1, some i, current =>
    if i = close then .ok current.toList
    else if u.text (some i) = "," then
      match elementsWithin close steps (u.next (some i)) none with
      | .ok rest => .ok (current.toList ++ rest)
      | .error f => .error f
    else
      match u.closing i with
      | .error f => .error f
      | .ok j =>
        elementsWithin close steps (u.next (some j)) (some ((current.map Prod.fst).getD i, j))

/-- The elements of the brace initializer that opens at `i`, each by its ends. -/
def elements (i : Nat) : Except Fault (List (Nat × Nat)) :=
  match u.partner i with
  | .ok close => u.elementsWithin close u.size (u.next (some i)) none
  | .error f => .error f

/-- The member that a designator names, if any, and the first token of the value behind it. Both
    `.name = value` and `[index] = value` are designators; only the first names a member. -/
def designated (first last : Nat) : Option String × Ref :=
  if first = last then (none, some first)
  else if u.text (some first) = "." then
    let name := u.next (some first)
    if u.text (u.next name) = "=" then (some (u.text name), u.next (u.next name))
    else (none, some first)
  else if u.text (some first) = "[" then
    let eq := u.next (u.link (some first))
    if u.text eq = "=" then (none, u.next eq) else (none, some first)
  else (none, some first)

/-! ### Values -/

/-- The values in the initializer that begins at `t`, braces opened to a depth of `depth`. -/
def valuesWithin : (depth : Nat) → (t : Ref) → Trail Range
  | 0, _ => .fail .endlessChain
  | depth + 1, t =>
    match u.ref t with
    | some i =>
      if u.text (some i) = "\x7b" then
        .ofExcept (u.elements i) fun es => .concat (fun e =>
          let value := (u.designated e.1 e.2).2
          if u.text value = "\x7b" then valuesWithin depth value
          else .one ⟨value, some e.2⟩) es
      else .ofExcept (u.expressionFrom t) .one
    | none => .ofExcept (u.expressionFrom t) .one

/-- The values in the initializer that begins at `t`: the expression itself, or the values of all
    elements when it is a brace initializer. -/
def values (t : Ref) : Trail Range := u.valuesWithin (u.size + 1) t

end Program

end Indirection
