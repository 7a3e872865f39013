/-!
# Sets of characters as turning points

Main definitions:

* `CharSet` — a set of characters, given by the code points where membership changes;
* `CharSet.contains` — membership: an odd number of turning points lies at or below the character.

A property of a character standard is a few hundred ranges of code points; the list of their first
members and of the first points after them is the shortest way to write it down.
-/

namespace Indirection.Text

/-- A set of characters. `turns` lists, in increasing order, each code point at which membership
    changes, starting outside the set. -/
structure CharSet where
  turns : List Nat

namespace CharSet

/-- Whether the code point `n` lies in the set that starts, for points below the list, with the
    answer `inside`. -/
def lookup (n : Nat) (inside : Bool) : List Nat → Bool
  | [] => inside
  | t :: rest => if t ≤ n then lookup n (!inside) rest else inside

/-- Membership. -/
def contains (s : CharSet) (c : Char) : Bool :=
  lookup c.toNat false s.turns

/-- Past the last turning point that is not above `n`, the answer no longer changes. -/
theorem lookup_of_lt {n t : Nat} (h : n < t) (inside : Bool) (rest : List Nat) :
    lookup n inside (t :: rest) = inside := by
  simp [lookup, Nat.not_le.2 h]

/-- A turning point at or below `n` reverses the answer. -/
theorem lookup_of_le {n t : Nat} (h : t ≤ n) (inside : Bool) (rest : List Nat) :
    lookup n inside (t :: rest) = lookup n (!inside) rest := by
  simp [lookup, h]

end CharSet

end Indirection.Text
