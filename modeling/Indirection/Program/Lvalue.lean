import Indirection.Fault
import Indirection.Program.Shape

/-!
# The declaration behind an assignment's left side

Main definitions:

* `Program.base` — an expression without the casts and the indexing around it;
* `Program.resolve` — the key of the declaration that an lvalue is rooted at: casts, indexing and
  dereferences are taken off, and a member access stands for its member.

Anything else breaks an assumption of the analysis and is refused.
-/

namespace Indirection.Program

variable (u : Program)

/-- The expression under casts and at most `steps` subscripts. -/
def baseWithin : (steps : Nat) → Ref → Ref
  | 0, t => u.skipCasts t
  | steps + 1, t =>
    let node := u.skipCasts t
    if u.isSubscript node then baseWithin steps (u.operand1 node) else node

/-- The expression under all casts and subscripts. -/
def base (t : Ref) : Ref := u.baseWithin u.size t

/-- The key of the declaration that `expr` is rooted at, through at most `steps` dereferences. The
    position of a refusal is that of the innermost expression there is. -/
def resolveWithin : (steps : Nat) → (expr : Ref) → Except Fault Int
  | 0, _ => .error .endlessChain
  | steps + 1, expr =>
    let node := u.base expr
    let refusal : Fault :=
      .of (.unresolvedTarget (u.text node)) (u.position (if node.isSome then node else expr))
    let found (key : Int) : Except Fault Int := if key = 0 then .error refusal else .ok key
    if u.isMemberAccess node then found (u.declKey (u.operand2 node))
    else if u.isName node then found (u.declKey node)
    else if u.isDereference node then resolveWithin steps (u.operand1 node)
    else .error refusal

/-- The key of the declaration that an lvalue is rooted at. It is never zero. -/
def resolve (expr : Ref) : Except Fault Int := u.resolveWithin (u.size + 1) expr

end Indirection.Program
