import Indirection.Program.Basic

/-!
# The shape of expressions

Predicates on the operator tree of a program. The tree follows these conventions:

* a unary operator has a first operand and no second one;
* a member access is a `.` (or `->`) whose second operand is the member's name; the front end
  normalises the arrow to a `.` and keeps it as the source spelling;
* indexing is a `[` with the base as first operand, a call is a `(` with the callee as first
  operand, and a cast is a `(` with the flag of a cast;
* redundant parentheses are not part of the tree.

Every predicate is false of a missing token.
-/

namespace Indirection.Program

variable (u : Program)

/-! ### Fixed vocabularies -/

/-- The operators that assign. -/
def assignmentOps : List String :=
  ["=", "+=", "-=", "*=", "/=", "%=", "&=", "|=", "^=", "<<=", ">>="]

/-- The operators that make a unary expression of a single operand. -/
def unaryOps : List String := ["&", "*", "+", "-", "~", "!", "++", "--"]

/-- The spellings of a zero that converts to a pointer of any level. -/
def nullConstants : List String := ["0", "0L", "0U", "0UL"]

/-! ### Operands -/

/-- Whether a token takes part in an operator tree. -/
def hasTree (t : Ref) : Bool :=
  (u.parent t).isSome || (u.operand1 t).isSome || (u.operand2 t).isSome

/-- Whether a token has an operand. -/
def hasOperands (t : Ref) : Bool :=
  (u.operand1 t).isSome || (u.operand2 t).isSome

/-- Whether a token has exactly a first operand. -/
def isUnaryOp (t : Ref) : Bool :=
  (u.operand1 t).isSome && (u.operand2 t).isNone

/-- Whether a token has two operands. -/
def isBinaryOp (t : Ref) : Bool :=
  (u.operand1 t).isSome && (u.operand2 t).isSome

/-! ### Leaves -/

/-- Whether a token is a name. -/
def isName (t : Ref) : Bool := u.flag Token.isName t

/-- Whether a token is a number. -/
def isNumber (t : Ref) : Bool := u.flag Token.isNumber t

/-- Whether a token is a literal zero. -/
def isNullConstant (t : Ref) : Bool :=
  u.isNumber t && nullConstants.contains (u.text t)

/-- Whether a token is a bare name that stands for a variable, a function or an enumerator. -/
def isDeclarationReference (t : Ref) : Bool :=
  u.isName t && !u.hasOperands t &&
    (u.varId t ≠ 0 || (u.var t).isSome || u.flag Token.isFunction t || u.flag Token.isEnumerator t)

/-! ### Operators -/

/-- Whether a token is the parenthesis of a cast. -/
def isCast (t : Ref) : Bool := u.flag Token.isCast t

/-- Whether a token assigns, plainly or with an operation; it has both operands. -/
def isAssignment (t : Ref) : Bool :=
  (u.flag Token.isAssignmentOp t || assignmentOps.contains (u.text t)) && u.isBinaryOp t

/-- Whether a token is `++` or `--`. -/
def isIncrementDecrement (t : Ref) : Bool :=
  ["++", "--"].contains (u.text t)

/-- Whether a token dereferences its operand. -/
def isDereference (t : Ref) : Bool := u.text t = "*" && u.isUnaryOp t

/-- Whether a token takes the address of its operand. -/
def isAddressOf (t : Ref) : Bool := u.text t = "&" && u.isUnaryOp t

/-- Whether a token is a unary operator, in front of its operand or behind it. -/
def isUnaryExpression (t : Ref) : Bool := unaryOps.contains (u.text t) && u.isUnaryOp t

/-- Whether a token indexes its first operand. -/
def isSubscript (t : Ref) : Bool := u.text t = "[" && (u.operand1 t).isSome

/-- Whether a token accesses a member. -/
def isMemberAccess (t : Ref) : Bool :=
  [".", "->"].contains (u.text t) && (u.operand2 t).isSome

/-- Whether a token accesses a member through a pointer. -/
def isArrow (t : Ref) : Bool := u.isMemberAccess t && u.sourceText t = "->"

/-- Whether a token calls its first operand. -/
def isFunctionCall (t : Ref) : Bool :=
  u.text t = "(" && (u.operand1 t).isSome && !u.isCast t

/-- Whether an operator written directly in front of the expression at `t` applies to all of it. -/
def isPostfixOrPrimary (t : Ref) : Bool :=
  if !u.hasOperands t then u.isName t || u.isNumber t
  else u.isSubscript t || u.isMemberAccess t || u.isFunctionCall t || u.isUnaryExpression t

/-! ### Casts -/

/-- What is left of an expression after at most `steps` casts around it are taken off. -/
def skipCastsWithin : (steps : Nat) → Ref → Ref
  | 0, t => t
  | steps + 1, t => if u.isCast t then skipCastsWithin steps (u.operand1 t) else t

/-- The expression under all casts. A chain of casts that is no cycle has at most as many of them
    as the program has tokens. -/
def skipCasts (t : Ref) : Ref := u.skipCastsWithin u.size t

/-- An expression that is no cast is left alone. -/
theorem skipCastsWithin_of_not_cast {t : Ref} (h : u.isCast t = false) (steps : Nat) :
    u.skipCastsWithin steps t = t := by
  cases steps <;> simp [skipCastsWithin, h]

end Indirection.Program
