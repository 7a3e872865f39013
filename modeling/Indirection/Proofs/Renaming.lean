import Indirection.Collect
import Indirection.Proofs.Refusal
import Mathlib.Data.List.Basic

/-!
# Programs with other identifiers

The identifier of a variable tells whether two names stand for one variable, and zero that a name
stands for none. Nothing else is read off it, which is shown here function by function. Main
definitions:

* `Renaming` — other identifiers, told apart as before;
* `Token.rename`, `Program.rename`, `Decl.rename`, `MemberId.rename` — tokens, programs,
  declarations and members with other identifiers.

Main statements: `declKey_rename` — keys change with the identifiers; `isDeclaratorName_rename`,
`isSplitInitializer_rename`, `members_rename`, `typeText_rename` — what compares keys, or asks for
one, does not; `plan_rename`, `performPlan_rename` — a declaration has the same plan under another
key, and the same edits are recorded.
-/

namespace Indirection

/-- Other identifiers. Different ones stay different, and zero goes on to stand for none. -/
structure Renaming where
  toFun : Int → Int
  injective : Function.Injective toFun
  map_zero : toFun 0 = 0

namespace Renaming

/-- A renaming is used as a function. -/
instance : CoeFun Renaming fun _ => Int → Int := ⟨toFun⟩

variable (f : Renaming)

/-- Identifiers are told apart as before. -/
@[simp] theorem eq_iff {a b : Int} : f a = f b ↔ a = b := f.injective.eq_iff

/-- No variable gets the identifier of none. -/
@[simp] theorem eq_zero_iff {a : Int} : f a = 0 ↔ a = 0 := by
  rw [← f.injective.eq_iff (a := a), f.map_zero]

/-- The negated identifiers. -/
def negated : Renaming where
  toFun v := -v
  injective := fun _ _ h => Int.neg_inj.1 h
  map_zero := rfl

end Renaming

/-- A token whose variable has another identifier. -/
def Token.rename (f : Renaming) (k : Token) : Token := { k with varId := f k.varId }

/-- What identifies a member, with other identifiers. -/
def MemberId.rename (f : Renaming) : MemberId → MemberId
  | declared key => declared (f key)
  | entry v => entry v

/-- Members that are told apart stay so: no key is taken for a record of its own. -/
theorem MemberId.rename_injective (f : Renaming) : Function.Injective (MemberId.rename f) := by
  intro a b h
  cases a <;> cases b <;> simp_all [MemberId.rename]

/-- A declaration whose key is another identifier. -/
def Decl.rename (f : Renaming) (d : Decl) : Decl := { d with key := f d.key }

namespace Program

/-- A program whose variables have other identifiers. -/
def rename (f : Renaming) (u : Program) : Program :=
  { u with tokens := u.tokens.map (Token.rename f) }

variable (f : Renaming) (u : Program)

/-! ### Tokens -/

/-- There are as many tokens. -/
@[simp] theorem size_rename : (u.rename f).size = u.size := Array.size_map

/-- The places of tokens are the same. -/
@[simp] theorem places_rename : (u.rename f).places = u.places := by
  rw [places, size_rename, places]

/-- A reference leads out of the program or not, whatever the identifiers are. -/
@[simp] theorem ref_rename (r : Ref) : (u.rename f).ref r = u.ref r := by
  rw [ref, size_rename, ref]

/-- Only the identifier of a token changes. -/
@[simp] theorem token?_rename (t : Ref) :
    (u.rename f).token? t = (u.token? t).map (Token.rename f) := by
  cases t with
  | none => rfl
  | some i => exact Array.getElem?_map

/-- What does not depend on identifiers is the same of a token. -/
theorem map_token?_rename {α : Type} {g : Token → α} (hg : ∀ k, g (k.rename f) = g k) (t : Ref) :
    ((u.rename f).token? t).map g = (u.token? t).map g := by
  rw [token?_rename, Option.map_map]
  exact congrArg (Option.map · (u.token? t)) (funext hg)

/-- The same for what a token may be without. -/
theorem bind_token?_rename {α : Type} {g : Token → Option α} (hg : ∀ k, g (k.rename f) = g k)
    (t : Ref) : ((u.rename f).token? t).bind g = (u.token? t).bind g := by
  rw [token?_rename, Option.bind_map]
  exact congrArg (Option.bind (u.token? t)) (funext hg)

/-- The text of a token does not depend on identifiers. -/
@[simp] theorem text_rename (t : Ref) : (u.rename f).text t = u.text t := by
  rw [text, map_token?_rename f u fun _ => rfl, text]

/-- Nor does its spelling in the source. -/
@[simp] theorem sourceText_rename (t : Ref) : (u.rename f).sourceText t = u.sourceText t := by
  unfold sourceText
  rw [token?_rename]
  cases u.token? t <;> rfl

/-- The first operand is the same token. -/
@[simp] theorem operand1_rename (t : Ref) : (u.rename f).operand1 t = u.operand1 t := by
  rw [operand1, bind_token?_rename f u fun _ => rfl, ref_rename, operand1]

/-- The second operand is the same token. -/
@[simp] theorem operand2_rename (t : Ref) : (u.rename f).operand2 t = u.operand2 t := by
  rw [operand2, bind_token?_rename f u fun _ => rfl, ref_rename, operand2]

/-- The operator above a token is the same one. -/
@[simp] theorem parent_rename (t : Ref) : (u.rename f).parent t = u.parent t := by
  rw [parent, bind_token?_rename f u fun _ => rfl, ref_rename, parent]

/-- The partner of a bracket is the same token. -/
@[simp] theorem link_rename (t : Ref) : (u.rename f).link t = u.link t := by
  rw [link, bind_token?_rename f u fun _ => rfl, ref_rename, link]

/-- The token behind a token is the same one. -/
@[simp] theorem next_rename (t : Ref) : (u.rename f).next t = u.next t := ref_rename f u _

/-- The token in front of a token is the same one. -/
@[simp] theorem previous_rename (t : Ref) : (u.rename f).previous t = u.previous t := by
  rw [previous, ref_rename, previous]

/-- A token refers to the same entry of the variables. -/
@[simp] theorem var_rename (t : Ref) : (u.rename f).var t = u.var t := by
  rw [var, bind_token?_rename f u fun _ => rfl]
  rfl

/-- The type of a value is the same. -/
@[simp] theorem valueType?_rename (t : Ref) : (u.rename f).valueType? t = u.valueType? t := by
  rw [valueType?, bind_token?_rename f u fun _ => rfl]
  rfl

/-- So is the number of stars in it. -/
@[simp] theorem pointerLevel_rename (t : Ref) :
    (u.rename f).pointerLevel t = u.pointerLevel t := by
  rw [pointerLevel, valueType?_rename, pointerLevel]

/-- What a flag says of a token, it says of the renamed one. -/
theorem flag_rename {g : Token → Bool} (hg : ∀ k, g (k.rename f) = g k) (t : Ref) :
    (u.rename f).flag g t = u.flag g t := by
  unfold flag
  rw [token?_rename, Option.any_map]
  exact congrArg (Option.any · (u.token? t)) (funext hg)

/-- A token keeps its position. -/
@[simp] theorem position_rename (t : Ref) : (u.rename f).position t = u.position t := by
  unfold position
  rw [token?_rename]
  cases u.token? t <;> rfl

/-- A token keeps the place where messages see it. -/
@[simp] theorem place_rename (t : Ref) : (u.rename f).place t = u.place t := by
  rw [place, position_rename, place]

/-- The identifier of a name changes. -/
@[simp] theorem varId_rename (t : Ref) : (u.rename f).varId t = f (u.varId t) := by
  unfold varId
  rw [token?_rename]
  cases u.token? t with
  | none => exact f.map_zero.symm
  | some k => rfl

/-! ### Variables and scopes -/

/-- The entries of the variables hold no identifiers. -/
@[simp] theorem variableAt?_rename (v : Option Nat) :
    (u.rename f).variableAt? v = u.variableAt? v := rfl

/-- A variable records the same name token. -/
@[simp] theorem nameToken_rename (v : Option Nat) :
    (u.rename f).nameToken v = u.nameToken v := ref_rename f u _

/-- A variable belongs to the same scope. -/
@[simp] theorem scopeOf_rename (v : Option Nat) : (u.rename f).scopeOf v = u.scopeOf v := rfl

/-- The scopes hold no identifiers. -/
@[simp] theorem scope?_rename (s : Option Nat) : (u.rename f).scope? s = u.scope? s := rfl

/-- A scope is that of a record as before. -/
@[simp] theorem isRecordScope_rename (s : Option Nat) :
    (u.rename f).isRecordScope s = u.isRecordScope s := rfl

/-- The key of a declaration is an identifier, and changes with it. -/
@[simp] theorem declKey_rename (t : Ref) : (u.rename f).declKey t = f (u.declKey t) := by
  simp only [declKey, var_rename, nameToken_rename, varId_rename, ne_eq, Renaming.eq_zero_iff]
  split <;> rfl

/-! ### The shape of expressions -/

/-- A token is in a tree as before. -/
@[simp] theorem hasTree_rename (t : Ref) : (u.rename f).hasTree t = u.hasTree t := by
  simp only [hasTree, parent_rename, operand1_rename, operand2_rename]

/-- A token has operands as before. -/
@[simp] theorem hasOperands_rename (t : Ref) : (u.rename f).hasOperands t = u.hasOperands t := by
  simp only [hasOperands, operand1_rename, operand2_rename]

/-- A token is a unary operator as before. -/
@[simp] theorem isUnaryOp_rename (t : Ref) : (u.rename f).isUnaryOp t = u.isUnaryOp t := by
  simp only [isUnaryOp, operand1_rename, operand2_rename]

/-- A token is a binary operator as before. -/
@[simp] theorem isBinaryOp_rename (t : Ref) : (u.rename f).isBinaryOp t = u.isBinaryOp t := by
  simp only [isBinaryOp, operand1_rename, operand2_rename]

/-- A token is a name as before. -/
@[simp] theorem isName_rename (t : Ref) : (u.rename f).isName t = u.isName t :=
  flag_rename f u (fun _ => rfl) t

/-- A token is a number as before. -/
@[simp] theorem isNumber_rename (t : Ref) : (u.rename f).isNumber t = u.isNumber t :=
  flag_rename f u (fun _ => rfl) t

/-- A token is a cast as before. -/
@[simp] theorem isCast_rename (t : Ref) : (u.rename f).isCast t = u.isCast t :=
  flag_rename f u (fun _ => rfl) t

/-- A token is a literal zero as before. -/
@[simp] theorem isNullConstant_rename (t : Ref) :
    (u.rename f).isNullConstant t = u.isNullConstant t := by
  simp only [isNullConstant, isNumber_rename, text_rename]

/-- A name without an identifier has none under another renaming. -/
@[simp] theorem isDeclarationReference_rename (t : Ref) :
    (u.rename f).isDeclarationReference t = u.isDeclarationReference t := by
  simp only [isDeclarationReference, isName_rename, hasOperands_rename, varId_rename, var_rename,
    ne_eq, Renaming.eq_zero_iff, flag_rename f u (g := Token.isFunction) fun _ => rfl,
    flag_rename f u (g := Token.isEnumerator) fun _ => rfl]

/-- A token assigns as before. -/
@[simp] theorem isAssignment_rename (t : Ref) :
    (u.rename f).isAssignment t = u.isAssignment t := by
  simp only [isAssignment, flag_rename f u (g := Token.isAssignmentOp) fun _ => rfl, text_rename,
    isBinaryOp_rename]

/-- A token counts up or down as before. -/
@[simp] theorem isIncrementDecrement_rename (t : Ref) :
    (u.rename f).isIncrementDecrement t = u.isIncrementDecrement t := by
  simp only [isIncrementDecrement, text_rename]

/-- A star is a dereference as before. -/
@[simp] theorem isDereference_rename (t : Ref) :
    (u.rename f).isDereference t = u.isDereference t := by
  simp only [isDereference, text_rename, isUnaryOp_rename]

/-- An `&` takes an address as before. -/
@[simp] theorem isAddressOf_rename (t : Ref) : (u.rename f).isAddressOf t = u.isAddressOf t := by
  simp only [isAddressOf, text_rename, isUnaryOp_rename]

/-- An expression is unary as before. -/
@[simp] theorem isUnaryExpression_rename (t : Ref) :
    (u.rename f).isUnaryExpression t = u.isUnaryExpression t := by
  simp only [isUnaryExpression, text_rename, isUnaryOp_rename]

/-- A bracket indexes as before. -/
@[simp] theorem isSubscript_rename (t : Ref) : (u.rename f).isSubscript t = u.isSubscript t := by
  simp only [isSubscript, text_rename, operand1_rename]

/-- A token accesses a member as before. -/
@[simp] theorem isMemberAccess_rename (t : Ref) :
    (u.rename f).isMemberAccess t = u.isMemberAccess t := by
  simp only [isMemberAccess, text_rename, operand2_rename]

/-- An access goes through a pointer as before. -/
@[simp] theorem isArrow_rename (t : Ref) : (u.rename f).isArrow t = u.isArrow t := by
  simp only [isArrow, isMemberAccess_rename, sourceText_rename]

/-- A parenthesis calls as before. -/
@[simp] theorem isFunctionCall_rename (t : Ref) :
    (u.rename f).isFunctionCall t = u.isFunctionCall t := by
  simp only [isFunctionCall, text_rename, operand1_rename, isCast_rename]

/-- An expression binds as tightly as before. -/
@[simp] theorem isPostfixOrPrimary_rename (t : Ref) :
    (u.rename f).isPostfixOrPrimary t = u.isPostfixOrPrimary t := by
  simp only [isPostfixOrPrimary, hasOperands_rename, isName_rename, isNumber_rename,
    isSubscript_rename, isMemberAccess_rename, isFunctionCall_rename, isUnaryExpression_rename]

/-- The same expression stands under the casts. -/
@[simp] theorem skipCasts_rename (t : Ref) : (u.rename f).skipCasts t = u.skipCasts t := by
  have within (steps : Nat) (t : Ref) :
      (u.rename f).skipCastsWithin steps t = u.skipCastsWithin steps t := by
    induction steps generalizing t with
    | zero => rfl
    | succ steps ih => simp only [skipCastsWithin, isCast_rename, operand1_rename, ih]
  rw [skipCasts, size_rename, within, skipCasts]

/-! ### The extent of expressions -/

/-- A token has the same operands. -/
@[simp] theorem children_rename (i : Nat) : (u.rename f).children i = u.children i := by
  simp only [children, operand1_rename, operand2_rename]

/-- A tree holds the same tokens, in the same order. -/
@[simp] theorem preorder_rename (t : Ref) : (u.rename f).preorder t = u.preorder t := by
  have within (steps : Nat) (pending seen : List Nat) :
      (u.rename f).preorderWithin steps pending seen = u.preorderWithin steps pending seen := by
    induction steps generalizing pending seen with
    | zero => rfl
    | succ steps ih =>
      cases pending with
      | nil => rfl
      | cons i pending => simp only [preorderWithin, children_rename, ih]
  rw [preorder, size_rename, within, preorder]

/-- Of two tokens the same one is further left. -/
@[simp] theorem leftmost_rename : (u.rename f).leftmost = u.leftmost := by
  funext a b
  simp only [leftmost, place_rename]

/-- Of two tokens the same one is further right. -/
@[simp] theorem rightmost_rename : (u.rename f).rightmost = u.rightmost := by
  funext a b
  simp only [rightmost, place_rename]

/-- The same parentheses enclose an expression only. -/
@[simp] theorem isRedundantPair_rename (before after : Nat) :
    (u.rename f).isRedundantPair before after = u.isRedundantPair before after := by
  simp only [isRedundantPair, text_rename, link_rename, hasTree_rename]

/-- A stretch is widened by the same parentheses. -/
@[simp] theorem widen_rename (first last : Nat) :
    (u.rename f).widen first last = u.widen first last := by
  induction first generalizing last with
  | zero => rfl
  | succ i ih => simp only [widen, next_rename, isRedundantPair_rename, ih]

/-- An expression has the same first and last token. -/
@[simp] theorem bounds_rename (t : Ref) : (u.rename f).bounds t = u.bounds t := by
  simp only [bounds, preorder_rename, leftmost_rename, rightmost_rename, link_rename, widen_rename]

/-- The same tokens stand between two ends. -/
@[simp] theorem stretch_rename (first last : Ref) :
    (u.rename f).stretch first last = u.stretch first last := by
  simp only [stretch, ref_rename, places_rename]

/-- A stretch of tokens has the same root. -/
@[simp] theorem rangeRoot_rename (first last : Ref) :
    (u.rename f).rangeRoot first last = u.rangeRoot first last := by
  have climb (range : List Nat) (steps i : Nat) :
      (u.rename f).climbWithin range steps i = u.climbWithin range steps i := by
    induction steps generalizing i with
    | zero => rfl
    | succ steps ih => simp only [climbWithin, parent_rename, ih]
  have hclimb (range : List Nat) (steps : Nat) :
      (u.rename f).climbWithin range steps = u.climbWithin range steps := funext (climb range steps)
  simp only [rangeRoot, stretch_rename, hasTree_rename, size_rename, hclimb]

/-! ### Declarators -/

/-- A declarator has the same stars. -/
@[simp] theorem stars_rename (name : Ref) : (u.rename f).stars name = u.stars name := by
  have before (i : Nat) : (u.rename f).starsBefore i = u.starsBefore i := by
    induction i with
    | zero => rfl
    | succ i ih => simp only [starsBefore, text_rename, ih]
  simp only [stars, ref_rename, before]

/-- A declarator has as many dimensions. -/
@[simp] theorem arrayRank_rename (name : Ref) : (u.rename f).arrayRank name = u.arrayRank name := by
  have within (steps : Nat) (t : Ref) :
      (u.rename f).rankWithin steps t = u.rankWithin steps t := by
    induction steps generalizing t with
    | zero => rfl
    | succ steps ih => simp only [rankWithin, text_rename, link_rename, next_rename, ih]
  rw [arrayRank, size_rename, next_rename, within, arrayRank]

/-- The same token stands behind some dimensions. -/
@[simp] theorem skipDimensionsWithin_rename (steps : Nat) (t : Ref) :
    (u.rename f).skipDimensionsWithin steps t = u.skipDimensionsWithin steps t := by
  induction steps generalizing t with
  | zero => rfl
  | succ steps ih => simp only [skipDimensionsWithin, text_rename, link_rename, next_rename, ih]

/-- The same token stands in front of some dimensions. -/
@[simp] theorem skipDimensionsBackWithin_rename (steps : Nat) (t : Ref) :
    (u.rename f).skipDimensionsBackWithin steps t = u.skipDimensionsBackWithin steps t := by
  induction steps generalizing t with
  | zero => rfl
  | succ steps ih =>
    simp only [skipDimensionsBackWithin, text_rename, link_rename, previous_rename, ih]

/-- The name in a declarator has an identifier. -/
@[simp] theorem isDeclaratorName_rename (t : Ref) :
    (u.rename f).isDeclaratorName t = u.isDeclaratorName t := by
  simp only [isDeclaratorName, var_rename, varId_rename, Renaming.eq_zero_iff, nameToken_rename,
    parent_rename, previous_rename, next_rename, text_rename, operand1_rename, isName_rename]

/-- A name stands in a designator as before. -/
@[simp] theorem isDesignator_rename (t : Ref) :
    (u.rename f).isDesignator t = u.isDesignator t := by
  simp only [isDesignator, previous_rename, next_rename, text_rename]

/-- The two names of a split declaration have one key before and after. -/
@[simp] theorem isSplitInitializer_rename (eq : Ref) :
    (u.rename f).isSplitInitializer eq = u.isSplitInitializer eq := by
  have shape : (u.rename f).hasSplitShape eq = u.hasSplitShape eq := by
    simp only [hasSplitShape, operand1_rename, previous_rename, next_rename, size_rename,
      skipDimensionsBackWithin_rename, isName_rename, text_rename, declKey_rename,
      Renaming.eq_iff, isDeclaratorName_rename]
  rw [isSplitInitializer, text_rename, bind_token?_rename f u fun _ => rfl, shape,
    isSplitInitializer]

/-- An `=` introduces an initial value as before. -/
@[simp] theorem isInitializer_rename (eq : Ref) :
    (u.rename f).isInitializer eq = u.isInitializer eq := by
  simp only [isInitializer, text_rename, operand1_rename, isDeclaratorName_rename,
    isSplitInitializer_rename]

/-- A name repeats that of a split declaration as before. -/
@[simp] theorem isSplitName_rename (t : Ref) : (u.rename f).isSplitName t = u.isSplitName t := by
  simp only [isSplitName, operand1_rename, parent_rename, isSplitInitializer_rename]

/-- The initial value of a declarator begins at the same token. -/
@[simp] theorem initializer_rename (name : Ref) :
    (u.rename f).initializer name = u.initializer name := by
  simp only [initializer, size_rename, next_rename, skipDimensionsWithin_rename, text_rename,
    declKey_rename, Renaming.eq_iff, operand1_rename, isSplitInitializer_rename]

/-! ### Brace initializers -/

/-- A bracket has the same partner, or is refused alike. -/
@[simp] theorem partner_rename (i : Nat) : (u.rename f).partner i = u.partner i := by
  simp only [partner, link_rename, text_rename, position_rename]

/-- What begins at a token has the same last token. -/
@[simp] theorem closing_rename (i : Nat) : (u.rename f).closing i = u.closing i := by
  simp only [closing, text_rename, partner_rename]

/-- An expression has the same end, or is refused alike. -/
@[simp] theorem expressionFrom_rename (t : Ref) :
    (u.rename f).expressionFrom t = u.expressionFrom t := by
  have within (steps : Nat) (t last : Ref) :
      (u.rename f).expressionEndWithin steps t last = u.expressionEndWithin steps t last := by
    induction steps generalizing t last with
    | zero => rfl
    | succ steps ih =>
      cases t with
      | none => rfl
      | some i => simp only [expressionEndWithin, text_rename, closing_rename, next_rename, ih]
  simp only [expressionFrom, size_rename, ref_rename, within]

/-- Braces have the same elements, or are refused alike. -/
@[simp] theorem elements_rename (i : Nat) : (u.rename f).elements i = u.elements i := by
  have within (close steps : Nat) (t : Ref) (current : Option (Nat × Nat)) :
      (u.rename f).elementsWithin close steps t current =
        u.elementsWithin close steps t current := by
    induction steps generalizing t current with
    | zero => rfl
    | succ steps ih =>
      cases t with
      | none => rfl
      | some i => simp only [elementsWithin, text_rename, closing_rename, next_rename, ih]
  simp only [elements, partner_rename, size_rename, next_rename, within]

/-- An element names the same member and has the same value. -/
@[simp] theorem designated_rename (first last : Nat) :
    (u.rename f).designated first last = u.designated first last := by
  simp only [designated, text_rename, next_rename, link_rename]

/-- The same values stand in an initializer. -/
@[simp] theorem values_rename (t : Ref) : (u.rename f).values t = u.values t := by
  have within (depth : Nat) (t : Ref) :
      (u.rename f).valuesWithin depth t = u.valuesWithin depth t := by
    induction depth generalizing t with
    | zero => rfl
    | succ depth ih =>
      simp only [valuesWithin, ref_rename, text_rename, elements_rename, designated_rename,
        expressionFrom_rename, ih]
  rw [values, size_rename, within, values]

/-! ### Members of records -/

/-- A declarator's type names the same record. -/
@[simp] theorem recordTypeScope_rename (name : Ref) :
    (u.rename f).recordTypeScope name = u.recordTypeScope name := by
  simp only [recordTypeScope, valueType?_rename, isRecordScope_rename]
  rfl

/-- What identifies a member is renamed with its key. -/
@[simp] theorem memberId_rename (v : Nat) :
    (u.rename f).memberId v = (u.memberId v).rename f := by
  simp only [memberId, nameToken_rename, declKey_rename, ne_eq, Renaming.eq_zero_iff]
  split <;> rfl

/-- A record has the same members: identifiers only serve to tell them apart. -/
@[simp] theorem members_rename (scope : Nat) : (u.rename f).members scope = u.members scope := by
  -- what was seen before changes together with what is to come
  have distinct (seen : List MemberId) (vs : List Nat) :
      (u.rename f).distinctMembers (seen.map (MemberId.rename f)) vs =
        u.distinctMembers seen vs := by
    induction vs generalizing seen with
    | nil => rfl
    | cons v vs ih =>
      have hseen : (seen.map (MemberId.rename f)).contains ((u.memberId v).rename f) =
          seen.contains (u.memberId v) := by
        simp only [List.contains_eq_mem,
          List.mem_map_of_injective (MemberId.rename_injective f)]
      have hnext := ih (u.memberId v :: seen)
      rw [List.map_cons] at hnext
      simp only [distinctMembers, memberId_rename, hseen, ih, hnext]
  exact distinct [] _

/-- A member has the same place. -/
@[simp] theorem memberIndex?_rename (members : List Nat) (name : String) :
    (u.rename f).memberIndex? members name = u.memberIndex? members name := by
  simp only [memberIndex?, nameToken_rename, text_rename]

/-- Each element is for the same member. -/
@[simp] theorem supplies_rename (scope : Nat) (es : List (Nat × Nat)) :
    (u.rename f).supplies scope es = u.supplies scope es := by
  have hfrom (members : List Nat) (cursor : Option Nat) (es : List (Nat × Nat)) :
      (u.rename f).suppliesFrom members cursor es = u.suppliesFrom members cursor es := by
    induction es generalizing cursor with
    | nil => rfl
    | cons e es ih =>
      have hindex : (u.rename f).memberIndex? members = u.memberIndex? members :=
        funext (memberIndex?_rename f u members)
      simp only [suppliesFrom, designated_rename, hindex, ih]
  rw [supplies, members_rename, hfrom, supplies]

/-- The values of a field are found with its own key. -/
@[simp] theorem fieldParts_rename (key : Int) (s : Supply) :
    (u.rename f).fieldParts (f key) s = u.fieldParts key s := by
  unfold fieldParts
  simp only [nameToken_rename, declKey_rename, Renaming.eq_iff, recordTypeScope_rename,
    text_rename, stars_rename, arrayRank_rename]

/-- Braces hold the same parts for the field with the new key. -/
@[simp] theorem parts_rename (key : Int) (opening record rank : Nat) :
    (u.rename f).parts (f key) opening record rank = u.parts key opening record rank := by
  have hparts : (u.rename f).fieldParts (f key) = u.fieldParts key :=
    funext (fieldParts_rename f u key)
  simp only [parts, elements_rename, supplies_rename, hparts, rowParts, designated_rename,
    text_rename]

/-- Going into braces finds the same parts and the same braces. -/
@[simp] theorem enterBraces_rename (key : Int) (depth : Nat) (seen : List Nat)
    (opening record rank : Nat) :
    (u.rename f).enterBraces (f key) depth seen opening record rank =
      u.enterBraces key depth seen opening record rank := by
  induction depth generalizing seen opening record rank with
  | zero => simp only [enterBraces]
  | succ depth ih => simp only [enterBraces, parts_rename, ih]

/-- A variable has the same braces. -/
@[simp] theorem bracesOf?_rename (name : Ref) : (u.rename f).bracesOf? name = u.bracesOf? name := by
  simp only [bracesOf?, isDeclaratorName_rename, stars_rename, recordTypeScope_rename,
    initializer_rename, text_rename, arrayRank_rename]

/-- All braces together hold the same parts for the field with the new key. -/
@[simp] theorem fieldValues_rename (key : Int) :
    (u.rename f).fieldValues (f key) = u.fieldValues key := by
  simp only [fieldValues, places_rename, declKey_rename, Renaming.eq_iff, bracesOf?_rename,
    size_rename, enterBraces_rename]

/-! ### Plans -/

/-- A value is a pointer to no particular type as before. -/
@[simp] theorem isVoidPointer_rename (t : Ref) :
    (u.rename f).isVoidPointer t = u.isVoidPointer t := by
  simp only [isVoidPointer, valueType?_rename]

/-- A value loses a level by the same changes. -/
@[simp] theorem narrow_rename (type? : Option String) (root : Ref) (range : Range) :
    (u.rename f).narrow type? root range = u.narrow type? root range := by
  simp only [narrow, narrowing, isAddressOf_rename, isNullConstant_rename,
    isPostfixOrPrimary_rename, isVoidPointer_rename]

/-- The value of an operator is narrowed by the same changes. -/
@[simp] theorem narrowExpression_rename (type? : Option String) (root : Ref) :
    (u.rename f).narrowExpression type? root = u.narrowExpression type? root := by
  simp only [narrowExpression, bounds_rename, narrow_rename]

/-- The values in an initializer are narrowed by the same changes. -/
@[simp] theorem narrowInitializer_rename (type? : Option String) (start : Ref) :
    (u.rename f).narrowInitializer type? start = u.narrowInitializer type? start := by
  have range : (u.rename f).narrowRange type? = u.narrowRange type? := by
    funext r
    simp only [narrowRange, rangeRoot_rename, narrow_rename, text_rename, position_rename]
  rw [narrowInitializer, values_rename, range, narrowInitializer]

/-- The words of a type are those without an identifier. -/
@[simp] theorem typeText_rename (name : Ref) (level : Int) :
    (u.rename f).typeText name level = u.typeText name level := by
  have words (start : Ref) : (u.rename f).typeWords start name = u.typeWords start name := by
    simp only [typeWords, stretch_rename, text_rename, declKey_rename, Renaming.eq_zero_iff,
      sourceText_rename]
  simp only [typeText, next_rename, text_rename, var_rename, variableAt?_rename, words]

/-- The same expression indexes another one through all dimensions. -/
@[simp] theorem subscripted_rename (rank : Nat) (node : Ref) :
    (u.rename f).subscripted rank node = u.subscripted rank node := by
  induction rank generalizing node with
  | zero => rfl
  | succ rank ih =>
    simp only [subscripted, parent_rename, isSubscript_rename, operand1_rename, ih]

/-- A use of the renamed declaration denotes the same value. -/
@[simp] theorem site_rename (d : Decl) (t : Ref) :
    (u.rename f).site (d.rename f) t = u.site d t := by
  simp only [site, parent_rename, isMemberAccess_rename, operand2_rename, subscripted_rename,
    Decl.rename]

/-- The same is done with a value. -/
@[simp] theorem use_rename (node : Ref) : (u.rename f).use node = u.use node := by
  simp only [use, parent_rename, operand1_rename, isDereference_rename, isSubscript_rename,
    isArrow_rename, isAssignment_rename, text_rename, isAddressOf_rename,
    isIncrementDecrement_rename]

/-- A use is rewritten by the same changes. -/
@[simp] theorem rewriteUse_rename (d : Decl) (type? : Option String) (t : Ref) :
    (u.rename f).rewriteUse (d.rename f) type? t = u.rewriteUse d type? t := by
  have value (node : Ref) (use : Use) :
      (u.rename f).rewriteValue (d.rename f) type? node use = u.rewriteValue d type? node use := by
    cases use with
    | assigned operator plain =>
      cases plain with
      | true => simp only [rewriteValue, narrowExpression_rename, operand2_rename]
      | false => rfl
    | _ =>
      simp only [rewriteValue, link_rename, text_rename, position_rename, bounds_rename,
        Decl.rename]
  simp only [rewriteUse, site_rename, use_rename, value, text_rename, position_rename]
  rfl

/-- A token is to a declaration what it is to the same declaration under another key. -/
@[simp] theorem role_rename (key : Int) (t : Ref) : (u.rename f).role (f key) t = u.role key t := by
  simp only [role, declKey_rename, ne_eq, Renaming.eq_iff, isDeclaratorName_rename,
    isDesignator_rename, isSplitName_rename]

/-- A declarator tells the same of the renamed declaration. -/
@[simp] theorem learn_rename (d : Decl) (known : Known) (t : Ref) :
    (u.rename f).learn (d.rename f) known t = u.learn d known t := by
  simp only [learn, typeText_rename, var_rename, scopeOf_rename, Decl.rename]

/-- A declarator is rewritten by the same changes. -/
@[simp] theorem rewriteDeclarator_rename (type? : Option String) (t : Ref) :
    (u.rename f).rewriteDeclarator type? t = u.rewriteDeclarator type? t := by
  simp only [rewriteDeclarator, stars_rename, text_rename, position_rename, initializer_rename,
    narrowInitializer_rename]

/-- The end of the plan makes the same changes. -/
@[simp] theorem planEnd_rename (d : Decl) (known : Known) :
    (u.rename f).planEnd (d.rename f) known = u.planEnd d known := by
  have field (type? : Option String) : (u.rename f).rewriteField type? = u.rewriteField type? := by
    funext part
    cases part with
    | value start => exact narrowInitializer_rename f u type? start
    | _ => rfl
  have hvalues : (u.rename f).fieldValues (d.rename f).key = u.fieldValues d.key :=
    fieldValues_rename f u d.key
  simp only [planEnd, hvalues, field]
  rfl

/-- A declaration has the same plan under another key. -/
@[simp] theorem plan_rename (d : Decl) : (u.rename f).plan (d.rename f) = u.plan d := by
  -- what is known of the declaration has no keys in it, so that both walks know the same
  have hfrom (known : Known) (places : List Nat) :
      (u.rename f).planFrom (d.rename f) known places = u.planFrom d known places := by
    induction places generalizing known with
    | nil => rw [planFrom_nil, planFrom_nil, planEnd_rename]
    | cons i rest ih =>
      have hrole : (u.rename f).role (d.rename f).key (some i) = u.role d.key (some i) :=
        role_rename f u d.key _
      simp only [planFrom_cons, hrole, learn_rename, rewriteDeclarator_rename, rewriteUse_rename,
        ih]
  rw [plan, places_rename, hfrom, plan]

variable (sources : Sources)

/-- A token is found at the same place of a text. -/
@[simp] theorem locate_rename (t : Ref) : (u.rename f).locate sources t = u.locate sources t := by
  simp only [locate, place_rename, sourceText_rename, position_rename]

/-- A change has the same replacement, or is refused alike. -/
@[simp] theorem place?_rename (c : Change) :
    (u.rename f).place? sources c = u.place? sources c := by
  cases c <;> simp only [place?, locate_rename, position_rename]

/-- The reduction of a declaration records the same edits under another key. -/
theorem performPlan_rename (d : Decl) :
    (u.rename f).performPlan sources (d.rename f) = u.performPlan sources d := by
  have steps (script : Script) (items : List Step) :
      (u.rename f).perform sources script items = u.perform sources script items := by
    induction items generalizing script with
    | nil => rfl
    | cons step rest ih =>
      cases step <;> simp only [perform, place?_rename, ih]
  simp only [performPlan, plan_rename, steps]

end Program

end Indirection
