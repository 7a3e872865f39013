import Indirection.Diagnostic.Basic

/-!
# Causes of diagnostics

Main definitions:

* `Cause` — what went wrong, one constructor for each reason the library gives;
* `Cause.message`, `Cause.kind`, `Cause.code` — its wording and its classification;
* `Cause.diagnostic` — the diagnostic of a cause at a position.
-/

namespace Indirection

/-- The reasons for which the library refuses to go on. -/
inductive Cause where
  /-- the reader for dump files is not installed -/
  | readerMissing
  | dumpNotFound (path : String)
  | dumpUnreadable (path reason : String)
  | analyserNotFound (name : String)
  | analyserFailed (exitCode : Int) (complaint : String)
  /-- the dump holds no configuration at all -/
  | noConfiguration
  /-- no configuration has the name; both it and the names there are, are given as messages show
      them -/
  | unknownConfiguration (shown : String) (available : List String)
  | sourceNotFound (name : String)
  /-- the counter is below one -/
  | badCounter (counter : Int)
  | unknownTransformation (name : String) (available : List String)
  /-- the left side of a pointer assignment leads to no declaration -/
  | unresolvedTarget (spelling : String)
  /-- no token is a declarator of the selected declaration -/
  | noDeclarator (name : String)
  /-- a declarator of the selected declaration has no star -/
  | noStar (spelling : String)
  /-- the selected field belongs to no record -/
  | noRecord (name : String)
  /-- an arrow applied to a declaration that is not a plain pointer -/
  | deepArrow (name : String) (level : Int)
  /-- a value without an operator tree -/
  | noTree (spelling : String)
  /-- a bracket without a partner -/
  | unmatched (spelling : String)
  /-- a token whose position lies outside its file -/
  | outsideFile (spelling : String)
  /-- a token that does not stand on its line -/
  | notOnLine (spelling : String) (line : Int)
  /-- a range of tokens that ends in another file or before it starts -/
  | brokenRange
  | overlap (path : String) (offset : Nat)
  deriving DecidableEq

namespace Cause

/-- The wording of a cause. -/
def message : Cause → String
  | readerMissing =>
    "cppcheckdata is not importable; install cppcheck and add its addons directory to PYTHONPATH"
  | dumpNotFound path => "dump file not found: " ++ path
  | dumpUnreadable path reason => "cannot parse dump file " ++ path ++ ": " ++ reason
  | analyserNotFound name => "cppcheck executable not found: " ++ name
  | analyserFailed exitCode complaint =>
    "cppcheck failed with exit code " ++ Text.decimal exitCode ++ ": " ++ complaint
  | noConfiguration => "dump file contains no configuration"
  | unknownConfiguration shown available =>
    "no configuration named " ++ shown ++ "; available: " ++ ", ".intercalate available
  | sourceNotFound name => "source file not found: " ++ name
  | badCounter counter => "counter must be a positive integer, got " ++ Text.decimal counter
  | unknownTransformation name available =>
    "unknown transformation " ++ Text.quote name ++ "; available: " ++ ", ".intercalate available
  | unresolvedTarget spelling =>
    "assignment target " ++ Text.quote spelling ++ " does not resolve to a declaration"
  | noDeclarator name => "no declarator found for " ++ name
  | noStar spelling => Text.quote spelling ++ " has no pointer declarator to remove"
  | noRecord name => "field " ++ name ++ " has no enclosing record"
  | deepArrow name level => "'->' applied to " ++ name ++ " of level " ++ Text.decimal level
  | noTree spelling => "initializer " ++ Text.quote spelling ++ " has no expression tree"
  | unmatched spelling => "unmatched " ++ Text.quote spelling
  | outsideFile spelling =>
    "cannot anchor edit on " ++ Text.quote spelling ++ ": token position is outside the file"
  | notOnLine spelling line =>
    "cannot anchor edit on " ++ Text.quote spelling ++ ": " ++ Text.quote spelling ++
      " not found on line " ++ Text.decimal line
  | brokenRange => "edit range spans files or is reversed"
  | overlap path offset => "overlapping edits in " ++ path ++ " at offset " ++ Text.decimal offset

/-- The kind of diagnostic a cause gives. -/
def kind : Cause → Kind
  | readerMissing | dumpNotFound _ | dumpUnreadable .. | analyserNotFound _ | analyserFailed ..
  | noConfiguration | unknownConfiguration .. | sourceNotFound _ => .frontend
  | badCounter _ | unknownTransformation .. => .usage
  | unresolvedTarget _ | noDeclarator _ | noStar _ | noRecord _ => .invariant
  | deepArrow .. | noTree _ | unmatched _ | outsideFile _ | notOnLine .. | brokenRange
  | overlap .. => .rewrite

/-- The code of a cause. -/
def code : Cause → Code
  | readerMissing => .readerMissing
  | dumpNotFound _ => .dumpNotFound
  | dumpUnreadable .. => .dumpUnreadable
  | analyserNotFound _ | analyserFailed .. => .analyserFailed
  | noConfiguration | unknownConfiguration .. => .noConfiguration
  | sourceNotFound _ => .sourceNotFound
  | badCounter _ => .badCounter
  | unknownTransformation .. => .unknownTransformation
  | unresolvedTarget _ => .unresolvedTarget
  | noDeclarator _ | noStar _ | noRecord _ => .noPointerDeclarator
  | deepArrow .. | noTree _ | unmatched _ | brokenRange => .unexpectedShape
  | outsideFile _ | notOnLine .. => .textMismatch
  | overlap .. => .overlappingEdits

/-- The diagnostic of a cause at a position; its severity is that of the code. -/
def diagnostic (c : Cause) (p : Position) : Diagnostic :=
  { kind := c.kind, message := c.message, code := c.code, position := p,
    severity := c.code.severity }

end Cause

end Indirection
