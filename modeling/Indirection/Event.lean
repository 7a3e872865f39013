import Indirection.Decl
import Indirection.Diagnostic.Cause

/-!
# Events

What a run tells about itself while it works.

Main definitions:

* `Level` — how important an event is;
* `Event` — one constructor for each thing that is told;
* `Event.level`, `Event.channel`, `Event.message` — its importance, its source and its wording.
-/

namespace Indirection

/-- The importance of an event. -/
inductive Level where
  | debug
  | info
  | warning
  | error
  deriving DecidableEq

namespace Level

/-- The word for a level. -/
def name : Level → String
  | debug => "DEBUG"
  | info => "INFO"
  | warning => "WARNING"
  | error => "ERROR"

/-- The position of a level on the scale of importance. -/
def rank : Level → Nat
  | debug => 0
  | info => 1
  | warning => 2
  | error => 3

end Level

/-- The part of the program that an event comes from. -/
inductive Channel where
  | command
  | frontend
  | transformation
  | collector
  | selector
  | rewriter
  | editor
  deriving DecidableEq

namespace Channel

/-- The name of a channel below the program's own. -/
def name : Channel → String
  | command => "cppcheckdata_reduce"
  | frontend => "frontend"
  | transformation => "transformation"
  | collector => "collector"
  | selector => "selector"
  | rewriter => "rewriter"
  | editor => "source_rewriter"

/-- The full name of a channel. -/
def fullName : Channel → String
  | command => command.name
  | c => command.name ++ "." ++ c.name

end Channel

/-- What is told. -/
inductive Event where
  /-- a setting that is accepted but looks wrong -/
  | doubtfulSetting (warning : String)
  /-- a declaration was found -/
  | declared (d : Decl)
  /-- an address was taken of something that is no variable -/
  | addressIgnored (spelling : String)
  | addressTaken (spelling : String) (key : Int)
  /-- an assignment disqualified a declaration that was valid -/
  | disqualified (key : Int) (target value : String)
  /-- all tables are filled -/
  | collected (decls : Nat) (maxLevel : Int) (taken barred : Nat)
  | counterExceeds (counter : Int) (count : Nat)
  | selected (d : Decl) (counter : Int) (count : Nat)
  | available (count : Nat)
  /-- the name of the selected field stands outside a member access -/
  | outsideAccess (spelling : String)
  /-- an array is used as a whole -/
  | decayed (name : String) (place : Position)
  /-- an operator that may stay as it is -/
  | unchanged (operator name : String) (place : Position)
  | unknownDesignator (name : String)
  | edited (path : String) (start stop : Nat) (replacement : String)
  /-- a run ended in a diagnostic -/
  | failed (transformation : String) (d : Diagnostic)
  | parsingDump (path : String)
  | running (argv : List String)
  | rewritingInPlace (path : String)
  | touchedFiles (paths : List String)
  | noDump
  | ioFailure (text : String)

namespace Event

/-- The importance of an event. -/
def level : Event → Level
  | doubtfulSetting _ => .warning
  | declared _ | addressIgnored _ | addressTaken .. | disqualified .. | outsideAccess _
  | decayed .. | unchanged .. | unknownDesignator _ | edited .. => .debug
  | collected .. | counterExceeds .. | selected .. | available _ | parsingDump _ | running _
  | rewritingInPlace _ => .info
  | failed .. | touchedFiles _ | noDump | ioFailure _ => .error

/-- The part of the program that tells an event. -/
def channel : Event → Channel
  | doubtfulSetting _ | available _ | failed .. => .transformation
  | declared _ | addressIgnored _ | addressTaken .. | disqualified .. | collected .. => .collector
  | counterExceeds .. | selected .. => .selector
  | outsideAccess _ | decayed .. | unchanged .. | unknownDesignator _ => .rewriter
  | edited .. => .editor
  | parsingDump _ | running _ => .frontend
  | rewritingInPlace _ | touchedFiles _ | noDump | ioFailure _ => .command

/-- The wording of an event. -/
def message : Event → String
  | doubtfulSetting warning => "PassConfig: " ++ warning
  | declared d => "declaration " ++ d.text
  | addressIgnored spelling => "address of unresolved " ++ Text.quote spelling ++ " ignored"
  | addressTaken spelling key =>
    "address taken: " ++ spelling ++ " (varId " ++ Text.decimal key ++ ")"
  | disqualified key target value =>
    "disqualified varId " ++ Text.decimal key ++ ": " ++ Text.quote target ++ " assigned from " ++
      Text.quote value
  | collected decls maxLevel taken barred =>
    "collected " ++ Text.decimal decls ++ " pointer declaration(s), max level " ++
      Text.decimal maxLevel ++ ", " ++ Text.decimal taken ++ " address-taken, " ++
      Text.decimal barred ++ " disqualified"
  | counterExceeds counter count =>
    "counter " ++ Text.decimal counter ++ " exceeds " ++ Text.decimal count ++ " candidate(s)"
  | selected d counter count =>
    "selected " ++ d.text ++ " as candidate " ++ Text.decimal counter ++ " of " ++
      Text.decimal count
  | available count => Text.decimal count ++ " instance(s) available"
  | outsideAccess spelling =>
    "member " ++ Text.quote spelling ++ " outside member access left unchanged"
  | decayed name place =>
    "decayed use of array " ++ name ++ " at " ++ place.text ++ " left unchanged"
  | unchanged operator name place => operator ++ name ++ " at " ++ place.text ++ " left unchanged"
  | unknownDesignator name => "unknown designator ." ++ name ++ " skipped"
  | edited path start stop replacement =>
    "edit " ++ path ++ "[" ++ Text.decimal start ++ ":" ++ Text.decimal stop ++ "] -> " ++
      Text.quote replacement
  | failed transformation d => transformation ++ ": " ++ d.text
  | parsingDump path => "Parsing dump file: " ++ path
  | running argv => "Running: " ++ " ".intercalate argv
  | rewritingInPlace path => "Rewriting " ++ path ++ " in place"
  | touchedFiles paths =>
    "the transformation touched " ++ Text.decimal paths.length ++ " files (" ++
      ", ".intercalate paths ++ "); use --in-place"
  | noDump => "no dump file given"
  | ioFailure text => "I/O error: " ++ text

end Event

end Indirection
