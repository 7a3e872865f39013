import Indirection.Cli.Option
import Indirection.Text.Numeral

/-!
# Reading the arguments of an invocation

Main definitions:

* `Argument`, `classify` — what each argument is by itself: an option, maybe with a value attached,
  an option nobody knows, a plain argument, or the separator `--`;
* `segment` — the options in one argument: those with one dash may be written together;
* `actFlag`, `actValue` — what an option does to the request;
* `parse` — the request of a list of arguments, or why there is none.

A long option may be cut short as long as only one has this beginning; the full spelling always
counts. All arguments are classified before the first one takes effect, and all options of one
argument are known before the first one of them does. A value that is `--` is taken for a separator
even where it is attached: the option then counts, and its value is left out.
-/

namespace Indirection.Cli

open Text

/-! ### What an argument is -/

/-- What is attached to an option. -/
inductive Attached where
  | nothing
  /-- behind an option with two dashes and an equals sign -/
  | assigned (value : List Char)
  /-- behind an option with one dash, with or without an equals sign in between: its value, or more
      options with one dash -/
  | joined (value : List Char)
  deriving DecidableEq

/-- What an argument is by itself. -/
inductive Argument where
  | plain (s : String)
  | separator
  | option (o : Opt) (attached : Attached)
  | unknown (s : String)

/-- The characters in front of the first equals sign, and those behind it, if there is one. -/
def splitAssigned (cs : List Char) : List Char × Option (List Char) :=
  match cs.dropWhile (· ≠ '=') with
  | [] => (cs, none)
  | _ :: value => (cs.takeWhile (· ≠ '='), some value)

/-- The options that the argument `cs` may stand for when it is not spelled in full. -/
def interpretations (cs : List Char) : List (String × Opt × Attached) :=
  match cs with
  | '-' :: '-' :: _ =>
    let (beginning, value?) := splitAssigned cs
    let attached := (value?.map Attached.assigned).getD .nothing
    (Opt.table.filter fun (name, _) => beginning.isPrefixOf name.toList).map
      fun (name, o) => (name, o, attached)
  | '-' :: c :: rest =>
    (Opt.table.filter fun (name, _) => name.toList = ['-', c]).map
      fun (name, o) => (name, o, .joined rest)
  | _ => []

/-- What an argument that is not spelled like an option in full is. -/
def interpret (s : String) : Except Stop Argument :=
  match interpretations s.toList with
  | [(_, o, attached)] => .ok (.option o attached)
  | [] =>
    if isNegativeNumber s || s.toList.contains ' ' then .ok (.plain s) else .ok (.unknown s)
  | several =>
    .error (.refused ("ambiguous option: " ++ s ++ " could match " ++
      ", ".intercalate (several.map Prod.fst)))

/-- Whether an option is spelled with two dashes. -/
def isDouble (name : List Char) : Bool := ['-', '-'].isPrefixOf name

/-- What an argument is by itself. -/
def classifyOne (s : String) : Except Stop Argument :=
  match s.toList with
  | '-' :: _ :: _ =>
    match Opt.ofSpelling? s with
    | some o => .ok (.option o .nothing)
    | none =>
      let (name, value?) := splitAssigned s.toList
      match value?, Opt.ofSpelling? (String.ofList name) with
      | some value, some o =>
        .ok (.option o (if isDouble name then .assigned value else .joined value))
      | _, _ => interpret s
  | _ => .ok (.plain s)

/-- What the arguments are. Behind the separator all are plain. -/
def classify : List String → Except Stop (List Argument)
  | [] => .ok []
  | s :: rest =>
    if s = "--" then .ok (.separator :: rest.map .plain)
    else
      match classifyOne s with
      | .error e => .error e
      | .ok a =>
        match classify rest with
        | .error e => .error e
        | .ok as => .ok (a :: as)

/-! ### The options in one argument -/

/-- Where the value of an option is. -/
inductive Operand where
  /-- it is the next argument -/
  | next
  /-- it is attached, or was left out -/
  | attached (value : Option String)
  deriving DecidableEq

/-- The value that attached characters give. -/
def Operand.ofChars (value : List Char) : Operand :=
  .attached (if value = ['-', '-'] then none else some (String.ofList value))

/-- The options in one argument. -/
structure Segment where
  /-- options without a value, in order -/
  flags : List Opt := []
  /-- an option with a value behind them -/
  valued : Option (Opt × Operand) := none

/-- The segment of the options `flags` and then `o`, to which nothing is attached. -/
def Segment.ending (flags : List Opt) (o : Opt) : Segment :=
  if o.takesValue then { flags, valued := some (o, .next) } else { flags := flags ++ [o] }

/-- The refusal of a value for an option that takes none. -/
def ignored (o : Opt) (value : List Char) : Stop :=
  .ofOption o ("ignored explicit argument " ++ quote (String.ofList value))

/-- The segment of the options `flags` and then `o` with a value attached. -/
def segmentAssigned (flags : List Opt) (o : Opt) (value : List Char) : Except Stop Segment :=
  if o.takesValue then .ok { flags, valued := some (o, .ofChars value) }
  else .error (ignored o value)

/-- The segment of the options `flags` and then `o`, behind which the characters of the list stand:
    its value, or the letters of more options. A letter that is none refuses all that is left. -/
def segmentJoined (flags : List Opt) (o : Opt) : List Char → Except Stop Segment
  | [] => segmentAssigned flags o []
  | c :: cs =>
    if o.takesValue then segmentAssigned flags o (c :: cs)
    else
      match Opt.ofSpelling? (String.ofList ['-', c]), cs with
      | none, cs => .error (ignored o (c :: cs))
      | some next, [] => .ok (.ending (flags ++ [o]) next)
      | some next, d :: ds => segmentJoined (flags ++ [o]) next (d :: ds)

/-- The options in one argument. -/
def segment (o : Opt) : Attached → Except Stop Segment
  | .nothing => .ok (.ending [] o)
  | .assigned value => segmentAssigned [] o value
  | .joined value => segmentJoined [] o value

/-! ### What options do -/

/-- How far the arguments are read. -/
structure Progress where
  request : Request := {}
  /-- arguments that nothing takes -/
  extras : List String := []
  /-- whether the previous argument was taken as the dump -/
  dumpJustTaken : Bool := false
  /-- whether an output other than the standard one was asked for -/
  hasOutput : Bool := false

/-- The effect of an option without a value. -/
def actFlag (p : Progress) : Opt → Except Stop Progress
  | .help => .error .help
  | .version => .error .version
  | .verbose => .ok { p with request.verbosity := p.request.verbosity + 1 }
  | .transformations => .ok { p with request.listTransformations := true }
  | .queryInstances => .ok { p with request.queryInstances := true }
  | .listCandidates => .ok { p with request.listCandidates := true }
  | .inPlace =>
    if p.hasOutput then
      .error (.ofOption .inPlace ("not allowed with argument " ++ Opt.output.display))
    else .ok { p with request.inPlace := true }
  | _ => .ok p

/-- The number that a counter spells; a counter that was left out spells none. -/
def readCounter : Option String → Except Stop (Option Int)
  | none => .ok none
  | some s =>
    match readInt? s with
    | some n => .ok (some n)
    | none => .error (.ofOption .counter ("invalid int value: " ++ quote s))

/-- The form of a report that a name spells; a name that was left out spells none. -/
def readFormat : Option String → Except Stop (Option Format)
  | none => .ok none
  | some s =>
    match Format.all.find? (·.name = s) with
    | some f => .ok (some f)
    | none =>
      .error (.ofOption .format ("invalid choice: " ++ quote s ++ " (choose from " ++
        ", ".intercalate (Format.all.map (quote ·.name)) ++ ")"))

/-- The effect of an option with the value `value`, which may have been left out. -/
def actValue (p : Progress) (o : Opt) (value : Option String) : Except Stop Progress :=
  match o with
  | .transformation => .ok { p with request.transformation := value }
  | .counter => (readCounter value).map fun n => { p with request.counter := n }
  | .configuration =>
    .ok { p with request.configuration := (value.map Wanted.named).getD .leftOut }
  | .analyser => .ok { p with request.analyser := value }
  | .sourceRoot => .ok { p with request.sourceRoots := p.request.sourceRoots ++ [value] }
  | .output =>
    let isOther := value ≠ some "-"
    if isOther && p.request.inPlace then
      .error (.ofOption .output ("not allowed with argument " ++ Opt.inPlace.display))
    else .ok { p with request.output := value, hasOutput := p.hasOutput || isOther }
  | .format => (readFormat value).map fun f => { p with request.format := f }
  | _ => .ok p

/-- The effect of several options without values. -/
def actFlags (p : Progress) : List Opt → Except Stop Progress
  | [] => .ok p
  | o :: os =>
    match actFlag p o with
    | .ok p => actFlags p os
    | .error e => .error e

/-! ### The whole list -/

/-- The effect of a plain argument: the first one is the dump. -/
def takePlain (p : Progress) (s : String) : Progress :=
  match p.request.dump with
  | none => { p with request.dump := some s, dumpJustTaken := true }
  | some _ => { p with extras := p.extras ++ [s], dumpJustTaken := false }

/-- The effect of the separator: it is taken up with the dump, in front of it or behind it, and is
    left over anywhere else. -/
def takeSeparator (p : Progress) : Progress :=
  if p.request.dump.isNone || p.dumpJustTaken then { p with dumpJustTaken := false }
  else { p with extras := p.extras ++ ["--"] }

/-- The effect of the options in one argument, in front of the arguments `rest`, and the arguments
    that are left. A value that is not attached has to come next. -/
def takeSegment (p : Progress) (s : Segment) (rest : List Argument) :
    Except Stop (Progress × List Argument) :=
  let p := { p with dumpJustTaken := false }
  match s.valued, rest with
  | none, rest => (actFlags p s.flags).map (·, rest)
  | some (o, .attached value), rest => do
    let p ← actFlags p s.flags
    let p ← actValue p o value
    .ok (p, rest)
  | some (o, .next), .plain value :: rest => do
    let p ← actFlags p s.flags
    let p ← actValue p o (some value)
    .ok (p, rest)
  | some (o, .next), _ => .error (.ofOption o "expected one argument")

/-- Reads the arguments from the first to the last, at most `steps` of them. -/
def parseWithin : (steps : Nat) → Progress → List Argument → Except Stop Progress
  | 0, p, _ => .ok p
  | _ + 1, p, [] => .ok p
  | steps + 1, p, a :: rest =>
    match a with
    | .plain s => parseWithin steps (takePlain p s) rest
    | .separator => parseWithin steps (takeSeparator p) rest
    | .unknown s =>
      parseWithin steps { p with extras := p.extras ++ [s], dumpJustTaken := false } rest
    | .option o attached => do
      let s ← segment o attached
      let (p, rest) ← takeSegment p s rest
      parseWithin steps p rest

/-- The request that a list of arguments makes. -/
def parse (args : List String) : Except Stop Request := do
  let as ← classify args
  let p ← parseWithin as.length {} as
  if p.extras.isEmpty then .ok p.request
  else .error (.refused ("unrecognized arguments: " ++ " ".intercalate p.extras))

end Indirection.Cli
