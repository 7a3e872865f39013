import Indirection.Cli.Arguments
import Indirection.Cli.Usage
import Indirection.Dump.World
import Indirection.Files.Loader

/-!
# The command

Main definitions:

* `Request.reportOn` — the report on a run in the form asked for;
* `Session` — a command at work: its world, and what it has written to its two streams;
* `Session.transform` — one transformation: have a dump written, read it, choose a configuration,
  run, write the texts and report;
* `run` — the command on a list of arguments.

The exit code is 0 for an answer, 1 for an internal error, 2 when the input or the invocation is
unusable, and 3 when there is no candidate of the number asked for. Unless it is 0, no source is
written. A value that an option left out is missed only where it is needed, and ends the command
there without an exit code.
-/

namespace Indirection.Cli

open Text

/-- The report on a run in the form asked for. -/
def Request.reportOn (q : Request) (r : Result) (withCandidates : Bool) : Except Fault String :=
  match q.format with
  | some f => .ok (r.report f withCandidates)
  | none => .error (.misused (Format.unknown leftOut))

/-! ### Sessions -/

/-- A command at work. -/
structure Session where
  world : World
  /-- the time that is shown in front of events -/
  clock : String
  verbosity : Nat := 0
  out : String := ""
  err : String := ""

/-- How a command ended: its exit code, or a fault that nothing handles. -/
structure Ending where
  session : Session
  exit : Except Fault Int

namespace Session

variable (s : Session)

/-- Writes to the output. -/
def print (text : String) : Session := { s with out := s.out ++ text }

/-- Writes to the error stream. -/
def warn (text : String) : Session := { s with err := s.err ++ text }

/-- The lowest importance of events that are shown. -/
def threshold : Level :=
  if s.verbosity = 0 then .warning else if s.verbosity = 1 then .info else .debug

/-- The line of an event. The name of its level fills five characters. -/
def eventLine (e : Event) : String :=
  s.clock ++ " [" ++ padRight 5 (String.ofList (e.level.name.toList.take 5)) ++ "] " ++
    e.channel.fullName ++ ": " ++ e.message ++ "\n"

/-- Shows the events that are important enough. -/
def tell (es : List Event) : Session :=
  s.warn (String.join ((es.filter (s.threshold.rank ≤ ·.level.rank)).map s.eventLine))

/-- Ends with an exit code. -/
def exit (code : Int) : Ending := { session := s, exit := .ok code }

/-- Ends with a fault: a diagnostic or an obstacle is shown, any other fault is left to the
    caller. -/
def stop : Fault → Ending
  | .refused d =>
    (s.warn (d.text ++ "\n")).exit
      (if d.kind.isA .frontend || d.kind.isA .usage then 2 else 1)
  | .obstructed o => (s.tell [.ioFailure o.text]).exit 2
  | f => { session := s, exit := .error f }

/-- Ends with a report on the output. -/
def printReport (q : Request) (r : Result) : Ending :=
  match q.reportOn r q.listCandidates with
  | .ok text => (s.print (text ++ "\n")).exit 0
  | .error f => s.stop f

/-- Ends with a report on the error stream. -/
def warnReport (q : Request) (r : Result) (code : Int) : Ending :=
  match q.reportOn r false with
  | .ok text => (s.warn (text ++ "\n")).exit code
  | .error f => s.stop f

/-! ### Writing the texts -/

/-- Writes every text to the file that its name was found at. -/
def writeInPlace (search : SearchPath) : Session → List (String × String) → Session
  | s, [] => s
  | s, (name, text) :: rest =>
    let path := (search.find s.world.tree name).toOption.getD (Path.ofString name)
    let s := s.tell [.rewritingInPlace path.text]
    let tree := s.world.tree.write (s.world.tree.resolve path) text.toUTF8
    writeInPlace search { s with world.tree := tree } rest

/-- Writes a text to the file at a path. -/
def writeFile (path : Path) (text : String) : Except Fault Session :=
  match s.world.outputLocation path with
  | .error m => .error (.misused m)
  | .ok l =>
    match s.world.tree.create l text.toUTF8 with
    | .ok tree => .ok { s with world.tree := tree }
    | .error o => .error (.obstructed o)

/-- Writes the single text to the output or to the file asked for. -/
def writeSingle (output : Option String) (text : String) : Except Fault Session :=
  match output with
  | none => .error .leftOut
  | some "-" => .ok (s.print text)
  | some path => s.writeFile (Path.ofString path) text

/-- Writes the texts of a result that changed something, and reports on it. -/
def deliver (q : Request) (search : SearchPath) (r : Result) : Ending :=
  let report (s : Session) : Ending :=
    if q.format ≠ some .text || q.verbosity ≠ 0 then s.warnReport q r 0 else s.exit 0
  if q.inPlace then report (s.writeInPlace search r.rewritten)
  else
    match r.rewritten with
    | [(_, text)] =>
      match s.writeSingle q.output text with
      | .ok s => report s
      | .error f => s.stop f
    | _ => (s.tell [.touchedFiles r.files]).exit 2

/-! ### One transformation -/

/-- Reports on a run. -/
def conclude (q : Request) (search : SearchPath) (r : Result) : Ending :=
  if r.queryOnly then s.printReport q r
  else
    match r.status with
    | .ok => s.deliver q search r
    | .noInstance => s.warnReport q r 3
    | .internalError => s.warnReport q r 1

/-- Where the sources of a dump are looked for: the directories asked for, that of the dump, and the
    base of the file tree. -/
def searchPath (q : Request) (dump : Path) : Except Fault SearchPath :=
  if q.sourceRoots.contains none then .error .leftOut
  else
    let asked := q.sourceRoots.filterMap id
    .ok { roots := asked.map Path.ofString ++ [dump.parent, ⟨"/", s.world.tree.base⟩] }

/-- Transforms a program whose sources are looked for in `search`. -/
def transformProgram (q : Request) (search : SearchPath) (u : Program) : Ending :=
  let settings : Settings := {}
  let s := s.tell (settings.warnings.map .doubtfulSetting)
  let run := u.reduce settings.toScoping (search.sources s.world.tree) q.counter
    (q.queryInstances || q.listCandidates)
  let s := s.tell run.events
  match run.outcome with
  | .error f => s.stop f
  | .ok r => s.conclude q search r

/-- Transforms the program in a dump. -/
def transformDump (q : Request) (dump : Path) : Ending :=
  let loaded := s.world.loadDump dump.text
  let s := s.tell loaded.events
  match loaded.outcome with
  | .error f => s.stop f
  | .ok cs =>
    match choose cs q.configuration with
    | .error f => s.stop f
    | .ok c =>
      match s.searchPath q dump with
      | .error f => s.stop f
      | .ok search => s.transformProgram q search c.program

/-- One transformation of the program in the file `input`, which is a dump, or a source when an
    analyser is asked for. -/
def transform (q : Request) (input : String) : Ending :=
  match q.transformation.map Catalogue.builtin.get with
  | none => s.stop .leftOut
  | some (.error f) => s.stop f
  | some (.ok _) =>
    match q.analyser with
    | none | some "" => s.transformDump q (Path.ofString input)
    | some name =>
      let (world, told) := s.world.runAnalyser input name []
      let s := ({ s with world }).tell told.events
      match told.outcome with
      | .error f => s.stop f
      | .ok dump => s.transformDump q dump

/-- What is done for a request. -/
def answer (q : Request) : Ending :=
  let s := { s with verbosity := q.verbosity }
  if q.listTransformations then (s.print (listing Catalogue.builtin.available ++ "\n")).exit 0
  else
    match q.dump with
    | none => ((s.warn usage).tell [.noDump]).exit 2
    | some input => s.transform q input

end Session

/-- The command on a list of arguments. -/
def run (world : World) (clock : String) (args : List String) : Ending :=
  let s : Session := { world, clock }
  match parse args with
  | .ok q => s.answer q
  | .error .help => (s.print help).exit 0
  | .error .version => (s.print versionLine).exit 0
  | .error (.refused text) => (s.warn (complaint text)).exit 2

end Indirection.Cli
