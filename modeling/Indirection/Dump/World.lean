import Indirection.Dump.Configuration
import Indirection.Event
import Indirection.Files.Tree
import Indirection.Text.Blank

/-!
# Dumps and the analyser that writes them

Main definitions:

* `Dump` — what reading a dump file gives: configurations, or the reason why it cannot be read;
* `Tool` — an analyser: how it ends, what it complains about and what it writes;
* `World` — what a command finds around itself: files, home directories, dumps, whether dumps can be
  read at all, and the analysers; with a record of the analysers it has run;
* `World.loadDump`, `World.runAnalyser` — reading a dump, and having one written;
* `World.outputLocation` — where a path leads that may begin at a home directory.
-/

namespace Indirection

/-- What reading a dump file gives. -/
abbrev Dump := Except String (List Configuration)

/-- An analyser. -/
structure Tool where
  exitCode : Int := 0
  /-- what it writes to its error stream -/
  complaint : String := ""
  /-- the dump file it writes, and what reading that gives -/
  writes : Option (String × Dump) := none

/-- What a command finds around itself. -/
structure World where
  tree : FileTree
  /-- the home directories of users by their names; the empty name is the caller's -/
  homes : List (String × Location) := []
  /-- what reading each dump file gives, by the text of its path -/
  dumps : List (String × Dump) := []
  /-- whether the reader for dump files is installed -/
  hasReader : Bool := true
  tools : List (String × Tool) := []
  /-- the analysers run so far, with their arguments -/
  calls : List (List String) := []

/-- The outcome of an operation and what was told on the way. -/
structure Told (α : Type) where
  outcome : Except Fault α
  events : List Event := []

namespace World

variable (w : World)

/-- A dump file put into the world. -/
def addDump (path : String) (dump : Dump) : World :=
  { w with
    tree := w.tree.write (w.tree.resolve (Path.ofString path)) "<dumps/>".toUTF8
    dumps := (path, dump) :: w.dumps }

/-- The configurations of a dump file. -/
def loadDump (path : String) : Told (List Configuration) :=
  let p := Path.ofString path
  let refuse (c : Cause) : Except Fault (List Configuration) := .error (.of c { file := p.text })
  match w.tree.hasFile p with
  | .error o => { outcome := .error (.obstructed o) }
  | .ok false => { outcome := refuse (.dumpNotFound p.text) }
  | .ok true =>
    if !w.hasReader then { outcome := .error (.of .readerMissing {}) }
    else
      { outcome :=
          match (w.dumps.lookup p.text).getD (.error "unknown dump") with
          | .ok cs => .ok cs
          | .error reason => refuse (.dumpUnreadable p.text reason)
        events := [.parsingDump p.text] }

/-- The world after an analyser has run. -/
def afterRun (tool : Tool) (argv : List String) : World :=
  let w := { w with calls := w.calls ++ [argv] }
  match tool.writes with
  | some (path, dump) => w.addDump path dump
  | none => w

/-- Has the analyser `name` write the dump of a source file, and gives the path of the dump. Its own
    checks are kept quiet. -/
def runAnalyser (source name : String) (extra : List String) : World × Told Path :=
  match w.tools.lookup name with
  | none => (w, { outcome := .error (.of (.analyserNotFound name) {}) })
  | some tool =>
    let argv := ["/tools/" ++ name, "--dump", "--quiet"] ++ extra ++ [source]
    let after := w.afterRun tool argv
    let dump := Path.ofString (source ++ ".dump")
    let failed : Fault :=
      .of (.analyserFailed tool.exitCode (Text.strip tool.complaint)) { file := source }
    let outcome :=
      if tool.exitCode ≠ 0 then .error failed
      else
        match after.tree.hasFile dump with
        | .error o => .error (.obstructed o)
        | .ok false => .error failed
        | .ok true => .ok dump
    (after, { outcome, events := [.running argv] })

/-- The path that `p` stands for: a home directory takes the place of a first part that names its
    user. -/
def expandHome (p : Path) : Except Misuse Path :=
  match p.user? with
  | none => .ok p
  | some user =>
    match w.homes.lookup user with
    | some home => .ok { root := "/", parts := home ++ p.parts.tail }
    | none => .error (if user.toList.contains '\x00' then .zeroInPath else .noHome)

/-- Where the path of an output leads. -/
def outputLocation (p : Path) : Except Misuse Location :=
  match w.expandHome p with
  | .error m => .error m
  | .ok p => if p.hasZero then .error .zeroInPath else .ok (w.tree.resolve p)

end World

end Indirection
