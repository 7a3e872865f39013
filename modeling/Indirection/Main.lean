import Indirection.Cli.Command

/-!
# The program

Runs the command on the arguments of the process. The files named among the arguments make up the
world it sees. No reader for dump files and no analyser come with the program, so that it answers
what needs neither and says so of everything else.
-/

namespace Indirection.Main

open Indirection

/-- The files named among the arguments, in the current directory. -/
def snapshot (args : List String) : IO FileTree := do
  let here ← IO.currentDir
  let mut tree : FileTree := { base := (Path.ofString here.toString).parts }
  for name in args do
    try
      let bytes ← IO.FS.readBinFile name
      tree := tree.write (tree.resolve (Path.ofString name)) bytes
    catch _ => pure ()
  return tree

/-- The time since the start of the machine, in hours, minutes and seconds. -/
def clock : IO String := do
  let seconds := (← IO.monoMsNow) / 1000
  let two (n : Nat) : String := Text.zeroPadded 2 n
  return two (seconds / 3600 % 24) ++ ":" ++ two (seconds / 60 % 60) ++ ":" ++ two (seconds % 60)

end Indirection.Main

/-- Runs the command, shows what it wrote, and ends with its exit code. -/
def main (args : List String) : IO UInt32 := do
  let tree ← Indirection.Main.snapshot args
  let ending := Indirection.Cli.run { tree, hasReader := false } (← Indirection.Main.clock) args
  IO.print ending.session.out
  IO.eprint ending.session.err
  match ending.exit with
  | .ok code => return code.toNat.toUInt32
  | .error _ => return 1
