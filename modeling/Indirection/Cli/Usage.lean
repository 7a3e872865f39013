/-!
# The texts of the command

What the command says about itself: `usage`, `help` and `version`.
-/

namespace Indirection.Cli

/-- The name of the command. -/
def commandName : String := "cppcheck-reduce"

/-- The line for `--version`. -/
def versionLine : String := commandName ++ " 0.1.0\n"

/-- How the command is called. -/
def usage : String := "\n".intercalate [
  "usage: cppcheck-reduce [-h] [--version] [-v] [--transformation NAME]",
  "                       [--transformations] [--counter K] [--query-instances]",
  "                       [--list-candidates] [--configuration NAME]",
  "                       [--cppcheck PATH] [--source-root DIR]",
  "                       [-o PATH | --in-place] [--format \x7btext,json,sexp\x7d]",
  "                       [dump]",
  ""]

/-- What the command does, and all its options. -/
def help : String := usage ++ "\n".intercalate [
  "",
  "Program-reduction passes over cppcheck dump files.",
  "",
  "Each invocation applies one instance of a transformation,",
  "chosen by --counter, and writes the rewritten source.",
  "",
  "positional arguments:",
  "  dump                  cppcheck .dump file (a C source when --cppcheck is",
  "                        given).",
  "",
  "options:",
  "  -h, --help            show this help message and exit",
  "  --version             show program's version number and exit",
  "  -v, --verbose         Increase verbosity (-v info, -vv debug).",
  "",
  "transformation:",
  "  --transformation NAME",
  "                        Transformation to run (default: reduce-pointer-level).",
  "  --transformations     List the available transformations and exit.",
  "  --counter K           1-based instance to transform (default: 1).",
  "  --query-instances     Only report the number of instances.",
  "  --list-candidates     Report the ordered candidates instead of transforming.",
  "",
  "input:",
  "  --configuration NAME  Preprocessor configuration of the dump (default: the",
  "                        first).",
  "  --cppcheck PATH       Run this cppcheck with --dump on the input first.",
  "  --source-root DIR     Directory to resolve source file names against",
  "                        (repeatable).",
  "",
  "output:",
  "  -o PATH, --output PATH",
  "                        Write the rewritten source here ('-' for stdout, the",
  "                        default).",
  "  --in-place            Overwrite the rewritten source files.",
  "  --format \x7btext,json,sexp\x7d",
  "                        Report format (default: text).",
  "",
  "examples:",
  "  cppcheck-reduce prog.c.dump --query-instances",
  "  cppcheck-reduce prog.c.dump --counter 2 -o reduced.c",
  "  cppcheck-reduce prog.c --cppcheck cppcheck --in-place",
  ""]

/-- What is said about arguments that cannot be read. -/
def complaint (text : String) : String :=
  usage ++ commandName ++ ": error: " ++ text ++ "\n"

end Indirection.Cli
