import Indirection.Text.Quoted

/-!
# Obstacles

What stands in the way of an operation on files, and the wording of each case. Main definitions:

* `Location` — the names that lead from the root to a file or directory;
* `Obstacle` — the cases, and `Obstacle.text`, what is said about them.
-/

namespace Indirection

/-- The names on the way from the root. -/
abbrev Location := List String

/-- The text of a location. -/
def Location.text (l : Location) : String := "/" ++ "/".intercalate l

/-- What stands in the way of an operation on files. -/
inductive Obstacle where
  | isDirectory (l : Location)
  | fileExists (l : Location)
  | notDirectory (l : Location)
  /-- a name in the path is longer than file systems allow -/
  | nameTooLong (path : String)
  deriving DecidableEq

/-- What is said about an obstacle. -/
def Obstacle.text : Obstacle → String
  | isDirectory l => "[Errno 21] Is a directory: " ++ Text.quote l.text
  | fileExists l => "[Errno 17] File exists: " ++ Text.quote l.text
  | notDirectory l => "[Errno 20] Not a directory: " ++ Text.quote l.text
  | nameTooLong path => "[Errno 36] File name too long: " ++ Text.quote path

end Indirection
