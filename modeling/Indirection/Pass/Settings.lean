import Indirection.Collect
import Indirection.Text.Identifier

/-!
# Settings of a pass

`Settings` holds what a caller may choose: which declarations are collected, the encoding of source
files and the directories they are looked for in. `Settings.warnings` names the choices that are
accepted but look wrong.
-/

namespace Indirection

/-- What a caller of a pass may choose. -/
structure Settings extends Scoping where
  encoding : String := "utf-8"
  sourceRoots : List String := []

/-- The choices that look wrong. -/
def Settings.warnings (s : Settings) : List String :=
  (if !s.includeLocals && !s.includeFields then
    ["locals and fields both excluded; only globals are candidates"]
  else []) ++
    (s.excluded.filter (!Text.isIdentifier ·)).map fun name =>
      "excluded field " ++ Text.quote name ++ " is not an identifier"

end Indirection
