import Indirection.Text.IdentifierPart
import Indirection.Text.IdentifierStart

/-!
# Identifiers

`isIdentifier` accepts a non-empty text whose first character may begin an identifier and whose
other characters may continue one. Reserved words count as identifiers.
-/

namespace Indirection.Text

/-- Whether `s` has the form of an identifier. -/
def isIdentifier (s : String) : Bool :=
  match s.toList with
  | [] => false
  | c :: rest => identifierStart.contains c && rest.all identifierPart.contains

end Indirection.Text
