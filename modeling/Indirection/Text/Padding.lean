/-!
# Padding to a column

`padLeft` and `padRight` fill a text with spaces up to a number of characters. A text that is
already as long is left as it is: columns may overflow, they are never cut.
-/

namespace Indirection.Text

/-- Spaces in front of `s`, up to `width` characters. -/
def padLeft (width : Nat) (s : String) : String :=
  String.ofList (List.replicate (width - s.length) ' ' ++ s.toList)

/-- Spaces behind `s`, up to `width` characters. -/
def padRight (width : Nat) (s : String) : String :=
  String.ofList (s.toList ++ List.replicate (width - s.length) ' ')

/-- A padded text has the width of its column, or its own length when that is larger. -/
theorem length_padRight (width : Nat) (s : String) :
    (padRight width s).length = max width s.length := by
  simp [padRight]; omega

/-- A text is filled up to the width, and no further. -/
theorem length_padLeft (width : Nat) (s : String) :
    (padLeft width s).length = max width s.length := by
  simp [padLeft]; omega

end Indirection.Text
