import DiagramEdit.Text.WhiteSpace

/-!
# Lines

A text is cut into lines at its line feeds; a carriage return is an ordinary
character of the line before it.  Cutting and joining are inverse to each other.
-/

namespace DiagramEdit.Text

/-- The pieces between line feeds, of which there is at least one. -/
def lines (text : Text) : List Text :=
  text.splitOn '\n'

/-- The lines with a line feed between any two of them. -/
def joinLines (lines : List Text) : Text :=
  ['\n'].intercalate lines

@[simp]
theorem joinLines_lines (text : Text) : joinLines (lines text) = text :=
  List.intercalate_splitOn '\n'

/-- Appends a line after the last character that is not white space.  A text
that ends in a line feed ends in one again. -/
def appendLine (text line : Text) : Text :=
  let body := trimEnd text
  let ending := if text.getLast? == some '\n' then ['\n'] else []
  if body.isEmpty then line ++ ending else body ++ '\n' :: line ++ ending

end DiagramEdit.Text
