import DiagramEdit.Text.Lines
import DiagramEdit.Text.Pattern

/-!
# Mentions of an identifier

An identifier that begins or ends with a name character has to stand at a word
boundary there, so that `N1` is not found inside `N10` or `XN1`.  Next to
punctuation no boundary is asked for.
-/

namespace DiagramEdit

namespace Pattern

/-- The identifier, not as the tail of a longer word. -/
def identifier (id : Text) : Pattern Unit := do
  if id.head?.any Text.isNameCharacter then
    check Place.isWordBoundary
  literal id

/-- The identifier as a whole word. -/
def wholeWord (id : Text) : Pattern Unit := do
  identifier id
  if id.getLast?.any Text.isNameCharacter then
    check Place.isWordBoundary

end Pattern

/-- Whether a line holds the identifier as a whole word. -/
def mentions (id line : Text) : Bool :=
  (Pattern.wholeWord id).occursIn line

/-- Whether a line below the first one mentions the identifier. -/
def references (text id : Text) : Bool :=
  !id.isEmpty && (Text.lines text).tail.any (mentions id)

end DiagramEdit
