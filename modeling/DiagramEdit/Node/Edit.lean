import DiagramEdit.Node.Definition
import DiagramEdit.Node.Identifiers

/-!
# Edits of nodes and edges

A label or a shape is replaced at one place of the text, or the text stays as it
is.  New nodes and edges are appended as lines of their own, and a deleted node
takes with it every line that mentions it.
-/

namespace DiagramEdit

/-- A character that could close a label or open another one. -/
def isBracket (character : Char) : Bool :=
  ['[', ']', '(', ')', '{', '}'].contains character

def isLineBreak (character : Char) : Bool :=
  character == '\n' || character == '\r'

/-- Whether a label can stand between brackets and be read back.  A blank one
cannot: an empty circle would read as two nested brackets. -/
def labelFits (label : Text) : Bool :=
  !Text.isBlank label &&
    label.all fun character => !isLineBreak character && !isBracket character

namespace Pattern

/-- The given text right after the identifier. -/
def directlyAfter (id written : Text) : Pattern Region := do
  identifier id
  region (literal written)

/-- The given text after the identifier and white space. -/
def spacedAfter (id written : Text) : Pattern Region := do
  identifier id
  let _ ← run Text.isSpace
  region (literal written)

end Pattern

/-- Sets the label of a node and keeps its shape.  A place where the brackets
follow the identifier directly comes before one with white space between. -/
def updateLabel (text id label : Text) : Text :=
  match findDefinition text id with
  | none => text
  | some node =>
      if node.label == label || !labelFits label then
        text
      else
        let written := node.shape.wrap node.label
        let replacement := node.shape.wrap label
        ((Pattern.directlyAfter id written).replaceFirst? text replacement <|>
          (Pattern.spacedAfter id written).replaceFirst? text
            replacement).getD text

/-- Sets the shape of a node and keeps its label, where the brackets follow the
identifier directly. -/
def updateShape (text id : Text) (shape : Shape) : Text :=
  match findDefinition text id with
  | none => text
  | some node =>
      if node.shape == shape || !labelFits node.label then
        text
      else
        ((Pattern.directlyAfter id (node.shape.wrap node.label)).replaceFirst?
          text (shape.wrap node.label)).getD text

/-- Four spaces in front of an appended line. -/
def indentation : Text :=
  "    ".toList

/-- The identifier that a new node has with the given number. -/
def numberedId (number : Nat) : Text :=
  'N' :: Nat.toDigits 10 number

/-- An identifier is unused when it is not among those taken and no line below
the first mentions it. -/
def isUnused (taken : List Text) (text id : Text) : Bool :=
  !taken.contains id && !references text id

/-- The least positive number whose identifier is unused.  A text has fewer
identifiers than characters, so the search needs to go no further. -/
def freshNumber (text : Text) : Nat :=
  let taken := nodeIds text
  let limit := text.length + 1
  ((List.range' 1 limit).find? fun number =>
    isUnused taken text (numberedId number)).getD limit

/-- The label of a new node. -/
def newNodeLabel : Text :=
  "New Node".toList

/-- A text with a new node, and the node's identifier. -/
structure AddedNode where
  text : Text
  id : Text
deriving DecidableEq, Repr

/-- Appends a rectangle with an unused identifier. -/
def addNode (text : Text) : AddedNode :=
  let id := numberedId (freshNumber text)
  ⟨Text.appendLine text (indentation ++ id ++ Shape.rect.wrap newNodeLabel), id⟩

/-- Removes every line below the first that mentions the node: its definition,
its edges and its styles. -/
def deleteNode (text id : Text) : Text :=
  if Text.isBlank id then
    text
  else
    match Text.lines text with
    | [] => text
    | header :: statements =>
        Text.joinLines (header :: statements.filter (!mentions id ·))

/-- Whether an endpoint of an edge can be written: it is not blank and stands on
one line. -/
def isEndpoint (id : Text) : Bool :=
  !Text.isBlank id && !id.any isLineBreak

/-- Appends an edge.  Its endpoints need not exist yet. -/
def addEdge (text source target : Text) : Text :=
  if isEndpoint source && isEndpoint target then
    Text.appendLine text
      (indentation ++ Text.trim source ++ " --> ".toList ++ Text.trim target)
  else
    text

end DiagramEdit
