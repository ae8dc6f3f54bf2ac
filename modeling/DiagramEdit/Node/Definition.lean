import DiagramEdit.Mention
import DiagramEdit.Node.Shape

/-!
# Definitions of nodes

A node is defined where its identifier is followed by a label in brackets.  The
shapes are tried from the most specific one, each over the whole text, and the
first place of the first shape that has one is the definition.
-/

namespace DiagramEdit

/-- A node as it is written in the text. -/
structure NodeDefinition where
  id : Text
  label : Text
  shape : Shape
deriving DecidableEq, Repr

namespace Pattern

/-- A label and the closing bracket of the shape.  Between brackets of two
characters stands the shortest non-empty label on the line; between single ones
a label without these brackets, which may be empty and may cross lines. -/
def labelAndClosing (shape : Shape) : Pattern Text :=
  if shape.isDouble then do
    let initial ← one (· != '\n')
    let (rest, _) ← shortestThen (· != '\n') (literal shape.closing)
    return initial :: rest
  else do
    let label ← run fun character =>
      !shape.opening.contains character && !shape.closing.contains character
    literal shape.closing
    return label

/-- The identifier, white space, and a label in the brackets of the shape. -/
def definition (id : Text) (shape : Shape) : Pattern Text := do
  identifier id
  let _ ← run Text.isSpace
  literal shape.opening
  labelAndClosing shape

end Pattern

/-- The definition of a node.  A node that is only an endpoint of edges has
none. -/
def findDefinition (text id : Text) : Option NodeDefinition :=
  if id.isEmpty then
    none
  else
    Shape.bySpecificity.findSome? fun shape =>
      ((Pattern.definition id shape).first? text).map fun label =>
        ⟨id, label, shape⟩

/-- A node without a definition is a rectangle labelled with its identifier. -/
def definitionOrDefault (text id : Text) : NodeDefinition :=
  (findDefinition text id).getD ⟨id, id, .rect⟩

end DiagramEdit
