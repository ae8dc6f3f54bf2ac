import DiagramEdit.Direction
import DiagramEdit.Label
import DiagramEdit.Style

/-!
# Edits

Every edit of a text as a value.  Applying one gives a text again, whatever the
text was.
-/

namespace DiagramEdit

/-- An edit of the text of a diagram. -/
inductive Edit where
  | toggleDirection
  | relabel (dialect : Dialect) (id old new : Text)
  | updateLabel (id label : Text)
  | updateShape (id : Text) (shape : Shape)
  | setColor (role : ColorRole) (id : Text) (color : Option Text)
  | deleteNode (id : Text)
  | addEdge (source target : Text)
  | addNode
deriving DecidableEq, Repr

namespace Edit

def apply (text : Text) : Edit → Text
  | .toggleDirection => DiagramEdit.toggleDirection text
  | .relabel dialect id old new => DiagramEdit.relabel text dialect id old new
  | .updateLabel id label => DiagramEdit.updateLabel text id label
  | .updateShape id shape => DiagramEdit.updateShape text id shape
  | .setColor role id color => DiagramEdit.setColor role text id color
  | .deleteNode id => DiagramEdit.deleteNode text id
  | .addEdge source target => DiagramEdit.addEdge text source target
  | .addNode => (DiagramEdit.addNode text).text

/-- The text after the edits, first one first. -/
def applyAll (text : Text) (edits : List Edit) : Text :=
  edits.foldl apply text

end Edit

end DiagramEdit
