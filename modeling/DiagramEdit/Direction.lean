import DiagramEdit.Header
import DiagramEdit.Mention

/-!
# Direction of flow

The header of a flowchart may say in which direction it runs.  Toggling swaps
a vertical and a horizontal layout on that line and touches no other.
-/

namespace DiagramEdit

/-- A direction of flow, named by its two ends. -/
inductive Direction where
  | topDown
  | leftRight
  | topBottom
  | rightLeft
  | bottomTop
deriving DecidableEq, Repr

namespace Direction

/-- The order in which a header is searched for a direction. -/
def all : List Direction :=
  [.topDown, .leftRight, .topBottom, .rightLeft, .bottomTop]

def keyword : Direction → Text
  | .topDown => "TD".toList
  | .leftRight => "LR".toList
  | .topBottom => "TB".toList
  | .rightLeft => "RL".toList
  | .bottomTop => "BT".toList

/-- The direction after a toggle: horizontal for vertical and back. -/
def toggled : Direction → Direction
  | .topDown | .topBottom | .bottomTop => .leftRight
  | .leftRight | .rightLeft => .topDown

end Direction

/-- Whether the header says that the diagram runs from the top down. -/
def isVertical (text : Text) : Bool :=
  [Direction.topDown, Direction.topBottom].any fun direction =>
    mentions direction.keyword (headerLine text)

/-- The line with its direction toggled.  Of several directions the one that
comes first in `Direction.all` is taken, at its first place. -/
def toggleLine (line : Text) : Text :=
  (Direction.all.findSome? fun direction =>
      Pattern.replaceFirst?
        (Pattern.region (Pattern.wholeWord direction.keyword)) line
        direction.toggled.keyword).getD line

/-- Toggles the first line that is not blank. -/
def toggleFirstLine : List Text → List Text
  | [] => []
  | line :: rest =>
      if Text.isBlank line then
        line :: toggleFirstLine rest
      else
        toggleLine line :: rest

/-- Toggles the direction on the header line. -/
def toggleDirection (text : Text) : Text :=
  Text.joinLines (toggleFirstLine (Text.lines text))

end DiagramEdit
