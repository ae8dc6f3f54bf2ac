import DiagramEdit.Text.LetterCase

/-!
# Shapes of nodes

The brackets around its label give a flowchart node its shape.
-/

namespace DiagramEdit

/-- The shape of a flowchart node. -/
inductive Shape where
  | rect
  | round
  | stadium
  | subroutine
  | cylinder
  | circle
  | diamond
  | hexagon
deriving DecidableEq, Repr

namespace Shape

/-- The order in which shapes are offered. -/
def all : List Shape :=
  [.rect, .round, .stadium, .subroutine, .cylinder, .circle, .diamond, .hexagon]

/-- The order in which a node is looked for: brackets of two characters come
before the single ones they begin with. -/
def bySpecificity : List Shape :=
  [.circle, .hexagon, .stadium, .subroutine, .cylinder, .rect, .round, .diamond]

theorem mem_all (shape : Shape) : shape ∈ all := by
  cases shape <;> decide

theorem mem_bySpecificity (shape : Shape) : shape ∈ bySpecificity := by
  cases shape <;> decide

def opening : Shape → Text
  | .rect => ['[']
  | .round => ['(']
  | .stadium => ['(', '[']
  | .subroutine => ['[', '[']
  | .cylinder => ['[', '(']
  | .circle => ['(', '(']
  | .diamond => ['{']
  | .hexagon => ['{', '{']

def closing : Shape → Text
  | .rect => [']']
  | .round => [')']
  | .stadium => [']', ')']
  | .subroutine => [']', ']']
  | .cylinder => [')', ']']
  | .circle => [')', ')']
  | .diamond => ['}']
  | .hexagon => ['}', '}']

/-- Whether the brackets have two characters. -/
def isDouble : Shape → Bool
  | .rect | .round | .diamond => false
  | .stadium | .subroutine | .cylinder | .circle | .hexagon => true

/-- The label between the brackets of the shape. -/
def wrap (shape : Shape) (label : Text) : Text :=
  shape.opening ++ label ++ shape.closing

/-- The name by which commands and files refer to a shape. -/
def name : Shape → Text
  | .rect => "rect".toList
  | .round => "round".toList
  | .stadium => "stadium".toList
  | .subroutine => "subroutine".toList
  | .cylinder => "cylinder".toList
  | .circle => "circle".toList
  | .diamond => "diamond".toList
  | .hexagon => "hexagon".toList

/-- The name shown to a person who picks a shape. -/
def displayName : Shape → Text
  | .rect => "Rectangle".toList
  | .round => "Rounded".toList
  | .stadium => "Stadium".toList
  | .subroutine => "Subroutine".toList
  | .cylinder => "Cylinder".toList
  | .circle => "Circle".toList
  | .diamond => "Diamond".toList
  | .hexagon => "Hexagon".toList

/-- The shape of a name, in any letter case. -/
def ofName? (name : Text) : Option Shape :=
  all.find? fun shape => shape.name == Text.lower name

end Shape

end DiagramEdit
