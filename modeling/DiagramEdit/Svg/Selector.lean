import DiagramEdit.Dialect
import DiagramEdit.Svg.Node

/-!
# Selectors

Tests on elements, written as in a style sheet, and the elements that a click
can select in each dialect.
-/

namespace DiagramEdit

namespace Svg

/-- A test on an element. -/
inductive Selector where
  /-- One of the words of the `class` attribute. -/
  | hasClass (name : Text)
  /-- The first characters of the `id` attribute. -/
  | idBegins (start : Text)
deriving DecidableEq, Repr

namespace Selector

def accepts (selector : Selector) (node : Node) : Bool :=
  match selector with
  | .hasClass name => node.hasClass name
  | .idBegins start => node.id?.any start.isPrefixOf

/-- The innermost accepted node, from the end of the path outwards. -/
def closest? (selector : Selector) (path : Path) : Option Path :=
  path.upward.find? fun outer => selector.accepts outer.node

/-- The selector as a style sheet writes it. -/
def render : Selector → Text
  | .hasClass name => '.' :: name
  | .idBegins start => "[id^=\"".toList ++ start ++ "\"]".toList

end Selector

end Svg

/-- The elements of a dialect that a click can select, in the order in which
they are looked for. -/
def Dialect.selectors : Dialect → List Svg.Selector
  | .flowchart => [.hasClass "node".toList, .hasClass "rough-node".toList]
  | .sequence => [.hasClass "actor".toList]
  | .classes => [.hasClass "classGroup".toList]
  | .states =>
      [.hasClass "statediagram-state".toList, .hasClass "stateGroup".toList]
  | .entities => [.idBegins "entity-".toList]
  | .mindmap => [.hasClass "mindmap-node".toList]
  | .pie | .gantt => []

/-- The selectors of a dialect as one group. -/
def Dialect.selectorGroup (dialect : Dialect) : Text :=
  ", ".toList.intercalate (dialect.selectors.map Svg.Selector.render)

end DiagramEdit
