import DiagramEdit.Svg.Selector

/-!
# Clicks

A click falls on some node of the drawing.  The element it selects is the
innermost one that a selector of the dialect accepts or, where there is none,
the innermost group that is drawn with a label.
-/

namespace DiagramEdit.Svg

/-- The tags of drawn shapes. -/
def shapeTags : List Text :=
  ["rect".toList, "polygon".toList, "circle".toList, "path".toList,
    "ellipse".toList]

/-- A group with a text and a shape somewhere below it. -/
def Node.isLabelledGroup (node : Node) : Bool :=
  node.hasTag "g".toList && (node.firstBelow? "text".toList).isSome &&
    shapeTags.any fun tag => (node.firstBelow? tag).isSome

/-- The innermost labelled group on the path, inside the innermost drawing. -/
def Path.labelledGroup? (path : Path) : Option Path :=
  (path.upward.takeWhile fun outer => !outer.node.hasTag "svg".toList).find?
    fun outer => outer.node.isLabelledGroup

/-- The element that a click on the path selects. -/
def Path.selected? (path : Path) (dialect : Dialect) : Option Path :=
  dialect.selectors.findSome? (·.closest? path) <|> path.labelledGroup?

end DiagramEdit.Svg
