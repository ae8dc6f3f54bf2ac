import DiagramEdit.Declaration
import DiagramEdit.Header
import DiagramEdit.Node.Definition
import DiagramEdit.Svg.Click

/-!
# Identities of drawn elements

A drawn element stands for an element of the diagram.  Its identifier is encoded
in its attributes, or else the text that it shows names it.
-/

namespace DiagramEdit

/-- An element of a diagram, as a drawing shows it. -/
structure ElementIdentity where
  id : Text
  label : Text
  dialect : Dialect
deriving DecidableEq, Repr

namespace Pattern

/-- The leading text, an identifier, a hyphen and digits up to the end.  The
identifier is the shortest one. -/
def numberedIdentifier (leading : Text) : Pattern Text := do
  literal leading
  let initial ← one (· != '\n')
  let (rest, _) ← shortestThen (· != '\n') do
    literal ['-']
    let _ ← nonemptyRun Text.isDecimalDigit
    check Place.isTextEnd
  return initial :: rest

/-- The leading text and an identifier up to the next hyphen or underscore
behind its first character. -/
def separatedIdentifier (leading : Text) : Pattern Text := do
  literal leading
  let initial ← one (· != '\n')
  let (rest, _) ← shortestThen (· != '\n') do
    let _ ← one fun character => character == '-' || character == '_'
  return initial :: rest

end Pattern

namespace Svg

/-- The identifier that the pattern reads in the `id` of a node. -/
def Node.encodedId? (node : Node) (pattern : Pattern Text) : Option Text :=
  node.id?.bind pattern.atStart?

/-- The element that shows the label of a node: a text, or else foreign
content. -/
def Node.labelElement? (node : Node) : Option Node :=
  if node.hasTag "text".toList then
    some node
  else
    node.firstBelow? "text".toList <|> node.firstBelow? "foreignObject".toList

/-- The element that shows the label at the end of a path.  A bare shape takes
the label of the group it stands in. -/
def Path.labelElement? (path : Path) : Option Node :=
  path.node.labelElement? <|>
    ((path.parentElement?.filter (·.hasTag "g".toList)).bind Node.labelElement?)

/-- The visible label as identifier and as label. -/
def Path.visibleIdentity? (path : Path) (dialect : Dialect) :
    Option ElementIdentity := do
  let label := Text.trim (← path.labelElement?).textContent
  if label.isEmpty then
    none
  else
    return ⟨label, label, dialect⟩

/-- The identifier of a flowchart node: the encoded one, or else its data
attribute, unless that is empty. -/
def Node.flowchartId? (node : Node) : Option Text :=
  (node.encodedId? (.numberedIdentifier "flowchart-".toList) <|>
    node.attribute? "data-id".toList).filter (!·.isEmpty)

/-- The identifier of a class, which is its name. -/
def Node.classId? (node : Node) : Option Text :=
  node.encodedId? (.numberedIdentifier "classId-".toList)

/-- The identifier of a state, with a number at the end or without. -/
def Node.stateId? (node : Node) : Option Text :=
  node.encodedId? (.numberedIdentifier "state-".toList) <|>
    node.encodedId? (.separatedIdentifier "state-".toList)

/-- The element of the diagram that the end of a path stands for. -/
def Path.identity? (path : Path) (dialect : Dialect) (source : Text) :
    Option ElementIdentity :=
  match dialect with
  | .flowchart =>
      path.node.flowchartId?.map fun id =>
        ⟨id, (definitionOrDefault source id).label, dialect⟩
  | .classes =>
      match path.node.classId? with
      | some name => some ⟨name, name, dialect⟩
      | none => path.visibleIdentity? dialect
  | .states =>
      match path.node.stateId? with
      | some id => some ⟨id, (stateDescription? source id).getD id, dialect⟩
      | none => path.visibleIdentity? dialect
  | _ => path.visibleIdentity? dialect

/-- The element of the diagram that a click on the path selects.  The dialect is
the one the source is read in. -/
def Path.pick? (path : Path) (source : Text) : Option ElementIdentity := do
  let selected ← path.selected? (detect source)
  selected.identity? (detect source) source

end Svg

end DiagramEdit
