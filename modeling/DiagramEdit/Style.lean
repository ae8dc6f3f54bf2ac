import DiagramEdit.Mention
import DiagramEdit.Text.LetterCase

/-!
# Style directives

A directive `style id name:value,name:value` colours one node.  An edit sets or
removes one property of the first directive of the node, or appends a directive
when there is none; everything else on the line is written back as it was read.
-/

namespace DiagramEdit

/-- A named property of a style; the value is empty when the name stands
alone. -/
structure StyleProperty where
  name : Text
  value : Text
deriving DecidableEq, Repr

namespace StyleProperty

/-- The name up to the first colon and the value after it, both trimmed. -/
def ofText (item : Text) : StyleProperty :=
  match item.dropWhile (· != ':') with
  | [] => ⟨item, []⟩
  | _ :: value => ⟨Text.trim (item.takeWhile (· != ':')), Text.trim value⟩

def render (property : StyleProperty) : Text :=
  if property.value.isEmpty then
    property.name
  else
    property.name ++ ':' :: property.value

end StyleProperty

/-- A directive that styles a single node. -/
structure StyleDirective where
  indent : Text
  id : Text
  properties : List StyleProperty
  /-- Whether the line ends in a semicolon. -/
  terminated : Bool
deriving DecidableEq, Repr

/-- The properties between commas, without the blank ones. -/
def StyleProperty.listOfText (body : Text) : List StyleProperty :=
  ((body.splitOn ',').map Text.trim).filter (!·.isEmpty)
    |>.map StyleProperty.ofText

/-- Sets the first property of the name, in any letter case, or adds it at the
end.  Without a value the property is removed. -/
def StyleProperty.assign (name : Text) (value : Option Text) :
    List StyleProperty → List StyleProperty
  | [] =>
      match value with
      | some value => [⟨name, value⟩]
      | none => []
  | property :: rest =>
      if Text.equalIgnoringCase property.name name then
        match value with
        | some value => ⟨property.name, value⟩ :: rest
        | none => rest
      else
        property :: assign name value rest

namespace Pattern

/-- White space, `style`, the identifier as a whole word, and the body.  The
white space in front of an identifier gives back what the identifier needs. -/
def styleLine (id : Text) : Pattern (Text × Text) := do
  let indent ← run Text.isSpace
  literal "style".toList
  let body ← afterSpace do
    wholeWord id
    let _ ← one Text.isSpace
    remainder
  return (indent, body)

end Pattern

namespace StyleDirective

/-- The directive on a line, if it styles exactly this node. -/
def ofLine? (id line : Text) : Option StyleDirective :=
  ((Pattern.styleLine id).atStart? line).map fun (indent, body) =>
    let body := Text.trim body
    let terminated := body.getLast? == some ';'
    let items := if terminated then body.dropLast else body
    ⟨indent, id, StyleProperty.listOfText items, terminated⟩

def assign (directive : StyleDirective) (name : Text) (value : Option Text) :
    StyleDirective :=
  { directive with
    properties := StyleProperty.assign name value directive.properties }

/-- The line of a directive.  One without properties has no line. -/
def render (directive : StyleDirective) : Option Text :=
  if directive.properties.isEmpty then
    none
  else
    some (directive.indent ++ "style ".toList ++ directive.id ++ ' ' ::
      [','].intercalate (directive.properties.map StyleProperty.render) ++
      (if directive.terminated then [';'] else []))

end StyleDirective

/-- The two colours of a node that an edit can set. -/
inductive ColorRole where
  | fill
  | stroke
deriving DecidableEq, Repr

def ColorRole.name : ColorRole → Text
  | .fill => "fill".toList
  | .stroke => "stroke".toList

/-- A colour is not blank and holds no character that ends a property or a
line. -/
def isColor (color : Text) : Bool :=
  !Text.isBlank color && color.all fun character =>
    character != ',' && character != ';' && character != '\n' &&
      character != '\r'

/-- The statements with the first directive of the node edited.  `none` says
that the node has no directive. -/
def restyle (id name : Text) (value : Option Text) :
    List Text → Option (List Text)
  | [] => none
  | line :: rest =>
      match StyleDirective.ofLine? id line with
      | none => (restyle id name value rest).map (line :: ·)
      | some directive =>
          let edited := (directive.assign name value).render
          if edited == directive.render then
            some (line :: rest)
          else
            some (edited.toList ++ rest)

/-- Sets a colour of a node or removes it.  A node that no line below the first
mentions, and a colour that could not be read back, leave the text as it is. -/
def setColor (role : ColorRole) (text id : Text) (color : Option Text) : Text :=
  if !references text id || color.any (!isColor ·) then
    text
  else
    let value := color.map Text.trim
    match Text.lines text with
    | [] => text
    | header :: statements =>
        match restyle id role.name value statements, value with
        | some edited, _ => Text.joinLines (header :: edited)
        | none, some value =>
            Text.appendLine text
              ("    style ".toList ++ id ++ ' ' :: role.name ++ ':' :: value)
        | none, none => text

end DiagramEdit
