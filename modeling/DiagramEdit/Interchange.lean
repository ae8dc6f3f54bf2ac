import DiagramEdit.Json.Printer
import DiagramEdit.Json.Reader
import DiagramEdit.Render.Options
import DiagramEdit.Svg.Identity

/-!
# Values in JSON

How options, names and answers are written in JSON, and how they are read back.
-/

namespace DiagramEdit

/-- A field that is written is decoded; one that is not takes the standard
value. -/
def decodeField {α : Type} (decode : Json → Option α) (standard : α) :
    Option Json → Option α
  | some value => decode value
  | none => some standard

/-- An accent gives all of its colours. -/
def Accent.ofJson? (value : Json) : Option Accent := do
  match ← value.fields?
      ["primary".toList, "border".toList, "tertiary".toList] with
  | [some primary, some border, some tertiary] =>
      return ⟨← primary.text?, ← border.text?, ← tertiary.text?⟩
  | _ => none

/-- Options may leave out any field. -/
def RenderOptions.ofJson? (value : Json) : Option RenderOptions := do
  let standard := RenderOptions.standard
  match ← value.fields?
      ["dark".toList, "handDrawn".toList, "fontFamily".toList,
        "accent".toList] with
  | [dark, handDrawn, fontFamily, accent] =>
      return {
        dark := ← decodeField Json.bool? standard.dark dark
        handDrawn := ← decodeField Json.bool? standard.handDrawn handDrawn
        fontFamily := ← decodeField Json.text? standard.fontFamily fontFamily
        accent := ← decodeField Accent.ofJson? standard.accent accent }
  | _ => none

/-- The options written by a text. -/
def RenderOptions.read? (text : Text) : Option RenderOptions :=
  (Json.read? text).bind RenderOptions.ofJson?

/-- A dialect is written by its exact name. -/
def Dialect.ofJson? (value : Json) : Option Dialect :=
  value.variant?.bind fun name => Dialect.all.find? (·.name == name)

/-- A shape is written by its exact name. -/
def Shape.ofJson? (value : Json) : Option Shape :=
  value.variant?.bind fun name => Shape.all.find? (·.name == name)

def Accent.toJson (accent : Accent) : Json :=
  .ofEntries
    [("primary", .ofText accent.primary), ("border", .ofText accent.border),
     ("tertiary", .ofText accent.tertiary)]

def RenderOptions.toJson (options : RenderOptions) : Json :=
  .ofEntries
    [("dark", .bool options.dark), ("handDrawn", .bool options.handDrawn),
     ("fontFamily", .ofText options.fontFamily),
     ("accent", options.accent.toJson)]

def Capabilities.toJson (capabilities : Capabilities) : Json :=
  .ofEntries
    [("canEditLabel", .bool capabilities.canEditLabel),
     ("canEditShape", .bool capabilities.canEditShape),
     ("canEditFill", .bool capabilities.canEditFill),
     ("canConnect", .bool capabilities.canConnect),
     ("canDelete", .bool capabilities.canDelete),
     ("canAdd", .bool capabilities.canAdd)]

def NodeDefinition.toJson (node : NodeDefinition) : Json :=
  .ofEntries
    [("id", .ofText node.id), ("label", .ofText node.label),
     ("shape", .ofText node.shape.name)]

def ElementIdentity.toJson (element : ElementIdentity) : Json :=
  .ofEntries
    [("id", .ofText element.id), ("label", .ofText element.label),
     ("dialect", .ofText element.dialect.name)]

end DiagramEdit
