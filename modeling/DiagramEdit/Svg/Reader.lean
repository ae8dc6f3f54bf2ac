import DiagramEdit.Svg.Markup
import DiagramEdit.Svg.Node

/-!
# Reading a drawing

The markup of an XML text is put together to a document: references are
resolved, line ends and the white space of attributes are normalised, prefixes
are bound to namespaces, and every tag is matched with its partner.
-/

namespace DiagramEdit.Svg

/-- The value of an attribute: each line end and each tab becomes a space, and
referenced characters stay as they are. -/
def attributeValue : List Piece → Text
  | [] => []
  | .plain '\r' :: .plain '\n' :: rest => attributeValue (.plain '\n' :: rest)
  | .plain character :: rest =>
      (if isMarkupSpace character then ' ' else character) ::
        attributeValue rest
  | .reference character :: rest => character :: attributeValue rest

/-- Adds a character to the text read so far, nearest character first.  A
carriage return becomes a line feed as soon as it is known what follows it, and
a line feed right behind it belongs to it. -/
def addNormalised (read : Text) (character : Char) (last : Bool) : Text :=
  let ending := if last && character == '\r' then '\n' else character
  match read with
  | '\r' :: earlier =>
      if character == '\n' then '\n' :: earlier else ending :: '\n' :: earlier
  | read => ending :: read

/-- The text of character data, behind the text read so far.  A referenced
character, and the plain character right after it, are kept as they are. -/
def characterData (read : Text) (keep : Bool) : List Piece → Text
  | [] => read.reverse
  | .reference character :: rest => characterData (character :: read) true rest
  | .plain character :: rest =>
      if keep then
        characterData (character :: read) false rest
      else
        characterData (addNormalised read character rest.isEmpty) false rest

/-- Namespaces by the qualifier that is bound to them; the empty qualifier
stands for the default namespace. -/
abbrev Bindings := List (Text × Text)

def xmlQualifier : Text := "xml".toList

def bindingQualifier : Text := "xmlns".toList

def xmlNamespace : Text :=
  "http://www.w3.org/XML/1998/namespace".toList

def bindingNamespace : Text :=
  "http://www.w3.org/2000/xmlns/".toList

/-- The attributes of a tag, split into the bindings it makes and the others. -/
def splitAttributes :
    List (QualifiedName × Text) →
      Option (Bindings × List (QualifiedName × Text))
  | [] => some ([], [])
  | (name, value) :: rest => do
      let (bindings, others) ← splitAttributes rest
      if name.qualifier == bindingQualifier then
        let isXml := value == xmlNamespace
        if value == bindingNamespace ||
            isXml != (name.name == xmlQualifier) then
          none
        else if isXml then
          some (bindings, others)
        else
          some ((name.name, value) :: bindings, others)
      else if name.name == bindingQualifier then
        if value == xmlNamespace || value == bindingNamespace then
          none
        else
          some (([], value) :: bindings, others)
      else
        some (bindings, (name, value) :: others)

/-- No qualifier but the empty one is bound twice. -/
def Bindings.areDistinct : Bindings → Bool
  | [] => true
  | (qualifier, _) :: rest =>
      (qualifier.isEmpty || rest.all fun binding => binding.1 != qualifier) &&
        areDistinct rest

def Bindings.find? (bindings : Bindings) (qualifier : Text) : Option Text :=
  (List.find? (fun binding => binding.1 == qualifier) bindings).map Prod.snd

/-- An attribute with its namespace.  One without a qualifier has none. -/
def resolveAttribute? (bindings : Bindings) (name : QualifiedName)
    (value : Text) : Option Attribute :=
  if name.qualifier.isEmpty then
    some ⟨none, name.name, value⟩
  else if name.qualifier == xmlQualifier then
    some ⟨some xmlNamespace, name.name, value⟩
  else
    (bindings.find? name.qualifier).map fun space =>
      ⟨some space, name.name, value⟩

/-- No two attributes have the same name in the same namespace. -/
def areDistinct : List Attribute → Bool
  | [] => true
  | first :: rest =>
      (rest.all fun other =>
          first.space != other.space || first.name != other.name) &&
        areDistinct rest

/-- An element whose closing tag has not been read: its children so far stand in
reverse order. -/
structure OpenNode where
  position : Nat
  name : QualifiedName
  content : Content
  bindings : Bindings
  children : List Node

def OpenNode.close (node : OpenNode) : Node :=
  .mk node.position node.content node.children.reverse

def OpenNode.add (node : OpenNode) (child : Node) : OpenNode :=
  { node with children := child :: node.children }

/-- A document that has been read in part. -/
structure PartialDocument where
  /-- The position of the next node. -/
  next : Nat
  /-- The node whose children are being read. -/
  current : OpenNode
  /-- The nodes that enclose it, innermost first. -/
  enclosing : List OpenNode

namespace PartialDocument

def empty : PartialDocument where
  next := 1
  current := ⟨0, ⟨[], []⟩, .document, [], []⟩
  enclosing := []

def add (document : PartialDocument) (content : Content) : PartialDocument :=
  { document with
    next := document.next + 1
    current := document.current.add (.mk document.next content []) }

/-- Adds a text.  It belongs to the text right before it, if there is one. -/
def addText (document : PartialDocument) (content : Text) : PartialDocument :=
  match document.current.children with
  | .mk position (.text earlier) children :: others =>
      { document with
        current := { document.current with
          children :=
            .mk position (.text (earlier ++ content)) children :: others } }
  | _ => document.add (.text content)

/-- An element that begins here, inside the current node. -/
def openElement? (document : PartialDocument) (name : QualifiedName)
    (attributes : List (QualifiedName × List Piece)) : Option OpenNode := do
  let values :=
    attributes.map fun (name, pieces) => (name, attributeValue pieces)
  let (bindings, others) ← splitAttributes values
  let visible := bindings ++ document.current.bindings
  let attributes ← others.mapM fun (name, value) =>
    resolveAttribute? visible name value
  if name.qualifier != bindingQualifier && bindings.areDistinct &&
      areDistinct attributes &&
      (name.qualifier.isEmpty || (visible.find? name.qualifier).isSome) then
    return ⟨document.next, name, .element name.name attributes, visible, []⟩
  else
    none

/-- Whether the document has an element at its top. -/
def hasRoot (document : PartialDocument) : Bool :=
  document.current.children.any Node.isElement

/-- Reads on by one piece of markup.  Outside the root element there are only
white space, comments and instructions, and there is one root element. -/
def read? (document : PartialDocument) : Markup → Option PartialDocument
  | .openTag name attributes isEmpty => do
      if document.enclosing.isEmpty && document.hasRoot then
        none
      else
        let opened ← document.openElement? name attributes
        let document := { document with next := document.next + 1 }
        if isEmpty then
          return { document with current := document.current.add opened.close }
        else
          return { document with
            current := opened
            enclosing := document.current :: document.enclosing }
  | .closeTag name =>
      match document.enclosing with
      | [] => none
      | parent :: outer =>
          if name == document.current.name then
            some { document with
              current := parent.add document.current.close, enclosing := outer }
          else
            none
  | .characters content =>
      if document.enclosing.isEmpty then
        if content.all fun
            | .plain character => isMarkupSpace character
            | .reference _ => false
        then some document
        else none
      else
        some (document.addText (characterData [] false content))
  | .verbatim content =>
      if document.enclosing.isEmpty then
        none
      else
        some (document.addText (characterData [] false (content.map .plain)))
  | .comment => some (document.add .comment)
  | .instruction => some (document.add .instruction)

end PartialDocument

/-- The document that a text writes. -/
def Document.read? (text : Text) : Option Document := do
  let markups ← Markup.read? text
  let document ← markups.foldlM PartialDocument.read? .empty
  if document.enclosing.isEmpty && document.hasRoot then
    return ⟨document.current.close⟩
  else
    none

end DiagramEdit.Svg
