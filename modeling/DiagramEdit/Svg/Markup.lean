import DiagramEdit.Text.Digits
import DiagramEdit.Text.Pattern

/-!
# Markup

The pieces an XML text is made of: tags, character data, sections, comments and
processing instructions.  Document types are refused.
-/

namespace DiagramEdit

namespace Svg

/-- A name with the qualifier in front of its colon, which may be empty. -/
structure QualifiedName where
  qualifier : Text
  name : Text
deriving DecidableEq, Repr

/-- A piece of a text between references: a character that stands for itself, or
one that a reference stands for. -/
inductive Piece where
  | plain (character : Char)
  | reference (character : Char)
deriving DecidableEq, Repr

/-- The pieces of markup. -/
inductive Markup where
  | openTag (name : QualifiedName)
      (attributes : List (QualifiedName × List Piece)) (empty : Bool)
  | closeTag (name : QualifiedName)
  | characters (content : List Piece)
  | verbatim (content : Text)
  | comment
  | instruction
deriving Repr

/-- White space inside and between tags. -/
def isMarkupSpace (character : Char) : Bool :=
  character == ' ' || character == '\t' || character == '\n' ||
    character == '\r'

/-- A character that a document may hold. -/
def isDocumentCharacter (character : Char) : Bool :=
  let code := character.toNat
  (0x20 ≤ code || code == 0x09 || code == 0x0a || code == 0x0d) &&
    code != 0xfffe && code != 0xffff

def nameStartRanges : Text.Ranges :=
  [(0x3a, 0x3a), (0x41, 0x5a), (0x5f, 0x5f), (0x61, 0x7a), (0xc0, 0xd6),
    (0xd8, 0xf6), (0xf8, 0x2ff), (0x370, 0x37d), (0x37f, 0x1fff),
    (0x200c, 0x200d), (0x2070, 0x218f), (0x2c00, 0x2fef), (0x3001, 0xd7ff),
    (0xf900, 0xfdcf), (0xfdf0, 0xfffd), (0x10000, 0xeffff)]

/-- A character a name can begin with. -/
def startsName (character : Char) : Bool :=
  nameStartRanges.holds character

def laterNameRanges : Text.Ranges :=
  [(0x2d, 0x2e), (0x30, 0x39), (0xb7, 0xb7), (0x300, 0x36f), (0x203f, 0x2040)]

/-- A character a name can go on with. -/
def continuesName (character : Char) : Bool :=
  startsName character || laterNameRanges.holds character

/-- The character of a numbered reference.  A number that is no character stands
for the replacement character, and some characters are not allowed. -/
def characterOfNumber? (number : Nat) : Option Char :=
  if number < 0x100000000 then
    let character := if number.isValidChar then Char.ofNat number else '\ufffd'
    if isDocumentCharacter character then some character else none
  else
    none

/-- The character of a named reference; there are five. -/
def namedCharacter? (name : Text) : Option Char :=
  ([("quot".toList, '"'), ("amp".toList, '&'), ("apos".toList, '\''),
    ("lt".toList, '<'), ("gt".toList, '>')].find? fun entry =>
      entry.1 == name).map Prod.snd

end Svg

namespace Pattern

open Svg

def markupSpaces : Pattern Unit := do
  let _ ← run isMarkupSpace

def someMarkupSpaces : Pattern Unit := do
  let _ ← nonemptyRun isMarkupSpace

/-- A name in which a colon has no special meaning. -/
def markupName : Pattern Text := do
  let initial ← one startsName
  let rest ← run continuesName
  return initial :: rest

/-- A name with at most one colon.  What stands before and behind it begins as a
name does, and only the part before it may be empty. -/
def qualifiedName : Pattern QualifiedName := do
  let written ← run continuesName
  let name ← match written.splitOn ':' with
    | [name] => pure (⟨[], name⟩ : QualifiedName)
    | [qualifier, name] => pure ⟨qualifier, name⟩
    | _ => failure
  ensure (name.qualifier.head?.all startsName && name.name.head?.any startsName)
  return name

/-- A reference by name or by number. -/
def reference : Pattern Char := do
  literal ['&']
  let meant ←
    (do
      literal ['#', 'x']
      let digits ← nonemptyRun Text.isHexDigit
      return (Text.numberOf? 16 digits).bind characterOfNumber?) <|>
    (do
      literal ['#']
      let digits ← nonemptyRun Char.isDigit
      return (Text.numberOf? 10 digits).bind characterOfNumber?) <|>
    (do
      let name ← markupName
      return namedCharacter? name)
  literal [';']
  match meant with
  | some character => return character
  | none => failure

/-- One piece of character data. -/
def piece : Pattern Piece :=
  (do
    let character ← one (· != '&')
    return .plain character) <|>
  (do
    let character ← reference
    return .reference character)

/-- The pieces of a whole text, if all its references are well formed. -/
def pieces? (text : Text) : Option (List Piece) :=
  atStart? (do
    let pieces ← many piece
    check Place.isTextEnd
    return pieces) text

/-- A name, an equals sign and a quoted value without `<`. -/
def quotedAttribute : Pattern (QualifiedName × List Piece) := do
  let name ← qualifiedName
  markupSpaces
  literal ['=']
  markupSpaces
  let quote ← one fun character => character == '"' || character == '\''
  let value ← run fun character =>
    isDocumentCharacter character && character != quote && character != '<'
  literal [quote]
  match pieces? value with
  | some pieces => return (name, pieces)
  | none => failure

/-- An attribute inside a tag, with the white space it needs in front. -/
def spacedAttribute : Pattern (QualifiedName × List Piece) := do
  someMarkupSpaces
  quotedAttribute

def openTag : Pattern Markup := do
  literal ['<']
  let name ← qualifiedName
  let attributes ← many spacedAttribute
  markupSpaces
  (do
    literal ['/', '>']
    return .openTag name attributes true) <|>
  (do
    literal ['>']
    return .openTag name attributes false)

def closeTag : Pattern Markup := do
  literal ['<', '/']
  let name ← qualifiedName
  markupSpaces
  literal ['>']
  return .closeTag name

/-- A comment, in which two hyphens stand at the end only. -/
def comment : Pattern Markup := do
  literal "<!--".toList
  let _ ← shortestThen isDocumentCharacter (literal "--".toList)
  literal ['>']
  return .comment

/-- A processing instruction; the declaration of the document is none. -/
def instruction : Pattern Markup := do
  check fun place => !"<?xml ".toList.isPrefixOf place.after
  literal "<?".toList
  let _ ← markupName
  markupSpaces
  let _ ← shortestThen isDocumentCharacter (literal "?>".toList)
  return .instruction

/-- A section whose characters all stand for themselves. -/
def characterSection : Pattern Markup := do
  literal "<![CDATA[".toList
  let (content, _) ← shortestThen isDocumentCharacter (literal "]]>".toList)
  return .verbatim content

/-- The characters up to the next tag; they do not hold the end of a section. -/
def characters : Pattern Markup := do
  let content ← nonemptyRun fun character =>
    isDocumentCharacter character && character != '<'
  ensure !((literal "]]>".toList).occursIn content)
  match pieces? content with
  | some pieces => return .characters pieces
  | none => failure

def markup : Pattern Markup :=
  closeTag <|> openTag <|> comment <|> characterSection <|> instruction <|>
    characters

/-- An attribute of the declaration whose name begins with the word. -/
def declarationAttribute (word : Text) : Pattern Unit := do
  ahead word
  let _ ← qualifiedName
  markupSpaces
  literal ['=']
  markupSpaces
  let quote ← one fun character => character == '"' || character == '\''
  let _ ← run fun character =>
    isDocumentCharacter character && character != quote && character != '<'
  literal [quote]

/-- The declaration of the document: a version, then an encoding and a mark of
independence if they are given. -/
def declaration : Pattern Unit := do
  ahead "<?xml ".toList
  literal "<?xml".toList
  someMarkupSpaces
  declarationAttribute "version".toList
  optional do
    someMarkupSpaces
    declarationAttribute "encoding".toList
  optional do
    someMarkupSpaces
    declarationAttribute "standalone".toList
  markupSpaces
  literal "?>".toList

/-- A byte order mark and a declaration, each if it is there, then markup up to
the end of the text. -/
def markupDocument : Pattern (List Markup) := do
  optional (literal ['\ufeff'])
  optional declaration
  let markups ← many markup
  check Place.isTextEnd
  return markups

end Pattern

namespace Svg

/-- The markup of a whole text. -/
def Markup.read? (text : Text) : Option (List Markup) :=
  Pattern.markupDocument.atStart? text

end Svg

end DiagramEdit
