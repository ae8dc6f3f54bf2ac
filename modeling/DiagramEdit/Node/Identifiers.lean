import DiagramEdit.Text.LetterCase
import DiagramEdit.Text.Pattern

/-!
# Identifiers in use

The identifiers that stand in front of an opening bracket.  A new node must not
take one of them.
-/

namespace DiagramEdit

/-- Words that begin a statement where a node could stand. -/
def reservedWords : List Text :=
  ["flowchart".toList, "graph".toList, "subgraph".toList, "end".toList,
    "style".toList, "classdef".toList, "click".toList, "class".toList,
    "direction".toList, "linkstyle".toList]

def isReserved (word : Text) : Bool :=
  reservedWords.contains (Text.lower word)

/-- A character an identifier can begin with. -/
def startsIdentifier (character : Char) : Bool :=
  character.isAlpha || character == '_'

/-- A character that can open a node's brackets. -/
def opensNode (character : Char) : Bool :=
  character == '[' || character == '(' || character == '{' || character == '>'

namespace Pattern

/-- A whole word in front of an opening bracket. -/
def identifierBeforeBracket : Pattern Text := do
  check Place.isWordBoundary
  let initial ← one startsIdentifier
  let rest ← run Text.isWordCharacter
  let _ ← run Text.isSpace
  let _ ← one opensNode
  return initial :: rest

end Pattern

/-- The identifiers in front of an opening bracket, each at its first place. -/
def nodeIds (text : Text) : List Text :=
  (Pattern.identifierBeforeBracket.readings text).filter (!isReserved ·)
    |>.eraseDups

end DiagramEdit
