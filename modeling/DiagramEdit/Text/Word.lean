import DiagramEdit.Text.CharacterRanges
import DiagramEdit.Text.WhiteSpace

/-!
# Word characters

Two classes of characters that differ beyond ASCII.  Word characters decide
where a word begins and ends; name characters decide whether an identifier has
to stand at such a boundary.  A combining mark is a word character and no name
character, a superscript digit the other way round.  Word characters and digits
are those of Unicode 16 and name characters those of Unicode 17, so a letter new
in Unicode 17 is a name character that no word holds.
-/

namespace DiagramEdit.Text

def isAsciiWord (character : Char) : Bool :=
  character.isAlphanum || character == '_'

/-- Letters, marks, decimal digits, connectors and the two joiners, by
Unicode 16. -/
def isWordCharacter (character : Char) : Bool :=
  if character.toNat < 0x80 then
    isAsciiWord character
  else
    character.toNat == 0x200c || character.toNat == 0x200d ||
      alphabeticRanges.holds character || markRanges.holds character ||
      decimalDigitRanges.holds character || connectorRanges.holds character

/-- Letters, numbers of every kind and the underscore, by Unicode 17. -/
def isNameCharacter (character : Char) : Bool :=
  if character.toNat < 0x80 then
    isAsciiWord character
  else
    alphabeticRanges.holds character || decimalDigitRanges.holds character ||
      otherNumberRanges.holds character ||
      newerAlphanumericRanges.holds character

/-- Decimal digits of every script, by Unicode 16. -/
def isDecimalDigit (character : Char) : Bool :=
  if character.toNat < 0x80 then
    character.isDigit
  else
    decimalDigitRanges.holds character

end DiagramEdit.Text
