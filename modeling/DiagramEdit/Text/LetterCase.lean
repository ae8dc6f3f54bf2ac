import DiagramEdit.Text.WhiteSpace

/-!
# Letter case

Keywords are ASCII, so lower case matters only where it yields an ASCII letter:
for the capitals of ASCII and for the Kelvin sign, whose small letter is `k`.
-/

namespace DiagramEdit.Text

/-- The small letter of a character, as far as that is an ASCII letter. -/
def lowerCharacter (character : Char) : Char :=
  if character.toNat == 0x212a then 'k' else character.toLower

/-- The text in lower case, for comparison with a keyword. -/
def lower (text : Text) : Text :=
  text.map lowerCharacter

/-- Equality up to the case of ASCII letters. -/
def equalIgnoringCase (left right : Text) : Bool :=
  left.map Char.toLower == right.map Char.toLower

end DiagramEdit.Text
