/-!
# Texts and white space

A text is the list of its characters.  White space is the property White_Space
of Unicode; trimming and blankness are stated by it.
-/

namespace DiagramEdit

/-- A text is the list of its characters. -/
abbrev Text := List Char

namespace Text

/-- The characters with the property White_Space. -/
def isSpace (character : Char) : Bool :=
  let code := character.toNat
  (0x09 ≤ code && code ≤ 0x0d) || code == 0x20 || code == 0x85 ||
    code == 0xa0 || code == 0x1680 || (0x2000 ≤ code && code ≤ 0x200a) ||
    code == 0x2028 || code == 0x2029 || code == 0x202f || code == 0x205f ||
    code == 0x3000

/-- A space or a tab: white space that never ends a line. -/
def isBlankCharacter (character : Char) : Bool :=
  character == ' ' || character == '\t'

/-- A text is blank when it holds white space only. -/
def isBlank (text : Text) : Bool :=
  text.all isSpace

def trimStart (text : Text) : Text :=
  text.dropWhile isSpace

def trimEnd (text : Text) : Text :=
  (text.reverse.dropWhile isSpace).reverse

/-- The text without the white space at its two ends. -/
def trim (text : Text) : Text :=
  trimEnd (trimStart text)

/-- The non-empty pieces between white space. -/
def words (text : Text) : List Text :=
  (text.splitOnP isSpace).filter (· != [])

end Text

end DiagramEdit
