import DiagramEdit.Json.Value
import DiagramEdit.Text.Digits

/-!
# Reading JSON

The strict grammar: no comments, no trailing commas, no leading zeros, and no
control characters inside strings.
-/

namespace DiagramEdit.Json

/-- White space between the tokens of JSON. -/
def isSpace (character : Char) : Bool :=
  character == ' ' || character == '\n' || character == '\t' ||
    character == '\r'

def skipSpaces (text : Text) : Text :=
  text.dropWhile isSpace

/-- The rest of a text that begins with the word. -/
def afterWord? (word text : Text) : Option Text :=
  word.isPrefixOf? text

/-- The character that a backslash and this one stand for. -/
def escaped? : Char → Option Char
  | '"' => some '"'
  | '\\' => some '\\'
  | '/' => some '/'
  | 'b' => some '\x08'
  | 'f' => some '\x0c'
  | 'n' => some '\n'
  | 'r' => some '\r'
  | 't' => some '\t'
  | _ => none

/-- The code points and surrogates up to the closing quote, and the rest. -/
def readUnits : Text → Option (List Nat × Text)
  | [] => none
  | '"' :: rest => some ([], rest)
  | '\\' :: 'u' :: a :: b :: c :: d :: rest => do
      let unit ← Text.numberOf? 16 [a, b, c, d]
      let (units, rest) ← readUnits rest
      return (unit :: units, rest)
  | '\\' :: character :: rest => do
      let meant ← escaped? character
      let (units, rest) ← readUnits rest
      return (meant.toNat :: units, rest)
  | character :: rest =>
      if character.toNat < 0x20 || character == '\\' then
        none
      else do
        let (units, rest) ← readUnits rest
        return (character.toNat :: units, rest)

def isHighSurrogate (unit : Nat) : Bool :=
  0xd800 ≤ unit && unit ≤ 0xdbff

def isLowSurrogate (unit : Nat) : Bool :=
  0xdc00 ≤ unit && unit ≤ 0xdfff

/-- The characters of the units, if every surrogate has its partner. -/
def textOfUnits? : List Nat → Option Text
  | [] => some []
  | high :: low :: rest =>
      if isHighSurrogate high then
        if isLowSurrogate low then
          (textOfUnits? rest).map
            (Char.ofNat
              (0x10000 + (high - 0xd800) * 0x400 + (low - 0xdc00)) :: ·)
        else
          none
      else if isLowSurrogate high then
        none
      else
        (textOfUnits? (low :: rest)).map (Char.ofNat high :: ·)
  | [unit] =>
      if isHighSurrogate unit || isLowSurrogate unit then
        none
      else
        some [Char.ofNat unit]

/-- The content of a string after its opening quote. -/
def readString (text : Text) : Option (Option Text × Text) :=
  (readUnits text).map fun (units, rest) => (textOfUnits? units, rest)

/-- At least one digit. -/
def readDigits (text : Text) : Option (Text × Text) :=
  let digits := text.takeWhile Char.isDigit
  if digits.isEmpty then none else some (digits, text.dropWhile Char.isDigit)

/-- A zero, or digits that do not begin with one. -/
def readInteger (text : Text) : Option (Text × Text) :=
  match text with
  | '0' :: rest =>
      if rest.head?.any Char.isDigit then none else some (['0'], rest)
  | text => readDigits text

/-- A point and digits, if there is a point. -/
def readFraction (text : Text) : Option (Text × Text) :=
  match text with
  | '.' :: rest =>
      (readDigits rest).map fun (digits, rest) => ('.' :: digits, rest)
  | text => some ([], text)

/-- The letter `e`, a sign if any, and digits, if there is such a letter. -/
def readExponent (text : Text) : Option (Text × Text) :=
  match text with
  | letter :: rest =>
      if letter == 'e' || letter == 'E' then
        match rest with
        | sign :: digits =>
            if sign == '+' || sign == '-' then
              (readDigits digits).map fun (digits, rest) =>
                (letter :: sign :: digits, rest)
            else
              (readDigits rest).map fun (digits, rest) =>
                (letter :: digits, rest)
        | [] => none
      else
        some ([], text)
  | [] => some ([], text)

def readNumber (text : Text) : Option (Text × Text) := do
  let (sign, text) := match text with
    | '-' :: rest => (['-'], rest)
    | text => ([], text)
  let (integer, text) ← readInteger text
  let (fraction, text) ← readFraction text
  let (exponent, text) ← readExponent text
  return (sign ++ integer ++ fraction ++ exponent, text)

mutual

/-- A value and the rest of the text.  The first argument bounds the depth. -/
def readValue : Nat → Text → Option (Json × Text)
  | 0, _ => none
  | bound + 1, text =>
      match skipSpaces text with
      | '"' :: rest =>
          (readString rest).map fun (content, rest) => (.string content, rest)
      | '[' :: rest =>
          match skipSpaces rest with
          | ']' :: rest => some (.array [], rest)
          | rest =>
              (readItems bound rest).map fun (items, rest) =>
                (.array items, rest)
      | '\x7b' :: rest =>
          match skipSpaces rest with
          | '\x7d' :: rest => some (.object [], rest)
          | rest =>
              (readEntries bound rest).map fun (entries, rest) =>
                (.object entries, rest)
      | text =>
          ((afterWord? "null".toList text).map fun rest => (.null, rest)) <|>
          ((afterWord? "true".toList text).map fun rest =>
            (.bool true, rest)) <|>
          ((afterWord? "false".toList text).map fun rest =>
            (.bool false, rest)) <|>
          ((readNumber text).map fun (digits, rest) => (.number digits, rest))

/-- The items of an array up to its closing bracket. -/
def readItems : Nat → Text → Option (List Json × Text)
  | 0, _ => none
  | bound + 1, text => do
      let (item, rest) ← readValue bound text
      match skipSpaces rest with
      | ',' :: rest =>
          let (items, rest) ← readItems bound rest
          return (item :: items, rest)
      | ']' :: rest => return ([item], rest)
      | _ => none

/-- The entries of an object up to its closing brace. -/
def readEntries : Nat → Text → Option (List (Option Text × Json) × Text)
  | 0, _ => none
  | bound + 1, text =>
      match skipSpaces text with
      | '"' :: rest => do
          let (key, rest) ← readString rest
          let rest ← afterWord? [':'] (skipSpaces rest)
          let (value, rest) ← readValue bound rest
          match skipSpaces rest with
          | ',' :: rest =>
              let (entries, rest) ← readEntries bound rest
              return ((key, value) :: entries, rest)
          | '\x7d' :: rest => return ([(key, value)], rest)
          | _ => none
      | _ => none

end

/-- The value that a whole text writes.  Every nested call reads on behind a
character, so twice the length of the text bounds the depth. -/
def read? (text : Text) : Option Json :=
  match readValue (2 * text.length + 2) text with
  | some (value, rest) => if (skipSpaces rest).isEmpty then some value else none
  | none => none

end DiagramEdit.Json
