import DiagramEdit.Json.Value

/-!
# Printing JSON

Values are printed over several lines, indented by two spaces a level; empty
arrays and objects stay on one line.
-/

namespace DiagramEdit.Json

def hexDigit (value : Nat) : Char :=
  if value < 10 then
    Char.ofNat (0x30 + value)
  else
    Char.ofNat (0x61 + value - 10)

/-- A character as it is written inside a string: quotes, backslashes and
control characters are escaped. -/
def escape (character : Char) : Text :=
  match character with
  | '"' => ['\\', '"']
  | '\\' => ['\\', '\\']
  | '\x08' => ['\\', 'b']
  | '\x0c' => ['\\', 'f']
  | '\n' => ['\\', 'n']
  | '\r' => ['\\', 'r']
  | '\t' => ['\\', 't']
  | character =>
      if character.toNat < 0x20 then
        ['\\', 'u', '0', '0', hexDigit (character.toNat / 16),
          hexDigit (character.toNat % 16)]
      else
        [character]

def quote (content : Text) : Text :=
  '"' :: content.flatMap escape ++ ['"']

/-- A line feed and the indentation of a level. -/
def newLine (level : Nat) : Text :=
  '\n' :: List.replicate (2 * level) ' '

mutual

/-- A value whose first line stands at the given level. -/
def render (level : Nat) : Json → Text
  | .null => "null".toList
  | .bool true => "true".toList
  | .bool false => "false".toList
  | .number digits => digits
  | .string content => quote (content.getD [])
  | .array [] => "[]".toList
  | .array (item :: items) =>
      '[' :: newLine (level + 1) ++ render (level + 1) item ++
        renderItems (level + 1) items ++ newLine level ++ [']']
  | .object [] => ['\x7b', '\x7d']
  | .object ((key, value) :: entries) =>
      '\x7b' :: newLine (level + 1) ++ quote (key.getD []) ++ [':', ' '] ++
        render (level + 1) value ++ renderEntries (level + 1) entries ++
        newLine level ++ ['\x7d']

/-- The items after the first one. -/
def renderItems (level : Nat) : List Json → Text
  | [] => []
  | item :: items =>
      ',' :: newLine level ++ render level item ++ renderItems level items

/-- The entries after the first one. -/
def renderEntries (level : Nat) : List (Option Text × Json) → Text
  | [] => []
  | (key, value) :: entries =>
      ',' :: newLine level ++ quote (key.getD []) ++ [':', ' '] ++
        render level value ++ renderEntries level entries

end

/-- A value as a text of its own. -/
def print (value : Json) : Text :=
  render 0 value

end DiagramEdit.Json
