import DiagramEdit.Text.WhiteSpace

/-!
# JSON values

Values as they are written: numbers keep their digits and objects the order of
their entries, repeated keys included.
-/

namespace DiagramEdit

/-- A JSON value.  A string whose escapes leave half of a surrogate pair alone
has no text. -/
inductive Json where
  | null
  | bool (value : Bool)
  | number (digits : Text)
  | string (content : Option Text)
  | array (items : List Json)
  | object (entries : List (Option Text × Json))

namespace Json

def ofText (content : Text) : Json :=
  .string (some content)

/-- An object whose keys have a text. -/
def ofEntries (entries : List (String × Json)) : Json :=
  .object (entries.map fun (key, value) => (some key.toList, value))

def bool? : Json → Option Bool
  | .bool value => some value
  | _ => none

def text? : Json → Option Text
  | .string content => content
  | _ => none

/-- The value of a key that occurs at most once. -/
def entry? (name : Text) (entries : List (Option Text × Json)) :
    Option (Option Json) :=
  match entries.filter fun entry => entry.1 == some name with
  | [] => some none
  | [entry] => some (some entry.2)
  | _ => none

/-- The fields of a record, in the order of the names.  A record is written as
an object, whose other keys are passed over, or as the array of its fields,
which may stop early. -/
def fields? (names : List Text) : Json → Option (List (Option Json))
  | .object entries =>
      if entries.all fun entry => entry.1.isSome then
        names.mapM fun name => entry? name entries
      else
        none
  | .array items =>
      if items.length ≤ names.length then
        some
          (items.map some ++ List.replicate (names.length - items.length) none)
      else
        none
  | _ => none

/-- The name of a variant: a string, or an object that maps it to `null`. -/
def variant? : Json → Option Text
  | .string content => content
  | .object [(key, .null)] => key
  | _ => none

end Json

end DiagramEdit
