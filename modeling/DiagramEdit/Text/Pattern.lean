import DiagramEdit.Text.Word

/-!
# Patterns

A place cuts a text in two.  A pattern reads on from a place: it answers with a
value and the place where it stopped, or it fails.  Where a pattern can read on
in several ways, `longestThen` and `shortestThen` say which of them is tried
first and go on to the next when what has to follow does not.

A pattern is built for every identifier and literal, however long: that a
pattern may be refused because it grows too large is left out.
-/

namespace DiagramEdit

/-- A place in a text: what stands before it, nearest character first, and what
stands after it. -/
structure Place where
  before : Text
  after : Text
deriving DecidableEq, Repr

namespace Place

/-- The whole text, whatever the place. -/
def text (place : Place) : Text :=
  place.before.reverse ++ place.after

/-- The place given by its two sides and every later one, in order. -/
def onward (before : Text) : Text → List Place
  | [] => [⟨before, []⟩]
  | character :: after =>
      ⟨before, character :: after⟩ :: onward (character :: before) after

/-- Every place of a text, in order. -/
def all (text : Text) : List Place :=
  onward [] text

/-- Exactly one of the two neighbours is a word character. -/
def isWordBoundary (place : Place) : Bool :=
  place.before.head?.any Text.isWordCharacter !=
    place.after.head?.any Text.isWordCharacter

def isLineStart (place : Place) : Bool :=
  place.before.head?.all (· == '\n')

def isLineEnd (place : Place) : Bool :=
  place.after.head?.all (· == '\n')

def isTextEnd (place : Place) : Bool :=
  place.after.isEmpty

end Place

/-- The part of a text between two places. -/
structure Region where
  start : Place
  stop : Place
deriving DecidableEq, Repr

/-- The text with the region replaced and everything around it kept. -/
def Region.replace (region : Region) (replacement : Text) : Text :=
  region.start.before.reverse ++ replacement ++ region.stop.after

/-- A pattern reads on from a place or fails. -/
abbrev Pattern := StateT Place Option

namespace Pattern

variable {α : Type}

/-- The place reached so far. -/
def here : Pattern Place :=
  fun place => some (place, place)

/-- Goes on only at a place with the given property. -/
def check (property : Place → Bool) : Pattern Unit :=
  fun place => if property place then some ((), place) else none

/-- One accepted character. -/
def one (accepts : Char → Bool) : Pattern Char :=
  fun place =>
    match place.after with
    | [] => none
    | character :: after =>
        if accepts character then
          some (character, ⟨character :: place.before, after⟩)
        else
          none

/-- Exactly this text. -/
def literal : Text → Pattern Unit
  | [] => pure ()
  | character :: rest => do
      let _ ← one (· == character)
      literal rest

/-- All accepted characters up to the first other one. -/
def run (accepts : Char → Bool) : Pattern Text :=
  fun place =>
    let passed := place.after.takeWhile accepts
    some
      (passed, ⟨passed.reverse ++ place.before, place.after.dropWhile accepts⟩)

/-- As `run`, of at least one character. -/
def nonemptyRun (accepts : Char → Bool) : Pattern Text := do
  let first ← one accepts
  let rest ← run accepts
  return first :: rest

/-- As `longestThen`, from the place given by its two sides. -/
def longestFrom (accepts : Char → Bool) (next : Pattern α) (before : Text) :
    Text → Option ((Text × α) × Place)
  | [] => (next ⟨before, []⟩).map fun (value, stop) => (([], value), stop)
  | character :: after =>
      (if accepts character then
        (longestFrom accepts next (character :: before) after).map
          fun ((passed, value), stop) => ((character :: passed, value), stop)
      else
        none) <|>
      (next ⟨before, character :: after⟩).map fun (value, stop) =>
        (([], value), stop)

/-- The longest run of accepted characters after which `next` succeeds. -/
def longestThen (accepts : Char → Bool) (next : Pattern α) :
    Pattern (Text × α) :=
  fun place => longestFrom accepts next place.before place.after

/-- As `shortestThen`, from the place given by its two sides. -/
def shortestFrom (accepts : Char → Bool) (next : Pattern α) (before : Text) :
    Text → Option ((Text × α) × Place)
  | [] => (next ⟨before, []⟩).map fun (value, stop) => (([], value), stop)
  | character :: after =>
      ((next ⟨before, character :: after⟩).map fun (value, stop) =>
        (([], value), stop)) <|>
      (if accepts character then
        (shortestFrom accepts next (character :: before) after).map
          fun ((passed, value), stop) => ((character :: passed, value), stop)
      else
        none)

/-- The shortest run of accepted characters after which `next` succeeds. -/
def shortestThen (accepts : Char → Bool) (next : Pattern α) :
    Pattern (Text × α) :=
  fun place => shortestFrom accepts next place.before place.after

/-- White space of at least one character, then the pattern; the white space
gives back what the pattern needs. -/
def afterSpace (next : Pattern α) : Pattern α := do
  let _ ← one Text.isSpace
  let (_, value) ← longestThen Text.isSpace next
  return value

/-- Everything up to the end of the text. -/
def remainder : Pattern Text :=
  run fun _ => true

/-- Goes on only where the text that follows begins with the word. -/
def ahead (word : Text) : Pattern Unit :=
  check fun place => word.isPrefixOf place.after

/-- The pattern as often as it succeeds, at most so many times. -/
def repeated (pattern : Pattern α) : Nat → Pattern (List α)
  | 0 => pure []
  | bound + 1 =>
      (do
        let item ← pattern
        let items ← repeated pattern bound
        return item :: items) <|>
      pure []

/-- The pattern as often as it succeeds.  It has to read at least one character
each time. -/
def many (pattern : Pattern α) : Pattern (List α) :=
  fun place => repeated pattern place.after.length place

/-- The pattern once if it succeeds. -/
def optional (pattern : Pattern Unit) : Pattern Unit :=
  pattern <|> pure ()

/-- Goes on only if this holds. -/
def ensure (holds : Bool) : Pattern Unit :=
  check fun _ => holds

/-- The region that a pattern reads. -/
def region (pattern : Pattern Unit) : Pattern Region := do
  let start ← here
  pattern
  let stop ← here
  return ⟨start, stop⟩

/-- The value read at the first place of the text where the pattern succeeds. -/
def first? (pattern : Pattern α) (text : Text) : Option α :=
  (Place.all text).findSome? fun place => (pattern place).map Prod.fst

/-- The values read at all places of the text where the pattern succeeds. -/
def readings (pattern : Pattern α) (text : Text) : List α :=
  (Place.all text).filterMap fun place => (pattern place).map Prod.fst

/-- The value read at the beginning of a text. -/
def atStart? (pattern : Pattern α) (text : Text) : Option α :=
  (pattern ⟨[], text⟩).map Prod.fst

/-- Whether the pattern succeeds somewhere in the text. -/
def occursIn (pattern : Pattern α) (text : Text) : Bool :=
  (first? pattern text).isSome

/-- The text with the first region read by the pattern replaced. -/
def replaceFirst? (pattern : Pattern Region) (text replacement : Text) :
    Option Text :=
  (first? pattern text).map (·.replace replacement)

end Pattern

namespace Text

/-- Replaces from left to right; `remaining` characters of an occurrence that
has been replaced are still to be passed over. -/
def replaceFrom (old new : Text) : Nat → Text → Text
  | _, [] => []
  | remaining + 1, _ :: rest => replaceFrom old new remaining rest
  | 0, character :: rest =>
      if old.isPrefixOf (character :: rest) then
        new ++ replaceFrom old new (old.length - 1) rest
      else
        character :: replaceFrom old new 0 rest

/-- Replaces every occurrence of a non-empty text, from left to right, none of
them overlapping the one before. -/
def replaceAll (old new text : Text) : Text :=
  replaceFrom old new 0 text

end Text

end DiagramEdit
