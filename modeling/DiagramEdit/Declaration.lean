import DiagramEdit.Mention

/-!
# Declared labels

A state diagram may describe a state by `state "label" as id`, a sequence
diagram may name a participant by `participant id as alias` or
`actor id as alias`.
-/

namespace DiagramEdit

namespace Pattern

/-- A quote, white space, `as` and the identifier of a described state. -/
def quoteAsState (id : Text) : Pattern Unit := do
  literal ['"']
  let _ ← nonemptyRun Text.isSpace
  literal "as".toList
  afterSpace (wholeWord id)

/-- The description of a state, anywhere in a text. -/
def describedState (id : Text) : Pattern Text := do
  literal "state".toList
  let _ ← nonemptyRun Text.isSpace
  literal ['"']
  let label ← nonemptyRun (· != '"')
  quoteAsState id
  return label

/-- A line start, blanks and the word that declares a participant. -/
def participantKeyword : Pattern Unit := do
  check Place.isLineStart
  let _ ← run Text.isBlankCharacter
  literal "participant".toList <|> literal "actor".toList

/-- Blanks up to the end of the line. -/
def blankLineEnd : Pattern Unit := do
  let _ ← run Text.isBlankCharacter
  check Place.isLineEnd

/-- The alias of a participant, without the blanks at its end. -/
def namedParticipant (id : Text) : Pattern Text := do
  participantKeyword
  afterSpace do
    wholeWord id
    let _ ← nonemptyRun Text.isSpace
    literal "as".toList
    afterSpace do
      let initial ← one (· != '\n')
      let (rest, _) ← shortestThen (· != '\n') blankLineEnd
      return initial :: rest

end Pattern

/-- The label in the description of a state. -/
def stateDescription? (text id : Text) : Option Text :=
  (Pattern.describedState id).first? text

/-- The alias in the declaration of a participant. -/
def participantAlias? (text id : Text) : Option Text :=
  (Pattern.namedParticipant id).first? text

end DiagramEdit
