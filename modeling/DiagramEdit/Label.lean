import DiagramEdit.Declaration
import DiagramEdit.Header
import DiagramEdit.Node.Edit

/-!
# Labels in every dialect

A label is changed where the dialect declares it: in the brackets of a flowchart
node, in the description of a state, in the alias of a participant.  Where
nothing declares it, every occurrence of the old label is replaced.
-/

namespace DiagramEdit

namespace Pattern

/-- The given alias in the declaration of any participant. -/
def aliasOfParticipant (written : Text) : Pattern Region := do
  participantKeyword
  let _ ← nonemptyRun Text.isSpace
  let _ ← nonemptyRun (!Text.isSpace ·)
  let _ ← nonemptyRun Text.isSpace
  literal "as".toList
  afterSpace do
    let label ← region (literal written)
    blankLineEnd
    return label

/-- The given label in a description of the state that starts its line. -/
def labelOfState (id written : Text) : Pattern Region := do
  check Place.isLineStart
  let _ ← run Text.isBlankCharacter
  literal "state".toList
  let _ ← nonemptyRun Text.isSpace
  literal ['"']
  let label ← region (literal written)
  quoteAsState id
  return label

/-- The given label after the state and a colon, alone on its line. -/
def labelAfterColon (id written : Text) : Pattern Region := do
  check Place.isLineStart
  let (_, label) ← longestThen Text.isBlankCharacter do
    wholeWord id
    let _ ← run Text.isBlankCharacter
    literal [':']
    let (_, label) ← longestThen Text.isBlankCharacter do
      let label ← region (literal written)
      blankLineEnd
      return label
    return label
  return label

end Pattern

/-- The label that an element shows: the declared one, or else its
identifier. -/
def currentLabel (text : Text) (dialect : Dialect) (id : Text) : Text :=
  match dialect with
  | .flowchart => (definitionOrDefault text id).label
  | .states => (stateDescription? text id).getD id
  | .sequence => (participantAlias? text id).getD id
  | _ => id

/-- The text with the declaration that carries the old label changed, if the
dialect has declarations and one carries it. -/
def relabelDeclaration? (text : Text) (dialect : Dialect) (id old new : Text) :
    Option Text :=
  match dialect with
  | .sequence => (Pattern.aliasOfParticipant old).replaceFirst? text new
  | .states =>
      (Pattern.labelOfState id old).replaceFirst? text new <|>
        (Pattern.labelAfterColon id old).replaceFirst? text new
  | _ => none

/-- Replaces the label of an element.  A label that breaks the line is
refused. -/
def relabel (text : Text) (dialect : Dialect) (id old new : Text) : Text :=
  if old == new || new.any isLineBreak then
    text
  else
    match dialect with
    | .flowchart => updateLabel text id new
    | _ =>
        match relabelDeclaration? text dialect id old new with
        | some edited => edited
        | none => if old.isEmpty then text else Text.replaceAll old new text

end DiagramEdit
