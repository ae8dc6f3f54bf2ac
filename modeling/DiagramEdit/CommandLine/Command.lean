import DiagramEdit.CommandLine.Arguments
import DiagramEdit.Edit
import DiagramEdit.Interchange
import DiagramEdit.Render.Configuration
import DiagramEdit.Svg.Reader
import DiagramEdit.Template

/-!
# Commands

What each command answers.  A command gets at the outside world through a host,
which reads files and the standard input.
-/

namespace DiagramEdit.CommandLine

/-- Where files and the standard input are read from. -/
structure Host (m : Type → Type) where
  readFile : Text → m (Except ReadFailure Text)
  readInput : m (Except ReadFailure Text)

/-- What a command prints, and what it says about it on the side. -/
structure Answer where
  output : Text
  note : Text
deriving DecidableEq, Repr

/-- An answer without a note. -/
def Answer.plain (output : Text) : Answer :=
  ⟨output, []⟩

variable {m : Type → Type} [Monad m]

/-- The text of a file, or why there is none. -/
def Host.file (host : Host m) (path : Text) : ExceptT Failure m Text := do
  match ← host.readFile path with
  | .ok text => return text
  | .error failure => throw (.unreadable failure)

/-- The diagram to work on: a file if one is named, or else the standard
input. -/
def Host.source (host : Host m) : Option Text → ExceptT Failure m Text
  | some path => host.file path
  | none => do
      match ← host.readInput with
      | .ok text => return text
      | .error failure => throw (.unreadable failure)

/-- An argument of a command. -/
def argument (name : Text) (arguments : List Text) (index : Nat)
    (what : String) : Except Failure Text :=
  match arguments[index]? with
  | some value => .ok value
  | none => .error (.usage (.needsArgument name what.toList))

/-- The word `none` removes a colour. -/
def colorArgument (value : Text) : Option Text :=
  if Text.equalIgnoringCase value "none".toList then none else some value

/-- The commands that work without a diagram.  Other names are none of them. -/
def runStandalone (host : Host m) (name : Text) (arguments : List Text) :
    ExceptT Failure m (Option Answer) := do
  if name == "template".toList then
    let dialectName ← argument name arguments 0 "dialect"
    match Dialect.ofName? dialectName with
    | some dialect => return some (.plain dialect.template)
    | none => throw (.unknownDialect dialectName)
  else if name == "config".toList then
    let options ← match arguments with
      | [] => pure RenderOptions.standard
      | path :: _ => do
          match RenderOptions.read? (← host.file path) with
          | some options => pure options
          | none => throw .invalidOptions
    return some (.plain (Json.print options.configuration))
  else
    return none

/-- The edit that a command and its arguments ask for.  Other names ask for
none. -/
def editOf (name : Text) (arguments : List Text) (source : Text) :
    Except Failure (Option Edit) := do
  if name == "label".toList then
    let id ← argument name arguments 0 "id"
    let label ← argument name arguments 1 "text"
    let dialect := detect source
    return some (.relabel dialect id (currentLabel source dialect id) label)
  else if name == "shape".toList then
    let id ← argument name arguments 0 "id"
    let shapeName ← argument name arguments 1 "shape"
    match Shape.ofName? shapeName with
    | some shape => return some (.updateShape id shape)
    | none => throw (.unknownShape shapeName)
  else if name == "fill".toList then
    let id ← argument name arguments 0 "id"
    let color ← argument name arguments 1 "color"
    return some (.setColor .fill id (colorArgument color))
  else if name == "stroke".toList then
    let id ← argument name arguments 0 "id"
    let color ← argument name arguments 1 "color"
    return some (.setColor .stroke id (colorArgument color))
  else if name == "delete".toList then
    return some (.deleteNode (← argument name arguments 0 "id"))
  else if name == "edge".toList then
    let source ← argument name arguments 0 "from"
    let target ← argument name arguments 1 "to"
    return some (.addEdge source target)
  else if name == "direction".toList then
    return some .toggleDirection
  else
    return none

/-- The element that a click on an element of a drawing selects. -/
def pick (host : Host m) (name : Text) (arguments : List Text) (source : Text) :
    ExceptT Failure m Answer := do
  let path ← argument name arguments 0 "svg-file"
  let id ← argument name arguments 1 "id"
  match Svg.Document.read? (← host.file path) with
  | none => throw .invalidDrawing
  | some document =>
      match document.findById? id with
      | none => throw (.elementNotFound id)
      | some clicked =>
          let identity := (clicked.pick? source).map ElementIdentity.toJson
          return .plain (Json.print (identity.getD .null))

/-- The commands that work on a diagram. -/
def run (host : Host m) (name : Text) (arguments : List Text) (source : Text) :
    ExceptT Failure m Answer := do
  if name == "detect".toList then
    return .plain (detect source).name
  else if name == "caps".toList then
    return .plain (Json.print (detect source).capabilities.toJson)
  else if name == "ids".toList then
    return .plain (Text.joinLines (nodeIds source))
  else if name == "find".toList then
    let id ← argument name arguments 0 "id"
    return .plain (Json.print (definitionOrDefault source id).toJson)
  else if name == "add".toList then
    let added := addNode source
    return ⟨added.text, "added ".toList ++ added.id ++ ['\n']⟩
  else if name == "pick".toList then
    pick host name arguments source
  else
    match ← editOf name arguments source with
    | some edit => return .plain (edit.apply source)
    | none => throw (.usage (.unknownCommand name))

/-- The answer to a command.  The diagram is read only by the commands that work
on one, before their arguments are looked at. -/
def answer (host : Host m) (file : Option Text) (name : Text)
    (arguments : List Text) : ExceptT Failure m Answer := do
  match ← runStandalone host name arguments with
  | some answer => return answer
  | none => run host name arguments (← host.source file)

end DiagramEdit.CommandLine
