import DiagramEdit.Render.Options

/-!
# Render sessions

A session numbers the requests it hands to a renderer and shows the result of
the newest one only.  While the newest source cannot be drawn, the last drawing
that succeeded stays.  The number of a request is a natural number: the fixed
width of its counter is left out.
-/

namespace DiagramEdit

/-- A program that draws: it can be told its options, and it answers a source
with a drawing or with a message. -/
class Renderer (ρ : Type) where
  configure : RenderOptions → ρ → ρ
  render : (id source : Text) → ρ → Except Text Text × ρ

/-- A numbered request. -/
structure RenderTicket where
  seq : Nat
  /-- The identifier that the drawing is given. -/
  id : Text
deriving DecidableEq, Repr

/-- The ticket of the request with this number. -/
def RenderTicket.numbered (seq : Nat) : RenderTicket :=
  ⟨seq, "mermaid-render-".toList ++ Nat.toDigits 10 seq⟩

/-- What became of a request. -/
inductive RenderOutcome where
  /-- The source was blank and nothing was requested. -/
  | skipped
  | rendered
  /-- The source was refused; an earlier drawing may have stayed. -/
  | failed (message : Text) (staleKept : Bool)
  /-- A newer request had been made, and the result was dropped. -/
  | superseded
deriving DecidableEq, Repr

structure RenderSession (ρ : Type) where
  renderer : ρ
  options : RenderOptions
  /-- The renderer has not been told these options yet. -/
  needsConfigure : Bool
  /-- The number of the newest request. -/
  latest : Nat
  /-- The last drawing that succeeded. -/
  svg : Text
  /-- The message of the last failure that no success has followed. -/
  error : Option Text
  /-- The newest request has not been completed. -/
  rendering : Bool

namespace RenderSession

variable {ρ : Type}

def new (renderer : ρ) (options : RenderOptions) : RenderSession ρ where
  renderer := renderer
  options := options
  needsConfigure := true
  latest := 0
  svg := []
  error := none
  rendering := false

/-- Takes on other options; the renderer is told of them before its next
render. -/
def setOptions (session : RenderSession ρ) (options : RenderOptions) :
    RenderSession ρ :=
  if options = session.options then
    session
  else
    { session with options := options, needsConfigure := true }

/-- Tells the renderer the options of the session unless it knows them. -/
def configured [Renderer ρ] (session : RenderSession ρ) : RenderSession ρ :=
  if session.needsConfigure then
    { session with
      renderer := Renderer.configure session.options session.renderer
      needsConfigure := false }
  else
    session

/-- Starts a request.  A blank source starts none and changes nothing. -/
def request [Renderer ρ] (session : RenderSession ρ) (source : Text) :
    Option RenderTicket × RenderSession ρ :=
  if Text.isBlank source then
    (none, session)
  else
    let seq := session.latest + 1
    (some (.numbered seq),
      { session.configured with latest := seq, rendering := true })

/-- Takes in the result of a request, if no newer one has been made. -/
def complete (session : RenderSession ρ) (ticket : RenderTicket)
    (result : Except Text Text) : RenderOutcome × RenderSession ρ :=
  if ticket.seq = session.latest then
    match result with
    | .ok svg =>
        (.rendered,
          { session with rendering := false, svg := svg, error := none })
    | .error message =>
        (.failed message (!session.svg.isEmpty),
          { session with rendering := false, error := some message })
  else
    (.superseded, session)

/-- Requests, renders and completes in one step. -/
def renderNow [Renderer ρ] (session : RenderSession ρ) (source : Text) :
    RenderOutcome × RenderSession ρ :=
  match session.request source with
  | (none, session) => (.skipped, session)
  | (some ticket, session) =>
      let (result, renderer) :=
        Renderer.render ticket.id source session.renderer
      { session with renderer := renderer }.complete ticket result

end RenderSession

/-- The most characters of a message that are shown. -/
def shownMessageLength : Nat :=
  120

/-- A message for display.  A longer one is cut, and the cut is marked. -/
def shortenMessage (message : Text) : Text :=
  if message.length ≤ shownMessageLength then
    message
  else
    message.take shownMessageLength ++ ['…']

/-- The message of the last failure for display. -/
def RenderSession.displayError {ρ : Type} (session : RenderSession ρ) :
    Option Text :=
  session.error.map shortenMessage

end DiagramEdit
