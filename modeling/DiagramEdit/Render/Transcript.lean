import DiagramEdit.Render.Session

/-!
# Transcripts of a renderer

A renderer that draws nothing: it writes down what it is told and gives a
prepared answer.  What a session asks of any renderer can be read off it.
-/

namespace DiagramEdit

/-- One call of a renderer. -/
inductive RendererCall where
  | configure (options : RenderOptions)
  | render (id source : Text)
deriving DecidableEq, Repr

/-- The calls received so far, in order, and the answer to every render. -/
structure Transcript where
  calls : List RendererCall
  answer : Except Text Text

namespace Transcript

instance : Renderer Transcript where
  configure options transcript :=
    { transcript with calls := transcript.calls ++ [.configure options] }
  render id source transcript :=
    (transcript.answer,
      { transcript with calls := transcript.calls ++ [.render id source] })

/-- The options the renderer was told, in order. -/
def configurations (transcript : Transcript) : List RenderOptions :=
  transcript.calls.filterMap fun
    | .configure options => some options
    | .render _ _ => none

/-- The identifiers and sources the renderer was asked to draw, in order. -/
def renders (transcript : Transcript) : List (Text × Text) :=
  transcript.calls.filterMap fun
    | .configure _ => none
    | .render id source => some (id, source)

end Transcript

end DiagramEdit
