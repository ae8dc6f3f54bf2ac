import DiagramEdit.Appearance

/-!
# Options of the renderer

What an editor lets a person choose about the look of a diagram.
-/

namespace DiagramEdit

/-- The visual choices for later renders. -/
structure RenderOptions where
  dark : Bool
  handDrawn : Bool
  fontFamily : Text
  accent : Accent
deriving DecidableEq, Repr

namespace RenderOptions

def standard : RenderOptions :=
  ⟨false, false, fontValue [] false, .standard⟩

/-- The accent of a preset for the background of these options. -/
def withPreset (options : RenderOptions) (preset : ColorPreset) :
    RenderOptions :=
  { options with accent := preset.accent options.dark }

end RenderOptions

end DiagramEdit
