import DiagramEdit.Json.Printer
import DiagramEdit.Render.Options

/-!
# Configuration of the renderer

The object handed to the renderer: a light or a dark base palette with the
accent laid over it, and fixed settings for layout.  Keys are in alphabetical
order.
-/

namespace DiagramEdit

/-- The colours that depend on the background alone. -/
structure BasePalette where
  background : Text
  text : Text
  panel : Text
  mutedText : Text
  border : Text
  line : Text
deriving DecidableEq, Repr

namespace BasePalette

def dark : BasePalette where
  background := "#0f1219".toList
  text := "#e2e8f0".toList
  panel := "#1e293b".toList
  mutedText := "#cbd5e1".toList
  border := "#334155".toList
  line := "#64748b".toList

def light : BasePalette where
  background := "#f8fafc".toList
  text := "#1e293b".toList
  panel := "#f1f5f9".toList
  mutedText := "#475569".toList
  border := "#cbd5e1".toList
  line := "#94a3b8".toList

end BasePalette

namespace RenderOptions

/-- The colours of a diagram by the part that they paint. -/
def themeVariables (options : RenderOptions) : Json :=
  let base := if options.dark then BasePalette.dark else BasePalette.light
  .ofEntries
    [("background", .ofText base.background),
     ("clusterBkg", .ofText base.panel),
     ("clusterBorder", .ofText base.border),
     ("edgeLabelBackground", .ofText base.panel),
     ("lineColor", .ofText base.line),
     ("mainBkg", .ofText base.panel),
     ("nodeBorder", .ofText options.accent.border),
     ("nodeTextColor", .ofText base.text),
     ("primaryBorderColor", .ofText options.accent.border),
     ("primaryColor", .ofText options.accent.primary),
     ("primaryTextColor", .ofText base.text),
     ("secondaryBorderColor", .ofText base.border),
     ("secondaryColor", .ofText base.panel),
     ("secondaryTextColor", .ofText base.mutedText),
     ("tertiaryColor", .ofText options.accent.tertiary),
     ("textColor", .ofText base.text),
     ("titleColor", .ofText base.text)]

/-- The whole configuration of the renderer. -/
def configuration (options : RenderOptions) : Json :=
  .ofEntries
    [("flowchart", .ofEntries
       [("curve", .ofText "basis".toList), ("htmlLabels", .bool true)]),
     ("fontFamily", .ofText options.fontFamily),
     ("look", .ofText
       (if options.handDrawn then "handDrawn".toList else "classic".toList)),
     ("sequence", .ofEntries [("mirrorActors", .bool false)]),
     ("startOnLoad", .bool false),
     ("theme", .ofText
       (if options.dark then "dark".toList else "default".toList)),
     ("themeVariables", options.themeVariables)]

end RenderOptions

end DiagramEdit
