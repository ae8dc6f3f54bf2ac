import DiagramEdit.Text.LetterCase

/-!
# Fonts and accents

The choices of style that an editor offers: font stacks for clean and for hand
drawn diagrams, and colour presets with one accent for dark and one for light
backgrounds.
-/

namespace DiagramEdit

/-- A font and the stack of families to fall back on. -/
structure Font where
  name : Text
  value : Text
deriving DecidableEq, Repr

def classicFonts : List Font :=
  [⟨"Inter".toList, "\"Inter\", ui-sans-serif, system-ui, sans-serif".toList⟩,
   ⟨"Roboto".toList, "\"Roboto\", sans-serif".toList⟩,
   ⟨"Open Sans".toList, "\"Open Sans\", sans-serif".toList⟩,
   ⟨"Nunito".toList, "\"Nunito\", sans-serif".toList⟩,
   ⟨"Poppins".toList, "\"Poppins\", sans-serif".toList⟩,
   ⟨"Fira Sans".toList, "\"Fira Sans\", sans-serif".toList⟩]

def sketchFonts : List Font :=
  [⟨"Caveat".toList, "\"Caveat\", cursive".toList⟩,
   ⟨"Architects Daughter".toList, "\"Architects Daughter\", cursive".toList⟩,
   ⟨"Comic Neue".toList, "\"Comic Neue\", cursive".toList⟩,
   ⟨"Patrick Hand".toList, "\"Patrick Hand\", cursive".toList⟩,
   ⟨"Indie Flower".toList, "\"Indie Flower\", cursive".toList⟩,
   ⟨"Kalam".toList, "\"Kalam\", cursive".toList⟩]

/-- The stack of the font of that name, or of the first font. -/
def fontValue (name : Text) (handDrawn : Bool) : Text :=
  let fonts := if handDrawn then sketchFonts else classicFonts
  (((fonts.find? (·.name == name)) <|> fonts.head?).map Font.value).getD []

/-- The three colours that set a diagram apart from its base palette. -/
structure Accent where
  primary : Text
  border : Text
  tertiary : Text
deriving DecidableEq, Repr

/-- A named accent for dark and for light backgrounds. -/
structure ColorPreset where
  name : Text
  swatch : Text
  dark : Accent
  light : Accent
deriving DecidableEq, Repr

def ColorPreset.accent (preset : ColorPreset) (dark : Bool) : Accent :=
  if dark then preset.dark else preset.light

namespace ColorPreset

def indigo : ColorPreset :=
  ⟨"Indigo".toList, "#6366f1".toList,
    ⟨"#6366f1".toList, "#4f46e5".toList, "#1e1b4b".toList⟩,
    ⟨"#818cf8".toList, "#6366f1".toList, "#eef2ff".toList⟩⟩

def violet : ColorPreset :=
  ⟨"Violet".toList, "#8b5cf6".toList,
    ⟨"#8b5cf6".toList, "#7c3aed".toList, "#2e1065".toList⟩,
    ⟨"#a78bfa".toList, "#8b5cf6".toList, "#f5f3ff".toList⟩⟩

def rose : ColorPreset :=
  ⟨"Rose".toList, "#f43f5e".toList,
    ⟨"#f43f5e".toList, "#e11d48".toList, "#4c0519".toList⟩,
    ⟨"#fb7185".toList, "#f43f5e".toList, "#fff1f2".toList⟩⟩

def amber : ColorPreset :=
  ⟨"Amber".toList, "#f59e0b".toList,
    ⟨"#f59e0b".toList, "#d97706".toList, "#451a03".toList⟩,
    ⟨"#fbbf24".toList, "#f59e0b".toList, "#fffbeb".toList⟩⟩

def emerald : ColorPreset :=
  ⟨"Emerald".toList, "#10b981".toList,
    ⟨"#10b981".toList, "#059669".toList, "#022c22".toList⟩,
    ⟨"#34d399".toList, "#10b981".toList, "#ecfdf5".toList⟩⟩

def cyan : ColorPreset :=
  ⟨"Cyan".toList, "#06b6d4".toList,
    ⟨"#06b6d4".toList, "#0891b2".toList, "#083344".toList⟩,
    ⟨"#22d3ee".toList, "#06b6d4".toList, "#ecfeff".toList⟩⟩

def slate : ColorPreset :=
  ⟨"Slate".toList, "#64748b".toList,
    ⟨"#64748b".toList, "#475569".toList, "#0f172a".toList⟩,
    ⟨"#94a3b8".toList, "#64748b".toList, "#f8fafc".toList⟩⟩

def orange : ColorPreset :=
  ⟨"Orange".toList, "#f97316".toList,
    ⟨"#f97316".toList, "#ea580c".toList, "#431407".toList⟩,
    ⟨"#fb923c".toList, "#f97316".toList, "#fff7ed".toList⟩⟩

/-- The presets in the order in which they are offered. -/
def all : List ColorPreset :=
  [indigo, violet, rose, amber, emerald, cyan, slate, orange]

/-- The preset of a name, in any letter case. -/
def ofName? (name : Text) : Option ColorPreset :=
  all.find? fun preset => Text.equalIgnoringCase preset.name name

end ColorPreset

/-- The accent of the first preset on a light background. -/
def Accent.standard : Accent :=
  ColorPreset.indigo.accent false

end DiagramEdit
