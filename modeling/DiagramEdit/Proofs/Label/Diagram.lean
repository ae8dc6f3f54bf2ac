import DiagramEdit.Proofs.Mention
import DiagramEdit.Proofs.Text.LineEnds

/-!
# Diagrams made of lines

Below its header a diagram has lines that declare an element and other lines.
Its text in front of a line and behind it are those of the lines around it.
-/

namespace DiagramEdit

/-- A label that can stand at the end of a line and be told from the blanks
around it. -/
structure IsLabel (label : Text) : Prop where
  nonempty : label ≠ []
  trimmed : Text.trim label = label
  oneLine : ∀ character ∈ label, isLineBreak character = false

namespace IsLabel

variable {label : Text} (isLabel : IsLabel label)

include isLabel

theorem not_lineFeed_mem : '\n' ∉ label := by
  intro member
  have impossible := isLabel.oneLine '\n' member
  cases impossible

theorem head?_visible (rest : Text) :
    (label ++ rest).head?.all (!Text.isSpace ·) := by
  obtain ⟨first, more, rfl⟩ := List.exists_cons_of_ne_nil isLabel.nonempty
  exact (Text.trim_eq_self_iff.mp isLabel.trimmed).1

theorem getLast?_visible : label.getLast?.any (!Text.isSpace ·) := by
  have trimmed := (Text.trim_eq_self_iff.mp isLabel.trimmed).2
  rw [List.getLast?_eq_some_getLast isLabel.nonempty] at trimmed ⊢
  exact trimmed

theorem eq_of_endsLine {other rest rest' : Text} (otherIsLabel : IsLabel other)
    (equality : label ++ rest = other ++ rest') (ends : Text.EndsLine rest)
    (ends' : Text.EndsLine rest') : label = other := by
  -- Where one label went on beyond the other, the line would not have ended
  -- there.
  have whole : ∀ {front more behind : Text}, IsLabel (front ++ more) →
      Text.EndsLine (more ++ behind) → more = [] := by
    intro front more behind longer ended
    by_contra remains
    refine Text.not_endsLine_append ?_ ?_ ended
    · exact fun member =>
        longer.not_lineFeed_mem (List.mem_append_right front member)
    · have visible := longer.getLast?_visible
      rwa [List.getLast?_append_of_ne_nil _ remains] at visible
  rcases List.append_eq_append_iff.mp equality with
    ⟨more, rfl, rfl⟩ | ⟨more, rfl, rfl⟩
  · rw [whole otherIsLabel ends, List.append_nil]
  · rw [whole isLabel ends', List.append_nil]

end IsLabel

theorem isBlankCharacter_of_mem_indentation :
    ∀ character ∈ indentation, Text.isBlankCharacter character := by
  have table : indentation.all Text.isBlankCharacter := by decide
  exact List.all_eq_true.mp table

/-- A line that declares an element, or another one. -/
inductive DiagramLine (α : Type) where
  | declaration (element : α)
  | other (line : Text)

/-- A header and the lines below it. -/
structure Diagram (α : Type) where
  header : Text
  lines : List (DiagramLine α)

variable {α : Type}

def DiagramLine.element? : DiagramLine α → Option α
  | .declaration element => some element
  | .other _ => none

/-- The line as it is written, if this is how declarations are. -/
def DiagramLine.written (write : α → Text) : DiagramLine α → Text
  | .declaration element => write element
  | .other line => line

/-- The elements that the lines declare, in order. -/
def declaredElements (lines : List (DiagramLine α)) : List α :=
  lines.filterMap DiagramLine.element?

theorem mem_declaredElements_iff {lines : List (DiagramLine α)} {element : α} :
    element ∈ declaredElements lines ↔ .declaration element ∈ lines := by
  rw [declaredElements, List.mem_filterMap]
  constructor
  · intro parts
    obtain ⟨line, member, same⟩ := parts
    cases line with
    | declaration found =>
        obtain rfl : found = element := Option.some.inj same
        exact member
    | other _ => cases same
  · intro member
    exact ⟨_, member, rfl⟩

theorem declaredElements_append_cons (earlier later : List (DiagramLine α))
    (element : α) :
    declaredElements (earlier ++ .declaration element :: later) =
      declaredElements earlier ++ element :: declaredElements later := by
  rw [declaredElements, List.filterMap_append]
  rfl

/-- Of the elements with a property, one is declared first. -/
theorem exists_first_declaration (property : α → Prop)
    {lines : List (DiagramLine α)} {element : α}
    (declared : element ∈ declaredElements lines) (holds : property element) :
    ∃ above first below, lines = above ++ .declaration first :: below ∧
      property first ∧ ∀ other ∈ declaredElements above, ¬property other := by
  induction lines with
  | nil => cases declared
  | cons line lines induction =>
      cases line with
      | other line =>
          obtain ⟨above, first, below, rfl, found, none⟩ := induction declared
          exact ⟨.other line :: above, first, below, rfl, found, none⟩
      | declaration candidate =>
          by_cases here : property candidate
          · exact ⟨[], candidate, lines, rfl, here, by simp [declaredElements]⟩
          · rcases List.mem_cons.mp declared with rfl | further
            · exact absurd holds here
            · obtain ⟨above, first, below, rfl, found, none⟩ :=
                induction further
              refine ⟨.declaration candidate :: above, first, below, rfl, found,
                ?_⟩
              intro other member
              rcases List.mem_cons.mp member with rfl | inAbove
              · exact here
              · exact none other inAbove

theorem key_ne_of_nodup {key : α → Text} {earlier later : List (DiagramLine α)}
    {element other : α}
    (distinct : ((declaredElements
        (earlier ++ .declaration element :: later)).map key).Nodup)
    (above : other ∈ declaredElements earlier) :
    key other ≠ key element := by
  rw [declaredElements_append_cons, List.map_append, List.nodup_append]
    at distinct
  exact distinct.2.2 _ (List.mem_map_of_mem above) _ (by simp)

namespace Diagram

variable (write : α → Text) (diagram : Diagram α)

/-- The header and the lines as they are written. -/
def pieces : List Text :=
  diagram.header :: diagram.lines.map (·.written write)

def text : Text :=
  Text.joinLines (diagram.pieces write)

/-- The text above the line that follows a header and some earlier lines. -/
def above (header : Text) (earlier : List (DiagramLine α)) : Text :=
  (header :: earlier.map (·.written write)).flatMap (· ++ ['\n'])

/-- The text below a line in front of some later ones. -/
def below (later : List (DiagramLine α)) : Text :=
  (later.map (·.written write)).flatMap ('\n' :: ·)

theorem startsLine_above (header : Text) (earlier : List (DiagramLine α)) :
    Text.StartsLine (above write header earlier) :=
  Text.startsLine_joined _

theorem head?_below (later : List (DiagramLine α)) :
    (below write later).head?.all (· == '\n') :=
  Text.head?_flatMap_lines _

variable {write diagram} {earlier later : List (DiagramLine α)}
  {line : DiagramLine α}

theorem text_cut (split : diagram.lines = earlier ++ line :: later) :
    diagram.text write =
      above write diagram.header earlier ++
        (line.written write ++ below write later) := by
  have pieces : diagram.pieces write =
      (diagram.header :: earlier.map (·.written write)) ++
        line.written write :: later.map (·.written write) := by
    simp [Diagram.pieces, split]
  rw [text, pieces, Text.joinLines_append_cons, above, below, List.append_assoc]

theorem text_declaration (header : Text) (earlier later : List (DiagramLine α))
    (element : α) :
    text write ⟨header, earlier ++ .declaration element :: later⟩ =
      above write header earlier ++ (write element ++ below write later) := by
  have split :
      Diagram.lines ⟨header, earlier ++ .declaration element :: later⟩ =
        earlier ++ .declaration element :: later :=
    rfl
  exact text_cut split

/-- The lines of a diagram are known by its text if each of them is one line. -/
theorem pieces_eq_of_text_eq {other : Diagram α}
    (same : diagram.text write = other.text write)
    (oneLine : ∀ line ∈ diagram.pieces write, '\n' ∉ line)
    (otherOneLine : ∀ line ∈ other.pieces write, '\n' ∉ line) :
    diagram.pieces write = other.pieces write := by
  have lines := congrArg Text.lines same
  rwa [text, text, Text.lines_joinLines (by simp [pieces]) oneLine,
    Text.lines_joinLines (by simp [pieces]) otherOneLine] at lines

end Diagram

end DiagramEdit
