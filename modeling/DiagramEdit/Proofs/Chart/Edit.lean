import DiagramEdit.Proofs.Chart.Rendering
import DiagramEdit.Proofs.Style.Assignment
import Mathlib.Data.Nat.Find

/-!
# Edits of statements

What an edit means for a flowchart: statements are changed, added and removed
one by one, and everything else is left alone.  Nothing here looks at a text.
-/

namespace DiagramEdit

namespace StyleProperty

/-- The properties with one of them set or removed.  The first one of the name,
in any letter case, has the value in its place and keeps its spelling, or it
goes; where there is none, one is added at the end. -/
def recolored (name : Text) (value : Option Text)
    (properties : List StyleProperty) : List StyleProperty :=
  let earlier := properties.takeWhile (!·.isNamed name)
  match properties.dropWhile (!·.isNamed name) with
  | [] => earlier ++ (value.map (⟨name, ·⟩)).toList
  | old :: later => earlier ++ (value.map (⟨old.name, ·⟩)).toList ++ later

section Recolored

variable {name : Text} {earlier later properties : List StyleProperty}
  {old : StyleProperty}

theorem passes_of_unnamed
    (unnamed : ∀ other ∈ properties, other.isNamed name = false) :
    ∀ other ∈ properties, (!other.isNamed name) = true := by
  intro other member
  rw [unnamed other member, Bool.not_false]

theorem recolored_of_unnamed
    (unnamed : ∀ other ∈ properties, other.isNamed name = false)
    (value : Option Text) :
    recolored name value properties =
      properties ++ (value.map (⟨name, ·⟩)).toList := by
  have before := passes_of_unnamed unnamed
  have kept := List.takeWhile_eq_self_iff.mpr before
  have passed := List.dropWhile_eq_nil_iff.mpr before
  simp only [recolored, kept, passed]

theorem recolored_of_first
    (unnamed : ∀ other ∈ earlier, other.isNamed name = false)
    (named : old.isNamed name) (value : Option Text) :
    recolored name value (earlier ++ old :: later) =
      earlier ++ (value.map (⟨old.name, ·⟩)).toList ++ later := by
  have before := passes_of_unnamed unnamed
  simp only [recolored, List.takeWhile_append_of_pos before,
    List.dropWhile_append_of_pos before, List.takeWhile_cons,
    List.dropWhile_cons, named, Bool.not_true, Bool.false_eq_true, if_false,
    List.append_nil]

theorem assigned_recolored (name : Text) (value : Option Text)
    (properties : List StyleProperty) :
    Assigned name value properties (recolored name value properties) := by
  rcases cases_isNamed name properties with
    unnamed | ⟨earlier, old, later, rfl, unnamed, named⟩
  · rw [recolored_of_unnamed unnamed]
    cases value with
    | none =>
        rw [Option.map_none, Option.toList_none, List.append_nil]
        exact .lack unnamed
    | some value => exact .add unnamed
  · rw [recolored_of_first unnamed named]
    cases value with
    | none =>
        rw [Option.map_none, Option.toList_none, List.append_nil]
        exact .remove unnamed named
    | some value =>
        rw [Option.map_some, Option.toList_some, List.append_assoc,
          List.singleton_append]
        exact .set unnamed named

/-- The assignment of the editor is the one above. -/
theorem recolored_eq_assign (name : Text) (value : Option Text)
    (properties : List StyleProperty) :
    recolored name value properties = assign name value properties :=
  assigned_iff.mp (assigned_recolored name value properties)

end Recolored

end StyleProperty

namespace Statement

/-- The statement with the label of one node set. -/
def relabel (id label : Text) : Statement → Statement
  | node other shape old => node other shape (if other = id then label else old)
  | statement => statement

/-- The statement with the shape of one node set. -/
def reshape (id : Text) (shape : Shape) : Statement → Statement
  | node other old label => node other (if other = id then shape else old) label
  | statement => statement

/-- The statement with one property of the style of one node set or removed.  A
style without properties is no statement. -/
def recolor (id name : Text) (value : Option Text) :
    Statement → Option Statement
  | style other properties =>
      if other = id then
        match StyleProperty.recolored name value properties with
        | [] => none
        | first :: rest => some (style other (first :: rest))
      else
        some (style other properties)
  | statement => some statement

end Statement

namespace Chart

/-- Whether a statement of the flowchart holds the identifier as a word. -/
def mentions (chart : Chart) (id : Text) : Bool :=
  chart.statements.any fun statement => statement.words.contains id

def append (chart : Chart) (statement : Statement) : Chart :=
  { chart with statements := chart.statements ++ [statement] }

/-- Sets the label of a node that is defined, if the label can be written. -/
def updateLabel (chart : Chart) (id label : Text) : Chart :=
  if labelFits label then
    { chart with
      statements := chart.statements.map (Statement.relabel id label) }
  else
    chart

def updateShape (chart : Chart) (id : Text) (shape : Shape) : Chart :=
  { chart with statements := chart.statements.map (Statement.reshape id shape) }

/-- Sets or removes a colour of a node that is mentioned: in its style if it has
one, or else in a new style at the end. -/
def setColor (chart : Chart) (role : ColorRole) (id : Text)
    (color : Option Text) : Chart :=
  if chart.mentions id && color.all isColor then
    if chart.statements.any fun statement => statement.styledId? == some id then
      let recolored := Statement.recolor id role.name (color.map Text.trim)
      { chart with statements := chart.statements.filterMap recolored }
    else
      match color with
      | some value => chart.append (.style id [⟨role.name, Text.trim value⟩])
      | none => chart
  else
    chart

/-- Removes every statement that mentions the node. -/
def deleteNode (chart : Chart) (id : Text) : Chart :=
  { chart with statements := chart.statements.filter (!·.words.contains id) }

def addEdge (chart : Chart) (source target : Text) : Chart :=
  chart.append (.edge source target)

/-- Some positive number gives an identifier that no statement holds. -/
theorem exists_fresh (chart : Chart) :
    ∃ number, 1 ≤ number ∧ chart.mentions (numberedId number) = false := by
  let taken := chart.statements.flatMap Statement.words
  obtain ⟨number, inRange, absent⟩ :=
    exists_numberedId_not_mem (Nat.lt_succ_self taken.length)
  refine ⟨number, (List.mem_range'_1.mp inRange).1, ?_⟩
  rw [mentions, List.any_eq_false]
  intro statement among member
  exact absent
    (List.mem_flatMap.mpr ⟨statement, among, List.contains_iff_mem.mp member⟩)

/-- The least positive number whose identifier no statement holds. -/
def freshNumber (chart : Chart) : Nat :=
  Nat.find chart.exists_fresh

def addNode (chart : Chart) : Chart :=
  chart.append (.node (numberedId chart.freshNumber) .rect newNodeLabel)

/-- The flowchart after an edit.  Edits that are not about statements leave it
alone. -/
def apply (chart : Chart) : Edit → Chart
  | .updateLabel id label => chart.updateLabel id label
  | .updateShape id shape => chart.updateShape id shape
  | .setColor role id color => chart.setColor role id color
  | .deleteNode id => chart.deleteNode id
  | .addEdge source target => chart.addEdge source target
  | .addNode => chart.addNode
  | .toggleDirection | .relabel .. => chart

/-- The flowchart after the edits, first one first. -/
def applyAll (chart : Chart) (edits : List Edit) : Chart :=
  edits.foldl apply chart

end Chart

/-- An edit of statements: its identifiers can be written in a flowchart and its
colour has no brackets. -/
inductive Edit.IsOfStatements : Edit → Prop where
  | updateLabel {id : Text} (label : Text) (identifies : isIdentifier id) :
      IsOfStatements (.updateLabel id label)
  | updateShape {id : Text} (shape : Shape) (identifies : isIdentifier id) :
      IsOfStatements (.updateShape id shape)
  | setColor {id : Text} (role : ColorRole) {color : Option Text}
      (identifies : isIdentifier id)
      (plain : ∀ value ∈ color, ∀ character ∈ value,
        isBracket character = false) :
      IsOfStatements (.setColor role id color)
  | deleteNode {id : Text} (identifies : isIdentifier id) :
      IsOfStatements (.deleteNode id)
  | addEdge {source target : Text} (source_identifies : isIdentifier source)
      (target_identifies : isIdentifier target) :
      IsOfStatements (.addEdge source target)
  | addNode : IsOfStatements .addNode

end DiagramEdit
