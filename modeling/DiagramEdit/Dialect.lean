import DiagramEdit.Text.LetterCase

/-!
# Dialects

The sub-languages a diagram can be written in, their names, and what an editor
may change in each of them.
-/

namespace DiagramEdit

/-- The sub-language of a diagram. -/
inductive Dialect where
  | flowchart
  | sequence
  | classes
  | states
  | entities
  | mindmap
  | pie
  | gantt
deriving DecidableEq, Repr

namespace Dialect

def all : List Dialect :=
  [.flowchart, .sequence, .classes, .states, .entities, .mindmap, .pie, .gantt]

theorem mem_all (dialect : Dialect) : dialect ∈ all := by
  cases dialect <;> decide

/-- The name by which commands and files refer to a dialect. -/
def name : Dialect → Text
  | .flowchart => "flowchart".toList
  | .sequence => "sequence".toList
  | .classes => "classDiagram".toList
  | .states => "stateDiagram".toList
  | .entities => "erDiagram".toList
  | .mindmap => "mindmap".toList
  | .pie => "pie".toList
  | .gantt => "gantt".toList

/-- The dialect of a name, in any letter case. -/
def ofName? (name : Text) : Option Dialect :=
  all.find? fun dialect => Text.lower dialect.name == Text.lower name

end Dialect

/-- The kinds of edit that a dialect can allow. -/
structure Capabilities where
  canEditLabel : Bool
  canEditShape : Bool
  canEditFill : Bool
  canConnect : Bool
  canDelete : Bool
  canAdd : Bool
deriving DecidableEq, Repr

namespace Capabilities

def none : Capabilities :=
  ⟨false, false, false, false, false, false⟩

def labelOnly : Capabilities :=
  { none with canEditLabel := true }

def full : Capabilities :=
  ⟨true, true, true, true, true, true⟩

end Capabilities

/-- Flowcharts allow every edit, charts of numbers and dates none, and the other
dialects a change of label. -/
def Dialect.capabilities : Dialect → Capabilities
  | .flowchart => .full
  | .sequence | .classes | .states | .entities | .mindmap => .labelOnly
  | .pie | .gantt => .none

/-- Whether a click can select an element at all. -/
def Dialect.isInteractive (dialect : Dialect) : Bool :=
  dialect.capabilities != Capabilities.none

end DiagramEdit
