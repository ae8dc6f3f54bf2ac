import DiagramEdit.Dialect

/-!
# The header line

The first line that is not blank names the dialect of a diagram.  A text whose
header names none is read as a flowchart.
-/

namespace DiagramEdit

/-- The first line that is not blank, without the white space around it. -/
def headerLine (text : Text) : Text :=
  Text.trim ((Text.trim text).takeWhile (· != '\n'))

/-- The words a header can begin with, in lower case. -/
def headerKeywords : List (Text × Dialect) :=
  [("flowchart".toList, .flowchart),
   ("graph".toList, .flowchart),
   ("sequencediagram".toList, .sequence),
   ("classdiagram".toList, .classes),
   ("erdiagram".toList, .entities),
   ("statediagram".toList, .states),
   ("pie".toList, .pie),
   ("mindmap".toList, .mindmap),
   ("gantt".toList, .gantt)]

/-- The dialect that the header names, in any letter case. -/
def declaredDialect? (text : Text) : Option Dialect :=
  let header := Text.lower (headerLine text)
  (headerKeywords.find? fun entry => entry.1.isPrefixOf header).map Prod.snd

/-- The dialect in which a text is read. -/
def detect (text : Text) : Dialect :=
  (declaredDialect? text).getD .flowchart

/-- Whether the header says that the text is a flowchart. -/
def isFlowchart (text : Text) : Bool :=
  declaredDialect? text == some .flowchart

end DiagramEdit
