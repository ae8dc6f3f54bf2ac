import DiagramEdit.Edit
import DiagramEdit.Proofs.Chart.Coloring
import DiagramEdit.Proofs.Chart.Rewriting

/-!
# Editing a text is editing its statements

On the text of a flowchart every edit gives the text of the flowchart with the
same edit made to its statements.  One step does so and keeps the flowchart well
formed; any number of steps follows.
-/

namespace DiagramEdit

namespace Chart

variable {chart : Chart} {id : Text}

theorem WellFormed.deleteNode (wellFormed : chart.WellFormed)
    (identifies : isIdentifier id) :
    DiagramEdit.deleteNode chart.render id = (chart.deleteNode id).render ∧
      (chart.deleteNode id).WellFormed := by
  constructor
  · have kept :
        (chart.statements.map Statement.line).filter
            (!DiagramEdit.mentions id ·) =
          (chart.deleteNode id).statements.map Statement.line := by
      rw [List.filter_map]
      apply congrArg (List.map Statement.line)
      apply List.filter_congr
      intro statement among
      have same : DiagramEdit.mentions id statement.line =
          statement.words.contains id := by
        rw [Bool.eq_iff_iff, mentions_iff_mem_wordRuns identifies,
          statement.wordRuns_line (wellFormed.statements statement among),
          List.contains_iff_mem]
      simp [same]
    rw [DiagramEdit.deleteNode, isBlank_identifier identifies,
      wellFormed.lines_render, render_eq (chart.deleteNode id)]
    simp only [Bool.false_eq_true, if_false, List.cons_append,
      List.filter_append, kept, filter_mentions_closingLine identifies]
    rfl
  · refine ⟨wellFormed.header_visible, wellFormed.header_trimmed,
      wellFormed.header_plain, ?_, ?_, ?_⟩
    · intro statement member
      exact wellFormed.statements statement (List.mem_filter.mp member).1
    · exact wellFormed.defined_once.sublist (List.filter_sublist.filterMap _)
    · exact wellFormed.styled_once.sublist (List.filter_sublist.filterMap _)

/-- One edit of the text is the edit of the flowchart. -/
theorem WellFormed.apply (wellFormed : chart.WellFormed) {edit : Edit}
    (ofStatements : edit.IsOfStatements) :
    edit.apply chart.render = (chart.apply edit).render ∧
      (chart.apply edit).WellFormed := by
  cases ofStatements with
  | updateLabel label identifies =>
      exact wellFormed.updateLabel identifies label
  | updateShape shape identifies =>
      exact wellFormed.updateShape identifies shape
  | setColor role identifies plain =>
      exact wellFormed.setColor identifies role plain
  | deleteNode identifies => exact wellFormed.deleteNode identifies
  | addEdge source_identifies target_identifies =>
      exact wellFormed.addEdge source_identifies target_identifies
  | addNode =>
      obtain ⟨added, remains⟩ := wellFormed.addNode
      exact ⟨congrArg AddedNode.text added, remains⟩

/-- A run of edits of the text is the run of edits of the flowchart. -/
theorem WellFormed.applyAll (wellFormed : chart.WellFormed) {edits : List Edit}
    (ofStatements : ∀ edit ∈ edits, edit.IsOfStatements) :
    Edit.applyAll chart.render edits = (chart.applyAll edits).render ∧
      (chart.applyAll edits).WellFormed := by
  induction edits generalizing chart with
  | nil => exact ⟨rfl, wellFormed⟩
  | cons edit rest induction =>
      obtain ⟨step, remains⟩ := wellFormed.apply (ofStatements edit (by simp))
      have run :=
        induction remains fun other member =>
          ofStatements other (by simp [member])
      rw [← step] at run
      exact run

end Chart

/-- However many edits were made to the text of a flowchart, it is the text of
the flowchart with these edits made to its statements, and a node that is added
then has the least number that no statement knows. -/
theorem applyAll_render {chart : Chart} (wellFormed : chart.WellFormed)
    {edits : List Edit} (ofStatements : ∀ edit ∈ edits, edit.IsOfStatements) :
    ∀ done, done <+: edits →
      Edit.applyAll chart.render done = (chart.applyAll done).render ∧
        (chart.applyAll done).WellFormed ∧
        (addNode (Edit.applyAll chart.render done)).id =
          numberedId (chart.applyAll done).freshNumber := by
  intro done isPrefix
  obtain ⟨same, remains⟩ := wellFormed.applyAll fun edit member =>
    ofStatements edit (isPrefix.subset member)
  refine ⟨same, remains, ?_⟩
  rw [same, remains.addNode.1]

/-- A flowchart in whose labels and styles other nodes are named. -/
def Chart.crossing : Chart where
  header := "graph TD".toList
  statements := [
    .node "A".toList .stadium "A, N1".toList,
    .style "A".toList
      [⟨"Fill".toList, "#fff".toList⟩, ⟨"stroke".toList, "#000".toList⟩],
    .node "N2".toList .rect "A".toList,
    .edge "N2".toList "AB".toList,
    .style "AB".toList [⟨"fill".toList, "#eee".toList⟩],
    .node "B".toList .round "style A fill:#eee".toList,
    .style "B".toList [⟨"stroke-width".toList, "2px".toList⟩]]
  broken := true

/-- Edits that set a property in its place, remove one of two and the only one,
add one to a style and one in a new style, and that no label can be mistaken
for. -/
def Chart.crossingEdits : List Edit :=
  [.addNode,
    .setColor .fill "A".toList (some " red ".toList),
    .setColor .stroke "A".toList none,
    .setColor .fill "B".toList (some "#00f".toList),
    .setColor .fill "AB".toList none,
    .setColor .stroke "AB".toList (some "blue".toList),
    .updateLabel "A".toList "B --> AB".toList,
    .updateShape "A".toList .hexagon,
    .updateLabel "N3".toList "]".toList,
    .addEdge "AB".toList "N3".toList,
    .deleteNode "N2".toList]

theorem Chart.crossingEdits_ofStatements :
    ∀ edit ∈ crossingEdits, edit.IsOfStatements := by
  have plain {color : Text} (unbracketed : color.all (!isBracket ·)) :
      ∀ value ∈ some color, ∀ character ∈ value,
        isBracket character = false := by
    simpa using unbracketed
  intro edit member
  simp only [crossingEdits, List.mem_cons, List.not_mem_nil, or_false] at member
  rcases member with
    rfl | rfl | rfl | rfl | rfl | rfl | rfl | rfl | rfl | rfl | rfl
  · exact .addNode
  · exact .setColor _ (by decide) (plain (by decide))
  · exact .setColor _ (by decide) (by decide)
  · exact .setColor _ (by decide) (plain (by decide))
  · exact .setColor _ (by decide) (by decide)
  · exact .setColor _ (by decide) (plain (by decide))
  · exact .updateLabel _ (by decide)
  · exact .updateShape _ (by decide)
  · exact .updateLabel _ (by decide)
  · exact .addEdge (by decide) (by decide)
  · exact .deleteNode (by decide)

/-- Two styles keep properties that were set in their place and at the end, and
the number that the old label knew is free. -/
theorem applyAll_render_overlapping :
    (Chart.crossing.applyAll Chart.crossingEdits).render =
        ("graph TD\n    A\x7b\x7bB --> AB\x7d\x7d\n    style A Fill:red\n" ++
          "    B(style A fill:#eee)\n" ++
          "    style B stroke-width:2px,fill:#00f\n" ++
          "    N3[New Node]\n    style AB stroke:blue\n" ++
          "    AB --> N3\n").toList ∧
      numberedId (Chart.crossing.applyAll Chart.crossingEdits).freshNumber =
        "N1".toList := by
  have wellFormed : Chart.crossing.WellFormed := by decide
  obtain ⟨edited, -, fresh⟩ :=
    applyAll_render wellFormed Chart.crossingEdits_ofStatements _
      (List.prefix_refl _)
  rw [← fresh, ← edited]
  decide +kernel

end DiagramEdit
