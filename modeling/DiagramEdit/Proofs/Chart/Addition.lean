import DiagramEdit.Proofs.Chart.Edit
import DiagramEdit.Proofs.Chart.Site

/-!
# Adding statements

The line that an edit writes at the end of the text of a flowchart is that of
the appended statement, and the number that a new node gets is the least one
that no statement knows.
-/

namespace DiagramEdit

namespace Chart

variable {chart : Chart} {id : Text}

theorem mentions_iff :
    chart.mentions id ↔
      ∃ statement ∈ chart.statements, id ∈ statement.words := by
  simp only [mentions, List.any_eq_true, List.contains_iff_mem]

theorem WellFormed.references_eq_mentions (wellFormed : chart.WellFormed)
    (identifies : isIdentifier id) :
    references chart.render id = chart.mentions id := by
  rw [Bool.eq_iff_iff, wellFormed.references_iff identifies, mentions_iff]

theorem WellFormed.exists_last_line (wellFormed : chart.WellFormed) :
    ∃ earlier last,
      chart.header :: chart.statements.map Statement.line = earlier ++ [last] ∧
        Text.isBlank last = false ∧ '\n' ∉ last ∧ Text.trimEnd last = last := by
  rcases List.eq_nil_or_concat chart.statements with
    none | ⟨statements, statement, cut⟩
  · refine ⟨[], chart.header, by rw [none]; rfl, wellFormed.header_visible, ?_,
      wellFormed.header_trimmed⟩
    intro lineFeed
    exact (wellFormed.header_plain '\n' lineFeed).2.2 rfl
  · rw [List.concat_eq_append] at cut
    have statementWellFormed := wellFormed.statements statement (by simp [cut])
    obtain ⟨front, last, textEq, visible⟩ :=
      statement.exists_text_eq_concat statementWellFormed
    have lineEq : statement.line = ("    ".toList ++ front) ++ [last] := by
      rw [Statement.line, textEq, List.append_assoc]
    refine ⟨chart.header :: statements.map Statement.line, statement.line,
      by simp [cut], ?_, statement.not_lineFeed_mem_line statementWellFormed,
      ?_⟩
    · rw [lineEq, Text.isBlank_append]
      simp [Text.isBlank, visible]
    · rw [lineEq]
      exact Text.trimEnd_append_singleton visible

theorem WellFormed.appendLine_render (wellFormed : chart.WellFormed)
    (statement : Statement) :
    Text.appendLine chart.render statement.line =
      (chart.append statement).render := by
  obtain ⟨earlier, last, linesEq, visible, oneLine, trimmed⟩ :=
    wellFormed.exists_last_line
  rw [render_eq, render_eq, linesEq,
    Text.appendLine_joinLines earlier _ _ visible oneLine, trimmed]
  have pieces :
      chart.header :: (chart.append statement).statements.map Statement.line =
        earlier ++ [last, statement.line] := by
    simp only [append, List.map_append, List.map_cons, List.map_nil]
    rw [← List.cons_append, linesEq]
    simp
  change _ = Text.joinLines (chart.header ::
    (chart.append statement).statements.map Statement.line ++
    Text.closingLine chart.broken)
  rw [pieces]

theorem WellFormed.append (wellFormed : chart.WellFormed)
    {statement : Statement} (statementWellFormed : statement.WellFormed)
    (undefined : ∀ node, statement.nodeId? = some node →
      ∀ other ∈ chart.statements, other.nodeId? ≠ some node)
    (unstyled : ∀ node, statement.styledId? = some node →
      ∀ other ∈ chart.statements, other.styledId? ≠ some node) :
    (chart.append statement).WellFormed := by
  have once : ∀ mark : Statement → Option Text,
      (chart.statements.filterMap mark).Nodup →
        (∀ node, mark statement = some node →
          ∀ other ∈ chart.statements, mark other ≠ some node) →
        ((chart.append statement).statements.filterMap mark).Nodup := by
    intro mark nodup unmarked
    rw [Chart.append, List.filterMap_append, List.nodup_append]
    refine ⟨nodup, ?_, ?_⟩
    · cases marked : mark statement <;> simp [marked]
    · intro node among new isNew same
      obtain ⟨other, member, otherMark⟩ := List.mem_filterMap.mp among
      obtain ⟨_, isStatement, newMark⟩ := List.mem_filterMap.mp isNew
      rw [List.mem_singleton.mp isStatement] at newMark
      exact unmarked new newMark other member (by rw [otherMark, same])
  refine ⟨wellFormed.header_visible, wellFormed.header_trimmed,
    wellFormed.header_plain, ?_, once _ wellFormed.defined_once undefined,
    once _ wellFormed.styled_once unstyled⟩
  intro other member
  rcases List.mem_append.mp member with old | new
  · exact wellFormed.statements other old
  · rw [List.mem_singleton.mp new]
    exact statementWellFormed

theorem WellFormed.addEdge (wellFormed : chart.WellFormed)
    {source target : Text} (source_identifies : isIdentifier source)
    (target_identifies : isIdentifier target) :
    DiagramEdit.addEdge chart.render source target =
        (chart.addEdge source target).render ∧
      (chart.addEdge source target).WellFormed := by
  constructor
  · have endpoints : (isEndpoint source && isEndpoint target) = true := by
      rw [isEndpoint_identifier source_identifies,
        isEndpoint_identifier target_identifies, Bool.and_self]
    rw [DiagramEdit.addEdge, if_pos endpoints,
      trim_identifier source_identifies, trim_identifier target_identifies]
    have written := wellFormed.appendLine_render (.edge source target)
    rw [Statement.line, Statement.text_edge, ← List.append_assoc,
      ← List.append_assoc] at written
    exact written
  · have edgeWellFormed : (Statement.edge source target).WellFormed :=
      ⟨source_identifies, target_identifies⟩
    apply wellFormed.append edgeWellFormed
    · intro node impossible
      cases impossible
    · intro node impossible
      cases impossible

/-- The text and the flowchart have the same fresh number. -/
theorem WellFormed.freshNumber_render (wellFormed : chart.WellFormed) :
    DiagramEdit.freshNumber chart.render = chart.freshNumber := by
  have unused : ∀ number,
      isUnused (nodeIds chart.render) chart.render (numberedId number) =
        !chart.mentions (numberedId number) := by
    intro number
    rw [Bool.eq_iff_iff,
      wellFormed.isUnused_iff (isIdentifier_numberedId number),
      Bool.not_eq_true', ← Bool.not_eq_true, mentions_iff]
    simp
  obtain ⟨positive, free, least⟩ := freshNumber_spec chart.render
  rw [unused, Bool.not_eq_true'] at free
  symm
  apply (Nat.find_eq_iff chart.exists_fresh).mpr
  refine ⟨⟨positive, free⟩, ?_⟩
  intro smaller below unknown
  obtain ⟨smallerPositive, smallerFree⟩ := unknown
  have used := least smaller smallerPositive below
  rw [unused, smallerFree] at used
  cases used

theorem WellFormed.addNode (wellFormed : chart.WellFormed) :
    DiagramEdit.addNode chart.render =
        ⟨chart.addNode.render, numberedId chart.freshNumber⟩ ∧
      chart.addNode.WellFormed := by
  constructor
  · have written := wellFormed.appendLine_render
      (.node (numberedId chart.freshNumber) .rect newNodeLabel)
    rw [Statement.line, Statement.text_node, ← List.append_assoc] at written
    rw [DiagramEdit.addNode, wellFormed.freshNumber_render]
    exact congrArg (AddedNode.mk · _) written
  · have nodeWellFormed :
        (Statement.node (numberedId chart.freshNumber) .rect
          newNodeLabel).WellFormed :=
      ⟨isIdentifier_numberedId _, labelFits_newNodeLabel⟩
    apply wellFormed.append nodeWellFormed
    · intro node isNew other among defined
      obtain rfl : numberedId chart.freshNumber = node := Option.some.inj isNew
      have free := (Nat.find_spec chart.exists_fresh).2
      have mentioned : chart.mentions (numberedId chart.freshNumber) := by
        refine mentions_iff.mpr ⟨other, among, ?_⟩
        cases other with
        | node name shape label =>
            obtain rfl : name = numberedId chart.freshNumber :=
              Option.some.inj defined
            exact List.mem_cons_self
        | edge source target => cases defined
        | style name properties => cases defined
      rw [freshNumber, free] at mentioned
      cases mentioned
    · intro node impossible
      cases impossible

end Chart

end DiagramEdit
