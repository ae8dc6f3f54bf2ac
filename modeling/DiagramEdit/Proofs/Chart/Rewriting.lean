import DiagramEdit.Proofs.Chart.Edit
import DiagramEdit.Proofs.Chart.Site
import DiagramEdit.Proofs.Node.Rewriting

/-!
# Rewriting a node

A node statement is the only site of its identifier, so a new label and a new
shape are written there and nowhere else.
-/

namespace DiagramEdit

namespace Chart

variable {chart : Chart} {id : Text}

theorem WellFormed.cases_defined (id : Text) (chart : Chart) :
    (∃ earlier shape label later,
        chart.statements = earlier ++ Statement.node id shape label :: later) ∨
      ∀ statement ∈ chart.statements, statement.nodeId? ≠ some id := by
  by_cases defined : ∃ statement ∈ chart.statements, statement.nodeId? = some id
  · obtain ⟨statement, among, isNode⟩ := defined
    obtain ⟨earlier, later, cut⟩ := List.append_of_mem among
    cases statement with
    | node other shape label =>
        obtain rfl : other = id := Option.some.inj isNode
        exact Or.inl ⟨earlier, shape, label, later, cut⟩
    | edge source target => cases isNode
    | style other properties => cases isNode
  · right
    intro statement among isNode
    exact defined ⟨statement, among, isNode⟩

theorem map_eq_self_of_fixed {change : Statement → Statement}
    {statements : List Statement}
    (fixes : ∀ statement, statement.nodeId? ≠ some id →
      change statement = statement)
    (others : ∀ statement ∈ statements, statement.nodeId? ≠ some id) :
    statements.map change = statements := by
  calc
    statements.map change = statements.map fun statement => statement := by
      apply List.map_congr_left
      intro statement among
      exact fixes statement (others statement among)
    _ = statements := List.map_id' statements

theorem WellFormed.map (wellFormed : chart.WellFormed)
    {change : Statement → Statement}
    (keeps : ∀ statement, statement.WellFormed → (change statement).WellFormed)
    (sameNode : ∀ statement, (change statement).nodeId? = statement.nodeId?)
    (sameStyle : ∀ statement,
      (change statement).styledId? = statement.styledId?) :
    WellFormed { chart with statements := chart.statements.map change } := by
  refine ⟨wellFormed.header_visible, wellFormed.header_trimmed,
    wellFormed.header_plain, ?_, ?_, ?_⟩
  · intro statement member
    obtain ⟨old, among, rfl⟩ := List.mem_map.mp member
    exact keeps old (wellFormed.statements old among)
  · have marks : Statement.nodeId? ∘ change = Statement.nodeId? :=
      funext sameNode
    rw [List.filterMap_map, marks]
    exact wellFormed.defined_once
  · have marks : Statement.styledId? ∘ change = Statement.styledId? :=
      funext sameStyle
    rw [List.filterMap_map, marks]
    exact wellFormed.styled_once

/-- Rewriting the text of the node statement of an identifier changes that
statement. -/
theorem WellFormed.render_map (wellFormed : chart.WellFormed)
    {change : Statement → Statement}
    (fixes : ∀ statement, statement.nodeId? ≠ some id →
      change statement = statement) {earlier later : List Statement}
    {shape other : Shape} {label new : Text}
    (cut : chart.statements = earlier ++ Statement.node id shape label :: later)
    (changed : change (.node id shape label) = .node id other new) :
    Chart.render { chart with statements := chart.statements.map change } =
      chart.preamble earlier ++
        (id ++ [] ++ other.wrap new ++ chart.remainder later) := by
  have once := wellFormed.defined_once
  rw [cut] at once
  obtain ⟨before, after⟩ := Text.unmarked_of_nodup once rfl
  let edited : Chart := { chart with statements := chart.statements.map change }
  have editedCut :
      edited.statements = earlier ++ Statement.node id other new :: later := by
    change chart.statements.map change = _
    rw [cut, List.map_append, List.map_cons, changed,
      map_eq_self_of_fixed fixes before, map_eq_self_of_fixed fixes after]
  change edited.render = _
  rw [render_cut editedCut, Statement.text_node, List.append_nil]
  rfl

theorem relabel_of_undefined {statement : Statement} (label : Text)
    (other : statement.nodeId? ≠ some id) :
    statement.relabel id label = statement := by
  cases statement with
  | node name shape old =>
      have different : name ≠ id := by
        intro same
        exact other (congrArg some same)
      simp [Statement.relabel, different]
  | edge source target => rfl
  | style name properties => rfl

theorem reshape_of_undefined {statement : Statement} (shape : Shape)
    (other : statement.nodeId? ≠ some id) :
    statement.reshape id shape = statement := by
  cases statement with
  | node name old label =>
      have different : name ≠ id := by
        intro same
        exact other (congrArg some same)
      simp [Statement.reshape, different]
  | edge source target => rfl
  | style name properties => rfl

theorem WellFormed.findDefinition_eq_none (wellFormed : chart.WellFormed)
    (identifies : isIdentifier id)
    (undefined : ∀ statement ∈ chart.statements, statement.nodeId? ≠ some id) :
    findDefinition chart.render id = none := by
  apply findDefinition_eq_none_of_no_site
  intro before after split site
  obtain ⟨earlier, shape, label, later, cut, _⟩ :=
    wellFormed.exists_node_of_isSite identifies site split
  exact undefined (.node id shape label) (by simp [cut]) rfl

theorem standsApart_preamble (identifies : isIdentifier id) (chart : Chart)
    (earlier : List Statement) : standsApart (chart.preamble earlier) id :=
  (standsApart_iff identifies _).mpr (Text.endsInWord_append_space _
    (List.cons_ne_nil _ _) isSpace_of_mem_indentation)

theorem WellFormed.updateLabel (wellFormed : chart.WellFormed)
    (identifies : isIdentifier id) (label : Text) :
    DiagramEdit.updateLabel chart.render id label =
        (chart.updateLabel id label).render ∧
      (chart.updateLabel id label).WellFormed := by
  by_cases fits : labelFits label
  · rw [Chart.updateLabel, if_pos fits]
    constructor
    · rcases cases_defined id chart with
        ⟨earlier, shape, old, later, cut⟩ | undefined
      · have nodeWellFormed : (Statement.node id shape old).WellFormed :=
          wellFormed.statements _ (by simp [cut])
        have only := wellFormed.onlySite identifies cut
        have updated :=
          updateLabel_eq_of_only (ne_nil_of_isIdentifier identifies)
            (standsApart_preamble identifies chart earlier) (by simp)
            nodeWellFormed.2 only label
        have changed : Statement.relabel id label (.node id shape old) =
            .node id shape label := by
          simp [Statement.relabel]
        rw [if_pos fits] at updated
        rw [wellFormed.render_map (fun _ => relabel_of_undefined label) cut
            changed, ← updated, render_cut cut, Statement.text_node,
          List.append_nil]
      · rw [updateLabel_of_none
            (wellFormed.findDefinition_eq_none identifies undefined),
          map_eq_self_of_fixed (fun _ => relabel_of_undefined label) undefined]
    · apply wellFormed.map
      · intro statement statementWellFormed
        cases statement with
        | node other shape old =>
            by_cases same : other = id
            · simpa [Statement.relabel, same] using ⟨identifies, fits⟩
            · simpa [Statement.relabel, same] using statementWellFormed
        | edge source target => exact statementWellFormed
        | style other properties => exact statementWellFormed
      · intro statement
        cases statement <;> rfl
      · intro statement
        cases statement <;> rfl
  · rw [Chart.updateLabel, if_neg fits,
      updateLabel_of_not_fits (by simpa using fits)]
    exact ⟨rfl, wellFormed⟩

theorem WellFormed.updateShape (wellFormed : chart.WellFormed)
    (identifies : isIdentifier id) (shape : Shape) :
    DiagramEdit.updateShape chart.render id shape =
        (chart.updateShape id shape).render ∧
      (chart.updateShape id shape).WellFormed := by
  rw [Chart.updateShape]
  constructor
  · rcases cases_defined id chart with
      ⟨earlier, old, label, later, cut⟩ | undefined
    · have nodeWellFormed : (Statement.node id old label).WellFormed :=
        wellFormed.statements _ (by simp [cut])
      have only := wellFormed.onlySite identifies cut
      have updated :=
        updateShape_eq_of_only (ne_nil_of_isIdentifier identifies)
          (standsApart_preamble identifies chart earlier) nodeWellFormed.2
          only shape
      have changed : Statement.reshape id shape (.node id old label) =
          .node id shape label := by
        simp [Statement.reshape]
      rw [wellFormed.render_map (fun _ => reshape_of_undefined shape) cut
          changed, ← updated, render_cut cut, Statement.text_node,
        List.append_nil]
    · rw [updateShape_of_none
          (wellFormed.findDefinition_eq_none identifies undefined),
        map_eq_self_of_fixed (fun _ => reshape_of_undefined shape) undefined]
  · apply wellFormed.map
    · intro statement statementWellFormed
      cases statement with
      | node other old label => exact statementWellFormed
      | edge source target => exact statementWellFormed
      | style other properties => exact statementWellFormed
    · intro statement
      cases statement <;> rfl
    · intro statement
      cases statement <;> rfl

end Chart

end DiagramEdit
