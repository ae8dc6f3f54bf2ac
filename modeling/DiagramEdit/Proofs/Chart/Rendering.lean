import DiagramEdit.Proofs.Chart.Statement
import DiagramEdit.Proofs.Node.Growth

/-!
# The text of a flowchart

A flowchart is a header and a list of statements.  In its text every bracket
that can open a label stands behind the identifier of a node statement, so the
sites of an identifier are the statements that define it.
-/

namespace DiagramEdit

structure Chart where
  header : Text
  statements : List Statement
  /-- Whether the text ends in a line feed. -/
  broken : Bool
deriving DecidableEq, Repr

namespace Chart

def render (chart : Chart) : Text :=
  Text.joinLines (chart.header :: chart.statements.map Statement.line) ++
    (if chart.broken then ['\n'] else [])

/-- A flowchart that can be read back: every node is defined and styled at most
once. -/
structure WellFormed (chart : Chart) : Prop where
  header_visible : Text.isBlank chart.header = false
  header_trimmed : Text.trimEnd chart.header = chart.header
  header_plain : ∀ character ∈ chart.header,
    isBracket character = false ∧ character ≠ '>' ∧ character ≠ '\n'
  statements : ∀ statement ∈ chart.statements, statement.WellFormed
  defined_once : (chart.statements.filterMap Statement.nodeId?).Nodup
  styled_once : (chart.statements.filterMap Statement.styledId?).Nodup

instance (chart : Chart) : Decidable chart.WellFormed :=
  decidable_of_iff
    (Text.isBlank chart.header = false ∧
      Text.trimEnd chart.header = chart.header ∧
      (chart.header.all fun character =>
        isBracket character = false ∧ character ≠ '>' ∧ character ≠ '\n') ∧
      (∀ statement ∈ chart.statements, statement.WellFormed) ∧
      (chart.statements.filterMap Statement.nodeId?).Nodup ∧
      (chart.statements.filterMap Statement.styledId?).Nodup)
    ⟨fun ⟨visible, trimmed, plain, statements, defined, styled⟩ =>
        ⟨visible, trimmed, by simpa using plain, statements, defined, styled⟩,
      fun written =>
        ⟨written.header_visible, written.header_trimmed,
          by simpa using written.header_plain, written.statements,
          written.defined_once, written.styled_once⟩⟩

variable {chart : Chart}

theorem render_eq (chart : Chart) :
    chart.render =
      Text.joinLines (chart.header :: chart.statements.map Statement.line ++
        Text.closingLine chart.broken) :=
  (Text.joinLines_closingLine (List.cons_ne_nil _ _) chart.broken).symm

theorem WellFormed.lines_render (wellFormed : chart.WellFormed) :
    Text.lines chart.render =
      chart.header :: chart.statements.map Statement.line ++
        Text.closingLine chart.broken := by
  rw [render_eq]
  apply Text.lines_joinLines
  · simp
  · intro line member
    rcases List.mem_append.mp member with written | closing
    · rcases List.mem_cons.mp written with here | later
      · rw [here]
        intro lineFeed
        exact (wellFormed.header_plain '\n' lineFeed).2.2 rfl
      · obtain ⟨statement, among, rfl⟩ := List.mem_map.mp later
        exact statement.not_lineFeed_mem_line
          (wellFormed.statements statement among)
    · simp [Text.eq_nil_of_mem_closingLine closing]

/-- An identifier is referred to by the statements that hold it as a word. -/
theorem WellFormed.references_iff (wellFormed : chart.WellFormed) {id : Text}
    (identifies : isIdentifier id) :
    references chart.render id ↔
      ∃ statement ∈ chart.statements, id ∈ statement.words := by
  rw [DiagramEdit.references_iff identifies, wellFormed.lines_render]
  constructor
  · intro parts
    obtain ⟨line, below, member⟩ := parts
    have behind : line ∈ chart.statements.map Statement.line ++
        Text.closingLine chart.broken := below
    rcases List.mem_append.mp behind with written | closing
    · obtain ⟨statement, among, rfl⟩ := List.mem_map.mp written
      rw [Statement.wordRuns_line (wellFormed.statements statement among)]
        at member
      exact ⟨statement, among, member⟩
    · rw [Text.eq_nil_of_mem_closingLine closing] at member
      cases member
  · intro parts
    obtain ⟨statement, among, member⟩ := parts
    refine ⟨statement.line, ?_, ?_⟩
    · simp only [List.cons_append, List.tail_cons, List.mem_append,
        List.mem_map]
      exact Or.inl ⟨statement, among, rfl⟩
    · rwa [Statement.wordRuns_line (wellFormed.statements statement among)]

/-- A bracket, or what looks like one, is on the line of a statement. -/
theorem WellFormed.exists_statement_of_bracket (wellFormed : chart.WellFormed)
    {before rest : Text} {bracket : Char} (opens : opensNode bracket)
    (split : chart.render = before ++ bracket :: rest) :
    ∃ earlier statement later left right,
      chart.statements = earlier ++ statement :: later ∧
        statement.line = left ++ bracket :: right ∧
        before =
          (chart.header :: earlier.map Statement.line).flatMap (· ++ ['\n']) ++
            left ∧
        rest = right ++
          (later.map Statement.line ++ Text.closingLine chart.broken).flatMap
            ('\n' :: ·) := by
  have different : bracket ≠ '\n' := by
    intro lineFeed
    rw [lineFeed] at opens
    cases opens
  rw [render_eq] at split
  obtain ⟨above, line, below, left, right, piecesEq, lineEq, beforeEq,
    restEq⟩ :=
    Text.joinLines_eq_append_cons different split
  cases above with
  | nil =>
      have headerEq : chart.header = left ++ bracket :: right := by
        rw [← lineEq]
        exact (List.cons.inj piecesEq).1
      have plain := wellFormed.header_plain bracket (by simp [headerEq])
      simp only [opensNode, Bool.or_eq_true, beq_iff_eq] at opens
      rcases opens with ((rfl | rfl) | rfl) | rfl
      · cases plain.1
      · cases plain.1
      · cases plain.1
      · exact absurd rfl plain.2.1
  | cons first above =>
      obtain ⟨firstEq, statementsEq⟩ := List.cons.inj piecesEq
      rcases Text.append_eq_append_cons_cases statementsEq with
        ⟨tail, mapEq, belowEq⟩ | ⟨_, _, closingEq⟩
      · obtain ⟨earlier, more, chartEq, aboveEq, moreEq⟩ :=
          List.map_eq_append_iff.mp mapEq
        obtain ⟨statement, later, rfl, statementEq, laterEq⟩ :=
          List.map_eq_cons_iff.mp moreEq
        refine ⟨earlier, statement, later, left, right, chartEq,
          by rw [statementEq, lineEq], ?_, ?_⟩
        · rw [beforeEq, firstEq, aboveEq]
        · rw [restEq, belowEq, laterEq]
      · have closing : line ∈ Text.closingLine chart.broken := by
          simp [closingEq]
        have empty := Text.eq_nil_of_mem_closingLine closing
        simp [lineEq] at empty

end Chart

end DiagramEdit
