import DiagramEdit.Proofs.Chart.Rendering

/-!
# Sites are node statements

No label, edge, style or longer identifier is mistaken for the definition of a
node: the site of an identifier in the text of a flowchart begins the text of
the one node statement that has this identifier.
-/

namespace DiagramEdit

theorem not_isBracket_of_isPlain {character : Char}
    (plain : isPlain character) :
    isBracket character = false := by
  simp only [isPlain, Bool.and_eq_true, Bool.not_eq_true'] at plain
  exact plain.1.1.1

namespace Statement

variable {statement : Statement}

theorem begins_line (wellFormed : statement.WellFormed) :
    (Text.trimStart statement.line).head?.any startsIdentifier := by
  obtain ⟨initial, rest, textEq, starts⟩ := exists_text_eq_cons wellFormed
  rw [line, textEq]
  exact begins_indentation starts rest

theorem exists_eq_node_of_bracket (wellFormed : statement.WellFormed)
    {bracket : Char} (member : bracket ∈ statement.line)
    (brackets : isBracket bracket) :
    ∃ id shape label, statement = node id shape label := by
  have notPlain : isBracket bracket ≠ false := by simp [brackets]
  rw [line, List.mem_append] at member
  rcases member with inIndent | inText
  · exact absurd (not_isBracket_of_mem_indentation inIndent) notPlain
  · cases statement with
    | node id shape label => exact ⟨id, shape, label, rfl⟩
    | edge source target =>
        have arrow : " --> ".toList.all (!isBracket ·) := by decide
        simp only [text_edge, List.mem_append] at inText
        rcases inText with (inSource | inArrow) | inTarget
        · exact absurd (not_isBracket_of_mem_identifier wellFormed.1 inSource)
            notPlain
        · exact absurd
            (by simpa using List.all_eq_true.mp arrow bracket inArrow) notPlain
        · exact absurd (not_isBracket_of_mem_identifier wellFormed.2 inTarget)
            notPlain
    | style id properties =>
        have keyword : "style ".toList.all (!isBracket ·) := by decide
        simp only [text_style, List.mem_append] at inText
        rcases inText with ((inKeyword | inId) | inSpace) | inBody
        · exact absurd
            (by simpa using List.all_eq_true.mp keyword bracket inKeyword)
            notPlain
        · exact absurd (not_isBracket_of_mem_identifier wellFormed.1 inId)
            notPlain
        · rw [List.mem_singleton.mp inSpace] at brackets
          cases brackets
        · rcases mem_styleBody inBody with
            rfl | rfl | ⟨property, among, inName | inValue⟩
          · cases brackets
          · cases brackets
          · have entry := (wellFormed.2.2 property among).name
            exact absurd (not_isBracket_of_isPlain (entry.plain bracket inName))
              notPlain
          · have entry := (wellFormed.2.2 property among).value
            exact absurd
              (not_isBracket_of_isPlain (entry.plain bracket inValue)) notPlain

theorem eq_node_of_line_eq (wellFormed : statement.WellFormed)
    {id front space rest : Text} {bracket : Char} (identifies : isIdentifier id)
    (ends : Text.endsInWord front = false)
    (spaces : ∀ character ∈ space, Text.isSpace character)
    (opens : opensLabel bracket)
    (lineEq : statement.line = front ++ id ++ space ++ bracket :: rest) :
    ∃ shape label, statement = node id shape label ∧ front = "    ".toList := by
  have brackets := isBracket_of_opensLabel opens
  have onLine : bracket ∈ statement.line := by simp [lineEq]
  obtain ⟨other, shape, label, rfl⟩ :=
    exists_eq_node_of_bracket wellFormed onLine brackets
  have word : ∀ character ∈ other, Text.isWordCharacter character :=
    fun character member =>
      isWordCharacter_of_mem_identifier wellFormed.1 member
  have word' : ∀ character ∈ id, Text.isWordCharacter character :=
    fun character member => isWordCharacter_of_mem_identifier identifies member
  rw [line, text_node, ← List.append_assoc] at lineEq
  rcases Text.append_eq_append_cons_cases lineEq with
    ⟨more, frontEq, _⟩ | ⟨half, leftEq, wrapEq⟩
  · have member : bracket ∈ "    ".toList ++ other := by
      rw [frontEq]
      simp
    rcases List.mem_append.mp member with inIndent | inOther
    · have plain := not_isBracket_of_mem_indentation inIndent
      rw [brackets] at plain
      cases plain
    · have plain := not_isBracket_of_mem_identifier wellFormed.1 inOther
      rw [brackets] at plain
      cases plain
  -- The bracket is in the wrapped label: it is the first one of the opening or
  -- the second.
  · have bare : ∀ character ∈ label, isBracket character = false := by
      intro character member
      exact not_isBracket_of_labelFits wellFormed.2 member
    have halves := eq_of_wrap_eq_append_opener bare opens wrapEq
    rcases List.eq_nil_or_concat space with rfl | ⟨space, final, rfl⟩
    · rw [List.append_nil] at leftEq
      rcases halves with rfl | ⟨half, rfl, isHalf⟩
      · rw [List.append_nil] at leftEq
        obtain ⟨frontEq, rfl⟩ :=
          Text.word_suffix_unique leftEq word' word ends (by decide)
        exact ⟨shape, label, rfl, frontEq⟩
      · have inWord := endsInWord_identifier identifies front
        rw [leftEq,
          Text.endsInWord_append_cons (not_isWordCharacter_of_isBracket isHalf)]
          at inWord
        cases inWord
    · have space_final := spaces final (by simp)
      rcases halves with rfl | ⟨half, rfl, isHalf⟩
      · have inWord := endsInWord_identifier wellFormed.1 "    ".toList
        rw [← List.append_nil ("    ".toList ++ other), ← leftEq,
          Text.endsInWord_append_space _ (by simp) spaces] at inWord
        cases inWord
      · rw [List.concat_eq_append, ← List.append_assoc] at leftEq
        have same : final = half :=
          List.singleton_injective (List.append_inj_right' leftEq rfl)
        rw [same, ← Bool.not_eq_false, not_isSpace_of_isBracket isHalf]
          at space_final
        exact absurd rfl space_final

end Statement

namespace Chart

variable {chart : Chart} {id : Text}

/-- The text in front of the statement that follows some earlier ones, with its
indentation. -/
def preamble (chart : Chart) (earlier : List Statement) : Text :=
  (chart.header :: earlier.map Statement.line).flatMap (· ++ ['\n']) ++
    "    ".toList

/-- The text behind the statement in front of some later ones. -/
def remainder (chart : Chart) (later : List Statement) : Text :=
  (later.map Statement.line ++ Text.closingLine chart.broken).flatMap
    ('\n' :: ·)

theorem render_cut {earlier later : List Statement} {statement : Statement}
    (cut : chart.statements = earlier ++ statement :: later) :
    chart.render =
      chart.preamble earlier ++ (statement.text ++ chart.remainder later) := by
  have pieces :
      chart.header :: chart.statements.map Statement.line ++
          Text.closingLine chart.broken =
        (chart.header :: earlier.map Statement.line) ++ statement.line ::
          (later.map Statement.line ++ Text.closingLine chart.broken) := by
    simp [cut]
  rw [render_eq, pieces, Text.joinLines_append_cons]
  simp [preamble, remainder, Statement.line]

/-- An identifier in front of a bracket stands on the line of a statement. -/
theorem WellFormed.exists_statement_of_opener (wellFormed : chart.WellFormed)
    (identifies : isIdentifier id) {before space rest : Text} {bracket : Char}
    (ends : Text.endsInWord before = false)
    (spaces : ∀ character ∈ space, Text.isSpace character)
    (opens : opensNode bracket)
    (split : chart.render = before ++ id ++ space ++ bracket :: rest) :
    ∃ earlier statement later front right,
      chart.statements = earlier ++ statement :: later ∧
        statement.line = front ++ id ++ space ++ bracket :: right ∧
        before =
          (chart.header :: earlier.map Statement.line).flatMap (· ++ ['\n']) ++
            front ∧ Text.endsInWord front = false := by
  obtain ⟨earlier, statement, later, left, right, cut, lineEq, leftEq, _⟩ :=
    wellFormed.exists_statement_of_bracket opens split
  have begins :=
    statement.begins_line (wellFormed.statements statement (by simp [cut]))
  rw [lineEq] at begins
  have visible :=
    visible_before_of_begins begins (not_startsIdentifier_of_opensNode opens)
      (not_isSpace_of_opensNode opens)
  obtain ⟨front, leftFront, beforeEq⟩ :=
    exists_front_of_append_eq (lineStart_flatMap _) identifies spaces visible
      leftEq
  rw [beforeEq] at ends
  exact ⟨earlier, statement, later, front, right, cut,
    by rw [lineEq, leftFront], beforeEq, Text.endsInWord_right ends⟩

/-- The sites of an identifier are at the node statements that have it. -/
theorem WellFormed.exists_node_of_isSite (wellFormed : chart.WellFormed)
    (identifies : isIdentifier id) {before after : Text}
    (site : IsSite id before after) (split : chart.render = before ++ after) :
    ∃ earlier shape label later,
      chart.statements = earlier ++ Statement.node id shape label :: later ∧
        before = chart.preamble earlier := by
  obtain ⟨space, bracket, rest, afterEq, spaces, opens⟩ := site.opens
  have ends := (standsApart_iff identifies before).mp site.apart
  have whole : chart.render = before ++ id ++ space ++ bracket :: rest := by
    rw [split, afterEq]
    simp
  obtain ⟨earlier, statement, later, front, right, cut, lineEq, beforeEq,
    frontEnds⟩ :=
    wellFormed.exists_statement_of_opener identifies ends spaces
      (opensNode_of_opensLabel opens) whole
  have statementWellFormed := wellFormed.statements statement (by simp [cut])
  obtain ⟨shape, label, rfl, frontEq⟩ :=
    statement.eq_node_of_line_eq statementWellFormed identifies frontEnds spaces
      opens lineEq
  exact ⟨earlier, shape, label, later, cut, by rw [beforeEq, frontEq]; rfl⟩

theorem WellFormed.onlySite (wellFormed : chart.WellFormed)
    (identifies : isIdentifier id) {earlier later : List Statement}
    {shape : Shape} {label : Text}
    (cut :
      chart.statements = earlier ++ Statement.node id shape label :: later) :
    OnlySite id (chart.preamble earlier)
      (id ++ [] ++ shape.wrap label ++ chart.remainder later) := by
  intro left right split site
  have whole : chart.render = left ++ right := by
    rw [← split, render_cut cut, Statement.text_node, List.append_nil]
  obtain ⟨earlier', shape', label', later', cut', leftEq⟩ :=
    wellFormed.exists_node_of_isSite identifies site whole
  have once := wellFormed.defined_once
  rw [cut] at once cut'
  have same : earlier = earlier' :=
    (Text.cut_unique_of_nodup once rfl rfl cut').1
  rw [leftEq, same]

theorem WellFormed.exists_mem_words_of_mem_nodeIds
    (wellFormed : chart.WellFormed) (identifies : isIdentifier id)
    (member : id ∈ nodeIds chart.render) :
    ∃ statement ∈ chart.statements, id ∈ statement.words := by
  obtain ⟨before, after, stop, split, read⟩ :=
    Pattern.mem_readings_iff.mp (mem_nodeIds_iff.mp member).1
  obtain ⟨ends, _, within, space, bracket, rest, afterEq, spaces, opens, _⟩ :=
    Pattern.identifierBeforeBracket_cut_iff.mp read
  have whole : chart.render = before ++ id ++ space ++ bracket :: rest := by
    rw [split, afterEq]
    simp
  obtain ⟨earlier, statement, later, front, right, cut, lineEq, _, frontEnds⟩ :=
    wellFormed.exists_statement_of_opener identifies ends spaces opens whole
  have among : statement ∈ chart.statements := by simp [cut]
  refine ⟨statement, among, ?_⟩
  rw [← statement.wordRuns_line (wellFormed.statements statement among),
    Text.mem_wordRuns_iff]
  refine ⟨ne_nil_of_isIdentifier identifies, within, front,
    space ++ bracket :: right, by simp [lineEq], frontEnds, ?_⟩
  exact startsWithWord_space_append spaces
    (not_isWordCharacter_of_opensNode opens) right

/-- An identifier is unused exactly if no statement holds it as a word. -/
theorem WellFormed.isUnused_iff (wellFormed : chart.WellFormed)
    (identifies : isIdentifier id) :
    isUnused (nodeIds chart.render) chart.render id ↔
      ∀ statement ∈ chart.statements, id ∉ statement.words := by
  rw [isUnused_iff_not_mem, wellFormed.references_iff identifies]
  constructor
  · intro parts statement among member
    obtain ⟨_, notReferred⟩ := parts
    exact notReferred ⟨statement, among, member⟩
  · intro absent
    constructor
    · intro taken
      obtain ⟨statement, among, member⟩ :=
        wellFormed.exists_mem_words_of_mem_nodeIds identifies taken
      exact absent statement among member
    · intro parts
      obtain ⟨statement, among, member⟩ := parts
      exact absent statement among member

end Chart

end DiagramEdit
