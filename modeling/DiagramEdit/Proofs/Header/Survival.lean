import DiagramEdit.Edit
import DiagramEdit.Proofs.Direction
import DiagramEdit.Proofs.Header
import DiagramEdit.Proofs.Label
import DiagramEdit.Proofs.Node.Rewriting
import DiagramEdit.Proofs.Style

/-!
# The header of a flowchart survives its edits

No edit of a flowchart reaches into the opening of the text.  Labels and shapes
are written in brackets, of which an opening has none; a direction is a word of
its own; colours, edges and nodes concern the lines below the first one.  So the
text goes on beginning with the same characters, however often it is edited.
-/

namespace DiagramEdit

namespace Text

/-- A beginning on one line is a beginning of the first line. -/
theorem isPrefix_joinLines_cons_iff {opening : Text} (oneLine : '\n' ∉ opening)
    (header : Text) (rest : List Text) :
    opening <+: joinLines (header :: rest) ↔ opening <+: header := by
  cases rest with
  | nil => simp [joinLines_cons]
  | cons line rest =>
      rw [joinLines_cons, List.flatMap_cons, List.cons_append,
        isPrefix_append_cons_iff oneLine]

end Text

/-- A replacement in brackets behind an identifier leaves alone what holds no
bracket. -/
theorem ReplacedAfter.isPrefix_iff
    {opening id label newLabel text edited : Text} {shape newShape : Shape}
    (plain : ∀ character ∈ opening, isBracket character = false)
    (replaced : ReplacedAfter id (shape.wrap label) (newShape.wrap newLabel)
      text edited) :
    opening <+: edited ↔ opening <+: text := by
  have stops : ∀ (shape : Shape) (label before rest : Text),
      opening <+: before ++ shape.wrap label ++ rest ↔ opening <+: before := by
    intro shape label before rest
    obtain ⟨bracket, more, openingEq, opens⟩ := shape.exists_opening_eq_cons
    have absent : bracket ∉ opening := by
      intro member
      have impossible := plain bracket member
      rw [isBracket_of_opensLabel opens] at impossible
      cases impossible
    rw [Shape.wrap, openingEq, List.append_assoc, List.append_assoc,
      List.append_assoc, List.cons_append, Text.isPrefix_append_cons_iff absent]
  obtain ⟨before, space, rest, _, _, split, editedEq⟩ := replaced
  rw [split, editedEq, stops, stops]

namespace IsOpening

variable {dialect : Dialect} {opening text before rest : Text}

theorem isBracket_eq_false (opens : IsOpening dialect opening)
    {character : Char} (member : character ∈ opening) :
    isBracket character = false := by
  rw [Bool.eq_false_iff]
  intro bracket
  exact opens.not_mem_of_separates (not_isSpace_of_isBracket bracket)
    (not_isWordCharacter_of_isBracket bracket) member

/-- An opening reaches beyond the end of a word only if a keyword follows
there. -/
theorem isPrefix_of_boundary (opens : IsOpening dialect opening)
    (begins : opening <+: before ++ rest)
    (ends : Text.endsInWord before = false)
    (visible : rest.head?.all (!Text.isSpace ·))
    (other : ∀ word, (Text.lower word, dialect) ∈ headerKeywords →
      ¬word <+: rest) :
    opening <+: before := by
  obtain ⟨margin, word, rfl, spaces, entry⟩ := opens
  rcases Text.isPrefix_append_cases begins with inside | ⟨more, whole, follows⟩
  · exact inside
  · -- The boundary is in the margin, in front of the keyword, or inside of it.
    have beyond : before <+: margin ++ word := by
      rw [whole]
      exact List.prefix_append _ _
    rcases Text.isPrefix_append_cases beyond with
      inMargin | ⟨front, rfl, inWord⟩
    · obtain ⟨gap, rfl⟩ := inMargin
      rw [List.append_assoc] at whole
      rw [← List.append_cancel_left whole] at follows
      cases gap with
      | nil => exact absurd follows (other word entry)
      | cons space gap =>
          obtain ⟨further, rfl⟩ := follows
          have blank := spaces space (by simp)
          simp [blank] at visible
    · rcases List.eq_nil_or_concat front with rfl | ⟨front, last, rfl⟩
      · rw [List.append_nil] at whole
        rw [← List.append_cancel_left whole] at follows
        exact absurd follows (other word entry)
      · have inside : last ∈ word := inWord.subset (by simp)
        have isWord := isWordCharacter_of_mem_keyword entry inside
        rw [List.concat_eq_append, ← List.append_assoc, Text.endsInWord,
          List.getLast?_concat] at ends
        simp [isWord] at ends

theorem isPrefix_of_other_word (opens : IsOpening dialect opening)
    {other : Text} (begins : opening <+: before ++ (other ++ rest))
    (ends : Text.endsInWord before = false)
    (isWord : other.head?.any Text.isWordCharacter)
    (differs : ∀ keyword, (keyword, dialect) ∈ headerKeywords →
      keyword.head? ≠ (Text.lower other).head?) :
    opening <+: before := by
  obtain ⟨initial, more, rfl⟩ : ∃ initial more, other = initial :: more := by
    cases other with
    | nil => cases isWord
    | cons initial more => exact ⟨initial, more, rfl⟩
  refine opens.isPrefix_of_boundary begins ends ?_ ?_
  · simpa using Text.not_isSpace_of_isWordCharacter (by simpa using isWord)
  · intro word entry isPrefix
    obtain ⟨first, tail, rfl⟩ :=
      List.exists_cons_of_ne_nil (ne_nil_of_keyword entry)
    obtain ⟨rfl, _⟩ := List.cons_prefix_cons.mp isPrefix
    exact differs _ entry rfl

/-- A direction begins no keyword, so an opening ends in front of one. -/
theorem isPrefix_of_direction (opens : IsOpening dialect opening)
    {direction : Direction}
    (begins : opening <+: before ++ direction.keyword ++ rest)
    (ends : Text.endsInWord before = false) :
    opening <+: before := by
  have table : ∀ direction ∈ Direction.all, ∀ entry ∈ headerKeywords,
      entry.1.head? ≠ (Text.lower direction.keyword).head? := by decide
  have listed : direction ∈ Direction.all := by cases direction <;> decide
  rw [List.append_assoc] at begins
  exact opens.isPrefix_of_other_word begins ends (by cases direction <;> rfl)
    fun keyword entry => table direction listed _ entry

theorem isPrefix_toggleDirection (opens : IsOpening dialect opening)
    (begins : opening <+: text) :
    opening <+: toggleDirection text := by
  rcases toggleDirection_eq_or_toggled text with
    same | ⟨before, direction, after, split, ends, _, edited⟩
  · rw [same]
    exact begins
  · rw [split] at begins
    rw [edited, List.append_assoc]
    exact (opens.isPrefix_of_direction begins ends).trans
      (List.prefix_append _ _)

theorem isPrefix_appendLine (opens : IsOpening dialect opening)
    (begins : opening <+: text) (line : Text) :
    opening <+: Text.appendLine text line := by
  have visible : Text.isBlank text = false := by
    obtain ⟨rest, rfl⟩ := begins
    rw [Text.isBlank_append, opens.isBlank_eq_false, Bool.false_and]
  rw [Text.appendLine_eq visible, List.append_assoc]
  exact (Text.isPrefix_trimEnd opens.getLast?_visible begins).trans
    (List.prefix_append _ _)

theorem isPrefix_updateLabel_iff (opens : IsOpening dialect opening)
    (text id label : Text) :
    opening <+: updateLabel text id label ↔ opening <+: text := by
  cases found : findDefinition text id with
  | none => rw [updateLabel_of_none found]
  | some node =>
      cases fits : labelFits label with
      | false => rw [updateLabel_of_not_fits fits]
      | true =>
          exact (updateLabel_replaces found fits).isPrefix_iff
            fun _ member => opens.isBracket_eq_false member

theorem isPrefix_updateShape_iff (opens : IsOpening dialect opening)
    (text id : Text) (shape : Shape) :
    opening <+: updateShape text id shape ↔ opening <+: text := by
  cases found : findDefinition text id with
  | none => rw [updateShape_of_none found]
  | some node =>
      rcases updateShape_eq_or_replaces found shape with same | ⟨_, replaced⟩
      · rw [same]
      · exact replaced.isPrefix_iff fun _ member =>
          opens.isBracket_eq_false member

section FirstLine

variable {id : Text}

theorem isPrefix_deleteNode (oneLine : '\n' ∉ opening)
    (begins : opening <+: text) :
    opening <+: deleteNode text id := by
  obtain ⟨header, statements, cut⟩ :=
    List.exists_cons_of_ne_nil (Text.lines_ne_nil text)
  cases blank : Text.isBlank id with
  | true =>
      rw [deleteNode, if_pos blank]
      exact begins
  | false =>
      rw [← Text.joinLines_lines text, cut,
        Text.isPrefix_joinLines_cons_iff oneLine] at begins
      rw [deleteNode, if_neg (by simp [blank]), cut]
      exact (Text.isPrefix_joinLines_cons_iff oneLine header _).mpr begins

theorem isPrefix_setColor (opens : IsOpening dialect opening)
    (oneLine : '\n' ∉ opening) (begins : opening <+: text) (role : ColorRole)
    (color : Option Text) :
    opening <+: setColor role text id color := by
  rcases setColor_cases role text id color with
    same |
      ⟨_, header, statements, cut, ⟨edited, _, result⟩ | ⟨value, _, result⟩⟩
  · rw [same]
    exact begins
  · rw [← Text.joinLines_lines text, cut,
      Text.isPrefix_joinLines_cons_iff oneLine] at begins
    rw [result]
    exact (Text.isPrefix_joinLines_cons_iff oneLine header _).mpr begins
  · rw [result]
    exact opens.isPrefix_appendLine begins _

end FirstLine

end IsOpening

/-- An edit that a flowchart takes: any but a change of label in another
dialect. -/
def Edit.IsOfFlowchart : Edit → Prop
  | .relabel dialect _ _ _ => dialect = .flowchart
  | _ => True

/-- An edit of a flowchart keeps an opening on the first line, character by
character. -/
theorem IsOpening.isPrefix_apply {dialect : Dialect} {opening text : Text}
    (opens : IsOpening dialect opening) (oneLine : '\n' ∉ opening)
    (begins : opening <+: text) {edit : Edit} (taken : edit.IsOfFlowchart) :
    opening <+: edit.apply text := by
  cases edit with
  | toggleDirection => exact opens.isPrefix_toggleDirection begins
  | relabel dialect id old new =>
      obtain rfl : dialect = .flowchart := taken
      change opening <+: relabel text .flowchart id old new
      cases accepted : old == new || new.any isLineBreak with
      | true =>
          rw [relabel_of_refused accepted]
          exact begins
      | false =>
          rw [relabel_flowchart accepted]
          exact (opens.isPrefix_updateLabel_iff text id new).mpr begins
  | updateLabel id label =>
      exact (opens.isPrefix_updateLabel_iff text id label).mpr begins
  | updateShape id shape =>
      exact (opens.isPrefix_updateShape_iff text id shape).mpr begins
  | setColor role id color =>
      exact opens.isPrefix_setColor oneLine begins role color
  | deleteNode id => exact IsOpening.isPrefix_deleteNode oneLine begins
  | addEdge source target =>
      change opening <+: addEdge text source target
      rw [addEdge]
      by_cases endpoints : (isEndpoint source && isEndpoint target) = true
      · rw [if_pos endpoints]
        exact opens.isPrefix_appendLine begins _
      · rw [if_neg endpoints]
        exact begins
  | addNode => exact opens.isPrefix_appendLine begins _

theorem IsOpening.isPrefix_applyAll {dialect : Dialect} {opening text : Text}
    (opens : IsOpening dialect opening) (oneLine : '\n' ∉ opening)
    (begins : opening <+: text) {edits : List Edit}
    (taken : ∀ edit ∈ edits, edit.IsOfFlowchart) :
    opening <+: Edit.applyAll text edits := by
  induction edits generalizing text with
  | nil => exact begins
  | cons edit edits induction =>
      have stepped := opens.isPrefix_apply oneLine begins (taken edit (by simp))
      exact induction stepped fun later member => taken later (by simp [member])

/-- A text whose very first line is the header of a flowchart. -/
structure BeginsFlowchart (text : Text) : Prop where
  firstLine_visible : Text.isBlank (text.takeWhile (· != '\n')) = false
  header : isFlowchart text

theorem beginsFlowchart_iff {text : Text} :
    BeginsFlowchart text ↔
      ∃ opening, IsOpening .flowchart opening ∧ '\n' ∉ opening ∧
        opening <+: text := by
  constructor
  · intro flowchart
    obtain ⟨opening, opens, begins⟩ := isFlowchart_iff.mp flowchart.header
    refine ⟨opening, opens, ?_, begins⟩
    obtain ⟨margin, word, rfl, spaces, entry⟩ := opens
    have inFirstLine : margin <+: text.takeWhile (· != '\n') := by
      rcases List.prefix_or_prefix_of_prefix
        ((List.prefix_append margin word).trans begins)
        (List.takeWhile_prefix (· != '\n')) with
        inside | beyond
      · exact inside
      · have blank := Text.isBlank_of_spaces fun character member =>
          spaces character (beyond.subset member)
        rw [flowchart.firstLine_visible] at blank
        cases blank
    intro lineFeed
    rcases List.mem_append.mp lineFeed with inMargin | inWord
    · simpa using List.mem_takeWhile_imp (inFirstLine.subset inMargin)
    · have impossible := isWordCharacter_of_mem_keyword entry inWord
      rw [Text.isWordCharacter_lineFeed] at impossible
      cases impossible
  · intro parts
    obtain ⟨opening, opens, oneLine, begins⟩ := parts
    refine ⟨?_, isFlowchart_iff.mpr ⟨opening, opens, begins⟩⟩
    have inFirstLine : opening <+: text.takeWhile (· != '\n') := by
      apply Text.isPrefix_takeWhile ?_ begins
      intro character member
      rw [bne_iff_ne]
      intro lineFeed
      exact oneLine (lineFeed ▸ member)
    obtain ⟨rest, split⟩ := inFirstLine
    rw [← split, Text.isBlank_append, opens.isBlank_eq_false, Bool.false_and]

/-- However often a flowchart is edited, its first line remains the header of a
flowchart, and the text is read as one. -/
theorem beginsFlowchart_applyAll {text : Text} (begins : BeginsFlowchart text)
    {edits : List Edit} (taken : ∀ edit ∈ edits, edit.IsOfFlowchart) :
    BeginsFlowchart (Edit.applyAll text edits) ∧
      detect (Edit.applyAll text edits) = .flowchart := by
  obtain ⟨opening, opens, oneLine, isPrefix⟩ := beginsFlowchart_iff.mp begins
  have remains := opens.isPrefix_applyAll oneLine isPrefix taken
  exact ⟨beginsFlowchart_iff.mpr ⟨opening, opens, oneLine, remains⟩,
    detect_eq_of_isPrefix opens remains⟩

/-- The whole diagram is on the header line, labels reach over its end, and the
identifiers are words of the header. -/
theorem beginsFlowchart_applyAll_oneLine :
    BeginsFlowchart "  Graph[x] TD; TD\x7ba\n b\x7d --> Graph\n".toList ∧
      BeginsFlowchart
        "  Graph\x7bstop\x7d LR; TD\x7bc\x7d --> Graph\n    N1[New Node]\n".toList ∧
      detect
          "  Graph\x7bstop\x7d LR; TD\x7bc\x7d --> Graph\n    N1[New Node]\n".toList =
        .flowchart := by
  have begins :
      BeginsFlowchart "  Graph[x] TD; TD\x7ba\n b\x7d --> Graph\n".toList :=
    ⟨by decide, by decide +kernel⟩
  have taken :
      ∀ edit ∈ ([.updateLabel "TD".toList "c".toList, .deleteNode "TD".toList,
        .toggleDirection, .relabel .flowchart "Graph".toList [] "stop".toList,
        .updateShape "Graph".toList .diamond, .addNode] : List Edit),
        edit.IsOfFlowchart := by
    intro edit member
    simp only [List.mem_cons, List.not_mem_nil, or_false] at member
    rcases member with rfl | rfl | rfl | rfl | rfl | rfl
    · trivial
    · trivial
    · trivial
    · rfl
    · trivial
    · trivial
  have edited :
      Edit.applyAll "  Graph[x] TD; TD\x7ba\n b\x7d --> Graph\n".toList
          [.updateLabel "TD".toList "c".toList, .deleteNode "TD".toList,
            .toggleDirection,
            .relabel .flowchart "Graph".toList [] "stop".toList,
            .updateShape "Graph".toList .diamond, .addNode] =
        "  Graph\x7bstop\x7d LR; TD\x7bc\x7d --> Graph\n    N1[New Node]\n".toList := by
    decide +kernel
  refine ⟨begins, ?_⟩
  rw [← edited]
  exact beginsFlowchart_applyAll begins taken

end DiagramEdit
