import DiagramEdit.Edit
import DiagramEdit.Proofs.Direction
import DiagramEdit.Proofs.LineBreaks.Directive
import DiagramEdit.Proofs.Node.Rewriting
import DiagramEdit.Proofs.Text.Replacement

/-!
# Which edits keep the line breaks

In a text whose line feeds all stand behind carriage returns, three edits write
a bare line feed: one that appends a line, one that writes a directive anew in
front of another line, and one that writes an alias between the carriage return
and the line feed behind an empty one.  Every other edit keeps each line feed
behind its carriage return.
-/

namespace DiagramEdit

/-- The texts that an edit is given. -/
def Edit.arguments : Edit → List Text
  | .toggleDirection | .addNode => []
  | .relabel _ id old new => [id, old, new]
  | .updateLabel id label => [id, label]
  | .updateShape id _ => [id]
  | .setColor _ id color => id :: color.toList
  | .deleteNode id => [id]
  | .addEdge source target => [source, target]

/-- The first empty alias of a participant is followed by a line feed. -/
def NamesBeforeBreak (text : Text) : Prop :=
  ∃ found, (Pattern.aliasOfParticipant []).first? text = some found ∧
    found.stop.after.head? = some '\n'

/-- The edit writes a line feed of its own, or a character in front of one. -/
def Edit.WritesBareFeed (text : Text) : Edit → Prop
  | .relabel dialect _ old new =>
      dialect = .sequence ∧ old = [] ∧ new ≠ [] ∧ NamesBeforeBreak text
  | .setColor role id color =>
      (references text id && color.all isColor) = true ∧
        (RestylesInside role text id color ∨
          StylesFirst text id color ∧ Text.setsOff text)
  | .addEdge source target =>
      (isEndpoint source && isEndpoint target) = true ∧ Text.setsOff text
  | .addNode => Text.setsOff text
  | _ => False

theorem getLast?_append_ne {front text : Text} (nonempty : text ≠ [])
    (absent : '\r' ∉ text) :
    (front ++ text).getLast? ≠ some '\r' := by
  rw [List.getLast?_append_of_ne_nil _ nonempty]
  exact fun ends => absent (List.mem_of_getLast? ends)

namespace Text.BreaksReturned

variable {text edited id : Text}

theorem directionToggled (returned : BreaksReturned text)
    (toggled : DirectionToggled text edited) : BreaksReturned edited := by
  obtain ⟨before, direction, after, split, _, _, editedEq⟩ := toggled
  have plain : ∀ direction : Direction, direction.keyword ≠ [] ∧
      '\n' ∉ direction.keyword ∧ '\r' ∉ direction.keyword := by
    intro direction
    cases direction <;> decide
  obtain ⟨nonempty, _, absent⟩ := plain direction
  rw [split] at returned
  rw [editedEq]
  exact returned.replace (getLast?_append_ne nonempty absent)
    (plain direction.toggled).2.1

theorem toggleDirection (returned : BreaksReturned text) :
    BreaksReturned (DiagramEdit.toggleDirection text) := by
  rcases toggleDirection_eq_or_toggled text with same | toggled
  · rwa [same]
  · exact returned.directionToggled toggled

theorem replacedAfter {label replacement : Text} {shape : Shape}
    (returned : BreaksReturned text) (oneLine : '\n' ∉ replacement)
    (replaced : ReplacedAfter id (shape.wrap label) replacement text edited) :
    BreaksReturned edited := by
  obtain ⟨before, space, rest, _, _, split, editedEq⟩ := replaced
  rw [split] at returned
  rw [editedEq]
  refine returned.replace ?_ oneLine
  obtain ⟨opener, middle, closer, wrapEq, _, closes⟩ :=
    shape.exists_wrap_eq label
  rw [wrapEq, ← List.append_assoc, List.getLast?_concat]
  intro ends
  obtain rfl : closer = '\r' := Option.some.inj ends
  cases closes

theorem updateLabel (returned : BreaksReturned text) (id label : Text) :
    BreaksReturned (DiagramEdit.updateLabel text id label) := by
  cases found : findDefinition text id with
  | none => rwa [updateLabel_of_none found]
  | some node =>
      cases fits : labelFits label with
      | false => rwa [updateLabel_of_not_fits fits]
      | true =>
          exact returned.replacedAfter (not_lineFeed_mem_wrap _ fits)
            (updateLabel_replaces found fits)

theorem updateShape (returned : BreaksReturned text) (id : Text)
    (shape : Shape) :
    BreaksReturned (DiagramEdit.updateShape text id shape) := by
  cases found : findDefinition text id with
  | none => rwa [updateShape_of_none found]
  | some node =>
      rcases updateShape_eq_or_replaces found shape with same | ⟨fits, replaced⟩
      · rwa [same]
      · exact returned.replacedAfter (not_lineFeed_mem_wrap _ fits) replaced

theorem deleteNode (returned : BreaksReturned text) (id : Text) :
    BreaksReturned (DiagramEdit.deleteNode text id) := by
  cases blank : isBlank id with
  | true => rwa [DiagramEdit.deleteNode, if_pos blank]
  | false =>
      obtain ⟨header, statements, cut⟩ :=
        List.exists_cons_of_ne_nil (lines_ne_nil text)
      rw [DiagramEdit.deleteNode, if_neg (by simp [blank]), cut]
      rw [← joinLines_lines text, cut] at returned
      refine returned.of_sublist ?_ (List.filter_sublist.cons_cons header)
      exact fun line member => not_mem_of_mem_lines (cut ▸ member)

theorem replaceAll {old new : Text} (returned : BreaksReturned text)
    (nonempty : old ≠ []) (absent : '\r' ∉ old) (oneLine : '\n' ∉ new) :
    BreaksReturned (Text.replaceAll old new text) :=
  replaceAll_induction nonempty
    (fun _ _ holds =>
      holds.replace (getLast?_append_ne nonempty absent) oneLine) returned

/-- A label is not followed by a line feed, unless it is an empty alias. -/
theorem relabelDeclaration {dialect : Dialect} {old new : Text}
    (returned : BreaksReturned text) (absent : '\r' ∉ old)
    (oneLine : '\n' ∉ new)
    (changed : relabelDeclaration? text dialect id old new = some edited)
    (spared : ¬(dialect = .sequence ∧ old = [] ∧ NamesBeforeBreak text)) :
    BreaksReturned edited := by
  cases dialect with
  | sequence =>
      obtain ⟨found, searched, rfl⟩ := Option.map_eq_some_iff.mp changed
      obtain ⟨before, keyword, gap, rest, cuts, _⟩ :=
        Pattern.exists_of_aliasOfParticipant searched
      rw [cuts.text_eq] at returned
      rw [cuts.replace_eq]
      by_cases empty : old = []
      · subst empty
        apply returned.replace_of_head?_ne ?_ oneLine
        intro starts
        exact spared ⟨rfl, rfl, found, searched, by rw [cuts.rest_eq, starts]⟩
      · exact returned.replace (getLast?_append_ne empty absent) oneLine
  | states =>
      rcases (Option.orElse_eq_some _ _ _).mp changed with
        described | ⟨_, afterColon⟩
      · obtain ⟨found, searched, rfl⟩ := Option.map_eq_some_iff.mp described
        obtain ⟨before, space, rest, cuts, _⟩ :=
          Pattern.exists_of_labelOfState searched
        rw [cuts.text_eq] at returned
        rw [cuts.replace_eq]
        exact returned.replace_of_head?_ne (by simp) oneLine
      · obtain ⟨found, searched, rfl⟩ := Option.map_eq_some_iff.mp afterColon
        obtain ⟨before, blanks, rest, cuts, blank⟩ :=
          Pattern.exists_of_labelAfterColon searched
        rw [cuts.text_eq] at returned
        rw [cuts.replace_eq]
        -- In front of an empty label stands the colon or a blank.
        refine returned.replace ?_ oneLine
        rw [List.append_assoc, List.cons_append]
        intro ends
        have inside :=
          List.mem_of_getLast? (getLast?_of_append_cons ends (by decide))
        rcases List.mem_append.mp inside with inBlanks | inLabel
        · cases blank _ inBlanks
        · exact absent inLabel
  | _ => cases changed

end Text.BreaksReturned

/-- An alias in place of an empty one stands between the two characters of a
line break. -/
theorem not_breaksReturned_of_namesBeforeBreak {text new edited id : Text}
    (nonempty : new ≠ []) (absent : '\r' ∉ new) (names : NamesBeforeBreak text)
    (changed : relabelDeclaration? text .sequence id [] new = some edited) :
    ¬Text.BreaksReturned edited := by
  obtain ⟨found, searched, starts⟩ := names
  obtain ⟨before, keyword, gap, rest, cuts, _⟩ :=
    Pattern.exists_of_aliasOfParticipant searched
  have edits : edited = found.replace new := by
    rw [relabelDeclaration?, Pattern.replaceFirst?, searched] at changed
    exact (Option.some.inj changed).symm
  rw [cuts.rest_eq] at starts
  rw [edits, cuts.replace_eq]
  exact fun returned =>
    returned.head?_ne (getLast?_append_ne nonempty absent) starts

theorem breaksReturned_relabel_iff {text old new : Text}
    (returned : Text.BreaksReturned text) (dialect : Dialect) (id : Text)
    (oldLine : old.any isLineBreak = false)
    (newLine : new.any isLineBreak = false) :
    Text.BreaksReturned (relabel text dialect id old new) ↔
      ¬(dialect = .sequence ∧ old = [] ∧ new ≠ [] ∧ NamesBeforeBreak text) := by
  obtain ⟨_, oldAbsent⟩ := not_mem_of_not_any oldLine
  obtain ⟨oneLine, newAbsent⟩ := not_mem_of_not_any newLine
  cases accepted : old == new || new.any isLineBreak with
  | true =>
      rw [relabel_of_refused accepted]
      refine iff_of_true returned fun writes => ?_
      have same : old = new := by simpa [newLine] using accepted
      exact writes.2.2.1 (same ▸ writes.2.1)
  | false =>
      by_cases flowchart : dialect = .flowchart
      · rw [flowchart, relabel_flowchart accepted]
        exact iff_of_true (returned.updateLabel id new) (by simp)
      · cases changed : relabelDeclaration? text dialect id old new with
        | some edited =>
            rw [relabel_of_declared accepted changed]
            by_cases empty : dialect = .sequence ∧ old = [] ∧
              NamesBeforeBreak text
            · obtain ⟨rfl, rfl, names⟩ := empty
              have nonempty : new ≠ [] := by
                intro empty
                rw [empty] at accepted
                cases accepted
              refine iff_of_false ?_ (not_not_intro ⟨rfl, rfl, nonempty, names⟩)
              exact not_breaksReturned_of_namesBeforeBreak nonempty newAbsent
                names changed
            · refine iff_of_true ?_ fun writes =>
                empty ⟨writes.1, writes.2.1, writes.2.2.2⟩
              exact returned.relabelDeclaration oldAbsent oneLine changed empty
        | none =>
            rw [relabel_of_undeclared accepted flowchart changed]
            constructor
            · intro _ writes
              obtain ⟨rfl, rfl, _, found, searched, _⟩ := writes
              rw [relabelDeclaration?, Pattern.replaceFirst?, searched]
                at changed
              cases changed
            · intro _
              by_cases empty : old = []
              · rwa [if_pos empty]
              · rw [if_neg empty]
                exact returned.replaceAll empty oldAbsent oneLine

theorem breaksReturned_addNode_iff (text : Text) :
    Text.BreaksReturned (addNode text).text ↔ Text.setsOff text = false := by
  apply Text.breaksReturned_appendLine_iff
  · have indent : '\n' ∉ indentation := by decide
    simp only [List.mem_append, indent,
      not_lineFeed_mem_wrap .rect labelFits_newNodeLabel, or_self,
      not_lineFeed_mem_identifier (isIdentifier_numberedId _),
      not_false_eq_true]
  · have closing : Shape.rect.wrap newNodeLabel = "[New Node".toList ++ [']'] :=
      rfl
    rw [closing, ← List.append_assoc, List.getLast?_concat]
    decide

theorem breaksReturned_addEdge_iff {text source target : Text}
    (returned : Text.BreaksReturned text)
    (sourceLine : source.any isLineBreak = false)
    (targetLine : target.any isLineBreak = false) :
    Text.BreaksReturned (addEdge text source target) ↔
      ¬((isEndpoint source && isEndpoint target) = true ∧
        Text.setsOff text) := by
  by_cases endpoints : (isEndpoint source && isEndpoint target) = true
  · rw [addEdge, if_pos endpoints, Text.breaksReturned_appendLine_iff]
    · simp [endpoints]
    · have kept :
          ∀ {id : Text}, id.any isLineBreak = false → '\n' ∉ Text.trim id :=
        fun idLine member =>
          (not_mem_of_not_any idLine).1 (Text.mem_of_mem_trim member)
      have indent : '\n' ∉ indentation := by decide
      have arrow : '\n' ∉ " --> ".toList := by decide
      simp only [List.mem_append, indent, arrow, kept sourceLine,
        kept targetLine, or_self, not_false_eq_true]
    · have arrow : " --> ".toList = " -->".toList ++ [' '] := rfl
      rw [arrow, ← List.append_assoc, List.append_assoc, List.singleton_append]
      exact getLast?_append_cons_trim_ne _ (by decide) target
  · rw [addEdge, if_neg endpoints]
    exact iff_of_true returned fun writes => endpoints writes.1

/-- Exactly the edits that are said to write a bare line feed do. -/
theorem breaksReturned_apply_iff {text : Text}
    (returned : Text.BreaksReturned text) {edit : Edit}
    (oneLine : ∀ argument ∈ edit.arguments, argument.any isLineBreak = false) :
    Text.BreaksReturned (edit.apply text) ↔ ¬edit.WritesBareFeed text := by
  cases edit with
  | toggleDirection => exact iff_of_true returned.toggleDirection id
  | relabel dialect id old new =>
      exact breaksReturned_relabel_iff returned dialect id
        (oneLine old (by simp [Edit.arguments]))
        (oneLine new (by simp [Edit.arguments]))
  | updateLabel id label =>
      exact iff_of_true (returned.updateLabel id label) (·)
  | updateShape id shape =>
      exact iff_of_true (returned.updateShape id shape) (·)
  | setColor role id color =>
      exact breaksReturned_setColor_iff returned role color
        (oneLine id (by simp [Edit.arguments]))
  | deleteNode id => exact iff_of_true (returned.deleteNode id) (·)
  | addEdge source target =>
      exact breaksReturned_addEdge_iff returned
        (oneLine source (by simp [Edit.arguments]))
        (oneLine target (by simp [Edit.arguments]))
  | addNode =>
      rw [Edit.WritesBareFeed, Bool.not_eq_true]
      exact breaksReturned_addNode_iff text

/-- The directive that is written anew ends the text, so no line feed follows
it. -/
theorem breaksReturned_apply_iff_lastDirective :
    let text := "flowchart TD\r\n    A[Start]\r\n    style A fill:#000".toList
    let edit := Edit.setColor .fill "A".toList (some "red".toList)
    Text.BreaksReturned text ∧
      (∀ argument ∈ edit.arguments, argument.any isLineBreak = false) ∧
      edit.apply text =
        "flowchart TD\r\n    A[Start]\r\n    style A fill:red".toList ∧
      (Text.BreaksReturned (edit.apply text) ↔ ¬edit.WritesBareFeed text) := by
  intro text edit
  have returned : Text.BreaksReturned text := by decide +kernel
  have oneLine :
      ∀ argument ∈ edit.arguments, argument.any isLineBreak = false := by
    decide
  exact ⟨returned, oneLine, by decide +kernel,
    breaksReturned_apply_iff returned oneLine⟩

/-- An appended edge loses the carriage return of the line in front of it. -/
theorem not_breaksReturned_apply :
    ¬∀ (text : Text) (edit : Edit), '\n' ∈ text → Text.BreaksReturned text →
      (∀ argument ∈ edit.arguments, argument.any isLineBreak = false) →
      Text.BreaksReturned (edit.apply text) := by
  intro kept
  have returned := kept "flowchart TD\r\n    A[Start]\r\n".toList
    (.addEdge "A".toList "B".toList) (by decide) (by decide +kernel) (by decide)
  revert returned
  decide +kernel

end DiagramEdit
