import DiagramEdit.Proofs.Direction.Appending
import DiagramEdit.Proofs.Node.Appending
import DiagramEdit.Proofs.Node.Replacement

/-!
# Adding an edge

The line of an edge holds no bracket, and a definition ends in one.  So an edge
completes no definition that was left open, every place that can be read behind
it could be read before, and an edit of what was there may be made before the
edge is added or after it.
-/

namespace DiagramEdit

section Line

variable {text line id : Text}
  (plain : ∀ character ∈ line, isBracket character = false)

include plain

theorem wrap_isPrefix_appendLine_iff (front label : Text) (shape : Shape) :
    front ++ shape.wrap label <+: Text.appendLine text line ↔
      front ++ shape.wrap label <+: text := by
  obtain ⟨opener, middle, closer, wrapEq, _, closes⟩ :=
    shape.exists_wrap_eq label
  have absent : closer ∉ line := by
    intro member
    rw [plain closer member] at closes
    cases closes
  rw [wrapEq, ← List.append_assoc]
  exact Text.isPrefix_appendLine_iff (not_isSpace_of_isBracket closes) absent

theorem defines_appendLine_iff {shape : Shape} {before label : Text} :
    Defines (Text.appendLine text line) id shape before label ↔
      Defines text id shape before label := by
  constructor
  · intro defines
    obtain ⟨space, rest, split, spaces⟩ := defines.written
    have begins :
        before ++ id ++ space ++ shape.wrap label <+:
          Text.appendLine text line :=
      ⟨rest, split.symm⟩
    obtain ⟨behind, whole⟩ :=
      (wrap_isPrefix_appendLine_iff plain _ label shape).mp begins
    exact ⟨defines.apart, defines.admitted, space, behind, whole.symm, spaces⟩
  · intro defines
    exact defines.appendLine line

theorem findDefinition_appendLine :
    findDefinition (Text.appendLine text line) id = findDefinition text id :=
  findDefinition_congr fun _ _ _ => defines_appendLine_iff plain

theorem isDirect_appendLine_iff {shape : Shape} {before label : Text} :
    IsDirect (Text.appendLine text line) id (shape.wrap label) before ↔
      IsDirect text id (shape.wrap label) before := by
  constructor
  · intro direct
    exact ⟨direct.apart,
      (wrap_isPrefix_appendLine_iff plain _ label shape).mp direct.isPrefix⟩
  · intro direct
    exact ⟨direct.apart,
      (wrap_isPrefix_appendLine_iff plain _ label shape).mpr direct.isPrefix⟩

theorem isSpaced_appendLine_iff {shape : Shape} {before label : Text} :
    IsSpaced (Text.appendLine text line) id (shape.wrap label) before ↔
      IsSpaced text id (shape.wrap label) before := by
  constructor
  · intro spaced
    obtain ⟨space, spaces, begins⟩ := spaced.isPrefix
    exact ⟨spaced.apart, space, spaces,
      (wrap_isPrefix_appendLine_iff plain _ label shape).mp begins⟩
  · intro spaced
    obtain ⟨space, spaces, begins⟩ := spaced.isPrefix
    exact ⟨spaced.apart, space, spaces,
      (wrap_isPrefix_appendLine_iff plain _ label shape).mpr begins⟩

theorem isPreferred_appendLine_iff {shape : Shape} {before label space : Text} :
    IsPreferred (Text.appendLine text line) id (shape.wrap label) before space ↔
      IsPreferred text id (shape.wrap label) before space := by
  simp only [IsPreferred, isDirect_appendLine_iff plain,
    isSpaced_appendLine_iff plain]

end Line

section Replaced

variable {text edited id before space rest label : Text} {shape : Shape}
  {replacement : Text}

theorem Replaces.isSpaced {written : Text}
    (replaces : Replaces text edited id written replacement before space rest) :
    IsSpaced text id written before :=
  ⟨replaces.apart, space, replaces.spaces, rest, replaces.text_eq.symm⟩

/-- What is replaced in a text is replaced in the same way with a line behind
it. -/
theorem Replaces.appendLine {newShape : Shape} {newLabel : Text}
    (replaces : Replaces text edited id (shape.wrap label)
      (newShape.wrap newLabel) before space rest) (line : Text) :
    Replaces (Text.appendLine text line) (Text.appendLine edited line) id
      (shape.wrap label) (newShape.wrap newLabel) before space
      (Text.trimEnd rest ++ '\n' :: line ++ Text.finalBreak rest) := by
  have ends : ∀ (front written : Text) (other : Shape),
      (front ++ other.wrap written).getLast?.any (!Text.isSpace ·) := by
    intro front written other
    obtain ⟨opener, middle, closer, wrapEq, _, closes⟩ :=
      other.exists_wrap_eq written
    rw [wrapEq, ← List.append_assoc, List.getLast?_concat]
    simp [not_isSpace_of_isBracket closes]
  refine ⟨replaces.apart, replaces.spaces, ?_, ?_⟩
  · rw [replaces.text_eq, Text.appendLine_append (ends _ _ _)]
  · rw [replaces.edited_eq, Text.appendLine_append (ends _ _ _)]

/-- The preferred place is one place, so what is replaced there has one
result. -/
theorem Replaces.edited_unique {other before' space' rest' : Text}
    (replaces :
      Replaces text edited id (shape.wrap label) replacement before space rest)
    (preferred : IsPreferred text id (shape.wrap label) before space)
    (replaces' : Replaces text other id (shape.wrap label) replacement before'
      space' rest')
    (preferred' : IsPreferred text id (shape.wrap label) before' space') :
    edited = other := by
  have lengths : before.length = before'.length := by
    rcases preferred with ⟨rfl, leftmost⟩ | ⟨absent, leftmost⟩
    · rcases preferred' with ⟨rfl, leftmost'⟩ | ⟨absent', _⟩
      · exact Nat.le_antisymm (leftmost before' replaces'.isDirect)
          (leftmost' before replaces.isDirect)
      · exact absurd replaces.isDirect (absent' before)
    · rcases preferred' with ⟨rfl, _⟩ | ⟨_, leftmost'⟩
      · exact absurd replaces'.isDirect (absent before')
      · exact Nat.le_antisymm (leftmost before' replaces'.isSpaced)
          (leftmost' before replaces.isSpaced)
  have cuts : before ++ (id ++ (space ++ (shape.wrap label ++ rest))) =
      before' ++ (id ++ (space' ++ (shape.wrap label ++ rest'))) := by
    simpa only [List.append_assoc]
      using replaces.text_eq.symm.trans replaces'.text_eq
  obtain ⟨rfl, behind⟩ := List.append_inj cuts lengths
  obtain ⟨rfl, wraps⟩ :=
    Pattern.eq_of_append_eq_append_of_stops (List.append_cancel_left behind)
      replaces.spaces replaces'.spaces (head?_wrap_all shape label rest)
      (head?_wrap_all shape label rest')
  rw [replaces.edited_eq, replaces'.edited_eq, List.append_cancel_left wraps]

end Replaced

section Update

variable {line : Text} (plain : ∀ character ∈ line, isBracket character = false)
  (text id : Text)

include plain

theorem updateLabel_appendLine (label : Text) :
    updateLabel (Text.appendLine text line) id label =
      Text.appendLine (updateLabel text id label) line := by
  have same :
      findDefinition (Text.appendLine text line) id = findDefinition text id :=
    findDefinition_appendLine plain
  cases found : findDefinition text id with
  | none =>
      rw [updateLabel_of_none found, updateLabel_of_none (same.trans found)]
  | some node =>
      have found' := same.trans found
      by_cases unchanged : node.label = label
      · rw [← unchanged, updateLabel_of_same found, updateLabel_of_same found']
      cases fits : labelFits label with
      | false => rw [updateLabel_of_not_fits fits, updateLabel_of_not_fits fits]
      | true =>
          obtain ⟨_, _, _, replaces, preferred⟩ :=
            exists_replaces_updateLabel found unchanged fits
          obtain ⟨_, _, _, replaces', preferred'⟩ :=
            exists_replaces_updateLabel found' unchanged fits
          exact replaces'.edited_unique preferred' (replaces.appendLine line)
            ((isPreferred_appendLine_iff plain).mpr preferred)

theorem updateShape_appendLine (shape : Shape) :
    updateShape (Text.appendLine text line) id shape =
      Text.appendLine (updateShape text id shape) line := by
  have same :
      findDefinition (Text.appendLine text line) id = findDefinition text id :=
    findDefinition_appendLine plain
  cases found : findDefinition text id with
  | none =>
      rw [updateShape_of_none found, updateShape_of_none (same.trans found)]
  | some node =>
      have found' := same.trans found
      by_cases unchanged : node.shape = shape
      · rw [updateShape_of_refused found (Or.inl unchanged),
          updateShape_of_refused found' (Or.inl unchanged)]
      cases fits : labelFits node.label with
      | false =>
          rw [updateShape_of_refused found (Or.inr fits),
            updateShape_of_refused found' (Or.inr fits)]
      | true =>
          rcases updateShape_cases found unchanged fits with
            ⟨kept, absent⟩ | ⟨before, _, replaces, preferred⟩
          · rcases updateShape_cases found' unchanged fits with
              ⟨kept', _⟩ | ⟨before', _, replaces', _⟩
            · rw [kept, kept']
            · exact absurd
                ((isDirect_appendLine_iff plain).mp replaces'.isDirect)
                (absent before')
          · rcases updateShape_cases found' unchanged fits with
              ⟨_, absent'⟩ | ⟨_, _, replaces', preferred'⟩
            · exact absurd
                ((isDirect_appendLine_iff plain).mpr replaces.isDirect)
                (absent' before)
            · exact replaces'.edited_unique preferred'
                (replaces.appendLine line)
                ((isPreferred_appendLine_iff plain).mpr preferred)

end Update

theorem addEdge_eq_or_appendLine {source target : Text}
    (plainSource : ∀ character ∈ source, isBracket character = false)
    (plainTarget : ∀ character ∈ target, isBracket character = false) :
    (∀ text, addEdge text source target = text) ∨
      ∃ line, (∀ character ∈ line, isBracket character = false) ∧
        ∀ text, addEdge text source target = Text.appendLine text line := by
  cases written : isEndpoint source && isEndpoint target with
  | false =>
      left
      intro text
      rw [addEdge, if_neg (by simp [written])]
  | true =>
      right
      refine ⟨_, ?_, fun text => if_pos written⟩
      have arrow : " --> ".toList.all (!isBracket ·) := by decide
      intro character member
      simp only [List.mem_append] at member
      rcases member with ((inIndentation | inSource) | inArrow) | inTarget
      · exact not_isBracket_of_mem_indentation inIndentation
      · exact plainSource character (Text.mem_of_mem_trim inSource)
      · simpa using List.all_eq_true.mp arrow character inArrow
      · exact plainTarget character (Text.mem_of_mem_trim inTarget)

/-- What is appended disturbs nothing.  With an edge between endpoints without
brackets the same definitions are found, and changes of label, shape and
direction have the same effect before and after it.  A new node adds a
definition of its own and changes no other. -/
theorem addEdge_addNode_disturb_nothing {source target : Text}
    (plainSource : ∀ character ∈ source, isBracket character = false)
    (plainTarget : ∀ character ∈ target, isBracket character = false)
    (text : Text) :
    (∀ id,
        findDefinition (addEdge text source target) id =
          findDefinition text id) ∧
      (∀ id label,
        updateLabel (addEdge text source target) id label =
          addEdge (updateLabel text id label) source target) ∧
      (∀ id shape,
        updateShape (addEdge text source target) id shape =
          addEdge (updateShape text id shape) source target) ∧
      (Text.isBlank text = false →
        toggleDirection (addEdge text source target) =
          addEdge (toggleDirection text) source target) ∧
      ∀ id, (∀ character ∈ id, Text.isSpace character = false) →
        id ≠ (addNode text).id →
        findDefinition (addNode text).text id = findDefinition text id := by
  have newNode : ∀ id, (∀ character ∈ id, Text.isSpace character = false) →
      id ≠ (addNode text).id →
      findDefinition (addNode text).text id = findDefinition text id :=
    fun _ solid different => findDefinition_addNode_of_ne text solid different
  rcases addEdge_eq_or_appendLine plainSource plainTarget with
    same | ⟨line, plain, appended⟩
  · refine ⟨fun id => ?_, fun id label => ?_, fun id shape => ?_, fun _ => ?_,
      newNode⟩
    · rw [same]
    · rw [same, same]
    · rw [same, same]
    · rw [same, same]
  · simp only [appended]
    exact ⟨fun _ => findDefinition_appendLine plain,
      updateLabel_appendLine plain text, updateShape_appendLine plain text,
      fun visible => toggleDirection_appendLine visible line, newNode⟩

/-- A text that ends in an open label and in white space. -/
def unclosedLabel : Text :=
  "graph TD\n    A[a] --> B\x7bb\n  C ( \t\n\n".toList

theorem addEdge_addNode_disturb_nothing_unclosed :
    (∀ character ∈ "B".toList, isBracket character = false) ∧
      (∀ character ∈ " C\t".toList, isBracket character = false) ∧
      Text.isBlank unclosedLabel = false ∧ ['A'] ≠ (addNode unclosedLabel).id ∧
      updateLabel (addEdge unclosedLabel "B".toList " C\t".toList) ['A']
          "z".toList =
        "graph TD\n    A[z] --> B\x7bb\n  C (\n    B --> C\n".toList ∧
      findDefinition (addNode unclosedLabel).text ['A'] =
        some ⟨['A'], ['a'], .rect⟩ := by
  have source : ∀ character ∈ "B".toList, isBracket character = false := by
    simp [isBracket]
  have target : ∀ character ∈ " C\t".toList, isBracket character = false := by
    simp [isBracket]
  have solid : ∀ character ∈ ['A'], Text.isSpace character = false := by
    simp [Text.isSpace]
  have different : ['A'] ≠ (addNode unclosedLabel).id := by decide +kernel
  obtain ⟨_, labels, _, _, nodes⟩ :=
    addEdge_addNode_disturb_nothing source target unclosedLabel
  refine ⟨source, target, by decide, different, ?_, ?_⟩
  · rw [labels]
    decide +kernel
  · rw [nodes ['A'] solid different]
    decide +kernel

end DiagramEdit
