import DiagramEdit.Proofs.Node.Harvest
import DiagramEdit.Proofs.Node.Replacement

/-!
# What a change of label lists

The brackets around a label keep its words apart from the rest of the text: no
word goes on over a bracket, and no white space in front of one.  So what a text
lists is what it lists on both sides of a label and inside of it.  A label that
fits holds no bracket, but it may hold `>`, which opens a node as well, so a
change of label lists at most the words in front of one.
-/

namespace DiagramEdit

section Parts

variable {text left right word before : Text}

theorem namesNode_iff :
    NamesNode text word before ↔
      word.head?.any startsIdentifier ∧
        (∀ character ∈ word, Text.isWordCharacter character) ∧
        Text.endsInWord before = false ∧
        ∃ space bracket rest,
          text = (before ++ word ++ space) ++ bracket :: rest ∧
            (∀ character ∈ space, Text.isSpace character) ∧
            opensNode bracket := by
  constructor
  · intro names
    obtain ⟨after, split, _, space, bracket, rest, afterEq, spaces, opens⟩ :=
      names.opens
    refine ⟨names.starts, names.within, names.apart, space, bracket, rest, ?_,
      spaces, opens⟩
    rw [split, afterEq, List.append_assoc _ space]
  · intro parts
    obtain ⟨starts, within, apart, space, bracket, rest, split, spaces,
      opens⟩ := parts
    refine ⟨starts, within, apart, space ++ bracket :: rest, ?_,
      startsWithWord_space_append spaces
        (not_isWordCharacter_of_opensNode opens) rest, space, bracket, rest,
      rfl, spaces, opens⟩
    rw [split, List.append_assoc _ space]

theorem NamesNode.append (names : NamesNode left word before) (right : Text) :
    NamesNode (left ++ right) word before := by
  obtain ⟨starts, within, apart, space, bracket, rest, split, spaces, opens⟩ :=
    namesNode_iff.mp names
  apply namesNode_iff.mpr
  refine ⟨starts, within, apart, space, bracket, rest ++ right, ?_, spaces,
    opens⟩
  rw [split, List.append_assoc, List.cons_append]

theorem NamesNode.behind (names : NamesNode right word before)
    (ends : Text.endsInWord left = false) :
    NamesNode (left ++ right) word (left ++ before) := by
  obtain ⟨starts, within, apart, space, bracket, rest, split, spaces, opens⟩ :=
    namesNode_iff.mp names
  apply namesNode_iff.mpr
  refine ⟨starts, within, ?_, space, bracket, rest, ?_, spaces, opens⟩
  · by_cases empty : before = []
    · rwa [empty, List.append_nil]
    · rwa [Text.endsInWord_append left empty]
  · simp only [split, List.append_assoc]

theorem endsInWord_of_endsInBracket (ends : left.getLast?.all isBracket) :
    Text.endsInWord left = false := by
  rw [Text.endsInWord]
  cases last : left.getLast? with
  | none => rfl
  | some character =>
      rw [last] at ends
      exact not_isWordCharacter_of_isBracket ends

/-- A text that ends in a bracket does not end inside of a word and white
space. -/
theorem exists_before_of_endsInBracket {space behind : Text}
    (ends : left.getLast?.all isBracket)
    (within : ∀ character ∈ word, Text.isWordCharacter character)
    (spaces : ∀ character ∈ space, Text.isSpace character)
    (split : before ++ word ++ space = left ++ behind) :
    ∃ front, before = left ++ front ∧ behind = front ++ word ++ space := by
  rw [List.append_assoc] at split
  rcases List.append_eq_append_iff.mp split with
    ⟨more, leftEq, tailEq⟩ | ⟨front, beforeEq, behindEq⟩
  · by_cases empty : more = []
    · refine ⟨[], ?_, ?_⟩
      · simpa [empty] using leftEq.symm
      · simpa [empty] using tailEq.symm
    · -- The last character of the text is a bracket in the word or in the
      -- white space.
      rw [leftEq, List.getLast?_append_of_ne_nil _ empty,
        List.getLast?_eq_some_getLast empty] at ends
      have bracket : isBracket (more.getLast empty) := ends
      have member : more.getLast empty ∈ word ++ space := by
        rw [tailEq]
        exact List.mem_append_left behind (List.getLast_mem empty)
      rcases List.mem_append.mp member with inWord | inSpace
      · rw [not_isBracket_of_isWordCharacter (within _ inWord)] at bracket
        cases bracket
      · rw [not_isBracket_of_isSpace (spaces _ inSpace)] at bracket
        cases bracket
  · refine ⟨front, beforeEq, ?_⟩
    rw [behindEq, List.append_assoc]

/-- A bracket keeps what is named on its two sides apart. -/
theorem NamesNode.cases_append (names : NamesNode (left ++ right) word before)
    (ends : left.getLast?.all isBracket) :
    NamesNode left word before ∨ ∃ front, NamesNode right word front := by
  obtain ⟨starts, within, apart, space, bracket, rest, split, spaces, opens⟩ :=
    namesNode_iff.mp names
  rcases Text.append_eq_append_cons_cases split with
    ⟨more, leftEq, _⟩ | ⟨behind, frontEq, rightEq⟩
  · left
    exact namesNode_iff.mpr
      ⟨starts, within, apart, space, bracket, more, leftEq, spaces, opens⟩
  · right
    obtain ⟨front, beforeEq, behindEq⟩ :=
      exists_before_of_endsInBracket ends within spaces frontEq
    refine ⟨front,
      namesNode_iff.mpr ⟨starts, within, ?_, space, bracket, rest,
        by rw [rightEq, behindEq], spaces, opens⟩⟩
    rw [beforeEq] at apart
    exact Text.endsInWord_right apart

theorem mem_nodeIds_append_iff (ends : left.getLast?.all isBracket) :
    word ∈ nodeIds (left ++ right) ↔
      word ∈ nodeIds left ∨ word ∈ nodeIds right := by
  simp only [mem_nodeIds_iff_namesNode, ← and_or_left]
  apply and_congr_right
  intro _
  constructor
  · intro parts
    obtain ⟨before, names⟩ := parts
    rcases names.cases_append ends with inLeft | inRight
    · exact Or.inl ⟨before, inLeft⟩
    · exact Or.inr inRight
  · intro parts
    rcases parts with ⟨before, inLeft⟩ | ⟨front, inRight⟩
    · exact ⟨before, inLeft.append right⟩
    · exact ⟨left ++ front, inRight.behind (endsInWord_of_endsInBracket ends)⟩

end Parts

section Wrapped

variable {left label rest word : Text} {shape : Shape}

theorem Shape.not_opensNode_of_mem_closing {character : Char}
    (member : character ∈ shape.closing) :
    opensNode character = false := by
  have table : shape.closing.all (!opensNode ·) := by cases shape <;> rfl
  simpa using List.all_eq_true.mp table character member

/-- The brackets that close a label open nothing. -/
theorem mem_nodeIds_append_closing_iff :
    word ∈ nodeIds (label ++ shape.closing) ↔ word ∈ nodeIds label := by
  simp only [mem_nodeIds_iff_namesNode]
  apply and_congr_right
  intro _
  constructor
  · intro parts
    obtain ⟨before, names⟩ := parts
    obtain ⟨starts, within, apart, space, bracket, rest, split, spaces,
      opens⟩ :=
      namesNode_iff.mp names
    rcases Text.append_eq_append_cons_cases split with
      ⟨more, labelEq, _⟩ | ⟨_, _, closingEq⟩
    · exact ⟨before, namesNode_iff.mpr
        ⟨starts, within, apart, space, bracket, more, labelEq, spaces, opens⟩⟩
    · have member : bracket ∈ shape.closing := by simp [closingEq]
      rw [Shape.not_opensNode_of_mem_closing member] at opens
      cases opens
  · intro parts
    obtain ⟨before, names⟩ := parts
    exact ⟨before, names.append shape.closing⟩

/-- What a text lists is listed in front of a wrapped label, in the label, or
behind it. -/
theorem mem_nodeIds_wrap_iff :
    word ∈ nodeIds (left ++ shape.wrap label ++ rest) ↔
      word ∈ nodeIds (left ++ shape.opening) ∨ word ∈ nodeIds label ∨
        word ∈ nodeIds rest := by
  obtain ⟨more, closer, closingEq, closes⟩ := shape.exists_closing_eq_concat
  have closed : (label ++ shape.closing).getLast?.all isBracket := by
    rw [closingEq, ← List.append_assoc, List.getLast?_concat]
    exact closes
  have opened : (left ++ shape.opening).getLast?.all isBracket := by
    have nonempty : shape.opening ≠ [] := by
      cases shape <;> exact List.cons_ne_nil _ _
    rw [List.getLast?_append_of_ne_nil _ nonempty,
      List.getLast?_eq_some_getLast nonempty]
    exact Shape.isBracket_of_mem_opening _ (List.getLast_mem nonempty)
  have cut : left ++ shape.wrap label ++ rest =
      (left ++ shape.opening) ++ ((label ++ shape.closing) ++ rest) := by
    simp [Shape.wrap]
  rw [cut, mem_nodeIds_append_iff opened, mem_nodeIds_append_iff closed,
    mem_nodeIds_append_closing_iff]

end Wrapped

/-- A word that begins like an identifier stands in the label in front of a
`>`. -/
def StandsBeforeAngle (label word : Text) : Prop :=
  word.head?.any startsIdentifier ∧
    (∀ character ∈ word, Text.isWordCharacter character) ∧
    ∃ before space rest, label = (before ++ word ++ space) ++ '>' :: rest ∧
      Text.endsInWord before = false ∧
      ∀ character ∈ space, Text.isSpace character

theorem isBracket_or_eq_of_opensNode {character : Char}
    (opens : opensNode character) :
    isBracket character ∨ character = '>' := by
  simp only [opensNode, Bool.or_eq_true, beq_iff_eq] at opens
  rcases opens with ((rfl | rfl) | rfl) | rfl
  · exact Or.inl rfl
  · exact Or.inl rfl
  · exact Or.inl rfl
  · exact Or.inr rfl

/-- In a label that fits, only `>` opens a node. -/
theorem standsBeforeAngle_of_mem_nodeIds {label word : Text}
    (fits : labelFits label) (listed : word ∈ nodeIds label) :
    StandsBeforeAngle label word := by
  obtain ⟨_, before, names⟩ := mem_nodeIds_iff_namesNode.mp listed
  obtain ⟨starts, within, apart, space, bracket, rest, split, spaces, opens⟩ :=
    namesNode_iff.mp names
  rcases isBracket_or_eq_of_opensNode opens with isBracket | rfl
  · rw [not_isBracket_of_labelFits fits (by simp [split])] at isBracket
    cases isBracket
  · exact ⟨starts, within, before, space, rest, split, apart, spaces⟩

section Update

variable {text id label : Text}

theorem exists_parts_of_updateLabel_ne
    (changed : updateLabel text id label ≠ text) :
    labelFits label ∧
      ∃ left shape old rest, text = left ++ Shape.wrap shape old ++ rest ∧
        updateLabel text id label = left ++ shape.wrap label ++ rest := by
  obtain ⟨node, found, differs, fits⟩ := updateLabel_ne_iff.mp changed
  obtain ⟨before, space, rest, replaces, _⟩ :=
    exists_replaces_updateLabel found differs fits
  exact ⟨fits, before ++ id ++ space, node.shape, node.label, rest,
    replaces.text_eq, replaces.edited_eq⟩

theorem mem_nodeIds_updateLabel {word : Text}
    (changed : updateLabel text id label ≠ text)
    (listed : word ∈ nodeIds (updateLabel text id label)) :
    word ∈ nodeIds text ∨ word ∈ nodeIds label := by
  obtain ⟨_, left, shape, old, rest, textEq, editedEq⟩ :=
    exists_parts_of_updateLabel_ne changed
  rw [editedEq, mem_nodeIds_wrap_iff] at listed
  rw [textEq, mem_nodeIds_wrap_iff]
  rcases listed with inFront | inLabel | behind
  · exact Or.inl (Or.inl inFront)
  · exact Or.inr inLabel
  · exact Or.inl (Or.inr (Or.inr behind))

theorem mem_nodeIds_updateLabel_of_mem_label {word : Text}
    (changed : updateLabel text id label ≠ text)
    (listed : word ∈ nodeIds label) :
    word ∈ nodeIds (updateLabel text id label) := by
  obtain ⟨_, left, shape, old, rest, _, editedEq⟩ :=
    exists_parts_of_updateLabel_ne changed
  rw [editedEq, mem_nodeIds_wrap_iff]
  exact Or.inr (Or.inl listed)

end Update

/-- A change of label lists no identifier that the text did not list, except for
words that stand in the label in front of a `>`.  It lists none at all exactly
if nothing is changed or the label by itself lists what the text does. -/
theorem nodeIds_updateLabel (text id label : Text) :
    (∀ word ∈ nodeIds (updateLabel text id label), word ∈ nodeIds text ∨
        StandsBeforeAngle label word) ∧
      ((∀ word ∈ nodeIds (updateLabel text id label), word ∈ nodeIds text) ↔
        updateLabel text id label = text ∨
          ∀ word ∈ nodeIds label, word ∈ nodeIds text) := by
  by_cases changed : updateLabel text id label = text
  · rw [changed]
    exact ⟨fun word listed => Or.inl listed, fun _ => Or.inl rfl,
      fun _ word listed => listed⟩
  · obtain ⟨fits, _⟩ := exists_parts_of_updateLabel_ne changed
    refine ⟨?_, ?_, ?_⟩
    · intro word listed
      rcases mem_nodeIds_updateLabel changed listed with before | inLabel
      · exact Or.inl before
      · exact Or.inr (standsBeforeAngle_of_mem_nodeIds fits inLabel)
    · intro kept
      right
      intro word inLabel
      exact kept word (mem_nodeIds_updateLabel_of_mem_label changed inLabel)
    · intro parts word listed
      obtain inText := parts.resolve_left changed
      rcases mem_nodeIds_updateLabel changed listed with before | inLabel
      · exact before
      · exact inText word inLabel

/-- A comparison in a label lists what stands on its left. -/
theorem not_nodeIds_updateLabel_subset :
    ¬∀ text id label word : Text, word ∈ nodeIds (updateLabel text id label) →
      word ∈ nodeIds text := by
  intro kept
  have before :
      nodeIds "flowchart TD\n    A[Start]\n".toList = ["A".toList] := by
    decide +kernel
  have listed :
      "x".toList ∈
        nodeIds (updateLabel "flowchart TD\n    A[Start]\n".toList "A".toList
          "x > y".toList) := by
    decide +kernel
  have member := kept _ _ _ _ listed
  rw [before] at member
  cases List.mem_singleton.mp member

end DiagramEdit
