import DiagramEdit.Proofs.Node.Harvest
import DiagramEdit.Proofs.Node.Precedence
import DiagramEdit.Proofs.Text.Appending

/-!
# What an appended line changes

Whatever is defined, listed or referred to in a text is so after a line has been
appended.  The line of a new node adds one definition, that of the node: its
brackets close no label that was left open, because such a label cannot hold the
bracket that opens them.
-/

namespace DiagramEdit

section Kept

variable {text : Text}

theorem NamesNode.appendLine {word before : Text}
    (names : NamesNode text word before) (line : Text) :
    NamesNode (Text.appendLine text line) word before := by
  obtain ⟨after, split, _, space, bracket, rest, afterEq, spaces, opens⟩ :=
    names.opens
  have cut : text = (before ++ word ++ space) ++ bracket :: rest := by
    rw [split, afterEq, List.append_assoc _ space]
  obtain ⟨more, behind, _, appended⟩ :=
    Text.exists_appendLine_eq_append_cons (not_isSpace_of_opensNode opens) cut
      line
  refine ⟨names.starts, names.within, names.apart,
    space ++ bracket :: (more ++ '\n' :: behind), ?_,
    startsWithWord_space_append spaces (not_isWordCharacter_of_opensNode opens)
      _, space, bracket, _, rfl, spaces, opens⟩
  rw [appended]
  simp

theorem mem_nodeIds_appendLine {id : Text} (listed : id ∈ nodeIds text)
    (line : Text) :
    id ∈ nodeIds (Text.appendLine text line) := by
  obtain ⟨unreserved, before, names⟩ := mem_nodeIds_iff_namesNode.mp listed
  exact mem_nodeIds_iff_namesNode.mpr
    ⟨unreserved, before, names.appendLine line⟩

theorem references_appendLine {id : Text} (identifies : isIdentifier id)
    (mentioned : references text id) (line : Text) :
    references (Text.appendLine text line) id := by
  obtain ⟨before, after, split, below, ends, stops⟩ :=
    (references_iff_cut identifies).mp mentioned
  obtain ⟨front, last, idEq⟩ := List.eq_nil_or_concat id |>.resolve_left
    (ne_nil_of_isIdentifier identifies)
  rw [List.concat_eq_append] at idEq
  have inside : last ∈ id := by simp [idEq]
  have cut : text = before ++ front ++ last :: after := by
    rw [split, idEq]
    simp
  obtain ⟨more, behind, isPrefix, appended⟩ :=
    Text.exists_appendLine_eq_append_cons
      (not_isSpace_of_mem_identifier identifies inside) cut line
  refine (references_iff_cut identifies).mpr ⟨before, more ++ '\n' :: behind,
    ?_, below, ends, Text.startsWithWord_of_isPrefix_append stops isPrefix⟩
  rw [appended, idEq]
  simp

theorem Defines.appendLine {id before label : Text} {shape : Shape}
    (defines : Defines text id shape before label) (line : Text) :
    Defines (Text.appendLine text line) id shape before label := by
  obtain ⟨space, rest, split, spaces⟩ := defines.written
  obtain ⟨opener, middle, closer, wrapEq, _, closes⟩ :=
    shape.exists_wrap_eq label
  have cut :
      text = before ++ id ++ space ++ opener :: middle ++ closer :: rest := by
    rw [split, wrapEq]
    simp
  obtain ⟨more, behind, _, appended⟩ :=
    Text.exists_appendLine_eq_append_cons (not_isSpace_of_isBracket closes) cut
      line
  refine ⟨defines.apart, defines.admitted, space, more ++ '\n' :: behind, ?_,
    spaces⟩
  rw [appended, wrapEq]
  simp

end Kept

section NodeLine

variable {new : Text}

theorem nodeLine_closing (identifies : isIdentifier new) {left right : Text}
    {closer : Char} (bracket : isBracket closer)
    (closes : opensLabel closer = false)
    (split : nodeLine new = left ++ closer :: right) :
    left = indentation ++ new ++ '[' :: newNodeLabel ∧ closer = ']' := by
  have plain : ∀ {part : Text},
      (∀ character ∈ part, isBracket character = false) → closer ∉ part := by
    intro part none member
    rw [none closer member] at bracket
    cases bracket
  have outside : closer ∉ indentation ++ new := by
    rw [List.mem_append, not_or]
    exact ⟨plain fun _ => not_isBracket_of_mem_indentation,
      plain fun _ => not_isBracket_of_mem_identifier identifies⟩
  obtain ⟨more, leftEq, wrapEq⟩ := exists_eq_append_of_not_mem outside split
  cases more with
  | nil =>
      obtain ⟨rfl, _⟩ := List.cons.inj wrapEq
      cases closes
  | cons opener more =>
      obtain ⟨rfl, restEq⟩ := List.cons.inj wrapEq
      have notInLabel : closer ∉ newNodeLabel :=
        plain fun _ => not_isBracket_of_labelFits labelFits_newNodeLabel
      obtain ⟨beyond, moreEq, endEq⟩ :=
        exists_eq_append_of_not_mem notInLabel restEq
      cases beyond with
      | nil =>
          obtain ⟨rfl, _⟩ := List.cons.inj endEq
          exact ⟨by rw [leftEq, moreEq, List.append_nil], rfl⟩
      | cons _ beyond => simp [Shape.closing] at endEq

theorem Shape.eq_rect_of_closing {shape : Shape} {front left : Text}
    {last : Char} (plain : isBracket last = false)
    (ends : front ++ shape.closing = left ++ [last, ']']) :
    shape = .rect := by
  have reversed := congrArg List.reverse ends
  rw [List.reverse_append, List.reverse_append] at reversed
  cases shape with
  | rect => rfl
  | round | stadium | circle | diamond | hexagon => simp [closing] at reversed
  | subroutine | cylinder =>
      simp only [closing, List.reverse_cons, List.reverse_nil, List.nil_append,
        List.cons_append, List.cons.injEq, true_and] at reversed
      rw [← reversed.1] at plain
      cases plain

/-- An identifier without white space that ends where the identifier of a new
node does is that identifier. -/
theorem eq_of_nodeLine_front (identifies : isIdentifier new)
    {id before base : Text} (nonempty : id ≠ [])
    (solid : ∀ character ∈ id, Text.isSpace character = false)
    (apart : standsApart before id) (indented : base.getLast?.any Text.isSpace)
    (fronts : before ++ id = base ++ new) :
    id = new ∧ before = base := by
  rcases List.append_eq_append_iff.mp fronts with
    ⟨more, baseEq, idEq⟩ | ⟨more, beforeEq, newEq⟩
  · rcases List.eq_nil_or_concat more with rfl | ⟨more, last, rfl⟩
    · exact ⟨idEq, by rw [baseEq, List.append_nil]⟩
    · -- Then the white space in front of the new node is in the identifier.
      rw [baseEq, List.concat_eq_append, ← List.append_assoc,
        List.getLast?_concat] at indented
      have blank : Text.isSpace last := by simpa using indented
      rw [solid last (by simp [idEq])] at blank
      cases blank
  · obtain ⟨initial, rest, rfl⟩ := List.exists_cons_of_ne_nil nonempty
    have ascii : Text.isAsciiWord initial :=
      isAsciiWord_of_mem_identifier identifies (by simp [newEq])
    have boundary : Text.endsInWord before = false := by
      simpa [standsApart, Text.isNameCharacter_of_isAsciiWord ascii,
        Text.isWordCharacter_of_isAsciiWord ascii] using apart
    by_cases empty : more = []
    · exact ⟨by simp [newEq, empty], by rw [beforeEq, empty, List.append_nil]⟩
    · have word : ∀ character ∈ more, Text.isWordCharacter character :=
        fun character member =>
          isWordCharacter_of_mem_identifier identifies (by simp [newEq, member])
      rw [beforeEq, Text.endsInWord_append base empty,
        Text.endsInWord_of_word empty word] at boundary
      cases boundary

theorem written_of_nodeLine (identifies : isIdentifier new)
    {id before space base label : Text} {shape : Shape} (nonempty : id ≠ [])
    (solid : ∀ character ∈ id, Text.isSpace character = false)
    (apart : standsApart before id) (indented : base.getLast?.any Text.isSpace)
    (admitted : shape.Admits label)
    (spaces : ∀ character ∈ space, Text.isSpace character)
    (written : before ++ id ++ space ++ shape.wrap label =
      base ++ new ++ Shape.rect.wrap newNodeLabel) :
    id = new ∧ shape = .rect ∧ label = newNodeLabel ∧ before = base := by
  have isRect : shape = .rect := by
    have ends :
        before ++ id ++ space ++ (shape.opening ++ label) ++ shape.closing =
          base ++ new ++ "[New Nod".toList ++ ['e', ']'] := by
      have newEnds :
          Shape.rect.wrap newNodeLabel = "[New Nod".toList ++ ['e', ']'] :=
        rfl
      rw [newEnds, Shape.wrap] at written
      simpa only [List.append_assoc] using written
    exact Shape.eq_rect_of_closing (by decide) ends
  subst isRect
  rw [Shape.Admits, if_neg (by decide)] at admitted
  have opened : (before ++ id ++ space) ++ '[' :: (label ++ [']']) =
      (base ++ new) ++ '[' :: (newNodeLabel ++ [']']) := by
    simpa [Shape.wrap, Shape.opening, Shape.closing] using written
  have noOpening : '[' ∉ label ++ [']'] := by
    intro member
    rcases List.mem_append.mp member with inLabel | inClosing
    · exact (admitted '[' inLabel).1 (by decide)
    · cases List.mem_singleton.mp inClosing
  have labels :=
    Text.eq_of_append_cons_eq_append_cons noOpening (by decide) opened
  obtain ⟨labelEq, _⟩ := List.append_inj' labels rfl
  rw [labels] at opened
  have fronts := List.append_cancel_right opened
  have ends : Text.endsInWord (before ++ id ++ space) = true := by
    rw [fronts]
    exact endsInWord_identifier identifies base
  have noSpace : space = [] := by
    by_contra spaced
    rw [Text.endsInWord_append_space _ spaced spaces] at ends
    cases ends
  rw [noSpace, List.append_nil] at fronts
  obtain ⟨idEq, beforeEq⟩ :=
    eq_of_nodeLine_front identifies nonempty solid apart indented fronts
  exact ⟨idEq, rfl, labelEq, beforeEq⟩

theorem isSpace_nodeLead (text : Text) :
    (Text.trimEnd text ++ Text.lineLead text ++ indentation).getLast?.any
      Text.isSpace := by
  rw [List.getLast?_append_of_ne_nil _ (by decide)]
  decide

/-- The line of a new node adds the definition of that node and no other one. -/
theorem defines_appendLine_nodeLine_iff (identifies : isIdentifier new)
    {text id before label : Text} {shape : Shape} (nonempty : id ≠ [])
    (solid : ∀ character ∈ id, Text.isSpace character = false) :
    Defines (Text.appendLine text (nodeLine new)) id shape before label ↔
      Defines text id shape before label ∨
        id = new ∧ shape = .rect ∧ label = newNodeLabel ∧
          before = Text.trimEnd text ++ Text.lineLead text ++ indentation := by
  constructor
  · intro defines
    obtain ⟨space, rest, split, spaces⟩ := defines.written
    obtain ⟨opening, closer, closingEq, closes⟩ :=
      shape.exists_closing_eq_concat
    have wrapEq :
        shape.wrap label = shape.opening ++ label ++ opening ++ [closer] := by
      rw [Shape.wrap, closingEq, List.append_assoc _ opening]
    have cut : Text.appendLine text (nodeLine new) =
        (before ++ id ++ space ++ (shape.opening ++ label ++ opening)) ++
          closer :: rest := by
      rw [split, wrapEq]
      simp
    rcases Text.appendLine_eq_append_cons (not_isSpace_of_isBracket closes)
      cut with
      ⟨more, whole⟩ | ⟨left, right, lineEq, frontEq⟩
    · left
      refine ⟨defines.apart, defines.admitted, space, more, ?_, spaces⟩
      rw [whole, wrapEq]
      simp
    · right
      have inClosing : closer ∈ shape.closing := by simp [closingEq]
      obtain ⟨leftEq, closerEq⟩ := nodeLine_closing identifies closes
        (Shape.not_opensLabel_of_mem_closing inClosing) lineEq
      apply written_of_nodeLine identifies nonempty solid defines.apart
        (isSpace_nodeLead text) defines.admitted spaces
      rw [wrapEq, ← List.append_assoc _ _ [closer], frontEq, leftEq, closerEq]
      simp [Shape.wrap, Shape.opening, Shape.closing]
  · intro cases_of_definition
    rcases cases_of_definition with defines | ⟨rfl, rfl, rfl, rfl⟩
    · exact defines.appendLine _
    · have apart :=
        (standsApart_iff identifies _).mpr (Text.endsInWord_append_space
          (Text.trimEnd text ++ Text.lineLead text) (by decide)
          isSpace_of_mem_indentation)
      have cut : Text.appendLine text (nodeLine id) =
          Text.trimEnd text ++ Text.lineLead text ++ indentation ++ id ++ [] ++
            Shape.rect.wrap newNodeLabel ++ Text.finalBreak text := by
        rw [Text.appendLine_eq_append, nodeLine]
        simp
      rw [cut]
      exact (definesShortest_of_wrap apart (by simp) labelFits_newNodeLabel
        _).defines

end NodeLine

theorem findDefinition_congr {text text' id : Text}
    (same : ∀ shape before label, Defines text id shape before label ↔
      Defines text' id shape before label) :
    findDefinition text id = findDefinition text' id := by
  by_cases empty : id = []
  · rw [empty]
    rfl
  have searches : ∀ shape : Shape, (Pattern.definition id shape).first? text =
      (Pattern.definition id shape).first? text' := by
    intro shape
    apply Option.ext
    intro label
    rw [Pattern.first?_definition_eq_some_iff,
      Pattern.first?_definition_eq_some_iff]
    simp only [DefinesFirst, definesShortest_iff, same]
  rw [findDefinition_eq empty, findDefinition_eq empty]
  simp only [searches]

section NewNode

variable (text : Text)

theorem not_hasSite_addNode (shape : Shape) :
    ¬HasSite text (addNode text).id shape := by
  intro written
  have identifies := isIdentifier_addNode text
  obtain ⟨node, found, _⟩ :=
    exists_found_of_hasSite (ne_nil_of_isIdentifier identifies) written
  have listed := mem_nodeIds_of_findDefinition found
    (isWordIdentifier_of_isIdentifier identifies) (isReserved_numberedId _)
  exact (isUnused_iff_not_mem.mp (isUnused_addNode text)).1 listed

/-- A new node is found as a rectangle with the label of new nodes. -/
theorem findDefinition_addNode :
    findDefinition (addNode text).text (addNode text).id =
      some ⟨(addNode text).id, newNodeLabel, .rect⟩ := by
  have identifies := isIdentifier_addNode text
  have defines_iff : ∀ shape before label,
      Defines (addNode text).text (addNode text).id shape before label ↔
        shape = .rect ∧ label = newNodeLabel ∧
          before = Text.trimEnd text ++ Text.lineLead text ++ indentation := by
    intro shape before label
    rw [addNode_text,
      defines_appendLine_nodeLine_iff identifies
        (ne_nil_of_isIdentifier identifies) fun _ member =>
        not_isSpace_of_mem_identifier identifies member]
    constructor
    · intro cases_of_definition
      rcases cases_of_definition with defines | ⟨_, written⟩
      · exact absurd ⟨before, label, defines⟩ (not_hasSite_addNode text shape)
      · exact written
    · intro written
      exact Or.inr ⟨rfl, written⟩
  refine (findDefinition_eq_some_iff_rank
      (ne_nil_of_isIdentifier identifies)).mpr
    ⟨rfl, ?_, _, ⟨(defines_iff _ _ _).mpr ⟨rfl, rfl, rfl⟩, ?_⟩, ?_⟩
  · intro other lower written
    obtain ⟨before, label, defines⟩ := written
    rw [((defines_iff _ _ _).mp defines).1] at lower
    exact Nat.lt_irrefl _ lower
  · intro other defines
    rw [((defines_iff _ _ _).mp defines).2.1]
  · intro elsewhere other defines
    rw [((defines_iff _ _ _).mp defines).2.2]

/-- The definitions of all other nodes stay, whatever their identifiers are made
of. -/
theorem findDefinition_addNode_of_ne {id : Text}
    (solid : ∀ character ∈ id, Text.isSpace character = false)
    (different : id ≠ (addNode text).id) :
    findDefinition (addNode text).text id = findDefinition text id := by
  by_cases empty : id = []
  · rw [empty]
    rfl
  apply findDefinition_congr
  intro shape before label
  rw [addNode_text,
    defines_appendLine_nodeLine_iff (isIdentifier_addNode text) empty solid]
  exact or_iff_left fun parts => different parts.1

end NewNode

end DiagramEdit
