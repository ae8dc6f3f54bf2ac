import DiagramEdit.Proofs.Node.Locating
import DiagramEdit.Proofs.Node.Rewriting

/-!
# Where a label or a shape is replaced

A change of label or shape leaves the text as it is, or it replaces the brackets
of one place and nothing else.  The place is the leftmost one where the brackets
follow the identifier directly; a label is also replaced behind white space if
there is none.
-/

namespace DiagramEdit

/-- One text is the other with a part replaced that stands behind the identifier
and white space. -/
structure Replaces
    (text edited id written replacement before space rest : Text) :
    Prop where
  apart : standsApart before id
  spaces : ∀ character ∈ space, Text.isSpace character
  text_eq : text = before ++ id ++ space ++ written ++ rest
  edited_eq : edited = before ++ id ++ space ++ replacement ++ rest

/-- Behind `before` the text reads the identifier and, directly after it, what
is written. -/
structure IsDirect (text id written before : Text) : Prop where
  apart : standsApart before id
  isPrefix : before ++ id ++ written <+: text

/-- As `IsDirect`, with white space allowed after the identifier. -/
structure IsSpaced (text id written before : Text) : Prop where
  apart : standsApart before id
  isPrefix : ∃ space, (∀ character ∈ space, Text.isSpace character) ∧
    before ++ id ++ space ++ written <+: text

namespace Replaces

variable {text edited id written replacement before space rest : Text}

theorem edited_eq_iff
    (replaces : Replaces text edited id written replacement before space rest) :
    edited = text ↔ replacement = written := by
  rw [replaces.text_eq, replaces.edited_eq]
  simp

theorem isDirect
    (replaces : Replaces text edited id written replacement before [] rest) :
    IsDirect text id written before :=
  ⟨replaces.apart, ⟨rest, by simpa using replaces.text_eq.symm⟩⟩

end Replaces

namespace Pattern

variable {text edited id written replacement : Text}

theorem directlyAfter_ne_none {left right : Text} (apart : standsApart left id)
    (begins : id ++ written <+: right) :
    directlyAfter id written ⟨left.reverse, right⟩ ≠ none := by
  obtain ⟨rest, rightEq⟩ := begins
  intro fails
  have read : directlyAfter id written ⟨left.reverse, right⟩ = some _ :=
    directlyAfter_cut_iff.mpr ⟨apart, rest, rightEq.symm, rfl, rfl⟩
  rw [fails] at read
  cases read

theorem spacedAfter_ne_none {left right space : Text}
    (visible : ∀ rest, (written ++ rest).head?.all (!Text.isSpace ·))
    (apart : standsApart left id)
    (spaces : ∀ character ∈ space, Text.isSpace character)
    (begins : id ++ space ++ written <+: right) :
    spacedAfter id written ⟨left.reverse, right⟩ ≠ none := by
  obtain ⟨rest, rightEq⟩ := begins
  intro fails
  have read : spacedAfter id written ⟨left.reverse, right⟩ = some _ :=
    (spacedAfter_cut_iff visible).mpr
      ⟨apart, space, rest, rightEq.symm, spaces, rfl, rfl⟩
  rw [fails] at read
  cases read

theorem replaces_of_directlyAfter
    (replaced :
      (directlyAfter id written).replaceFirst? text replacement = some edited) :
    ∃ before rest, Replaces text edited id written replacement before [] rest ∧
      ∀ elsewhere, IsDirect text id written elsewhere →
        before.length ≤ elsewhere.length := by
  obtain ⟨found, searched, editedEq⟩ := Option.map_eq_some_iff.mp replaced
  obtain ⟨before, after, stop, split, read, leftmost⟩ :=
    exists_leftmost_of_first?_eq_some searched
  obtain ⟨apart, rest, afterEq, stopEq, foundEq⟩ :=
    directlyAfter_cut_iff.mp read
  refine ⟨before, rest, ⟨apart, by simp, by simp [split, afterEq], ?_⟩, ?_⟩
  · simp [← editedEq, foundEq, stopEq, Region.replace]
  · intro elsewhere direct
    obtain ⟨right, whole⟩ := direct.isPrefix
    refine leftmost elsewhere (id ++ written ++ right) ?_ ?_
    · rw [← whole, List.append_assoc elsewhere, List.append_assoc elsewhere]
    · exact directlyAfter_ne_none direct.apart (List.prefix_append _ _)

theorem not_isDirect_of_directlyAfter
    (fails : (directlyAfter id written).replaceFirst? text replacement = none)
    (before : Text) :
    ¬IsDirect text id written before := by
  intro direct
  obtain ⟨rest, whole⟩ := direct.isPrefix
  have replaced :=
    directlyAfter_replaceFirst?_isSome written rest replacement direct.apart
  rw [← List.append_assoc, ← List.append_assoc, whole, fails] at replaced
  cases replaced

theorem replaces_of_spacedAfter
    (visible : ∀ rest, (written ++ rest).head?.all (!Text.isSpace ·))
    (replaced :
      (spacedAfter id written).replaceFirst? text replacement = some edited) :
    ∃ before space rest,
      Replaces text edited id written replacement before space rest ∧
        ∀ elsewhere, IsSpaced text id written elsewhere →
          before.length ≤ elsewhere.length := by
  obtain ⟨found, searched, editedEq⟩ := Option.map_eq_some_iff.mp replaced
  obtain ⟨before, after, stop, split, read, leftmost⟩ :=
    exists_leftmost_of_first?_eq_some searched
  obtain ⟨apart, space, rest, afterEq, spaces, stopEq, foundEq⟩ :=
    (spacedAfter_cut_iff visible).mp read
  refine ⟨before, space, rest, ⟨apart, spaces, by simp [split, afterEq], ?_⟩,
    ?_⟩
  · simp [← editedEq, foundEq, stopEq, Region.replace]
  · intro elsewhere spaced
    obtain ⟨otherSpace, otherSpaces, right, whole⟩ := spaced.isPrefix
    refine leftmost elsewhere (id ++ otherSpace ++ written ++ right) ?_ ?_
    · simp [← whole]
    · exact spacedAfter_ne_none visible spaced.apart otherSpaces
        (List.prefix_append _ _)

end Pattern

/-- The place where a label is replaced: the leftmost one where the brackets
follow the identifier directly, or the leftmost one of all if there is none
such. -/
def IsPreferred (text id written before space : Text) : Prop :=
  (space = [] ∧
      ∀ elsewhere, IsDirect text id written elsewhere →
        before.length ≤ elsewhere.length) ∨
    ((∀ elsewhere, ¬IsDirect text id written elsewhere) ∧
      ∀ elsewhere, IsSpaced text id written elsewhere →
        before.length ≤ elsewhere.length)

section Update

variable {text id : Text} {node : NodeDefinition}

theorem updateLabel_of_same (found : findDefinition text id = some node) :
    updateLabel text id node.label = text := by
  simp [updateLabel, found]

/-- A new label that fits is always written. -/
theorem exists_replaces_updateLabel (found : findDefinition text id = some node)
    {label : Text} (differs : node.label ≠ label) (fits : labelFits label) :
    ∃ before space rest,
      Replaces text (updateLabel text id label) id (node.shape.wrap node.label)
          (node.shape.wrap label) before space rest ∧
        IsPreferred text id (node.shape.wrap node.label) before space := by
  have visible := head?_wrap_all node.shape node.label
  have goes : (node.label == label || !labelFits label) = false := by
    simp [differs, fits]
  simp only [updateLabel, found, goes, Bool.false_eq_true, if_false]
  cases direct : (Pattern.directlyAfter id
      (node.shape.wrap node.label)).replaceFirst? text
    (node.shape.wrap label) with
  | some edited =>
      obtain ⟨before, rest, replaces, leftmost⟩ :=
        Pattern.replaces_of_directlyAfter direct
      exact ⟨before, [], rest, replaces, Or.inl ⟨rfl, leftmost⟩⟩
  | none =>
      cases spaced : (Pattern.spacedAfter id
          (node.shape.wrap node.label)).replaceFirst? text
        (node.shape.wrap label) with
      | some edited =>
          obtain ⟨before, space, rest, replaces, leftmost⟩ :=
            Pattern.replaces_of_spacedAfter visible spaced
          exact ⟨before, space, rest, replaces,
            Or.inr ⟨Pattern.not_isDirect_of_directlyAfter direct, leftmost⟩⟩
      | none =>
          -- The place where the definition was found can be read with white
          -- space.
          obtain ⟨_, _, before, space, rest, split, apart, spaces⟩ :=
            exists_of_findDefinition_eq_some found
          have replaced := Pattern.spacedAfter_replaceFirst?_isSome rest
            (node.shape.wrap label) visible apart spaces
          have whole :
              before ++ (id ++ space ++ node.shape.wrap node.label ++ rest) =
                text := by
            simp [split]
          rw [whole, spaced] at replaced
          cases replaced

/-- A shape is replaced where the brackets directly follow the identifier, if
anywhere. -/
theorem updateShape_cases (found : findDefinition text id = some node)
    {shape : Shape} (differs : node.shape ≠ shape)
    (fits : labelFits node.label) :
    (updateShape text id shape = text ∧
        ∀ before, ¬IsDirect text id (node.shape.wrap node.label) before) ∨
      ∃ before rest,
        Replaces text (updateShape text id shape) id
            (node.shape.wrap node.label) (shape.wrap node.label) before []
            rest ∧
          IsPreferred text id (node.shape.wrap node.label) before [] := by
  have goes : (node.shape == shape || !labelFits node.label) = false := by
    simp [differs, fits]
  simp only [updateShape, found, goes, Bool.false_eq_true, if_false]
  cases direct : (Pattern.directlyAfter id
      (node.shape.wrap node.label)).replaceFirst? text
    (shape.wrap node.label) with
  | none => exact Or.inl ⟨rfl, Pattern.not_isDirect_of_directlyAfter direct⟩
  | some edited =>
      obtain ⟨before, rest, replaces, leftmost⟩ :=
        Pattern.replaces_of_directlyAfter direct
      exact Or.inr ⟨before, rest, replaces, Or.inl ⟨rfl, leftmost⟩⟩

theorem updateShape_of_refused (found : findDefinition text id = some node)
    {shape : Shape}
    (refused : node.shape = shape ∨ labelFits node.label = false) :
    updateShape text id shape = text := by
  rcases refused with same | unfit
  · simp [updateShape, found, same]
  · simp [updateShape, found, unfit]

/-- A label that fits is written differently in different shapes. -/
theorem Shape.eq_of_wrap_eq {shape other : Shape} {label : Text}
    (fits : labelFits label) (equality : shape.wrap label = other.wrap label) :
    shape = other := by
  have begins : other.opening <+: shape.wrap label ++ [] :=
    ⟨label ++ other.closing, by rw [equality]; simp [Shape.wrap]⟩
  have begins' : shape.opening <+: other.wrap label ++ [] :=
    ⟨label ++ shape.closing, by rw [← equality]; simp [Shape.wrap]⟩
  rcases opening_isPrefix_wrap fits begins with same | ⟨double, single⟩
  · exact same.symm
  · rcases opening_isPrefix_wrap fits begins' with same | ⟨double', _⟩
    · exact same
    · rw [single] at double'
      cases double'

theorem updateLabel_ne_iff {label : Text} :
    updateLabel text id label ≠ text ↔
      ∃ node, findDefinition text id = some node ∧ node.label ≠ label ∧
        labelFits label := by
  constructor
  · intro changed
    cases found : findDefinition text id with
    | none => exact absurd (updateLabel_of_none found label) changed
    | some node =>
        refine ⟨node, rfl, ?_, ?_⟩
        · intro same
          rw [← same] at changed
          exact changed (updateLabel_of_same found)
        · cases fits : labelFits label with
          | true => rfl
          | false => exact absurd (updateLabel_of_not_fits fits) changed
  · intro parts
    obtain ⟨node, found, differs, fits⟩ := parts
    obtain ⟨before, space, rest, replaces, _⟩ :=
      exists_replaces_updateLabel found differs fits
    intro same
    have wraps := replaces.edited_eq_iff.mp same
    simp only [Shape.wrap, List.append_assoc, List.append_cancel_left_eq,
      List.append_cancel_right_eq] at wraps
    exact differs wraps.symm

theorem updateShape_ne_iff {shape : Shape} :
    updateShape text id shape ≠ text ↔
      ∃ node, findDefinition text id = some node ∧ node.shape ≠ shape ∧
        labelFits node.label ∧
        ∃ before, IsDirect text id (node.shape.wrap node.label) before := by
  constructor
  · intro changed
    cases found : findDefinition text id with
    | none => exact absurd (updateShape_of_none found shape) changed
    | some node =>
        have differs : node.shape ≠ shape := fun same =>
          changed (updateShape_of_refused found (Or.inl same))
        have fits : labelFits node.label := by
          by_contra unfit
          exact changed
            (updateShape_of_refused found (Or.inr (by simpa using unfit)))
        rcases updateShape_cases found differs fits with
          ⟨same, _⟩ | ⟨before, rest, replaces, _⟩
        · exact absurd same changed
        · exact ⟨node, rfl, differs, fits, before, replaces.isDirect⟩
  · intro parts
    obtain ⟨node, found, differs, fits, before, direct⟩ := parts
    rcases updateShape_cases found differs fits with
      ⟨_, absent⟩ | ⟨before, rest, replaces, _⟩
    · exact absurd direct (absent before)
    · intro same
      exact differs
        (Shape.eq_of_wrap_eq fits (replaces.edited_eq_iff.mp same)).symm

/-- What a change of shape that is carried out replaces. -/
theorem exists_replaces_updateShape {shape : Shape}
    (changed : updateShape text id shape ≠ text) :
    ∃ node before rest, findDefinition text id = some node ∧
      node.shape ≠ shape ∧ labelFits node.label ∧
      Replaces text (updateShape text id shape) id (node.shape.wrap node.label)
        (shape.wrap node.label) before [] rest := by
  obtain ⟨node, found, differs, fits, _⟩ := updateShape_ne_iff.mp changed
  rcases updateShape_cases found differs fits with
    ⟨same, _⟩ | ⟨before, rest, replaces, _⟩
  · exact absurd same changed
  · exact ⟨node, before, rest, found, differs, fits, replaces⟩

end Update

/-- A change of label or shape replaces the brackets at one place or nothing.  A
label is replaced if the node is defined with another one and the new one fits;
a shape, if the node is defined in another one with a label that fits and is
written so without white space. -/
theorem updates_replace_one_place (text id : Text) :
    (∀ label,
        (updateLabel text id label ≠ text ↔
            ∃ node, findDefinition text id = some node ∧ node.label ≠ label ∧
              labelFits label) ∧
          (updateLabel text id label = text ∨
            ∃ node before space rest, findDefinition text id = some node ∧
              Replaces text (updateLabel text id label) id
                (node.shape.wrap node.label) (node.shape.wrap label) before
                space rest)) ∧
      ∀ shape,
        (updateShape text id shape ≠ text ↔
            ∃ node, findDefinition text id = some node ∧ node.shape ≠ shape ∧
              labelFits node.label ∧
              ∃ before rest, standsApart before id ∧
                text = before ++ id ++ node.shape.wrap node.label ++ rest) ∧
          (updateShape text id shape = text ∨
            ∃ node before rest, findDefinition text id = some node ∧
              Replaces text (updateShape text id shape) id
                (node.shape.wrap node.label) (shape.wrap node.label) before []
                rest) := by
  constructor
  · intro label
    refine ⟨updateLabel_ne_iff, ?_⟩
    rw [or_iff_not_imp_left]
    intro changed
    obtain ⟨node, found, differs, fits⟩ := updateLabel_ne_iff.mp changed
    obtain ⟨before, space, rest, replaces, _⟩ :=
      exists_replaces_updateLabel found differs fits
    exact ⟨node, before, space, rest, found, replaces⟩
  · intro shape
    constructor
    · rw [updateShape_ne_iff]
      have direct_iff : ∀ written, (∃ before, IsDirect text id written before) ↔
          ∃ before rest, standsApart before id ∧
            text = before ++ id ++ written ++ rest := by
        intro written
        constructor
        · intro parts
          obtain ⟨before, apart, rest, whole⟩ := parts
          exact ⟨before, rest, apart, whole.symm⟩
        · intro parts
          obtain ⟨before, rest, apart, whole⟩ := parts
          exact ⟨before, apart, rest, whole.symm⟩
      simp only [direct_iff]
    · rw [or_iff_not_imp_left]
      intro changed
      obtain ⟨node, before, rest, found, _, _, replaces⟩ :=
        exists_replaces_updateShape changed
      exact ⟨node, before, rest, found, replaces⟩

end DiagramEdit
