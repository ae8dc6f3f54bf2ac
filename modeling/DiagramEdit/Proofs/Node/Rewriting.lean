import DiagramEdit.Proofs.Node.Site

/-!
# What a change of label or shape rewrites

A change that is carried out replaces the brackets and the label at one site of
the identifier.  A label that fits is always written once a definition has been
found; a shape only where the brackets follow the identifier directly.
-/

namespace DiagramEdit

/-- What is written behind the identifier, and behind white space, is
replaced. -/
def ReplacedAfter (id written replacement text edited : Text) : Prop :=
  ∃ before space rest, standsApart before id ∧
    (∀ character ∈ space, Text.isSpace character) ∧
    text = before ++ id ++ space ++ written ++ rest ∧
    edited = before ++ id ++ space ++ replacement ++ rest

namespace Pattern

variable {id written replacement text edited : Text}

theorem replacedAfter_of_directlyAfter
    (replaced :
      (directlyAfter id written).replaceFirst? text replacement = some edited) :
    ReplacedAfter id written replacement text edited := by
  obtain ⟨found, searched, editedEq⟩ := Option.map_eq_some_iff.mp replaced
  obtain ⟨before, after, stop, split, read, _⟩ := first?_eq_some_iff.mp searched
  obtain ⟨apart, rest, afterEq, stopEq, foundEq⟩ :=
    directlyAfter_cut_iff.mp read
  refine ⟨before, [], rest, apart, by simp, by simp [split, afterEq], ?_⟩
  simp [← editedEq, foundEq, stopEq, Region.replace]

theorem replacedAfter_of_spacedAfter
    (visible : ∀ rest, (written ++ rest).head?.all (!Text.isSpace ·))
    (replaced :
      (spacedAfter id written).replaceFirst? text replacement = some edited) :
    ReplacedAfter id written replacement text edited := by
  obtain ⟨found, searched, editedEq⟩ := Option.map_eq_some_iff.mp replaced
  obtain ⟨before, after, stop, split, read, _⟩ := first?_eq_some_iff.mp searched
  obtain ⟨apart, space, rest, afterEq, spaces, stopEq, foundEq⟩ :=
    (spacedAfter_cut_iff visible).mp read
  refine ⟨before, space, rest, apart, spaces, by simp [split, afterEq], ?_⟩
  simp [← editedEq, foundEq, stopEq, Region.replace]

theorem replaceFirst?_isSome {pattern : Pattern Region} {before after : Text}
    {found : Region} {stop : Place}
    (read : pattern ⟨before.reverse, after⟩ = some (found, stop)) :
    (pattern.replaceFirst? (before ++ after) replacement).isSome := by
  rw [replaceFirst?, Option.isSome_map, ← Option.ne_none_iff_isSome]
  intro fails
  have failed := first?_eq_none_iff_cuts.mp fails before after rfl
  rw [read] at failed
  cases failed

theorem directlyAfter_replaceFirst?_isSome {before : Text}
    (written rest replacement : Text) (apart : standsApart before id) :
    ((directlyAfter id written).replaceFirst?
      (before ++ (id ++ written ++ rest)) replacement).isSome :=
  replaceFirst?_isSome (directlyAfter_cut_iff.mpr ⟨apart, rest, rfl, rfl, rfl⟩)

theorem spacedAfter_replaceFirst?_isSome {before space : Text}
    (rest replacement : Text)
    (visible : ∀ rest, (written ++ rest).head?.all (!Text.isSpace ·))
    (apart : standsApart before id)
    (spaces : ∀ character ∈ space, Text.isSpace character) :
    ((spacedAfter id written).replaceFirst?
      (before ++ (id ++ space ++ written ++ rest)) replacement).isSome :=
  replaceFirst?_isSome ((spacedAfter_cut_iff visible).mpr
    ⟨apart, space, rest, rfl, spaces, rfl, rfl⟩)

end Pattern

section Update

variable {text id : Text} {node : NodeDefinition}

theorem updateLabel_of_none (absent : findDefinition text id = none)
    (label : Text) :
    updateLabel text id label = text := by
  simp [updateLabel, absent]

theorem updateLabel_of_not_fits {label : Text}
    (unfit : labelFits label = false) :
    updateLabel text id label = text := by
  cases found : findDefinition text id with
  | none => exact updateLabel_of_none found label
  | some node => simp [updateLabel, found, unfit]

/-- A label that fits replaces the one that is found. -/
theorem updateLabel_replaces (found : findDefinition text id = some node)
    {label : Text} (fits : labelFits label) :
    ReplacedAfter id (node.shape.wrap node.label) (node.shape.wrap label) text
      (updateLabel text id label) := by
  obtain ⟨_, _, before, space, rest, split, apart, spaces⟩ :=
    exists_of_findDefinition_eq_some found
  have visible := head?_wrap_all node.shape node.label
  by_cases same : node.label = label
  · refine ⟨before, space, rest, apart, spaces, split, ?_⟩
    simpa [updateLabel, found, same] using split
  · have differs : (node.label == label || !labelFits label) = false := by
      simp [same, fits]
    simp only [updateLabel, found, differs, Bool.false_eq_true, if_false]
    cases direct : (Pattern.directlyAfter id
        (node.shape.wrap node.label)).replaceFirst? text
      (node.shape.wrap label) with
    | some edited => exact Pattern.replacedAfter_of_directlyAfter direct
    | none =>
        cases spaced : (Pattern.spacedAfter id
            (node.shape.wrap node.label)).replaceFirst? text
          (node.shape.wrap label) with
        | some edited =>
            exact Pattern.replacedAfter_of_spacedAfter visible spaced
        | none =>
            have whole :
                before ++ (id ++ space ++ node.shape.wrap node.label ++ rest) =
                  text := by
              simp [split]
            have replaced := Pattern.spacedAfter_replaceFirst?_isSome rest
              (node.shape.wrap label) visible apart spaces
            rw [whole, spaced] at replaced
            cases replaced

theorem updateShape_of_none (absent : findDefinition text id = none)
    (shape : Shape) :
    updateShape text id shape = text := by
  simp [updateShape, absent]

theorem updateShape_eq_or_replaces (found : findDefinition text id = some node)
    (shape : Shape) :
    updateShape text id shape = text ∨
      labelFits node.label ∧
        ReplacedAfter id (node.shape.wrap node.label) (shape.wrap node.label)
          text (updateShape text id shape) := by
  by_cases stays : (node.shape == shape || !labelFits node.label)
  · left
    simp [updateShape, found, stays]
  · simp only [updateShape, found, stays]
    cases direct : (Pattern.directlyAfter id
        (node.shape.wrap node.label)).replaceFirst? text
      (shape.wrap node.label) with
    | none => exact Or.inl rfl
    | some edited =>
        right
        refine ⟨?_, Pattern.replacedAfter_of_directlyAfter direct⟩
        simp only [Bool.or_eq_true, not_or] at stays
        simpa using stays.2

end Update

section OnlySite

variable {id before space label rest : Text} {shape : Shape}

/-- A replacement behind the only site is the one at that site. -/
theorem ReplacedAfter.eq_of_only {replacement edited : Text}
    (spaces : ∀ character ∈ space, Text.isSpace character)
    (only : OnlySite id before (id ++ space ++ shape.wrap label ++ rest))
    (replaced : ReplacedAfter id (shape.wrap label) replacement
      (before ++ (id ++ space ++ shape.wrap label ++ rest)) edited) :
    edited = before ++ (id ++ space ++ replacement ++ rest) := by
  obtain ⟨left, otherSpace, right, apart, otherSpaces, split, editedEq⟩ :=
    replaced
  have cut : before ++ (id ++ space ++ shape.wrap label ++ rest) =
      left ++ (id ++ otherSpace ++ shape.wrap label ++ right) := by
    simpa using split
  have same :=
    only left _ cut (isSite_of_wrap apart otherSpaces shape label right)
  subst same
  simp only [List.append_assoc, List.append_cancel_left_eq] at cut
  obtain ⟨sameSpace, tails⟩ :=
    Pattern.eq_of_append_eq_append_of_stops cut spaces otherSpaces
      (head?_wrap_all shape label rest) (head?_wrap_all shape label right)
  have sameRest := List.append_cancel_left tails
  simp [editedEq, sameSpace, sameRest]

theorem updateLabel_eq_of_only (nonempty : id ≠ [])
    (apart : standsApart before id)
    (spaces : ∀ character ∈ space, Text.isSpace character)
    (fits : labelFits label)
    (only : OnlySite id before (id ++ space ++ shape.wrap label ++ rest))
    (new : Text) :
    updateLabel (before ++ (id ++ space ++ shape.wrap label ++ rest)) id new =
      before ++
        (id ++ space ++ shape.wrap (if labelFits new then new else label) ++
          rest) := by
  have found := findDefinition_eq_of_only nonempty apart spaces fits only
  by_cases newFits : labelFits new
  · rw [if_pos newFits]
    exact (updateLabel_replaces found newFits).eq_of_only spaces only
  · rw [if_neg newFits]
    exact updateLabel_of_not_fits (by simpa using newFits)

theorem updateShape_eq_of_only (nonempty : id ≠ [])
    (apart : standsApart before id) (fits : labelFits label)
    (only : OnlySite id before (id ++ [] ++ shape.wrap label ++ rest))
    (new : Shape) :
    updateShape (before ++ (id ++ [] ++ shape.wrap label ++ rest)) id new =
      before ++ (id ++ [] ++ new.wrap label ++ rest) := by
  have noSpace : ∀ character ∈ ([] : Text), Text.isSpace character := by simp
  have found := findDefinition_eq_of_only nonempty apart noSpace fits only
  by_cases same : shape = new
  · rw [updateShape, found]
    simp [same]
  · have whole : before ++ (id ++ [] ++ shape.wrap label ++ rest) =
        before ++ (id ++ shape.wrap label ++ rest) := by
      rw [List.append_nil]
    have replaced :=
      Pattern.directlyAfter_replaceFirst?_isSome (shape.wrap label) rest
        (new.wrap label) apart
    rw [← whole] at replaced
    obtain ⟨edited, direct⟩ := Option.isSome_iff_exists.mp replaced
    have editedEq :=
      (Pattern.replacedAfter_of_directlyAfter direct).eq_of_only noSpace only
    have differs : (shape == new || !labelFits label) = false := by
      simp [same, fits]
    simp only [updateShape, found, differs, Bool.false_eq_true, if_false]
    rw [direct, editedEq]
    rfl

end OnlySite

end DiagramEdit
