import DiagramEdit.Proofs.Node.Surroundings
import Mathlib.Data.List.Infix

/-!
# Edits of a node that is written once

Replacing the brackets at the only site of an identifier leaves that site the
only one.  So a label or a shape that has been set is read back, a later edit
does not depend on an earlier one, and setting the old value again restores the
text.
-/

namespace DiagramEdit

/-- A site is seen from the text on its two sides. -/
theorem isSite_iff {id before after : Text} :
    IsSite id before after ↔ standsApart before id ∧ id <+: after ∧
      ((after.drop id.length).dropWhile Text.isSpace).head?.any opensLabel := by
  constructor
  · intro site
    obtain ⟨space, bracket, rest, split, spaces, opens⟩ := site.opens
    have stops : (bracket :: rest).head?.all (!Text.isSpace ·) := by
      simpa using not_isSpace_of_isBracket (isBracket_of_opensLabel opens)
    have dropped := (Pattern.takeWhile_append_of_stops spaces stops).2
    refine ⟨site.apart, ⟨space ++ bracket :: rest, by simp [split]⟩, ?_⟩
    rw [split, List.append_assoc, List.drop_left, dropped]
    exact opens
  · intro parts
    obtain ⟨apart, ⟨rest, split⟩, opens⟩ := parts
    rw [← split, List.drop_left] at opens
    cases follows : rest.dropWhile Text.isSpace with
    | nil =>
        rw [follows] at opens
        cases opens
    | cons bracket after =>
        rw [follows] at opens
        refine ⟨apart, rest.takeWhile Text.isSpace, bracket, after, ?_, ?_,
          opens⟩
        · rw [List.append_assoc, ← follows, List.takeWhile_append_dropWhile,
            split]
        · intro character member
          exact List.mem_takeWhile_imp member

/-- Replacing the brackets at the only site leaves it the only one. -/
theorem OnlySite.replaced {id before space old new rest : Text}
    {shape other : Shape} (bare : IsBare id)
    (spaces : ∀ character ∈ space, Text.isSpace character)
    (fits : labelFits new)
    (only : OnlySite id before (id ++ space ++ shape.wrap old ++ rest)) :
    OnlySite id before (id ++ space ++ other.wrap new ++ rest) := by
  intro left right split site
  have plain : ∀ character ∈ new, isBracket character = false := by
    intro character member
    exact not_isBracket_of_labelFits fits member
  have cut :
      before ++ id ++ space ++ other.wrap new ++ rest = left ++ right := by
    simpa using split
  rcases bare.site_cases spaces plain cut site with
    ⟨otherSpace, bracket, more, otherSpaces, opens, front⟩ | here |
      ⟨more, leftEq, restEq⟩
  · have former : IsSite id left (id ++ otherSpace ++ bracket ::
        (more ++ (id ++ space ++ shape.wrap old ++ rest))) :=
      ⟨site.apart, otherSpace, bracket, _, rfl, otherSpaces, opens⟩
    exact only left _ (by simp [front]) former
  · exact here
  · have apart := site.apart
    rw [leftEq, standsApart_wrap_append] at apart
    have former :
        IsSite id (before ++ id ++ space ++ shape.wrap old ++ more) right :=
      ⟨by rw [standsApart_wrap_append]; exact apart, site.opens⟩
    have same := only _ right (by simp [restEq]) former
    have nothing : id ++ (space ++ shape.wrap old ++ more) = [] := by
      simpa using same
    exact absurd (List.append_eq_nil_iff.mp nothing).1 bare.ne_nil

section Once

variable {text id label : Text} {shape : Shape}

theorem exists_onlySite_of_once
    (once : ∃! before, ∃ after, text = before ++ after ∧ IsSite id before after)
    (found : findDefinition text id = some ⟨id, label, shape⟩) :
    ∃ before space rest, standsApart before id ∧
      (∀ character ∈ space, Text.isSpace character) ∧
      text = before ++ (id ++ space ++ shape.wrap label ++ rest) ∧
      OnlySite id before (id ++ space ++ shape.wrap label ++ rest) := by
  obtain ⟨_, _, before, space, rest, split, apart, spaces⟩ :=
    exists_of_findDefinition_eq_some found
  have whole : text = before ++ (id ++ space ++ shape.wrap label ++ rest) := by
    simpa using split
  refine ⟨before, space, rest, apart, spaces, whole, ?_⟩
  intro left right cut site
  exact once.unique ⟨right, whole.trans cut, site⟩
    ⟨_, whole, isSite_of_wrap apart spaces shape label rest⟩

end Once

/-- If an identifier is written in front of brackets at one place only, a label
that has been set is read back, the last label that is set counts, and setting
the old label again restores the text.  A shape that has been changed is read
back with the same label, and changing it back restores the text. -/
theorem updates_read_back_of_once {text id label : Text} {shape : Shape}
    (identifies : isWordIdentifier id)
    (once : ∃! before, ∃ after, text = before ++ after ∧ IsSite id before after)
    (found : findDefinition text id = some ⟨id, label, shape⟩) :
    (∀ new, labelFits new →
        findDefinition (updateLabel text id new) id = some ⟨id, new, shape⟩ ∧
          (∀ later, labelFits later →
            updateLabel (updateLabel text id new) id later =
              updateLabel text id later) ∧
          (labelFits label →
            updateLabel (updateLabel text id new) id label = text)) ∧
      ∀ new, updateShape text id new ≠ text →
        findDefinition (updateShape text id new) id = some ⟨id, label, new⟩ ∧
          updateShape (updateShape text id new) id shape = text := by
  have bare := isBare_of_isWordIdentifier identifies
  obtain ⟨before, space, rest, apart, spaces, whole, only⟩ :=
    exists_onlySite_of_once once found
  constructor
  · intro new fits
    have edits : ∀ label', labelFits label' → updateLabel text id label' =
        before ++ (id ++ space ++ shape.wrap label' ++ rest) := by
      intro label' fits'
      have replaced := updateLabel_replaces found fits'
      rw [whole] at replaced ⊢
      exact replaced.eq_of_only spaces only
    have stillOnly :
        OnlySite id before (id ++ space ++ shape.wrap new ++ rest) :=
      only.replaced bare spaces fits
    have overwrites : ∀ later, labelFits later →
        updateLabel (updateLabel text id new) id later =
          updateLabel text id later := by
      intro later laterFits
      rw [edits new fits,
        updateLabel_eq_of_only bare.ne_nil apart spaces fits stillOnly,
        if_pos laterFits, edits later laterFits]
    refine ⟨?_, overwrites, ?_⟩
    · rw [edits new fits]
      exact findDefinition_eq_of_only bare.ne_nil apart spaces fits stillOnly
    · intro labelFits
      rw [overwrites label labelFits]
      exact updateLabel_of_same found
  · intro new changed
    obtain ⟨node, left, right, found', _, fits, replaces⟩ :=
      exists_replaces_updateShape changed
    obtain rfl : ⟨id, label, shape⟩ = node :=
      Option.some.inj (found.symm.trans found')
    -- The shape is only changed where no white space stands in front of the
    -- brackets.
    have noSpace : ∀ character ∈ ([] : Text), Text.isSpace character := by simp
    have cut : text = left ++ (id ++ [] ++ shape.wrap label ++ right) := by
      simpa using replaces.text_eq
    have onlyHere :
        OnlySite id left (id ++ [] ++ shape.wrap label ++ right) := by
      intro left' right' split site
      exact once.unique ⟨right', cut.trans split, site⟩
        ⟨_, cut, isSite_of_wrap replaces.apart noSpace shape label right⟩
    have stillOnly : OnlySite id left (id ++ [] ++ new.wrap label ++ right) :=
      onlyHere.replaced bare noSpace fits
    have edited : updateShape text id new =
        left ++ (id ++ [] ++ new.wrap label ++ right) := by
      simpa using replaces.edited_eq
    rw [edited]
    constructor
    · exact findDefinition_eq_of_only bare.ne_nil replaces.apart noSpace fits
        stillOnly
    · rw [updateShape_eq_of_only bare.ne_nil replaces.apart fits stillOnly]
      exact cut.symm

/-- Brackets that are never closed and longer words stand around the node. -/
def unbalanced : Text :=
  "graph TD ((\nXAé(u) --> Aé[old] ] \x7d) -- Aé) --> [\n".toList

theorem updates_read_back_of_once_unbalanced :
    isWordIdentifier "Aé".toList ∧
      findDefinition unbalanced "Aé".toList =
        some ⟨"Aé".toList, "old".toList, .rect⟩ ∧
      findDefinition (updateLabel unbalanced "Aé".toList "$1 <b>".toList)
          "Aé".toList = some ⟨"Aé".toList, "$1 <b>".toList, .rect⟩ ∧
      updateLabel (updateLabel unbalanced "Aé".toList "$1 <b>".toList)
          "Aé".toList "old".toList = unbalanced ∧
      updateShape (updateShape unbalanced "Aé".toList .circle) "Aé".toList
          .rect = unbalanced := by
  have identifies : isWordIdentifier "Aé".toList := by decide +kernel
  have found : findDefinition unbalanced "Aé".toList =
      some ⟨"Aé".toList, "old".toList, .rect⟩ := by decide +kernel
  have here : IsSite "Aé".toList "graph TD ((\nXAé(u) --> ".toList
      "Aé[old] ] \x7d) -- Aé) --> [\n".toList :=
    isSite_iff.mpr ⟨by decide +kernel, by decide +kernel, by decide +kernel⟩
  have nowhereElse :
      ∀ before ∈ unbalanced.inits, standsApart before "Aé".toList →
        "Aé".toList <+: unbalanced.drop before.length →
        (((unbalanced.drop before.length).drop 2).dropWhile
            Text.isSpace).head?.any opensLabel →
        before = "graph TD ((\nXAé(u) --> ".toList := by
    decide +kernel
  have once : ∃! before, ∃ after, unbalanced = before ++ after ∧
      IsSite "Aé".toList before after := by
    refine ⟨_, ⟨_, by decide +kernel, here⟩, ?_⟩
    intro before parts
    obtain ⟨after, split, site⟩ := parts
    obtain ⟨apart, begins, opens⟩ := isSite_iff.mp site
    have rest : unbalanced.drop before.length = after := by
      rw [split, List.drop_left]
    rw [← rest] at begins opens
    exact nowhereElse before ((List.mem_inits _ _).mpr ⟨after, split.symm⟩)
      apart begins opens
  have readBack := updates_read_back_of_once identifies once found
  obtain ⟨labelRead, _, restored⟩ := readBack.1 "$1 <b>".toList (by decide)
  obtain ⟨_, reshaped⟩ := readBack.2 .circle (by decide +kernel)
  exact ⟨identifies, found, labelRead, restored (by decide), reshaped⟩

end DiagramEdit
