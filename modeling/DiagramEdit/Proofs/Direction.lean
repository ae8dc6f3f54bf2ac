import DiagramEdit.Direction
import DiagramEdit.Proofs.Mention
import DiagramEdit.Proofs.Text.Lines

/-!
# What a toggle rewrites

A toggle puts one direction in the place of another, where that stands as a word
of its own, or it changes nothing.
-/

namespace DiagramEdit

section Search

variable {word line new edited : Text}

/-- A word that is replaced stands apart, and not in front of its place. -/
theorem exists_of_replaceFirst?_wholeWord (identifies : isIdentifier word)
    (replaced : (Pattern.region (Pattern.wholeWord word)).replaceFirst? line
        new = some edited) :
    ∃ before after, line = before ++ word ++ after ∧
      Text.endsInWord before = false ∧ Text.startsWithWord after = false ∧
      word ∉ Text.wordRuns before ∧ edited = before ++ new ++ after := by
  obtain ⟨found, searched, editedEq⟩ := Option.map_eq_some_iff.mp replaced
  obtain ⟨before, rest, stop, split, read, leftmost⟩ :=
    Pattern.exists_leftmost_of_first?_eq_some searched
  obtain ⟨whole, foundEq⟩ := Pattern.region_eq_some_iff.mp read
  obtain ⟨ends, after, restEq, starts, stopEq⟩ :=
    (Pattern.wholeWord_cut_iff identifies).mp whole
  refine ⟨before, after, by simp [split, restEq], ends, starts, ?_, ?_⟩
  · intro listed
    obtain ⟨_, _, front, behind, beforeEq, frontEnds, behindStarts⟩ :=
      Text.mem_wordRuns_iff.mp listed
    have boundary : Text.startsWithWord (behind ++ rest) = false := by
      cases behind with
      | cons first behind => exact behindStarts
      | nil =>
          rw [beforeEq, List.append_nil, endsInWord_identifier identifies]
            at ends
          cases ends
    have earlier :
        Pattern.region (Pattern.wholeWord word)
            ⟨front.reverse, word ++ (behind ++ rest)⟩ = some (_, _) :=
      Pattern.region_eq_some_iff.mpr ⟨(Pattern.wholeWord_cut_iff identifies).mpr
        ⟨frontEnds, behind ++ rest, rfl, boundary, rfl⟩, rfl⟩
    have lengths :=
      leftmost front (word ++ (behind ++ rest)) (by simp [split, beforeEq])
        (by simp [earlier])
    have positive := List.length_pos_iff.mpr (ne_nil_of_isIdentifier identifies)
    rw [beforeEq, List.length_append, List.length_append] at lengths
    omega
  · simp [← editedEq, foundEq, stopEq, Region.replace]

/-- A word is replaced at its first place among the words of a line. -/
theorem replaceFirst?_wholeWord_eq_some_iff (identifies : isIdentifier word) :
    (Pattern.region (Pattern.wholeWord word)).replaceFirst? line new =
        some edited ↔
      ∃ before after, line = before ++ word ++ after ∧
        Text.endsInWord before = false ∧ Text.startsWithWord after = false ∧
        word ∉ Text.wordRuns before ∧ edited = before ++ new ++ after := by
  refine ⟨exists_of_replaceFirst?_wholeWord identifies, ?_⟩
  intro parts
  obtain ⟨before, after, split, ends, starts, absent, editedEq⟩ := parts
  cases replaced :
    (Pattern.region (Pattern.wholeWord word)).replaceFirst? line new with
  | none =>
      have read :
          Pattern.region (Pattern.wholeWord word)
              ⟨before.reverse, word ++ after⟩ = some (_, _) :=
        Pattern.region_eq_some_iff.mpr ⟨(Pattern.wholeWord_cut_iff
              identifies).mpr ⟨ends, after, rfl, starts, rfl⟩, rfl⟩
      rw [split, List.append_assoc] at replaced
      exact absurd replaced (Pattern.replaceFirst?_ne_none_of_isSome
        (Option.isSome_of_eq_some read) new)
  | some other =>
      obtain ⟨front, behind, otherSplit, otherEnds, otherStarts, otherAbsent,
        otherEq⟩ :=
        exists_of_replaceFirst?_wholeWord identifies replaced
      rw [split] at otherSplit
      obtain ⟨rfl, rfl⟩ :=
        Text.eq_of_word_cuts
          (fun _ member => isWordCharacter_of_mem_identifier identifies member)
          (ne_nil_of_isIdentifier identifies) otherSplit ends starts otherEnds
          otherStarts absent otherAbsent
      rw [editedEq, otherEq]

end Search

theorem Direction.isIdentifier_keyword (direction : Direction) :
    isIdentifier direction.keyword := by
  cases direction <;> decide

/-- A direction that is a word of its own is replaced by the toggled one. -/
def DirectionToggled (text edited : Text) : Prop :=
  ∃ before direction after,
    text = before ++ Direction.keyword direction ++ after ∧
      Text.endsInWord before = false ∧ Text.startsWithWord after = false ∧
      edited = before ++ direction.toggled.keyword ++ after

theorem directionToggled_of_replaceFirst? {line edited : Text}
    {direction : Direction}
    (replaced : Pattern.replaceFirst?
        (Pattern.region (Pattern.wholeWord direction.keyword)) line
        direction.toggled.keyword = some edited) :
    DirectionToggled line edited := by
  obtain ⟨before, after, split, ends, starts, _, editedEq⟩ :=
    (replaceFirst?_wholeWord_eq_some_iff direction.isIdentifier_keyword).mp
      replaced
  exact ⟨before, direction, after, split, ends, starts, editedEq⟩

theorem toggleLine_eq_or_toggled (line : Text) :
    toggleLine line = line ∨ DirectionToggled line (toggleLine line) := by
  rw [toggleLine]
  cases searched : Direction.all.findSome? fun direction =>
    Pattern.replaceFirst? (Pattern.region (Pattern.wholeWord direction.keyword))
      line direction.toggled.keyword with
  | none => exact Or.inl rfl
  | some edited =>
      obtain ⟨direction, _, replaced⟩ :=
        List.exists_of_findSome?_eq_some searched
      exact Or.inr (directionToggled_of_replaceFirst? replaced)

theorem toggleFirstLine_eq_or_toggled (lines : List Text) :
    toggleFirstLine lines = lines ∨
      ∃ earlier line later, lines = earlier ++ line :: later ∧
        toggleFirstLine lines = earlier ++ toggleLine line :: later ∧
        DirectionToggled line (toggleLine line) := by
  induction lines with
  | nil => exact Or.inl rfl
  | cons line rest induction =>
      cases blank : Text.isBlank line with
      | true =>
          rw [toggleFirstLine, if_pos blank]
          rcases induction with
            same | ⟨earlier, found, later, split, edited, toggled⟩
          · exact Or.inl (by rw [same])
          · exact Or.inr ⟨line :: earlier, found, later, by simp [split],
              by simp [edited], toggled⟩
      | false =>
          rw [toggleFirstLine, if_neg (by simp [blank])]
          rcases toggleLine_eq_or_toggled line with same | toggled
          · exact Or.inl (by rw [same])
          · exact Or.inr ⟨[], line, rest, rfl, rfl, toggled⟩

theorem endsInWord_joined (earlier : List Text) {left : Text}
    (ends : Text.endsInWord left = false) :
    Text.endsInWord (earlier.flatMap (· ++ ['\n']) ++ left) = false := by
  rcases List.eq_nil_or_concat earlier with rfl | ⟨earlier, last, rfl⟩
  · simpa using ends
  · have joined : (earlier.concat last).flatMap (· ++ ['\n']) ++ left =
        (earlier.flatMap (· ++ ['\n']) ++ last) ++ '\n' :: left := by simp
    rw [joined, Text.endsInWord_append_cons Text.isWordCharacter_lineFeed]
    exact ends

/-- A toggle of a text is a toggle at one place of it. -/
theorem toggleDirection_eq_or_toggled (text : Text) :
    toggleDirection text = text ∨
      DirectionToggled text (toggleDirection text) := by
  have whole := Text.joinLines_lines text
  rcases toggleFirstLine_eq_or_toggled (Text.lines text) with
    same |
      ⟨earlier, line, later, split, edited, before, direction, after, lineEq,
        ends, starts, toggled⟩
  · left
    rw [toggleDirection, same, whole]
  · right
    rw [split, Text.joinLines_append_cons, lineEq] at whole
    refine ⟨earlier.flatMap (· ++ ['\n']) ++ before, direction,
      after ++ later.flatMap ('\n' :: ·), by simp [← whole],
      endsInWord_joined earlier ends,
      Text.startsWithWord_append starts (Text.startsWithWord_flatMap later), ?_⟩
    rw [toggleDirection, edited, Text.joinLines_append_cons, toggled]
    simp

end DiagramEdit
