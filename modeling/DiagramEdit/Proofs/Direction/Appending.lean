import DiagramEdit.Proofs.Direction.Toggling
import DiagramEdit.Proofs.Text.Appending

/-!
# A toggle and an appended line

White space behind the header says nothing about its direction, and a toggle
does not look at the lines below.  So it makes no difference whether a line is
appended before a toggle or after it.
-/

namespace DiagramEdit

section Line

variable {line space new : Text}

theorem replaceFirst?_append_space {word : Text}
    (identifies : isIdentifier word)
    (spaces : ∀ character ∈ space, Text.isSpace character) :
    (Pattern.region (Pattern.wholeWord word)).replaceFirst? (line ++ space)
        new =
      ((Pattern.region (Pattern.wholeWord word)).replaceFirst? line new).map
        (· ++ space) := by
  apply Option.ext
  intro edited
  simp only [replaceFirst?_wholeWord_eq_some_iff identifies,
    Option.map_eq_some_iff]
  constructor
  · intro parts
    obtain ⟨before, after, split, ends, starts, absent, rfl⟩ := parts
    -- The last character of the word is visible, so it is not in the white
    -- space.
    obtain ⟨front, last, wordEq⟩ := (List.eq_nil_or_concat word).resolve_left
      (ne_nil_of_isIdentifier identifies)
    rw [List.concat_eq_append] at wordEq
    have cut : line ++ space = (before ++ front) ++ last :: after := by
      rw [split, wordEq]
      simp
    rcases Text.append_eq_append_cons_cases cut with
      ⟨rest, lineEq, rfl⟩ | ⟨_, _, spaceEq⟩
    · exact ⟨before ++ new ++ rest,
        ⟨before, rest, by simp [lineEq, wordEq], ends,
          Text.startsWithWord_left starts, absent, rfl⟩, by simp⟩
    · have visible :=
        not_isSpace_of_mem_identifier identifies
          (by simp [wordEq] : last ∈ word)
      rw [spaces last (by simp [spaceEq])] at visible
      cases visible
  · intro parts
    obtain ⟨_, ⟨before, after, rfl, ends, starts, absent, rfl⟩, rfl⟩ := parts
    exact ⟨before, after ++ space, by simp, ends,
      Text.startsWithWord_append starts (Text.startsWithWord_of_spaces spaces),
      absent, by simp⟩

theorem toggleLine_append_space (line : Text)
    (spaces : ∀ character ∈ space, Text.isSpace character) :
    toggleLine (line ++ space) = toggleLine line ++ space := by
  rw [toggleLine, toggleLine]
  simp only [replaceFirst?_append_space (Direction.isIdentifier_keyword _)
    spaces]
  have searched : Direction.all.findSome? (fun direction =>
      ((Pattern.region (Pattern.wholeWord direction.keyword)).replaceFirst? line
        direction.toggled.keyword).map (· ++ space)) = _ :=
    (List.map_findSome? (g := (· ++ space))).symm
  rw [searched]
  cases Direction.all.findSome? _ <;> rfl

end Line

section Text

theorem toggleFirstLine_append {front : List Text}
    (visible : front.all Text.isBlank = false) (rest : List Text) :
    toggleFirstLine (front ++ rest) = toggleFirstLine front ++ rest := by
  induction front with
  | nil => cases visible
  | cons line front induction =>
      rw [List.cons_append, toggleFirstLine, toggleFirstLine]
      cases blank : Text.isBlank line with
      | false => rfl
      | true =>
          rw [List.all_cons, blank, Bool.true_and] at visible
          rw [if_pos rfl, if_pos rfl, induction visible, List.cons_append]

/-- What follows a text is not toggled with it if it is blank up to its first
line feed. -/
theorem toggleDirection_append {body tail : Text}
    (visible : Text.isBlank body = false)
    (blank : (Text.lines tail).head?.all Text.isBlank) :
    toggleDirection (body ++ tail) = toggleDirection body ++ tail := by
  obtain ⟨front, last, first, rest, bodyLines, tailLines, wholeLines⟩ :=
    Text.exists_lines_append body tail
  have tailEq : tail = first ++ rest.flatMap ('\n' :: ·) := by
    rw [← Text.joinLines_lines tail, tailLines, Text.joinLines_cons]
  rw [tailLines] at blank
  rw [toggleDirection, toggleDirection, bodyLines, wholeLines, tailEq]
  cases above : front.all Text.isBlank with
  | false =>
      rw [toggleFirstLine_append above, toggleFirstLine_append above,
        Text.joinLines_append_cons, Text.joinLines_append_cons]
      simp
  | true =>
      have lastVisible : Text.isBlank last = false := by
        rw [Text.isBlank_eq_all_lines, bodyLines, List.all_append, above]
          at visible
        simpa using visible
      have joinedVisible : Text.isBlank (last ++ first) = false := by
        rw [Text.isBlank_append, lastVisible, Bool.false_and]
      have firstSpaces : ∀ character ∈ first, Text.isSpace character := by
        simpa [Text.isBlank] using blank
      have blanks := List.all_eq_true.mp above
      rw [toggleFirstLine_of_blank blanks, toggleFirstLine_of_blank blanks,
        toggleFirstLine, toggleFirstLine, if_neg (by simp [joinedVisible]),
        if_neg (by simp [lastVisible]),
        toggleLine_append_space last firstSpaces, Text.joinLines_append_cons,
        Text.joinLines_append_cons]
      simp

theorem getLast?_toggleDirection {body : Text}
    (visible : body.getLast?.any (!Text.isSpace ·)) :
    (toggleDirection body).getLast?.any (!Text.isSpace ·) := by
  rcases toggleDirection_eq_or_toggled body with
    same | ⟨before, direction, after, split, _, _, edited⟩
  · rwa [same]
  · by_cases empty : after = []
    · have identifies := direction.toggled.isIdentifier_keyword
      rw [edited, empty, List.append_nil,
        List.getLast?_append_of_ne_nil _ (ne_nil_of_isIdentifier identifies),
        List.getLast?_eq_some_getLast (ne_nil_of_isIdentifier identifies)]
      simpa using not_isSpace_of_mem_identifier identifies (List.getLast_mem _)
    · rw [split, List.getLast?_append_of_ne_nil _ empty] at visible
      rwa [edited, List.getLast?_append_of_ne_nil _ empty]

theorem toggleDirection_appendLine {text : Text}
    (visible : Text.isBlank text = false) (line : Text) :
    toggleDirection (Text.appendLine text line) =
      Text.appendLine (toggleDirection text) line := by
  obtain ⟨tail, split, spaces⟩ := Text.exists_trimEnd_append text
  have nonempty := Text.trimEnd_ne_nil visible
  have ends : (Text.trimEnd text).getLast?.any (!Text.isSpace ·) := by
    have trimmed := Text.getLast?_trimEnd text
    rw [List.getLast?_eq_some_getLast nonempty] at trimmed ⊢
    exact trimmed
  generalize Text.trimEnd text = body at split nonempty ends
  subst split
  have bodyVisible := Text.isBlank_eq_false_of_getLast? ends
  have blankTail : (Text.lines tail).head?.all Text.isBlank := by
    have blank := Text.isBlank_of_spaces spaces
    rw [Text.isBlank_eq_all_lines, List.all_eq_true] at blank
    cases pieces : Text.lines tail with
    | nil => rfl
    | cons first rest => exact blank first (by simp [pieces])
  have blankBelow :
      (Text.lines
          (Text.trimEnd tail ++ '\n' :: line ++ Text.finalBreak tail)).head?.all
        Text.isBlank := by
    have trimmed : Text.trimEnd ([] ++ tail) = Text.trimEnd [] :=
      Text.trimEnd_append_of_isSpace spaces
    rw [List.nil_append] at trimmed
    rw [trimmed]
    exact congrArg (·.head?.all Text.isBlank)
      (Text.lines_lineFeed_cons (line ++ Text.finalBreak tail))
  rw [Text.appendLine_append ends,
    toggleDirection_append bodyVisible blankBelow,
    toggleDirection_append bodyVisible blankTail,
    Text.appendLine_append (getLast?_toggleDirection ends)]

end Text

end DiagramEdit
