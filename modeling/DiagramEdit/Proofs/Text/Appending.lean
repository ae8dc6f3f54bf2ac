import DiagramEdit.Proofs.Text.Words

/-!
# Appending a line

Only the white space at the end of a text gives way to a line that is appended.
So what ends in something visible stands in the new text where it stood before,
and something visible in the new text stood in the old one or is on the new
line.
-/

namespace DiagramEdit.Text

/-- What comes between the visible part of a text and a line that is
appended. -/
def lineLead (text : Text) : Text :=
  if (trimEnd text).isEmpty then [] else ['\n']

theorem isSpace_of_mem_lineLead {text : Text} {character : Char}
    (member : character ∈ lineLead text) :
    isSpace character := by
  rw [lineLead] at member
  split at member
  · cases member
  · rw [List.mem_singleton.mp member]
    decide

theorem isSpace_of_mem_finalBreak {text : Text} {character : Char}
    (member : character ∈ finalBreak text) : isSpace character := by
  rw [finalBreak] at member
  split at member
  · rw [List.mem_singleton.mp member]
    decide
  · cases member

theorem appendLine_eq_append (text line : Text) :
    appendLine text line =
      trimEnd text ++ (lineLead text ++ (line ++ finalBreak text)) := by
  rw [appendLine, lineLead, finalBreak]
  cases whole : trimEnd text with
  | nil => simp
  | cons first rest => simp

theorem exists_trimEnd_append_cons {front rest : Text} {character : Char}
    (visible : isSpace character = false) :
    ∃ more, more <+: rest ∧
      trimEnd (front ++ character :: rest) = front ++ character :: more := by
  have notBlank : isBlank (character :: rest) = false := by
    simp [isBlank, visible]
  rw [trimEnd_append_of_not_isBlank notBlank]
  obtain ⟨space, split, spaces⟩ := exists_trimEnd_append (character :: rest)
  cases trimmed : trimEnd (character :: rest) with
  | nil => exact absurd trimmed (trimEnd_ne_nil notBlank)
  | cons first more =>
      rw [trimmed] at split
      obtain ⟨same, restEq⟩ := List.cons.inj split
      exact ⟨more, ⟨space, restEq.symm⟩, by rw [same]⟩

/-- What ends in a visible character stays, and a line feed comes before the new
line. -/
theorem exists_appendLine_eq_append_cons {text front rest : Text}
    {character : Char} (visible : isSpace character = false)
    (split : text = front ++ character :: rest) (line : Text) :
    ∃ more behind, more <+: rest ∧
      appendLine text line =
        front ++ character :: (more ++ '\n' :: behind) := by
  have kept :
      ∃ more, more <+: rest ∧ trimEnd text = front ++ character :: more := by
    rw [split]
    exact exists_trimEnd_append_cons visible
  obtain ⟨more, isPrefix, trimmed⟩ := kept
  refine ⟨more, line ++ finalBreak text, isPrefix, ?_⟩
  rw [appendLine_eq_append, lineLead, trimmed]
  simp

/-- Something visible stood in the text before, or it is on the line that was
appended. -/
theorem appendLine_eq_append_cons {text line front rest : Text}
    {character : Char} (visible : isSpace character = false)
    (split : appendLine text line = front ++ character :: rest) :
    (∃ more, text = front ++ character :: more) ∨
      ∃ left right, line = left ++ character :: right ∧
        front = trimEnd text ++ lineLead text ++ left := by
  rw [appendLine_eq_append] at split
  rcases append_eq_append_cons_cases split with
    ⟨more, trimmed, _⟩ | ⟨behind, frontEq, behindEq⟩
  · left
    obtain ⟨space, whole, _⟩ := exists_trimEnd_append text
    exact ⟨more ++ space, by rw [whole, trimmed]; simp⟩
  · right
    rcases append_eq_append_cons_cases behindEq with
      ⟨_, leadEq, _⟩ | ⟨left, leadEq, lineEq⟩
    · have member : character ∈ lineLead text := by simp [leadEq]
      rw [isSpace_of_mem_lineLead member] at visible
      cases visible
    · rcases append_eq_append_cons_cases lineEq with
        ⟨right, whole, _⟩ | ⟨_, _, breakEq⟩
      · exact ⟨left, right, whole, by rw [frontEq, leadEq, List.append_assoc]⟩
      · have member : character ∈ finalBreak text := by simp [breakEq]
        rw [isSpace_of_mem_finalBreak member] at visible
        cases visible

/-- What ends in something visible is kept, and the line goes behind what
follows it. -/
theorem appendLine_append {front : Text}
    (visible : front.getLast?.any (!isSpace ·)) (rest line : Text) :
    appendLine (front ++ rest) line =
      front ++ (trimEnd rest ++ '\n' :: line ++ finalBreak rest) := by
  have notBlank : isBlank (front ++ rest) = false := by
    rw [isBlank_append, isBlank_eq_false_of_getLast? visible, Bool.false_and]
  have breaks : finalBreak (front ++ rest) = finalBreak rest := by
    by_cases empty : rest = []
    · rw [empty, List.append_nil, finalBreak_of_visible visible]
      rfl
    · rw [finalBreak, List.getLast?_append_of_ne_nil front empty, finalBreak]
  rw [appendLine_eq notBlank, trimEnd_append_of_visible visible, breaks]
  simp

theorem isPrefix_appendLine_iff {front text line : Text} {last : Char}
    (visible : isSpace last = false) (absent : last ∉ line) :
    front ++ [last] <+: appendLine text line ↔ front ++ [last] <+: text := by
  constructor
  · intro begins
    obtain ⟨rest, split⟩ := begins
    rw [List.append_assoc, List.singleton_append] at split
    rcases appendLine_eq_append_cons visible split.symm with
      ⟨more, whole⟩ | ⟨left, right, onLine, _⟩
    · exact ⟨more, by simp [whole]⟩
    · exact absurd (by simp [onLine]) absent
  · intro begins
    obtain ⟨rest, split⟩ := begins
    rw [List.append_assoc, List.singleton_append] at split
    obtain ⟨more, behind, _, appended⟩ :=
      exists_appendLine_eq_append_cons visible split.symm line
    exact ⟨more ++ '\n' :: behind, by simp [appended]⟩

theorem startsWithWord_of_isPrefix_append {more rest behind : Text}
    (stops : startsWithWord rest = false) (isPrefix : more <+: rest) :
    startsWithWord (more ++ '\n' :: behind) = false := by
  obtain ⟨rest', rfl⟩ := isPrefix
  apply startsWithWord_append (startsWithWord_left stops)
  simp [startsWithWord, isWordCharacter_lineFeed]

end DiagramEdit.Text
