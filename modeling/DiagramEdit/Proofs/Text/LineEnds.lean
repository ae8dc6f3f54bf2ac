import DiagramEdit.Proofs.Text.Lines
import DiagramEdit.Proofs.Text.Search

/-!
# Where lines begin and end

A place begins a line if a line feed or nothing stands before it, and it ends
one if a line feed or nothing stands behind the blanks that follow.  The
beginnings of lines are the cuts of a text in front of one of its lines, so a
pattern that reads nowhere else is tried once for each line.
-/

namespace DiagramEdit.Text

/-- The text stops where a line begins. -/
def StartsLine (before : Text) : Prop :=
  before.getLast?.all (· == '\n')

/-- The text begins with the blanks at the end of a line. -/
def EndsLine (after : Text) : Prop :=
  ∃ blanks rest, after = blanks ++ rest ∧
    (∀ character ∈ blanks, isBlankCharacter character) ∧
    rest.head?.all (· == '\n')

theorem isSpace_of_isBlankCharacter {character : Char}
    (blank : isBlankCharacter character) :
    isSpace character := by
  simp only [isBlankCharacter, Bool.or_eq_true, beq_iff_eq] at blank
  rcases blank with rfl | rfl <;> decide

theorem isLineStart_cut_iff {before after : Text} :
    Place.isLineStart ⟨before.reverse, after⟩ ↔ StartsLine before := by
  rw [Place.isLineStart, StartsLine, List.head?_reverse]

theorem endsLine_of_head? {after : Text} (stops : after.head?.all (· == '\n')) :
    EndsLine after :=
  ⟨[], after, rfl, by simp, stops⟩

theorem head?_flatMap_lines (pieces : List Text) :
    (pieces.flatMap ('\n' :: ·)).head?.all (· == '\n') := by
  cases pieces <;> rfl

theorem startsLine_joined (earlier : List Text) :
    StartsLine (earlier.flatMap (· ++ ['\n'])) := by
  rcases List.eq_nil_or_concat earlier with rfl | ⟨earlier, last, rfl⟩
  · rfl
  · simp [StartsLine, ← List.append_assoc]

theorem flatMap_lines (text : Text) :
    (lines text).flatMap (· ++ ['\n']) = text ++ ['\n'] := by
  have joined := joinLines_append_cons (lines text) [] []
  rw [joinLines_append (lines_ne_nil text), joinLines_lines] at joined
  simpa using joined.symm

/-- A cut of joined lines where a line begins stands in front of one of them. -/
theorem joinLines_eq_append_of_startsLine {pieces : List Text}
    {before after : Text} (nonempty : pieces ≠ [])
    (oneLine : ∀ line ∈ pieces, '\n' ∉ line)
    (split : joinLines pieces = before ++ after) (starts : StartsLine before) :
    ∃ earlier line later, pieces = earlier ++ line :: later ∧
      before = earlier.flatMap (· ++ ['\n']) ∧
      after = line ++ later.flatMap ('\n' :: ·) := by
  rcases List.eq_nil_or_concat before with rfl | ⟨front, last, rfl⟩
  · obtain ⟨line, later, rfl⟩ := List.exists_cons_of_ne_nil nonempty
    exact ⟨[], line, later, rfl, rfl,
      by rw [← joinLines_cons, split, List.nil_append]⟩
  · rw [List.concat_eq_append] at split starts ⊢
    obtain rfl : last = '\n' := by simpa [StartsLine] using starts
    -- The lines of the text are those in front of the line feed and those
    -- behind it.
    obtain ⟨line, later, behind⟩ :=
      List.exists_cons_of_ne_nil (lines_ne_nil after)
    have afterEq : after = line ++ later.flatMap ('\n' :: ·) := by
      rw [← joinLines_cons, ← behind, joinLines_lines]
    refine ⟨lines front, line, later, ?_, (flatMap_lines front).symm, afterEq⟩
    have whole :
        joinLines pieces = joinLines (lines front ++ line :: later) := by
      rw [split, joinLines_append_cons, flatMap_lines, afterEq]
      simp only [List.append_assoc]
    have piecesEq := congrArg lines whole
    rw [lines_joinLines nonempty oneLine, lines_joinLines (by simp)] at piecesEq
    · exact piecesEq
    · intro other member
      rcases List.mem_append.mp member with above | below
      · exact not_mem_of_mem_lines above
      · exact not_mem_of_mem_lines (behind ▸ below)

theorem not_endsLine_append {piece after : Text} (oneLine : '\n' ∉ piece)
    (visible : piece.getLast?.any (!isSpace ·)) :
    ¬EndsLine (piece ++ after) := by
  have blankless :
      ∀ blanks : Text, (∀ character ∈ blanks, isBlankCharacter character) →
        piece <+: blanks → False := by
    intro blanks blank isPrefix
    cases last : piece.getLast? with
    | none =>
        rw [last] at visible
        cases visible
    | some character =>
        have member := isPrefix.subset (List.mem_of_getLast? last)
        rw [last, Option.any_some,
          isSpace_of_isBlankCharacter (blank character member)] at visible
        cases visible
  intro ends
  obtain ⟨blanks, rest, split, blank, stops⟩ := ends
  rcases List.append_eq_append_iff.mp split with
    ⟨more, blanksEq, _⟩ | ⟨more, pieceEq, restEq⟩
  · exact blankless blanks blank ⟨more, blanksEq.symm⟩
  · cases more with
    | nil => exact blankless blanks blank ⟨[], by simp [pieceEq]⟩
    | cons first more =>
        obtain rfl : first = '\n' := by simpa [restEq] using stops
        exact oneLine (by simp [pieceEq])

end DiagramEdit.Text

namespace DiagramEdit.Pattern

variable {α : Type} {pattern : Pattern α}

theorem lineStart_written {before : Text} (starts : Text.StartsLine before)
    (after : Text) :
    check Place.isLineStart ⟨before.reverse, after⟩ =
      some ((), ⟨before.reverse, after⟩) :=
  check_eq_some_iff.mpr ⟨Text.isLineStart_cut_iff.mpr starts, rfl⟩

/-- A pattern that reads only where lines begin reads the first line on which it
does. -/
theorem first?_joinLines {earlier later : List Text} {line : Text} {value : α}
    {stop : Place}
    (atLineStart : ∀ before after, ¬Text.StartsLine before →
      pattern ⟨before.reverse, after⟩ = none)
    (oneLine : ∀ other ∈ earlier ++ line :: later, '\n' ∉ other)
    (fails : ∀ front other back, earlier = front ++ other :: back →
      pattern ⟨(front.flatMap (· ++ ['\n'])).reverse,
          other ++ (back ++ line :: later).flatMap ('\n' :: ·)⟩ = none)
    (read : pattern ⟨(earlier.flatMap (· ++ ['\n'])).reverse,
        line ++ later.flatMap ('\n' :: ·)⟩ = some (value, stop)) :
    pattern.first? (Text.joinLines (earlier ++ line :: later)) =
      some value := by
  refine first?_eq_some_iff.mpr ⟨_, _, stop, ?_, read, ?_⟩
  · rw [Text.joinLines_append_cons, List.append_assoc]
  · intro shorter character more cut
    by_cases starts : Text.StartsLine shorter
    · have split : Text.joinLines (earlier ++ line :: later) =
          shorter ++
            (character :: more ++ (line ++ later.flatMap ('\n' :: ·))) := by
        rw [Text.joinLines_append_cons, cut]
        simp
      obtain ⟨front, other, back, pieces, rfl, behind⟩ :=
        Text.joinLines_eq_append_of_startsLine (by simp) oneLine split starts
      rw [behind]
      rcases Text.append_eq_append_cons_cases pieces with
        ⟨rest, earlierEq, rfl⟩ | ⟨rest, rfl, _⟩
      · exact fails front other rest earlierEq
      · rw [List.flatMap_append, List.append_assoc] at cut
        simp at cut
    · exact atLineStart _ _ starts

end DiagramEdit.Pattern
