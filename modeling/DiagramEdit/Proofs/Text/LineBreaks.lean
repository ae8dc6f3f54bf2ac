import DiagramEdit.Proofs.Text.Lines
import Mathlib.Data.List.Basic

/-!
# Line feeds behind carriage returns

A text keeps to one kind of line break if each of its line feeds stands behind a
carriage return.  For the lines of the text this says that every line but the
last one ends in a carriage return.  Replacing a part keeps it unless the rest
begins with a line feed; a line that is appended is set off by a bare line feed.
-/

namespace DiagramEdit.Text

/-- Every line feed of the text stands behind a carriage return. -/
def BreaksReturned (text : Text) : Prop :=
  ∀ before after, text = before ++ '\n' :: after → before.getLast? = some '\r'

theorem getLast?_of_append_cons {left right : Text} {separator last : Char}
    (ends : (left ++ separator :: right).getLast? = some last)
    (different : separator ≠ last) :
    right.getLast? = some last := by
  cases right with
  | nil => exact absurd (by simpa using ends) different
  | cons first right =>
      rwa [List.getLast?_append_of_ne_nil _ (by simp), List.getLast?_cons_cons]
        at ends

section BreaksReturned

variable {text left right before old new rest line : Text} {pieces : List Text}

theorem breaksReturned_of_not_mem (oneLine : '\n' ∉ text) :
    BreaksReturned text := by
  intro before after split
  exact absurd (by simp [split]) oneLine

theorem BreaksReturned.of_append (returned : BreaksReturned (left ++ right)) :
    BreaksReturned left := by
  intro before after split
  exact returned before (after ++ right) (by simp [split])

theorem breaksReturned_append_iff (starts : right.head? ≠ some '\n') :
    BreaksReturned (left ++ right) ↔
      BreaksReturned left ∧ BreaksReturned right := by
  constructor
  · intro returned
    refine ⟨returned.of_append, ?_⟩
    intro before after split
    have nonempty : before ≠ [] := by
      intro empty
      exact starts (by simp [split, empty])
    have ends := returned (left ++ before) after (by simp [split])
    rwa [List.getLast?_append_of_ne_nil _ nonempty] at ends
  · intro parts before after split
    rcases append_eq_append_cons_cases split with
      ⟨more, leftEq, _⟩ | ⟨front, rfl, rightEq⟩
    · exact parts.1 before more leftEq
    · have ends := parts.2 front after rightEq
      rw [List.getLast?_append, ends, Option.some_or]

theorem breaksReturned_append_cons_iff :
    BreaksReturned (left ++ '\n' :: right) ↔
      BreaksReturned left ∧ left.getLast? = some '\r' ∧
        BreaksReturned right := by
  constructor
  · intro returned
    refine ⟨returned.of_append, returned left right rfl, ?_⟩
    intro before after split
    have ends := returned (left ++ '\n' :: before) after (by simp [split])
    exact getLast?_of_append_cons ends (by decide)
  · intro parts before after split
    rcases append_eq_append_cons_cases split with
      ⟨more, leftEq, _⟩ | ⟨front, rfl, rightEq⟩
    · exact parts.1 before more leftEq
    · cases front with
      | nil => simpa using parts.2.1
      | cons first front =>
          obtain ⟨rfl, restEq⟩ := List.cons.inj rightEq
          have ends := parts.2.2 front after restEq
          rw [List.append_cons, List.getLast?_append, ends, Option.some_or]

/-- The lines between line feeds end in carriage returns. -/
theorem breaksReturned_joinLines_iff (oneLine : ∀ line ∈ pieces, '\n' ∉ line) :
    BreaksReturned (joinLines pieces) ↔
      ∀ line ∈ pieces.dropLast, line.getLast? = some '\r' := by
  induction pieces with
  | nil => simpa using breaksReturned_of_not_mem (by simp [joinLines])
  | cons line rest induction =>
      have alone := breaksReturned_of_not_mem (oneLine line (by simp))
      have induction :=
        induction fun other member => oneLine other (by simp [member])
      cases rest with
      | nil => simpa [joinLines] using alone
      | cons next rest =>
          have joined : joinLines (line :: next :: rest) =
              line ++ '\n' :: joinLines (next :: rest) := by
            simp [joinLines_cons]
          rw [joined, breaksReturned_append_cons_iff, induction]
          simp [alone]

theorem breaksReturned_iff_lines :
    BreaksReturned text ↔
      ∀ line ∈ (lines text).dropLast, line.getLast? = some '\r' := by
  have joined :=
    breaksReturned_joinLines_iff fun line (member : line ∈ lines text) =>
      not_mem_of_mem_lines member
  rwa [joinLines_lines] at joined

instance (text : Text) : Decidable (BreaksReturned text) :=
  decidable_of_iff _ breaksReturned_iff_lines.symm

/-- Of the lines that remain, the last one may have stood in front of others. -/
theorem BreaksReturned.of_sublist {kept : List Text}
    (oneLine : ∀ line ∈ pieces, '\n' ∉ line)
    (returned : BreaksReturned (joinLines pieces))
    (sublist : kept.Sublist pieces) :
    BreaksReturned (joinLines kept) := by
  rw [breaksReturned_joinLines_iff oneLine] at returned
  rw [breaksReturned_joinLines_iff fun line member =>
    oneLine line (sublist.subset member)]
  have inner : kept.dropLast.Sublist pieces.dropLast := by
    simpa using sublist.reverse.tail.reverse
  exact fun line member => returned line (inner.subset member)

theorem BreaksReturned.head?_ne (returned : BreaksReturned (before ++ rest))
    (ends : before.getLast? ≠ some '\r') : rest.head? ≠ some '\n' := by
  intro starts
  obtain ⟨after, rfl⟩ := List.head?_eq_some_iff.mp starts
  exact ends (returned before after rfl)

theorem BreaksReturned.replace_of_head?_ne
    (returned : BreaksReturned (before ++ old ++ rest))
    (starts : rest.head? ≠ some '\n') (oneLine : '\n' ∉ new) :
    BreaksReturned (before ++ new ++ rest) := by
  obtain ⟨kept, after⟩ := (breaksReturned_append_iff starts).mp returned
  have newStarts : new.head? ≠ some '\n' :=
    fun first => oneLine (List.mem_of_head? first)
  rw [breaksReturned_append_iff starts, breaksReturned_append_iff newStarts]
  exact ⟨⟨kept.of_append, breaksReturned_of_not_mem oneLine⟩, after⟩

/-- What does not end in a carriage return can be replaced by anything on one
line. -/
theorem BreaksReturned.replace
    (returned : BreaksReturned (before ++ old ++ rest))
    (ends : (before ++ old).getLast? ≠ some '\r') (oneLine : '\n' ∉ new) :
    BreaksReturned (before ++ new ++ rest) :=
  returned.replace_of_head?_ne (returned.head?_ne ends) oneLine

/-- An appended line is set off by a line feed, in front of it or behind it. -/
def setsOff (text : Text) : Bool :=
  !isBlank text || text.getLast? == some '\n'

theorem getLast?_trimEnd_ne (text : Text) :
    (trimEnd text).getLast? ≠ some '\r' := by
  intro ends
  have visible := getLast?_trimEnd text
  rw [ends] at visible
  cases visible

/-- A line that is set off in a text is set off by a bare line feed. -/
theorem breaksReturned_appendLine_iff (oneLine : '\n' ∉ line)
    (ends : line.getLast? ≠ some '\r') :
    BreaksReturned (appendLine text line) ↔ setsOff text = false := by
  cases blank : isBlank text with
  | false =>
      rw [appendLine_eq blank, List.append_assoc, List.cons_append,
        breaksReturned_append_cons_iff]
      simp [setsOff, blank, getLast?_trimEnd_ne]
  | true =>
      have trimmed : trimEnd ([] ++ text) = trimEnd [] :=
        trimEnd_append_of_isSpace (List.all_eq_true.mp blank)
      change trimEnd text = [] at trimmed
      by_cases broken : text.getLast? = some '\n'
      · have closed : appendLine text line = line ++ '\n' :: [] := by
          simp [appendLine, trimmed, broken]
        rw [closed, breaksReturned_append_cons_iff]
        simp [setsOff, broken, ends]
      · have alone : appendLine text line = line := by
          simp [appendLine, trimmed, broken]
        rw [alone]
        simp [setsOff, broken, blank, breaksReturned_of_not_mem oneLine]

end BreaksReturned

end DiagramEdit.Text
