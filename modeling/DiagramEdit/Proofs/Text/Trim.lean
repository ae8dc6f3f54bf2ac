import DiagramEdit.Text.WhiteSpace
import Mathlib.Data.List.TakeWhile

/-!
# Trimmed texts

Trimming takes white space from the ends of a text and leaves a text that
neither begins nor ends with any.  What ends in something visible keeps what
stands before.
-/

namespace DiagramEdit.Text

theorem exists_trimEnd_append (text : Text) :
    ∃ space, text = trimEnd text ++ space ∧
      ∀ character ∈ space, isSpace character := by
  refine ⟨(text.reverse.takeWhile isSpace).reverse, ?_, ?_⟩
  · rw [trimEnd, ← List.reverse_append, List.takeWhile_append_dropWhile,
      List.reverse_reverse]
  · intro character member
    exact List.mem_takeWhile_imp (List.mem_reverse.mp member)

theorem exists_append_trimStart (text : Text) :
    ∃ space, text = space ++ trimStart text ∧
      ∀ character ∈ space, isSpace character :=
  ⟨text.takeWhile isSpace, List.takeWhile_append_dropWhile.symm,
    fun _ member => List.mem_takeWhile_imp member⟩

theorem trimEnd_append_of_isSpace {text space : Text}
    (spaces : ∀ character ∈ space, isSpace character) :
    trimEnd (text ++ space) = trimEnd text := by
  have reversed : ∀ character ∈ space.reverse, isSpace character := by
    intro character member
    exact spaces character (List.mem_reverse.mp member)
  rw [trimEnd, List.reverse_append, List.dropWhile_append_of_pos reversed,
    trimEnd]

theorem trimEnd_append_singleton {text : Text} {character : Char}
    (visible : isSpace character = false) :
    trimEnd (text ++ [character]) = text ++ [character] := by
  simp [trimEnd, visible]

theorem trimEnd_append_of_not_isBlank {text last : Text}
    (visible : isBlank last = false) :
    trimEnd (text ++ last) = text ++ trimEnd last := by
  have someVisible : ¬∀ character ∈ last.reverse, isSpace character := by
    intro spaces
    have blank : isBlank last = true := by
      simpa [isBlank] using spaces
    rw [visible] at blank
    cases blank
  have nonempty : (last.reverse.dropWhile isSpace) ≠ [] := by
    intro empty
    exact someVisible (List.dropWhile_eq_nil_iff.mp empty)
  rw [trimEnd, List.reverse_append, List.dropWhile_append,
    if_neg (by simpa using nonempty), trimEnd, List.reverse_append,
    List.reverse_reverse]

theorem isBlank_eq_false_of_getLast? {text : Text}
    (visible : text.getLast?.any (!isSpace ·)) :
    isBlank text = false := by
  rcases List.eq_nil_or_concat text with rfl | ⟨text, last, rfl⟩
  · cases visible
  · rw [List.concat_eq_append, List.getLast?_concat] at visible
    have seen : isSpace last = false := by simpa using visible
    simp [isBlank, seen]

theorem trimEnd_ne_nil {text : Text} (visible : isBlank text = false) :
    trimEnd text ≠ [] := by
  intro empty
  obtain ⟨space, split, spaces⟩ := exists_trimEnd_append text
  have blank : isBlank text = true := by
    rw [split, empty]
    simpa [isBlank] using spaces
  rw [visible] at blank
  cases blank

theorem getLast?_trimEnd (text : Text) :
    (trimEnd text).getLast?.all (!isSpace ·) := by
  have stops := List.head?_dropWhile_not isSpace text.reverse
  rw [trimEnd, List.getLast?_reverse]
  cases first : (text.reverse.dropWhile isSpace).head? with
  | none => rfl
  | some character => simp_all

theorem head?_trimStart (text : Text) :
    (trimStart text).head?.all (!isSpace ·) := by
  have stops := List.head?_dropWhile_not isSpace text
  rw [trimStart]
  cases first : (text.dropWhile isSpace).head? with
  | none => rfl
  | some character => simp_all

theorem trimEnd_eq_self {text : Text}
    (visible : text.getLast?.all (!isSpace ·)) :
    trimEnd text = text := by
  rcases List.eq_nil_or_concat text with rfl | ⟨text, character, rfl⟩
  · rfl
  · rw [List.concat_eq_append] at visible ⊢
    exact trimEnd_append_singleton (by simpa using visible)

/-- What ends in something visible stays when white space is trimmed behind
it. -/
theorem trimEnd_append_of_visible {front : Text}
    (visible : front.getLast?.any (!isSpace ·)) (rest : Text) :
    trimEnd (front ++ rest) = front ++ trimEnd rest := by
  cases blank : isBlank rest with
  | false => exact trimEnd_append_of_not_isBlank blank
  | true =>
      have spaces := List.all_eq_true.mp blank
      have nothing : trimEnd ([] ++ rest) = trimEnd [] :=
        trimEnd_append_of_isSpace spaces
      rw [List.nil_append] at nothing
      have kept : trimEnd front = front := by
        apply trimEnd_eq_self
        cases last : front.getLast? with
        | none => rfl
        | some character => simpa [last] using visible
      rw [trimEnd_append_of_isSpace spaces, kept, nothing]
      exact (List.append_nil front).symm

theorem trimStart_eq_self {text : Text}
    (visible : text.head?.all (!isSpace ·)) :
    trimStart text = text := by
  cases text with
  | nil => rfl
  | cons character text =>
      rw [trimStart, List.dropWhile_cons_of_neg]
      simpa using visible

theorem head?_trimEnd {text : Text} (visible : text.head?.all (!isSpace ·)) :
    (trimEnd text).head?.all (!isSpace ·) := by
  obtain ⟨space, split, spaces⟩ := exists_trimEnd_append text
  cases trimmed : trimEnd text with
  | nil => rfl
  | cons character rest =>
      rw [split, trimmed] at visible
      simpa using visible

theorem trim_eq_self_iff {text : Text} :
    trim text = text ↔
      text.head?.all (!isSpace ·) ∧ text.getLast?.all (!isSpace ·) := by
  constructor
  · intro trimmed
    have starts := head?_trimEnd (head?_trimStart text)
    have ends := getLast?_trimEnd (trimStart text)
    change (trim text).head?.all (!isSpace ·) at starts
    change (trim text).getLast?.all (!isSpace ·) at ends
    rw [trimmed] at starts ends
    exact ⟨starts, ends⟩
  · intro parts
    obtain ⟨starts, ends⟩ := parts
    rw [trim, trimStart_eq_self starts, trimEnd_eq_self ends]

theorem trim_trim (text : Text) : trim (trim text) = trim text :=
  trim_eq_self_iff.mpr
    ⟨head?_trimEnd (head?_trimStart text), getLast?_trimEnd _⟩

theorem mem_of_mem_trim {text : Text} {character : Char}
    (member : character ∈ trim text) :
    character ∈ text := by
  have inStart : character ∈ trimStart text := by
    obtain ⟨space, split, _⟩ := exists_trimEnd_append (trimStart text)
    rw [split]
    exact List.mem_append_left _ member
  exact (List.dropWhile_suffix isSpace).mem inStart

/-- What comes first in a text does not depend on what is appended, unless it is
blank. -/
theorem head?_trimStart_append {text : Text} (visible : isBlank text = false)
    (rest : Text) :
    (trimStart (text ++ rest)).head? = (trimStart text).head? := by
  have nonempty : (text.dropWhile isSpace).isEmpty = false := by
    rw [Bool.eq_false_iff]
    intro empty
    have blank : isBlank text = true := by
      simpa [isBlank]
        using List.dropWhile_eq_nil_iff.mp (List.isEmpty_iff.mp empty)
    rw [visible] at blank
    cases blank
  rw [trimStart, List.dropWhile_append, nonempty, trimStart]
  cases first : text.dropWhile isSpace with
  | nil => simp [first] at nonempty
  | cons character more => rfl

theorem trimStart_append_of_isSpace {space text : Text}
    (spaces : ∀ character ∈ space, isSpace character) :
    trimStart (space ++ text) = trimStart text :=
  List.dropWhile_append_of_pos spaces

theorem isBlank_append (left right : Text) :
    isBlank (left ++ right) = (isBlank left && isBlank right) :=
  List.all_append

theorem isBlank_of_spaces {space : Text}
    (spaces : ∀ character ∈ space, isSpace character) :
    isBlank space := by
  simpa [isBlank] using spaces

theorem isBlank_trimEnd (text : Text) :
    isBlank (trimEnd text) = isBlank text := by
  obtain ⟨space, split, spaces⟩ := exists_trimEnd_append text
  have whole := congrArg isBlank split
  rw [isBlank_append, isBlank_of_spaces spaces, Bool.and_true] at whole
  exact whole.symm

theorem trim_ne_nil {text : Text} (visible : isBlank text = false) :
    trim text ≠ [] := by
  apply trimEnd_ne_nil
  cases rest : trimStart text with
  | nil =>
      have blank : isBlank text = true := by
        simpa [isBlank] using List.dropWhile_eq_nil_iff.mp rest
      rw [visible] at blank
      cases blank
  | cons character rest =>
      have starts := head?_trimStart text
      rw [trimStart] at rest
      rw [trimStart, rest] at starts
      have visibleFirst : isSpace character = false := by simpa using starts
      simp [isBlank, visibleFirst]

end DiagramEdit.Text
