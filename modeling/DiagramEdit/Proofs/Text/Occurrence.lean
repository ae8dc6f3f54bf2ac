import DiagramEdit.Proofs.Text.Replacement
import Mathlib.Data.Nat.Find

/-!
# How often a text is replaced

A replacement goes from one occurrence to the next that does not overlap it.
Each of them changes the length of the text by the same amount and, where the
lengths agree, the same number of characters, so the result is that of one
replacement only if there is no second one.
-/

namespace DiagramEdit.Text

/-- The text stands in another one at two places that do not overlap. -/
def OccursTwice (old text : Text) : Prop :=
  ∃ before middle after, text = before ++ old ++ middle ++ old ++ after

/-- The edited text is the other one with the new text at one place of the
old. -/
def ReplacedAtOnePlace (old new text edited : Text) : Prop :=
  ∃ before after, text = before ++ old ++ after ∧
    edited = before ++ new ++ after

/-- The edited text is the other one with its leftmost occurrence replaced, then
the leftmost one behind that, and so on until there is none. -/
inductive ReplacedTimes (old new : Text) : Nat → Text → Text → Prop where
  | never {text : Text} (absent : ¬old <:+: text) :
      ReplacedTimes old new 0 text text
  | next {count : Nat} {front rest edited : Text}
      (leftmost : ∀ before after,
        front ++ old ++ rest = before ++ old ++ after →
          front.length ≤ before.length)
      (onward : ReplacedTimes old new count rest edited) :
      ReplacedTimes old new (count + 1) (front ++ old ++ rest)
        (front ++ new ++ edited)

variable {old new text edited : Text} {count : Nat}

theorem exists_leftmost_of_infix (occurs : old <:+: text) :
    ∃ front rest, text = front ++ old ++ rest ∧
      ∀ before after, text = before ++ old ++ after →
        front.length ≤ before.length := by
  have places : ∃ length, ∃ before after, text = before ++ old ++ after ∧
      before.length = length := by
    obtain ⟨before, after, split⟩ := occurs
    exact ⟨_, before, after, split.symm, rfl⟩
  classical
  obtain ⟨front, rest, split, isLeast⟩ := Nat.find_spec places
  refine ⟨front, rest, split, ?_⟩
  intro before after cut
  rw [isLeast]
  exact Nat.find_min' places ⟨before, after, cut, rfl⟩

/-- In front of the leftmost occurrence nothing is replaced. -/
theorem replaceAll_of_leftmost {front rest : Text} (nonempty : old ≠ [])
    (leftmost : ∀ before after, front ++ old ++ rest = before ++ old ++ after →
      front.length ≤ before.length) :
    replaceAll old new (front ++ old ++ rest) =
      front ++ new ++ replaceAll old new rest := by
  rw [List.append_assoc, replaceAll_append_of_behind,
    replaceAll_append nonempty, List.append_assoc]
  intro before after split
  rw [← List.append_assoc] at split
  have shorter := leftmost before after split
  simp only [List.append_assoc] at split
  exact List.prefix_of_prefix_length_le (List.prefix_append front _)
    (split ▸ List.prefix_append before _) shorter

theorem replaceAll_of_absent (absent : ¬old <:+: text) :
    replaceAll old new text = text := by
  have unchanged :
      replaceAll old new (text ++ []) = text ++ replaceAll old new [] := by
    apply replaceAll_append_of_behind
    intro before after split
    rw [List.append_nil] at split
    exact absurd ⟨before, after, split.symm⟩ absent
  have empty : replaceAll old new [] = [] := rfl
  rwa [empty, List.append_nil] at unchanged

/-- Replacing everywhere is replacing one occurrence after the other. -/
theorem exists_replacedTimes (nonempty : old ≠ []) (text : Text) :
    ∃ count, ReplacedTimes old new count text (replaceAll old new text) := by
  induction size : text.length using Nat.strongRecOn generalizing text with
  | ind length induction =>
      by_cases occurs : old <:+: text
      · obtain ⟨front, rest, rfl, leftmost⟩ := exists_leftmost_of_infix occurs
        have shorter : rest.length < length := by
          have positive := List.length_pos_iff.mpr nonempty
          rw [← size, List.length_append, List.length_append]
          omega
        obtain ⟨count, onward⟩ := induction _ shorter rest rfl
        rw [replaceAll_of_leftmost nonempty leftmost]
        exact ⟨count + 1, .next leftmost onward⟩
      · rw [replaceAll_of_absent occurs]
        exact ⟨0, .never occurs⟩

/-- The number of places at which two texts of one length differ. -/
def changes (left right : Text) : Nat :=
  (left.zip right).countP fun pair => pair.1 != pair.2

theorem changes_append {left right left' right' : Text}
    (sameLength : left.length = left'.length) :
    changes (left ++ right) (left' ++ right') =
      changes left left' + changes right right' := by
  rw [changes, List.zip_append sameLength, List.countP_append]
  rfl

theorem changes_self (text : Text) : changes text text = 0 := by
  induction text with
  | nil => rfl
  | cons character text induction =>
      rw [changes, List.zip_cons_cons, List.countP_cons_of_neg (by simp)]
      exact induction

theorem changes_pos {left right : Text}
    (sameLength : left.length = right.length) (differs : left ≠ right) :
    0 < changes left right := by
  induction left generalizing right with
  | nil =>
      rw [List.length_nil, eq_comm, List.length_eq_zero_iff] at sameLength
      exact absurd sameLength.symm differs
  | cons first left induction =>
      cases right with
      | nil => cases sameLength
      | cons second right =>
          rw [changes, List.zip_cons_cons, List.countP_cons]
          by_cases same : first = second
          · have rests : left ≠ right :=
              fun equal => differs (by rw [same, equal])
            have inRests := induction (Nat.succ.inj sameLength) rests
            rw [changes] at inRests
            omega
          · simp [same]

namespace ReplacedTimes

theorem length_eq (replaced : ReplacedTimes old new count text edited) :
    edited.length + count * old.length = text.length + count * new.length := by
  induction replaced with
  | never absent => simp
  | next leftmost onward induction =>
      simp only [List.length_append, Nat.add_mul, Nat.one_mul]
      omega

theorem changes_eq (replaced : ReplacedTimes old new count text edited)
    (sameLength : old.length = new.length) :
    text.length = edited.length ∧
      changes text edited = count * changes old new := by
  induction replaced with
  | never absent => exact ⟨rfl, by rw [changes_self, Nat.zero_mul]⟩
  | next leftmost onward induction =>
      obtain ⟨lengths, counted⟩ := induction
      refine ⟨by simp only [List.length_append, sameLength, lengths], ?_⟩
      rw [changes_append (by simp only [List.length_append, sameLength]),
        changes_append rfl, changes_self, counted, Nat.add_mul, Nat.one_mul]
      omega

theorem pos (replaced : ReplacedTimes old new count text edited)
    (occurs : old <:+: text) :
    0 < count := by
  cases replaced with
  | never absent => exact absurd occurs absent
  | next leftmost onward => exact Nat.succ_pos _

theorem one_lt (replaced : ReplacedTimes old new count text edited)
    (twice : OccursTwice old text) :
    1 < count := by
  obtain ⟨before, middle, after, split⟩ := twice
  cases replaced with
  | never absent =>
      apply absurd _ absent
      refine ⟨before, middle ++ old ++ after, ?_⟩
      rw [split]
      simp only [List.append_assoc]
  | @next count front rest edited leftmost onward =>
      have first := leftmost before (middle ++ old ++ after) (by
        rw [split]
        simp only [List.append_assoc])
      rw [List.append_assoc (before ++ old ++ middle)] at split
      have further : front ++ old <+: before ++ old ++ middle := by
        apply List.prefix_of_prefix_length_le (List.prefix_append _ rest)
        · rw [split]
          exact List.prefix_append _ _
        · simp only [List.length_append]
          omega
      obtain ⟨more, moreEq⟩ := further
      rw [← moreEq, List.append_assoc (front ++ old)] at split
      have behind := List.append_cancel_left split
      exact Nat.succ_lt_succ
        (onward.pos ⟨more, after, by rw [behind, List.append_assoc]⟩)

theorem one_place (replaced : ReplacedTimes old new count text edited)
    (occurs : old <:+: text) (once : ¬OccursTwice old text) :
    ReplacedAtOnePlace old new text edited := by
  cases replaced with
  | never absent => exact absurd occurs absent
  | @next count front rest edited leftmost onward =>
      cases onward with
      | never absent => exact ⟨front, rest, rfl, rfl⟩
      | @next count middle after behind _ _ =>
          apply absurd _ once
          refine ⟨front, middle, after, ?_⟩
          simp only [List.append_assoc]

theorem le_one (replaced : ReplacedTimes old new count text edited)
    (differs : old ≠ new) (place : ReplacedAtOnePlace old new text edited) :
    count ≤ 1 := by
  obtain ⟨before, after, textEq, editedEq⟩ := place
  have lengths := replaced.length_eq
  rw [textEq, editedEq] at lengths
  simp only [List.length_append] at lengths
  by_cases sameLength : old.length = new.length
  · obtain ⟨_, counted⟩ := replaced.changes_eq sameLength
    rw [textEq, editedEq,
      changes_append (by simp only [List.length_append, sameLength]),
      changes_append rfl, changes_self, changes_self, Nat.zero_add,
      Nat.add_zero] at counted
    have positive := changes_pos sameLength differs
    exact Nat.le_of_mul_le_mul_right (by omega) positive
  · by_contra several
    obtain ⟨more, rfl⟩ : ∃ more, count = more + 2 := ⟨count - 2, by omega⟩
    -- One replacement accounts for the whole difference in length, so the
    -- others change none.
    have others : (more + 1) * old.length = (more + 1) * new.length := by
      simp only [Nat.add_mul] at lengths ⊢
      omega
    exact sameLength (Nat.eq_of_mul_eq_mul_left (Nat.succ_pos more) others)

end ReplacedTimes

/-- Replacing everywhere changes one place exactly if there is no second
occurrence. -/
theorem replaceAll_one_place_iff (nonempty : old ≠ []) (differs : old ≠ new)
    (occurs : old <:+: text) :
    ReplacedAtOnePlace old new text (replaceAll old new text) ↔
      ¬OccursTwice old text := by
  obtain ⟨count, replaced⟩ :
      ∃ count, ReplacedTimes old new count text (replaceAll old new text) :=
    exists_replacedTimes nonempty text
  constructor
  · intro place twice
    exact absurd (replaced.one_lt twice)
      (Nat.not_lt.mpr (replaced.le_one differs place))
  · intro once
    exact replaced.one_place occurs once

end DiagramEdit.Text
