import DiagramEdit.Text.Pattern

/-!
# Replacing a text wherever it stands

Replacement goes through a text from left to right.  It writes the new text
where the old one begins, goes on behind it, and keeps every other character.
-/

namespace DiagramEdit.Text

variable {old new : Text}

theorem replaceFrom_append (passed rest : Text) :
    replaceFrom old new passed.length (passed ++ rest) =
      replaceFrom old new 0 rest := by
  induction passed with
  | nil => rfl
  | cons character passed induction => exact induction

theorem replaceAll_append (nonempty : old ≠ []) (rest : Text) :
    replaceAll old new (old ++ rest) = new ++ replaceAll old new rest := by
  obtain ⟨initial, more, rfl⟩ := List.exists_cons_of_ne_nil nonempty
  have begins : (initial :: more).isPrefixOf (initial :: (more ++ rest)) :=
    List.isPrefixOf_iff_prefix.mpr (List.prefix_append (initial :: more) rest)
  rw [replaceAll, List.cons_append, replaceFrom, if_pos begins]
  exact congrArg (new ++ ·) (replaceFrom_append more rest)

theorem replaceAll_cons {character : Char} {rest : Text}
    (absent : ¬old <+: character :: rest) :
    replaceAll old new (character :: rest) =
      character :: replaceAll old new rest := by
  rw [replaceAll, replaceFrom,
    if_neg fun begins => absent (List.isPrefixOf_iff_prefix.mp begins)]
  rfl

theorem replaceAll_append_of_behind {opening rest : Text}
    (behind : ∀ before after, opening ++ rest = before ++ old ++ after →
      opening <+: before) :
    replaceAll old new (opening ++ rest) =
      opening ++ replaceAll old new rest := by
  induction opening with
  | nil => rfl
  | cons character opening induction =>
      have absent : ¬old <+: character :: (opening ++ rest) := by
        intro begins
        obtain ⟨after, split⟩ := begins
        have impossible := behind [] after (by simp [split])
        simp at impossible
      rw [List.cons_append, replaceAll_cons absent, List.cons_append, induction]
      intro before after split
      have later := behind (character :: before) after (by simp [split])
      exact (List.cons_prefix_cons.mp later).2

/-- What one replacement keeps, wherever it is made, all replacements keep. -/
theorem replaceAll_induction {property : Text → Prop} (nonempty : old ≠ [])
    (step : ∀ before after, property (before ++ old ++ after) →
      property (before ++ new ++ after)) {text : Text} (holds : property text) :
    property (replaceAll old new text) := by
  -- Generalized over the text in front, where every replacement has been made.
  suffices onward : ∀ rest front, property (front ++ rest) →
      property (front ++ replaceAll old new rest) from onward text [] holds
  intro rest
  induction size : rest.length using Nat.strongRecOn generalizing rest with
  | ind length induction =>
      intro front holds
      by_cases begins : old <+: rest
      · obtain ⟨after, rfl⟩ := begins
        have shorter : after.length < length := by
          have positive := List.length_pos_iff.mpr nonempty
          rw [List.length_append] at size
          omega
        rw [replaceAll_append nonempty, ← List.append_assoc]
        apply induction _ shorter after rfl
        exact step front after (by simpa using holds)
      · cases rest with
        | nil => exact holds
        | cons character rest =>
            have shorter : rest.length < length := by
              rw [← size, List.length_cons]
              exact Nat.lt_succ_self _
            rw [replaceAll_cons begins, List.append_cons]
            apply induction _ shorter rest rfl
            rwa [← List.append_cons]

end DiagramEdit.Text
