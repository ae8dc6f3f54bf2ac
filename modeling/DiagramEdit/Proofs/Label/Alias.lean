import DiagramEdit.Proofs.Label

/-!
# The alias of a declared participant

The alias that is read for an identifier can be rewritten where it was read: the
two searches agree on the head in front of it and on the end of the line behind
it.  So the label of a declared participant is never replaced everywhere.  What
is rewritten is the first alias of this wording, whoever has it.
-/

namespace DiagramEdit

/-- An alias is rewritten behind the head of a declaration, at the end of its
line. -/
theorem exists_head_of_replaceFirst? {text written new edited : Text}
    (replaced : (Pattern.aliasOfParticipant written).replaceFirst? text new =
      some edited) :
    ∃ before, ∃ head : ParticipantHead, ∃ rest, Text.StartsLine before ∧
      Text.EndsLine rest ∧ text = before ++ head.written ++ written ++ rest ∧
      edited = before ++ head.written ++ new ++ rest := by
  obtain ⟨found, searched, rfl⟩ := Option.map_eq_some_iff.mp replaced
  obtain ⟨place, stop, rfl, read⟩ := Pattern.exists_of_first?_eq_some searched
  obtain ⟨starts, head, rest, _, ends, cuts⟩ :=
    Pattern.exists_head_of_aliasOfParticipant read
  refine ⟨place.before.reverse, head, rest, ?_, ends, cuts.text_eq,
    cuts.replace_eq new⟩
  exact Text.isLineStart_cut_iff.mp (by rwa [List.reverse_reverse])

/-- The alias that is read for an identifier stands behind a head with its
name. -/
theorem exists_head_of_participantAlias? {text id old : Text}
    (solid : Text.IsSolid id)
    (declared : participantAlias? text id = some old) :
    ∃ before, ∃ head : ParticipantHead, ∃ rest, head.name = id ∧
      Text.StartsLine before ∧ Text.EndsLine rest ∧
      text = before ++ head.written ++ old ++ rest := by
  obtain ⟨place, stop, rfl, read⟩ := Pattern.exists_of_first?_eq_some declared
  obtain ⟨starts, head, rest, named, afterEq, ends, _⟩ :=
    Pattern.exists_head_of_namedParticipant solid read
  refine ⟨place.before.reverse, head, rest, named, ?_, ends, ?_⟩
  · exact Text.isLineStart_cut_iff.mp (by rwa [List.reverse_reverse])
  · rw [Place.text, afterEq]
    simp only [List.append_assoc]

theorem replaceFirst?_aliasOfParticipant_ne_none {before written rest : Text}
    (starts : Text.StartsLine before) (head : ParticipantHead)
    (ends : Text.EndsLine rest) (new : Text) :
    (Pattern.aliasOfParticipant written).replaceFirst?
        (before ++ head.written ++ written ++ rest) new ≠ none := by
  rw [List.append_assoc, List.append_assoc]
  exact Pattern.replaceFirst?_ne_none_of_isSome
    (Pattern.aliasOfParticipant_isSome head starts ends) new

/-- The label of a declared participant is replaced at one place: between the
head of a declaration that starts its line and the end of that line. -/
theorem relabel_replaces_one_alias {text id old new : Text}
    (solid : Text.IsSolid id) (declared : participantAlias? text id = some old)
    (differs : old ≠ new)
    (oneLine : ∀ character ∈ new, isLineBreak character = false) :
    ∃ before, ∃ head : ParticipantHead, ∃ rest, Text.StartsLine before ∧
      Text.EndsLine rest ∧ text = before ++ head.written ++ old ++ rest ∧
      relabel text .sequence id old new =
        before ++ head.written ++ new ++ rest := by
  obtain ⟨front, head, behind, _, starts, ends, rfl⟩ :=
    exists_head_of_participantAlias? solid declared
  cases replaced : (Pattern.aliasOfParticipant old).replaceFirst?
      (front ++ head.written ++ old ++ behind) new with
  | none =>
      exact absurd replaced
        (replaceFirst?_aliasOfParticipant_ne_none starts head ends new)
  | some edited =>
      have changed :
          relabelDeclaration? (front ++ head.written ++ old ++ behind) .sequence
              id old new = some edited :=
        replaced
      rw [relabel_of_declared (not_refused differs oneLine) changed]
      exact exists_head_of_replaceFirst? replaced

/-- A participant whose alias is made of special characters and ends in a
carriage return. -/
def specialAlias : Text :=
  "sequenceDiagram\r\n\tactor  U2 as $1.* (x)\r \t\n  U2->>B: $1.* (x)\r\n".toList

theorem relabel_replaces_one_alias_special :
    Text.IsSolid "U2".toList ∧
      participantAlias? specialAlias "U2".toList = some "$1.* (x)\r".toList ∧
      "$1.* (x)\r".toList ≠ "$0\\".toList ∧
      (∀ character ∈ "$0\\".toList, isLineBreak character = false) ∧
      ∃ before, ∃ head : ParticipantHead, ∃ rest, Text.StartsLine before ∧
        Text.EndsLine rest ∧
        specialAlias = before ++ head.written ++ "$1.* (x)\r".toList ++ rest ∧
        relabel specialAlias .sequence "U2".toList "$1.* (x)\r".toList
            "$0\\".toList =
          before ++ head.written ++ "$0\\".toList ++ rest := by
  have solid : Text.IsSolid "U2".toList := ⟨by decide, by simp [Text.isSpace]⟩
  have declared : participantAlias? specialAlias "U2".toList =
      some "$1.* (x)\r".toList := by
    decide +kernel
  have differs : "$1.* (x)\r".toList ≠ "$0\\".toList := by decide
  have oneLine :
      ∀ character ∈ "$0\\".toList, isLineBreak character = false := by
    simp [isLineBreak]
  exact ⟨solid, declared, differs, oneLine,
    relabel_replaces_one_alias solid declared differs oneLine⟩

end DiagramEdit
