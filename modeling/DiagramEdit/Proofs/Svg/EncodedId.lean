import DiagramEdit.Proofs.Text.Pattern
import DiagramEdit.Svg.Identity

/-!
# Encoded identifiers

A renderer numbers the elements it draws: it writes leading text, the
identifier, a hyphen and digits.  The identifier may hold hyphens and digits of
its own, yet only one cut of the attribute has digits after the hyphen up to the
end.
-/

namespace DiagramEdit

namespace Pattern

/-- The hyphen and the digits behind a numbered identifier. -/
def numberEnding : Pattern Unit := do
  literal ['-']
  let _ ← nonemptyRun Text.isDecimalDigit
  check Place.isTextEnd

theorem numberEnding_eq_some_iff {place stop : Place} {nothing : Unit} :
    numberEnding place = some (nothing, stop) ↔
      ∃ digits, place.after = '-' :: digits ∧ digits ≠ [] ∧
        (∀ digit ∈ digits, Text.isDecimalDigit digit) ∧
        stop = ⟨digits.reverse ++ '-' :: place.before, []⟩ := by
  simp only [numberEnding, bind_eq_some_iff, literal_eq_some_iff,
    nonemptyRun_eq_some_iff, run_eq_some_iff_split, check_eq_some_iff]
  constructor
  · rintro ⟨_, _, ⟨after, split, rfl⟩, digits, _,
      ⟨nonempty, rest, digitsSplit, accepted, _, rfl⟩, ended, rfl⟩
    change after = digits ++ rest at digitsSplit
    obtain rfl : rest = [] := List.isEmpty_iff.mp ended
    exact ⟨digits, by simp [split, digitsSplit], nonempty, accepted, by simp⟩
  · rintro ⟨digits, split, nonempty, accepted, rfl⟩
    exact ⟨(), _, ⟨digits, split, rfl⟩, digits, _,
      ⟨nonempty, [], by simp, accepted, rfl, rfl⟩, rfl, by simp⟩

theorem isDecimalDigit_hyphen : Text.isDecimalDigit '-' = false := by
  decide

/-- What a numbered identifier is read from: the leading text, the identifier, a
hyphen and digits.  Since no digit is a hyphen, the cut is the only one. -/
theorem numberedIdentifier_atStart?_eq_some_iff {leading text id : Text} :
    (numberedIdentifier leading).atStart? text = some id ↔
      ∃ digits, text = leading ++ id ++ '-' :: digits ∧ id ≠ [] ∧ '\n' ∉ id ∧
        digits ≠ [] ∧ ∀ digit ∈ digits, Text.isDecimalDigit digit := by
  have unfolded : numberedIdentifier leading =
      literal leading >>= fun _ => shortestBefore (· != '\n') numberEnding :=
    rfl
  simp only [unfolded, atStart?, Option.map_eq_some_iff, Prod.exists,
    bind_eq_some_iff, literal_eq_some_iff, shortestBefore_eq_some_iff,
    numberEnding_eq_some_iff]
  constructor
  · rintro ⟨id, _, ⟨_, _, ⟨after, split, rfl⟩, _, idSplit, nonempty, oneLine,
      ⟨_, digits, rfl, someDigit, allDigits, _⟩, _⟩, rfl⟩
    change after = id ++ _ at idSplit
    refine ⟨digits, by simp [split, idSplit], nonempty, ?_, someDigit,
      allDigits⟩
    intro member
    simpa using oneLine '\n' member
  · rintro ⟨digits, rfl, nonempty, oneLine, someDigit, allDigits⟩
    refine ⟨id, _,
      ⟨(), _, ⟨id ++ '-' :: digits, by simp, rfl⟩, '-' :: digits, rfl, nonempty,
        ?_, ⟨(), digits, rfl, someDigit, allDigits, rfl⟩, ?_⟩, rfl⟩
    · intro character member
      have different : character ≠ '\n' := by
        rintro rfl
        exact oneLine member
      simpa using different
    · intro shorter character more _ _
      rw [Option.eq_none_iff_forall_not_mem]
      rintro ⟨_, stop⟩ read
      obtain ⟨found, cut, _, accepted, _⟩ := numberEnding_eq_some_iff.mp read
      -- The hyphen in front of the digits would be a digit itself.
      have hyphen : '-' ∈ found := by
        have tails := (List.cons.inj cut).2
        rw [← tails]
        simp
      have impossible := accepted '-' hyphen
      rw [isDecimalDigit_hyphen] at impossible
      cases impossible

end Pattern

namespace Svg

/-- The identifier that a numbered `id` attribute encodes. -/
theorem Node.encodedId?_numbered {node : Node} {leading id digits : Text}
    (encoded : node.id? = some (leading ++ id ++ '-' :: digits))
    (nonempty : id ≠ []) (oneLine : '\n' ∉ id) (someDigit : digits ≠ [])
    (allDigits : ∀ digit ∈ digits, Text.isDecimalDigit digit) :
    node.encodedId? (.numberedIdentifier leading) = some id := by
  rw [Node.encodedId?, encoded, Option.bind_some,
    Pattern.numberedIdentifier_atStart?_eq_some_iff]
  exact ⟨digits, rfl, nonempty, oneLine, someDigit, allDigits⟩

end Svg

end DiagramEdit
