import DiagramEdit.Proofs.Text.Pattern

/-!
# Where a search stops

A search tries the cuts of a text in order.  It answers at the earliest cut
where the pattern succeeds, and so at the only one if there is only one.
-/

namespace DiagramEdit

theorem exists_eq_append_cons_of_length_lt {left right left' right' : Text}
    (equality : left ++ right = left' ++ right')
    (shorter : left'.length < left.length) :
    ∃ character more, left = left' ++ character :: more ∧
      right' = character :: more ++ right := by
  rcases List.append_eq_append_iff.mp equality with
    ⟨more, longer, _⟩ | ⟨more, leftEq, rightEq⟩
  · rw [longer, List.length_append] at shorter
    omega
  · cases more with
    | nil =>
        rw [leftEq, List.append_nil] at shorter
        omega
    | cons character more => exact ⟨character, more, leftEq, rightEq⟩

namespace Pattern

variable {α : Type}

theorem findSome?_onward {pattern : Pattern α} {before after : Text} :
    (Place.onward before after).findSome?
        (fun place => (pattern place).map Prod.fst) =
      (shortestFrom (fun _ => true) pattern before after).map fun found =>
        found.1.2 := by
  induction after generalizing before with
  | nil =>
      cases read : pattern ⟨before, []⟩ with
      | none => simp [Place.onward, shortestFrom, read]
      | some found => simp [Place.onward, shortestFrom, read]
  | cons character after induction =>
      rw [Place.onward, List.findSome?_cons, shortestFrom, induction]
      cases read : pattern ⟨before, character :: after⟩ with
      | none => simp [Function.comp_def]
      | some found => simp

theorem first?_eq_shortestThen {pattern : Pattern α} {text : Text} :
    pattern.first? text =
      (shortestThen (fun _ => true) pattern ⟨[], text⟩).map fun found =>
        found.1.2 :=
  findSome?_onward

/-- A search answers at the earliest cut where the pattern succeeds. -/
theorem first?_eq_some_iff {pattern : Pattern α} {text : Text} {value : α} :
    pattern.first? text = some value ↔
      ∃ before after stop, text = before ++ after ∧
        pattern ⟨before.reverse, after⟩ = some (value, stop) ∧
        ∀ shorter character more, before = shorter ++ character :: more →
          pattern ⟨shorter.reverse, character :: more ++ after⟩ = none := by
  rw [first?_eq_shortestThen, Option.map_eq_some_iff]
  constructor
  · intro parts
    obtain ⟨⟨⟨before, found⟩, stop⟩, searched, same⟩ := parts
    obtain rfl : found = value := same
    obtain ⟨after, split, _, read, earliest⟩ :=
      shortestThen_eq_some_iff.mp searched
    simp only [List.append_nil] at read earliest
    exact ⟨before, after, stop, split, read, earliest⟩
  · intro parts
    obtain ⟨before, after, stop, split, read, earliest⟩ := parts
    refine ⟨((before, value), stop), shortestThen_eq_some_iff.mpr ?_, rfl⟩
    refine ⟨after, split, fun _ _ => rfl, ?_, ?_⟩
    · simpa using read
    · simpa using earliest

/-- A search answers at the leftmost cut where the pattern succeeds. -/
theorem exists_leftmost_of_first?_eq_some {pattern : Pattern α} {text : Text}
    {value : α} (found : pattern.first? text = some value) :
    ∃ before after stop, text = before ++ after ∧
      pattern ⟨before.reverse, after⟩ = some (value, stop) ∧
      ∀ left right, text = left ++ right →
        pattern ⟨left.reverse, right⟩ ≠ none → before.length ≤ left.length := by
  obtain ⟨before, after, stop, split, read, earliest⟩ :=
    first?_eq_some_iff.mp found
  refine ⟨before, after, stop, split, read, ?_⟩
  intro left right cut reads
  by_contra further
  obtain ⟨character, more, beforeEq, rightEq⟩ :=
    exists_eq_append_cons_of_length_lt (split.symm.trans cut)
      (Nat.lt_of_not_le further)
  have fails := earliest left character more beforeEq
  rw [← rightEq] at fails
  exact reads fails

theorem first?_eq_none_iff_cuts {pattern : Pattern α} {text : Text} :
    pattern.first? text = none ↔
      ∀ before after, text = before ++ after →
        pattern ⟨before.reverse, after⟩ = none := by
  rw [first?_eq_none_iff]
  constructor
  · intro fails before after split
    apply fails
    simp [Place.text, split]
  · intro fails place whole
    have failed := fails place.before.reverse place.after whole.symm
    rwa [List.reverse_reverse] at failed

/-- Where the pattern fails at every other cut, the search reads at this one. -/
theorem first?_eq_of_only {pattern : Pattern α} {before after : Text}
    (only : ∀ left right, before ++ after = left ++ right → left ≠ before →
      pattern ⟨left.reverse, right⟩ = none) :
    pattern.first? (before ++ after) =
      (pattern ⟨before.reverse, after⟩).map Prod.fst := by
  cases read : pattern ⟨before.reverse, after⟩ with
  | none =>
      rw [Option.map_none, first?_eq_none_iff_cuts]
      intro left right split
      by_cases same : left = before
      · subst same
        rw [← List.append_cancel_left split]
        exact read
      · exact only left right split same
  | some found =>
      obtain ⟨value, stop⟩ := found
      rw [Option.map_some, first?_eq_some_iff]
      refine ⟨before, after, stop, rfl, read, ?_⟩
      intro shorter character more cut
      apply only
      · simp [cut]
      · intro same
        have lengths := congrArg List.length cut
        rw [same, List.length_append, List.length_cons] at lengths
        omega

theorem mem_readings_iff {pattern : Pattern α} {text : Text} {value : α} :
    value ∈ pattern.readings text ↔
      ∃ before after stop, text = before ++ after ∧
        pattern ⟨before.reverse, after⟩ = some (value, stop) := by
  rw [readings, List.mem_filterMap]
  simp only [Place.mem_all_iff, Option.map_eq_some_iff, Prod.exists]
  constructor
  · intro parts
    obtain ⟨place, whole, found, stop, read, same⟩ := parts
    subst same
    exact ⟨place.before.reverse, place.after, stop, whole.symm,
      by simpa using read⟩
  · intro parts
    obtain ⟨before, after, stop, split, read⟩ := parts
    exact ⟨⟨before.reverse, after⟩, by simp [Place.text, split], value, stop,
      read, rfl⟩

theorem occursIn_iff_cut {pattern : Pattern α} {text : Text} :
    pattern.occursIn text ↔
      ∃ before after, text = before ++ after ∧
        (pattern ⟨before.reverse, after⟩).isSome := by
  rw [occursIn_iff]
  constructor
  · intro parts
    obtain ⟨place, whole, found⟩ := parts
    exact ⟨place.before.reverse, place.after, whole.symm, by simpa using found⟩
  · intro parts
    obtain ⟨before, after, split, found⟩ := parts
    exact ⟨⟨before.reverse, after⟩, by simp [Place.text, split], found⟩

theorem replaceFirst?_ne_none_of_isSome {pattern : Pattern Region}
    {before after : Text} (found : (pattern ⟨before.reverse, after⟩).isSome)
    (new : Text) :
    pattern.replaceFirst? (before ++ after) new ≠ none := by
  intro missing
  rw [first?_eq_none_iff_cuts.mp (Option.map_eq_none_iff.mp missing) before
    after rfl] at found
  cases found

end Pattern

end DiagramEdit
