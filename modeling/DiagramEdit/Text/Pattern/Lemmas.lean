import DiagramEdit.Text.Pattern

/-!
# What patterns read

Each pattern is described by the characters it passes over.  A pattern occurs in
a text when some cut of the text in two is a place where it succeeds, and the
value of `first?` is read at the earliest such place.
-/

namespace DiagramEdit

namespace Place

theorem mem_onward_iff {place : Place} {before after : Text} :
    place ∈ onward before after ↔
      ∃ passed, after = passed ++ place.after ∧
        place.before = passed.reverse ++ before := by
  induction after generalizing before with
  | nil =>
      constructor
      · intro member
        have equality : place = ⟨before, []⟩ := by simpa [onward] using member
        exact ⟨[], by simp [equality]⟩
      · rintro ⟨passed, split, beforeEq⟩
        obtain ⟨rfl, afterEq⟩ := List.append_eq_nil_iff.mp split.symm
        have equality : place = ⟨before, []⟩ := by
          obtain ⟨_, _⟩ := place
          rw [Place.mk.injEq]
          exact ⟨beforeEq, afterEq⟩
        simp [onward, equality]
  | cons character after induction =>
      simp only [onward, List.mem_cons, induction]
      constructor
      · rintro (rfl | ⟨passed, split, beforeEq⟩)
        · exact ⟨[], by simp⟩
        · exact ⟨character :: passed, by simp [split], by simp [beforeEq]⟩
      · rintro ⟨passed, split, beforeEq⟩
        cases passed with
        | nil =>
            left
            cases place
            simp_all
        | cons first passed =>
            right
            obtain ⟨firstEq, restEq⟩ := List.cons.inj split
            exact ⟨passed, restEq, by simp [beforeEq, firstEq]⟩

/-- The places of a text are the ways to cut it in two. -/
theorem mem_all_iff {place : Place} {text : Text} :
    place ∈ all text ↔ place.text = text := by
  simp only [all, mem_onward_iff, Place.text, List.append_nil]
  constructor
  · rintro ⟨passed, split, beforeEq⟩
    simp [beforeEq, split]
  · intro split
    exact ⟨place.before.reverse, split.symm, by simp⟩

end Place

namespace Pattern

variable {α β : Type}

theorem bind_eq_some_iff {pattern : Pattern α} {next : α → Pattern β}
    {place stop : Place} {value : β} :
    (pattern >>= next) place = some (value, stop) ↔
      ∃ found middle, pattern place = some (found, middle) ∧
        next found middle = some (value, stop) := by
  change (pattern place).bind (fun pair => next pair.1 pair.2) = _ ↔ _
  simp only [Option.bind_eq_some_iff, Prod.exists]

theorem pure_eq_some_iff {place stop : Place} {value found : α} :
    (pure value : Pattern α) place = some (found, stop) ↔
      value = found ∧ place = stop := by
  change some (value, place) = _ ↔ _
  simp

theorem here_eq_some_iff {place found stop : Place} :
    here place = some (found, stop) ↔ place = found ∧ place = stop := by
  simp [here]

theorem check_eq_some_iff {property : Place → Bool} {place stop : Place}
    {nothing : Unit} :
    check property place = some (nothing, stop) ↔
      property place ∧ place = stop := by
  by_cases holds : property place <;> simp [check, holds]

theorem one_eq_some_iff {accepts : Char → Bool} {place stop : Place}
    {character : Char} :
    one accepts place = some (character, stop) ↔
      accepts character ∧
        ∃ after, place.after = character :: after ∧
          stop = ⟨character :: place.before, after⟩ := by
  obtain ⟨before, after⟩ := place
  cases after with
  | nil => simp [one]
  | cons first after =>
      by_cases accepted : accepts first
      · simp only [one, accepted, if_true, Option.some.injEq, Prod.mk.injEq,
          List.cons.injEq]
        constructor
        · rintro ⟨rfl, rfl⟩
          exact ⟨accepted, after, ⟨rfl, rfl⟩, rfl⟩
        · rintro ⟨_, rest, ⟨rfl, rfl⟩, stopEq⟩
          exact ⟨rfl, stopEq.symm⟩
      · simp only [one, accepted, Bool.false_eq_true, if_false, List.cons.injEq]
        constructor
        · intro impossible
          cases impossible
        · rintro ⟨holds, rest, ⟨rfl, _⟩, _⟩
          exact absurd holds accepted

theorem literal_eq_some_iff {word : Text} {place stop : Place}
    {nothing : Unit} :
    literal word place = some (nothing, stop) ↔
      ∃ after, place.after = word ++ after ∧
        stop = ⟨word.reverse ++ place.before, after⟩ := by
  induction word generalizing place with
  | nil =>
      rw [literal, pure_eq_some_iff]
      constructor
      · rintro ⟨_, rfl⟩
        exact ⟨place.after, rfl, rfl⟩
      · rintro ⟨after, afterEq, stopEq⟩
        cases place
        simp_all
  | cons character word induction =>
      simp only [literal, bind_eq_some_iff, one_eq_some_iff, induction,
        beq_iff_eq]
      constructor
      · rintro ⟨found, middle, ⟨rfl, rest, restEq, rfl⟩, after, afterEq, rfl⟩
        exact ⟨after, by simp [restEq, ← afterEq], by simp⟩
      · rintro ⟨after, afterEq, stopEq⟩
        exact ⟨character, _, ⟨rfl, word ++ after, afterEq, rfl⟩, after, rfl,
          by simp [stopEq]⟩

theorem run_eq_some_iff {accepts : Char → Bool} {place stop : Place}
    {passed : Text} :
    run accepts place = some (passed, stop) ↔
      passed = place.after.takeWhile accepts ∧
        stop = ⟨passed.reverse ++ place.before,
          place.after.dropWhile accepts⟩ := by
  simp only [run, Option.some.injEq, Prod.mk.injEq]
  constructor
  · rintro ⟨rfl, rfl⟩
    exact ⟨rfl, rfl⟩
  · rintro ⟨rfl, rfl⟩
    exact ⟨rfl, rfl⟩

theorem region_eq_some_iff {pattern : Pattern Unit} {place stop : Place}
    {found : Region} :
    region pattern place = some (found, stop) ↔
      pattern place = some ((), stop) ∧ found = ⟨place, stop⟩ := by
  simp only [region, bind_eq_some_iff, here_eq_some_iff, pure_eq_some_iff]
  constructor
  · rintro ⟨start, _, ⟨rfl, rfl⟩, _, middle, read, _, _, ⟨rfl, rfl⟩, rfl, rfl⟩
    exact ⟨read, rfl⟩
  · rintro ⟨read, rfl⟩
    exact ⟨place, place, ⟨rfl, rfl⟩, (), stop, read, stop, stop, ⟨rfl, rfl⟩,
      rfl, rfl⟩

/-- A pattern fails everywhere exactly if it fails at every cut of the text. -/
theorem first?_eq_none_iff {pattern : Pattern α} {text : Text} :
    pattern.first? text = none ↔
      ∀ place, place.text = text → pattern place = none := by
  simp only [first?, List.findSome?_eq_none_iff, Place.mem_all_iff,
    Option.map_eq_none_iff]

/-- What `first?` answers is read at some cut of the text. -/
theorem exists_of_first?_eq_some {pattern : Pattern α} {text : Text} {value : α}
    (found : pattern.first? text = some value) :
    ∃ place stop, place.text = text ∧ pattern place = some (value, stop) := by
  obtain ⟨place, member, mapped⟩ := List.exists_of_findSome?_eq_some found
  obtain ⟨⟨_, stop⟩, read, rfl⟩ := Option.map_eq_some_iff.mp mapped
  exact ⟨place, stop, Place.mem_all_iff.mp member, read⟩

theorem occursIn_iff {pattern : Pattern α} {text : Text} :
    pattern.occursIn text ↔
      ∃ place, place.text = text ∧ (pattern place).isSome := by
  have absent := @first?_eq_none_iff α pattern text
  simp only [occursIn, ← Option.ne_none_iff_isSome, ne_eq, absent]
  simp

end Pattern

end DiagramEdit
