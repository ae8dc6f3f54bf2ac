import DiagramEdit.Text.Pattern.Lemmas
import Mathlib.Data.List.TakeWhile
import Mathlib.Data.Option.Basic

/-!
# Patterns that choose how far to read

`shortestThen` stops at the first place where what follows succeeds and
`longestThen` at the last one.  A run of white space has nothing to give back to
a pattern that cannot begin with white space, so there the longest run is the
only one that counts.
-/

namespace DiagramEdit

namespace Pattern

variable {α β : Type}

theorem bne_of_not_mem {text : Text} {character : Char}
    (absent : character ∉ text) :
    ∀ other ∈ text, (other != character) = true := by
  intro other member
  rw [bne_iff_ne]
  intro same
  exact absent (same ▸ member)

theorem takeWhile_append_of_stops {accepts : Char → Bool} {passed after : Text}
    (accepted : ∀ character ∈ passed, accepts character)
    (stops : after.head?.all (!accepts ·)) :
    (passed ++ after).takeWhile accepts = passed ∧
      (passed ++ after).dropWhile accepts = after := by
  rw [List.takeWhile_append_of_pos accepted,
    List.dropWhile_append_of_pos accepted]
  cases after with
  | nil => simp
  | cons character after => simp_all

/-- How far accepted characters reach does not depend on the way they are
written. -/
theorem eq_of_append_eq_append_of_stops {accepts : Char → Bool}
    {left right left' right' : Text}
    (equality : left ++ right = left' ++ right')
    (accepted : ∀ character ∈ left, accepts character)
    (accepted' : ∀ character ∈ left', accepts character)
    (stops : right.head?.all (!accepts ·))
    (stops' : right'.head?.all (!accepts ·)) :
    left = left' ∧ right = right' := by
  obtain ⟨taken, dropped⟩ := takeWhile_append_of_stops accepted stops
  obtain ⟨taken', dropped'⟩ := takeWhile_append_of_stops accepted' stops'
  rw [equality] at taken dropped
  exact ⟨taken.symm.trans taken', dropped.symm.trans dropped'⟩

/-- A run reads accepted characters up to a place where none follows. -/
theorem run_eq_some_iff_split {accepts : Char → Bool} {place stop : Place}
    {passed : Text} :
    run accepts place = some (passed, stop) ↔
      ∃ after, place.after = passed ++ after ∧
        (∀ character ∈ passed, accepts character) ∧
        after.head?.all (!accepts ·) ∧
        stop = ⟨passed.reverse ++ place.before, after⟩ := by
  rw [run_eq_some_iff]
  constructor
  · rintro ⟨rfl, rfl⟩
    refine ⟨place.after.dropWhile accepts, List.takeWhile_append_dropWhile.symm,
      ?_, ?_, rfl⟩
    · intro character member
      exact List.mem_takeWhile_imp member
    · have stops := List.head?_dropWhile_not accepts place.after
      cases rest : (place.after.dropWhile accepts).head? with
      | none => rfl
      | some character => simp_all
  · rintro ⟨after, split, accepted, stops, rfl⟩
    obtain ⟨taken, dropped⟩ := takeWhile_append_of_stops accepted stops
    rw [split, taken, dropped]
    exact ⟨rfl, rfl⟩

theorem nonemptyRun_eq_some_iff {accepts : Char → Bool} {place stop : Place}
    {passed : Text} :
    nonemptyRun accepts place = some (passed, stop) ↔
      passed ≠ [] ∧ run accepts place = some (passed, stop) := by
  simp only [nonemptyRun, bind_eq_some_iff, pure_eq_some_iff, one_eq_some_iff,
    run_eq_some_iff_split]
  constructor
  · rintro ⟨initial, _, ⟨accepted, after, split, rfl⟩, rest, _,
      ⟨final, restSplit, others, stops, rfl⟩, rfl, rfl⟩
    change after = rest ++ final at restSplit
    refine ⟨List.cons_ne_nil _ _, final, by simp [split, restSplit], ?_, stops,
      by simp⟩
    simpa [accepted] using others
  · rintro ⟨nonempty, final, split, accepted, stops, rfl⟩
    cases passed with
    | nil => contradiction
    | cons initial rest =>
        refine ⟨initial, _,
          ⟨accepted initial (by simp), rest ++ final, split, rfl⟩, rest, _,
          ⟨final, rfl, ?_, stops, rfl⟩, rfl, by simp⟩
        intro character member
        exact accepted character (by simp [member])

theorem map_cons_eq_some_iff {reading : Option ((Text × α) × Place)}
    {character : Char} {passed : Text} {value : α} {stop : Place} :
    (reading.map fun ((passed, value), stop) =>
          ((character :: passed, value), stop)) = some ((passed, value), stop) ↔
      ∃ rest, passed = character :: rest ∧
        reading = some ((rest, value), stop) := by
  cases reading with
  | none => simp
  | some found =>
      obtain ⟨⟨rest, found⟩, middle⟩ := found
      simp only [Option.map_some, Option.some.injEq, Prod.mk.injEq]
      constructor
      · rintro ⟨⟨rfl, rfl⟩, rfl⟩
        exact ⟨rest, rfl, ⟨rfl, rfl⟩, rfl⟩
      · rintro ⟨_, rfl, ⟨rfl, rfl⟩, rfl⟩
        exact ⟨⟨rfl, rfl⟩, rfl⟩

theorem map_nil_eq_some_iff {reading : Option (α × Place)} {passed : Text}
    {value : α} {stop : Place} :
    (reading.map fun (value, stop) => ((([] : Text), value), stop)) =
        some ((passed, value), stop) ↔
      passed = [] ∧ reading = some (value, stop) := by
  cases reading with
  | none => simp
  | some found =>
      obtain ⟨found, middle⟩ := found
      simp [eq_comm, and_assoc]

theorem shortestThen_eq_some_iff {accepts : Char → Bool} {next : Pattern α}
    {place stop : Place} {passed : Text} {value : α} :
    shortestThen accepts next place = some ((passed, value), stop) ↔
      ∃ after, place.after = passed ++ after ∧
        (∀ character ∈ passed, accepts character) ∧
        next ⟨passed.reverse ++ place.before, after⟩ = some (value, stop) ∧
        ∀ shorter character more, passed = shorter ++ character :: more →
          next ⟨shorter.reverse ++ place.before, character :: more ++ after⟩ =
            none := by
  obtain ⟨before, after⟩ := place
  change shortestFrom accepts next before after = _ ↔ _
  induction after generalizing before passed with
  | nil =>
      rw [shortestFrom, map_nil_eq_some_iff]
      constructor
      · rintro ⟨rfl, read⟩
        exact ⟨[], rfl, by simp, by simpa using read, by simp⟩
      · rintro ⟨after, split, _, read, _⟩
        obtain ⟨rfl, rfl⟩ := List.append_eq_nil_iff.mp split.symm
        exact ⟨rfl, by simpa using read⟩
  | cons character after induction =>
      rw [shortestFrom, Option.orElse_eq_some, map_nil_eq_some_iff,
        Option.map_eq_none_iff]
      constructor
      · rintro (⟨rfl, read⟩ | ⟨failed, later⟩)
        · exact ⟨character :: after, rfl, by simp, by simpa using read, by simp⟩
        · by_cases accepted : accepts character
          · rw [if_pos accepted, map_cons_eq_some_iff] at later
            obtain ⟨passed, rfl, later⟩ := later
            obtain ⟨rest, split, others, read, minimal⟩ :=
              (induction _).mp later
            change after = passed ++ rest at split
            refine ⟨rest, by simp [split], by simpa [accepted] using others,
              by simpa using read, ?_⟩
            intro shorter skipped more cut
            cases shorter with
            | nil =>
                obtain ⟨rfl, rfl⟩ := List.cons.inj cut
                simpa [split] using failed
            | cons first shorter =>
                obtain ⟨rfl, tailCut⟩ := List.cons.inj cut
                simpa using minimal shorter skipped more tailCut
          · simp [accepted] at later
      · rintro ⟨rest, split, others, read, minimal⟩
        change character :: after = passed ++ rest at split
        cases passed with
        | nil =>
            left
            obtain rfl : character :: after = rest := split
            exact ⟨rfl, by simpa using read⟩
        | cons first passed =>
            right
            obtain ⟨rfl, rfl⟩ := List.cons.inj split
            refine ⟨by simpa using minimal [] character passed rfl, ?_⟩
            rw [if_pos (others character (by simp)), map_cons_eq_some_iff]
            refine ⟨passed, rfl,
              (induction _).mpr ⟨rest, rfl, ?_, by simpa using read, ?_⟩⟩
            · intro other member
              exact others other (by simp [member])
            · intro shorter skipped more cut
              simpa
                using minimal (character :: shorter) skipped more
                  (by simp [cut])

/-- The shortest run of at least one accepted character after which the ending
succeeds. -/
def shortestBefore (accepts : Char → Bool) (ending : Pattern α) :
    Pattern Text :=
  do
  let initial ← one accepts
  let (rest, _) ← shortestThen accepts ending
  return initial :: rest

theorem shortestBefore_eq_some_iff {accepts : Char → Bool} {ending : Pattern α}
    {place stop : Place} {passed : Text} :
    shortestBefore accepts ending place = some (passed, stop) ↔
      ∃ after, place.after = passed ++ after ∧ passed ≠ [] ∧
        (∀ character ∈ passed, accepts character) ∧
        (∃ value,
          ending ⟨passed.reverse ++ place.before, after⟩ = some (value, stop)) ∧
        ∀ shorter character more, passed = shorter ++ character :: more →
          shorter ≠ [] →
          ending ⟨shorter.reverse ++ place.before, character :: more ++ after⟩ =
            none := by
  simp only [shortestBefore, bind_eq_some_iff, pure_eq_some_iff,
    one_eq_some_iff, shortestThen_eq_some_iff, Prod.exists]
  constructor
  · rintro ⟨initial, _, ⟨accepted, _, split, rfl⟩, rest, value, _,
      ⟨after, restSplit, others, read, minimal⟩, rfl, rfl⟩
    simp only at restSplit read minimal
    refine ⟨after, by simp [split, restSplit], List.cons_ne_nil _ _,
      by simpa [accepted] using others, ⟨value, by simpa using read⟩, ?_⟩
    intro shorter character more cut nonempty
    cases shorter with
    | nil => contradiction
    | cons first shorter =>
        obtain ⟨rfl, tailCut⟩ := List.cons.inj cut
        simpa using minimal shorter character more tailCut
  · rintro ⟨after, split, nonempty, accepted, ⟨value, read⟩, minimal⟩
    cases passed with
    | nil => contradiction
    | cons initial rest =>
        refine ⟨initial, _,
          ⟨accepted initial (by simp), rest ++ after, split, rfl⟩, rest, value,
          stop, ⟨after, rfl, ?_, by simpa using read, ?_⟩, rfl, rfl⟩
        · intro character member
          exact accepted character (by simp [member])
        · intro shorter character more cut
          simpa
            using minimal (initial :: shorter) character more (by simp [cut])
              (by simp)

/-- Where what follows cannot begin with an accepted character, the longest run
is the only one to try. -/
theorem longestThen_eq_some_iff_run {accepts : Char → Bool} {next : Pattern α}
    (noStart : ∀ before character after, accepts character →
      next ⟨before, character :: after⟩ = none) {place stop : Place}
    {passed : Text} {value : α} :
    longestThen accepts next place = some ((passed, value), stop) ↔
      ∃ middle, run accepts place = some (passed, middle) ∧
        next middle = some (value, stop) := by
  obtain ⟨before, after⟩ := place
  change longestFrom accepts next before after = _ ↔ _
  simp only [run_eq_some_iff]
  induction after generalizing before passed with
  | nil =>
      rw [longestFrom, map_nil_eq_some_iff]
      constructor
      · rintro ⟨rfl, read⟩
        exact ⟨_, ⟨rfl, rfl⟩, by simpa using read⟩
      · rintro ⟨_, ⟨rfl, rfl⟩, read⟩
        exact ⟨rfl, by simpa using read⟩
  | cons character after induction =>
      rw [longestFrom, Option.orElse_eq_some, map_nil_eq_some_iff]
      by_cases accepted : accepts character
      · rw [if_pos accepted, map_cons_eq_some_iff,
          noStart before character after accepted]
        simp only [List.takeWhile_cons_of_pos accepted,
          List.dropWhile_cons_of_pos accepted]
        constructor
        · rintro (⟨rest, rfl, later⟩ | ⟨_, _, impossible⟩)
          · obtain ⟨_, ⟨rfl, rfl⟩, read⟩ := (induction _).mp later
            exact ⟨_, ⟨rfl, rfl⟩, by simpa using read⟩
          · cases impossible
        · rintro ⟨_, ⟨rfl, rfl⟩, read⟩
          exact Or.inl
            ⟨_, rfl, (induction _).mpr ⟨_, ⟨rfl, rfl⟩, by simpa using read⟩⟩
      · rw [if_neg accepted]
        simp only [List.takeWhile_cons_of_neg accepted,
          List.dropWhile_cons_of_neg accepted]
        constructor
        · rintro (impossible | ⟨_, rfl, read⟩)
          · cases impossible
          · exact ⟨_, ⟨rfl, rfl⟩, read⟩
        · rintro ⟨_, ⟨rfl, rfl⟩, read⟩
          exact Or.inr ⟨trivial, rfl, read⟩

theorem afterSpace_eq_some_iff {next : Pattern α}
    (noStart : ∀ before character after, Text.isSpace character →
      next ⟨before, character :: after⟩ = none)
    {place stop : Place} {value : α} :
    afterSpace next place = some (value, stop) ↔
      ∃ space middle, nonemptyRun Text.isSpace place = some (space, middle) ∧
        next middle = some (value, stop) := by
  simp only [afterSpace, nonemptyRun, bind_eq_some_iff, pure_eq_some_iff,
    longestThen_eq_some_iff_run noStart, Prod.exists]
  constructor
  · rintro ⟨first, middle, one, rest, found, _, ⟨last, run, read⟩, rfl, rfl⟩
    exact ⟨_, last, ⟨first, middle, one, rest, last, run, rfl, rfl⟩, read⟩
  · rintro ⟨_, last, ⟨first, middle, one, rest, _, run, rfl, rfl⟩, read⟩
    exact ⟨first, middle, one, rest, value, stop, ⟨_, run, read⟩, rfl, rfl⟩

end Pattern

end DiagramEdit
