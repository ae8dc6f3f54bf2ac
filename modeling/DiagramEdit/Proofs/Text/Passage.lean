import DiagramEdit.Proofs.Text.Pattern

/-!
# What a pattern passes over

A pattern that succeeds has passed over the text between the place where it
began and the place where it stopped.  What a sequence of patterns passes over
is joined, and a region cuts the text at its two ends.
-/

namespace DiagramEdit

/-- The text from one place to a later one. -/
structure Passes (passed : Text) (place stop : Place) : Prop where
  after : place.after = passed ++ stop.after
  before : stop.before = passed.reverse ++ place.before

theorem Passes.append {first second : Text} {place middle stop : Place}
    (left : Passes first place middle) (right : Passes second middle stop) :
    Passes (first ++ second) place stop := by
  constructor
  · rw [left.after, right.after, List.append_assoc]
  · rw [right.before, left.before, List.reverse_append, List.append_assoc]

theorem Passes.stop_eq {passed line : Text} {stop : Place}
    (passes : Passes passed ⟨[], line⟩ stop) :
    stop = ⟨passed.reverse, stop.after⟩ := by
  have before := passes.before
  cases stop
  simpa using before

/-- A region cuts its text into what stands before it, what it holds, and the
rest. -/
structure Region.Cuts (found : Region) (text front written rest : Text) :
    Prop where
  text_eq : text = front ++ written ++ rest
  front_eq : found.start.before.reverse = front
  rest_eq : found.stop.after = rest

theorem Region.Cuts.replace_eq {found : Region} {text front written rest : Text}
    (cuts : found.Cuts text front written rest) (replacement : Text) :
    found.replace replacement = front ++ replacement ++ rest := by
  rw [Region.replace, cuts.front_eq, cuts.rest_eq]

theorem Passes.cuts {place : Place} {found : Region} {lead written : Text}
    (leads : Passes lead place found.start)
    (reads : Passes written found.start found.stop) :
    found.Cuts place.text (place.before.reverse ++ lead) written
      found.stop.after := by
  refine ⟨?_, ?_, rfl⟩
  · rw [Place.text, leads.after, reads.after, List.append_assoc,
      List.append_assoc]
  · rw [leads.before, List.reverse_append, List.reverse_reverse]

namespace Pattern

variable {α : Type} {accepts : Char → Bool} {place stop : Place}
  {passed word : Text}

theorem passes_literal {nothing : Unit}
    (read : literal word place = some (nothing, stop)) :
    Passes word place stop := by
  obtain ⟨after, split, rfl⟩ := literal_eq_some_iff.mp read
  exact ⟨split, rfl⟩

theorem passes_one {character : Char}
    (read : one accepts place = some (character, stop)) :
    Passes [character] place stop ∧ accepts character := by
  obtain ⟨accepted, after, split, rfl⟩ := one_eq_some_iff.mp read
  exact ⟨⟨split, rfl⟩, accepted⟩

theorem passes_run (read : run accepts place = some (passed, stop)) :
    Passes passed place stop ∧ ∀ character ∈ passed, accepts character := by
  obtain ⟨after, split, accepted, _, rfl⟩ := run_eq_some_iff_split.mp read
  exact ⟨⟨split, rfl⟩, accepted⟩

theorem passes_nonemptyRun
    (read : nonemptyRun accepts place = some (passed, stop)) :
    passed ≠ [] ∧ Passes passed place stop ∧
      ∀ character ∈ passed, accepts character := by
  obtain ⟨nonempty, whole⟩ := nonemptyRun_eq_some_iff.mp read
  exact ⟨nonempty, passes_run whole⟩

theorem passes_longestThen {next : Pattern α} {value : α}
    (read : longestThen accepts next place = some ((passed, value), stop)) :
    ∃ middle, Passes passed place middle ∧
      (∀ character ∈ passed, accepts character) ∧
      next middle = some (value, stop) := by
  obtain ⟨before, after⟩ := place
  change longestFrom accepts next before after = _ at read
  induction after generalizing before passed with
  | nil =>
      obtain ⟨rfl, here⟩ := map_nil_eq_some_iff.mp read
      exact ⟨_, ⟨rfl, rfl⟩, by simp, here⟩
  | cons character after induction =>
      rw [longestFrom, Option.orElse_eq_some] at read
      rcases read with further | ⟨_, stopped⟩
      · by_cases accepted : accepts character
        · rw [if_pos accepted, map_cons_eq_some_iff] at further
          obtain ⟨rest, rfl, later⟩ := further
          obtain ⟨middle, passes, others, found⟩ := induction _ later
          refine ⟨middle, ⟨?_, ?_⟩, ?_, found⟩
          · rw [List.cons_append, ← passes.after]
          · rw [passes.before, List.reverse_cons, List.append_assoc,
              List.singleton_append]
          · intro other member
            rcases List.mem_cons.mp member with rfl | inRest
            · exact accepted
            · exact others other inRest
        · rw [if_neg accepted] at further
          cases further
      · obtain ⟨rfl, here⟩ := map_nil_eq_some_iff.mp stopped
        exact ⟨_, ⟨rfl, rfl⟩, by simp, here⟩

/-- A longest run of nothing: the pattern is read at once and nowhere further
on. -/
theorem longestThen_of_stops {accepts : Char → Bool} {next : Pattern α}
    {before after : Text} {value : α} {stop : Place}
    (read : next ⟨before, after⟩ = some (value, stop))
    (stops : ∀ more rest, after = more ++ rest → more ≠ [] →
      (∀ character ∈ more, accepts character) →
      next ⟨more.reverse ++ before, rest⟩ = none) :
    longestThen accepts next ⟨before, after⟩ = some (([], value), stop) := by
  cases after with
  | nil =>
      change longestFrom accepts next before [] = _
      rw [longestFrom, read]
      rfl
  | cons character after =>
      change longestFrom accepts next before (character :: after) = _
      cases further : longestFrom accepts next (character :: before) after with
      | none =>
          rw [longestFrom, further, read]
          cases accepts character <;> rfl
      | some found =>
          obtain ⟨⟨passed, other⟩, last⟩ := found
          change longestThen accepts next ⟨character :: before, after⟩ =
            _ at further
          obtain ⟨middle, passes, accepted, later⟩ := passes_longestThen further
          have passesAfter : after = passed ++ middle.after := passes.after
          have passesBefore :
              middle.before = passed.reverse ++ character :: before :=
            passes.before
          cases first : accepts character with
          | false =>
              rw [longestFrom, first, read]
              rfl
          | true =>
              have failed :=
                stops (character :: passed) middle.after (by simp [passesAfter])
                  (List.cons_ne_nil _ _) (by simpa [first] using accepted)
              have place : middle =
                  ⟨(character :: passed).reverse ++ before, middle.after⟩ := by
                cases middle
                simpa using passesBefore
              rw [place, failed] at later
              cases later

theorem exists_longestThen {accepts : Char → Bool} {next : Pattern α}
    {before passed rest : Text}
    (accepted : ∀ character ∈ passed, accepts character)
    (read : (next ⟨passed.reverse ++ before, rest⟩).isSome) :
    (longestThen accepts next ⟨before, passed ++ rest⟩).isSome := by
  change (longestFrom accepts next before (passed ++ rest)).isSome
  induction passed generalizing before with
  | nil =>
      have here : (next ⟨before, rest⟩).isSome := read
      cases rest with
      | nil => simpa [longestFrom] using here
      | cons character rest => simp [longestFrom, here]
  | cons character passed induction =>
      have further :=
        induction (fun other member => accepted other (by simp [member]))
          (by simpa using read)
      simp [longestFrom, accepted character (by simp), further]

theorem longestThen_of_longest {next : Pattern α} {before rest : Text}
    {value : α} (accepted : ∀ character ∈ passed, accepts character)
    (stops : rest.head?.all (!accepts ·))
    (read : next ⟨passed.reverse ++ before, rest⟩ = some (value, stop)) :
    longestThen accepts next ⟨before, passed ++ rest⟩ =
      some ((passed, value), stop) := by
  change longestFrom accepts next before (passed ++ rest) = _
  induction passed generalizing before with
  | nil =>
      have here : next ⟨before, rest⟩ = some (value, stop) := read
      cases rest with
      | nil => simp [longestFrom, here]
      | cons character rest =>
          have refused : accepts character = false := by simpa using stops
          simp [longestFrom, here, refused]
  | cons character passed induction =>
      have further :=
        induction (fun other member => accepted other (by simp [member]))
          (by simpa using read)
      simp [longestFrom, accepted character (by simp), further]

theorem passes_afterSpace {next : Pattern α} {value : α}
    (read : afterSpace next place = some (value, stop)) :
    ∃ space middle, space ≠ [] ∧ Passes space place middle ∧
      (∀ character ∈ space, Text.isSpace character) ∧
      next middle = some (value, stop) := by
  simp only [afterSpace, bind_eq_some_iff, pure_eq_some_iff, Prod.exists]
    at read
  obtain ⟨first, begun, one, rest, found, _, longest, rfl, rfl⟩ := read
  obtain ⟨passesFirst, isSpace⟩ := passes_one one
  obtain ⟨middle, passesRest, spaces, next⟩ := passes_longestThen longest
  refine ⟨[first] ++ rest, middle, by simp, passesFirst.append passesRest, ?_,
    next⟩
  intro character member
  rcases List.mem_cons.mp member with rfl | inRest
  · exact isSpace
  · exact spaces character inRest

/-- White space up to something visible is passed over as a whole. -/
theorem afterSpace_of_visible {next : Pattern α} {before space rest : Text}
    {value : α} (nonempty : space ≠ [])
    (spaces : ∀ character ∈ space, Text.isSpace character)
    (visible : rest.head?.all (!Text.isSpace ·))
    (read : next ⟨(before ++ space).reverse, rest⟩ = some (value, stop)) :
    afterSpace next ⟨before.reverse, space ++ rest⟩ = some (value, stop) := by
  obtain ⟨first, space, rfl⟩ := List.exists_cons_of_ne_nil nonempty
  simp only [afterSpace, bind_eq_some_iff, one_eq_some_iff, pure_eq_some_iff,
    Prod.exists]
  refine ⟨first, _, ⟨spaces first (by simp), space ++ rest, rfl, rfl⟩, space,
    value, stop, ?_, rfl, rfl⟩
  exact longestThen_of_longest
    (fun other member => spaces other (by simp [member])) visible
    (by simpa using read)

theorem exists_afterSpace {next : Pattern α} {before space rest : Text}
    (nonempty : space ≠ [])
    (spaces : ∀ character ∈ space, Text.isSpace character)
    (read : (next ⟨(before ++ space).reverse, rest⟩).isSome) :
    (afterSpace next ⟨before.reverse, space ++ rest⟩).isSome := by
  obtain ⟨first, space, rfl⟩ := List.exists_cons_of_ne_nil nonempty
  have longest :
      (longestThen Text.isSpace next
        ⟨first :: before.reverse, space ++ rest⟩).isSome :=
    exists_longestThen
      (fun other member => spaces other (List.mem_cons_of_mem first member))
      (by simpa using read)
  obtain ⟨⟨⟨passed, value⟩, stop⟩, found⟩ := Option.isSome_iff_exists.mp longest
  have whole : afterSpace next ⟨before.reverse, first :: (space ++ rest)⟩ =
      some (value, stop) := by
    simp only [afterSpace, bind_eq_some_iff, one_eq_some_iff, pure_eq_some_iff,
      Prod.exists]
    exact ⟨first, _, ⟨spaces first (by simp), space ++ rest, rfl, rfl⟩, passed,
      value, stop, found, rfl, rfl⟩
  rw [List.cons_append, whole]
  rfl

theorem passes_region {found : Region}
    (read : region (literal word) place = some (found, stop)) :
    found = ⟨place, stop⟩ ∧ Passes word found.start found.stop := by
  obtain ⟨here, rfl⟩ := region_eq_some_iff.mp read
  exact ⟨rfl, passes_literal here⟩

section Written

variable {β : Type} {middle : Place}

theorem bind_eq_of_some {pattern : Pattern α} {next : α → Pattern β} {value : α}
    (read : pattern place = some (value, middle)) :
    (pattern >>= next) place = next value middle := by
  change (pattern place).bind (fun found => next found.1 found.2) = _
  rw [read]
  rfl

theorem orElse_eq (first second : Pattern α) :
    (first <|> second) place = (first place <|> second place) :=
  rfl

theorem literal_written (word before rest : Text) :
    literal word ⟨before.reverse, word ++ rest⟩ =
      some ((), ⟨(before ++ word).reverse, rest⟩) :=
  literal_eq_some_iff.mpr ⟨rest, rfl, by simp⟩

theorem run_written (before rest : Text)
    (accepted : ∀ character ∈ passed, accepts character)
    (stops : rest.head?.all (!accepts ·)) :
    run accepts ⟨before.reverse, passed ++ rest⟩ =
      some (passed, ⟨(before ++ passed).reverse, rest⟩) :=
  run_eq_some_iff_split.mpr ⟨rest, rfl, accepted, stops, by simp⟩

theorem nonemptyRun_written (before rest : Text) (nonempty : passed ≠ [])
    (accepted : ∀ character ∈ passed, accepts character)
    (stops : rest.head?.all (!accepts ·)) :
    nonemptyRun accepts ⟨before.reverse, passed ++ rest⟩ =
      some (passed, ⟨(before ++ passed).reverse, rest⟩) :=
  nonemptyRun_eq_some_iff.mpr ⟨nonempty, run_written before rest accepted stops⟩

end Written

end Pattern

end DiagramEdit
