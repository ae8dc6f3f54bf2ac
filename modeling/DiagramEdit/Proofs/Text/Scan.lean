import DiagramEdit.Proofs.Text.Search

/-!
# Reading on from where a pattern stopped

A scan reads a text from left to right.  Where the pattern reads, the scan goes
on behind what was read; elsewhere it goes on with the next character.  A
pattern that cannot read inside of what it has just read is found at all its
places in this way.
-/

namespace DiagramEdit

namespace Place

theorem pairwise_onward (before after : Text) :
    (onward before after).Pairwise fun place later =>
      place.before.length < later.before.length := by
  induction after generalizing before with
  | nil => exact List.pairwise_singleton _ _
  | cons character after induction =>
      rw [onward, List.pairwise_cons]
      refine ⟨?_, induction _⟩
      intro later member
      obtain ⟨passed, _, beforeEq⟩ := mem_onward_iff.mp member
      change before.length < later.before.length
      rw [beforeEq, List.length_append, List.length_cons]
      omega

end Place

namespace Pattern

variable {α : Type}

/-- The values read from left to right, each behind what was read before it;
`remaining` characters of what was read last are still to be passed over. -/
def scanFrom (pattern : Pattern α) (before : Text) : Nat → Text → List α
  | _, [] => ((pattern ⟨before, []⟩).map Prod.fst).toList
  | remaining + 1, character :: after =>
      scanFrom pattern (character :: before) remaining after
  | 0, character :: after =>
      match pattern ⟨before, character :: after⟩ with
      | none => scanFrom pattern (character :: before) 0 after
      | some (value, stop) =>
          value ::
            scanFrom pattern (character :: before)
              (after.length - stop.after.length) after

/-- The values read from left to right, none of the parts read overlapping the
one before.  The pattern has to read at least one character each time. -/
def scan (pattern : Pattern α) (text : Text) : List α :=
  scanFrom pattern [] 0 text

/-- The pattern does not read at a place inside of what it reads. -/
def NeverOverlaps (pattern : Pattern α) : Prop :=
  ∀ before character passed rest value stop,
    pattern ⟨before, character :: passed ++ rest⟩ = some (value, stop) →
      stop.after.length < rest.length →
      pattern ⟨(character :: passed).reverse ++ before, rest⟩ = none

variable {pattern : Pattern α}

/-- Where the characters to be passed over hide no reading, the scan reads at
every place where the pattern does. -/
theorem scanFrom_eq_filterMap (apart : NeverOverlaps pattern)
    {before after : Text} {remaining : Nat}
    (hidden : ∀ passed rest, after = passed ++ rest →
      passed.length < remaining →
      pattern ⟨passed.reverse ++ before, rest⟩ = none) :
    scanFrom pattern before remaining after =
      (Place.onward before after).filterMap fun place =>
        (pattern place).map Prod.fst := by
  induction after generalizing before remaining with
  | nil =>
      rw [scanFrom, Place.onward]
      cases read : pattern ⟨before, []⟩ with
      | none => simp [read]
      | some found => simp [read]
  | cons character after induction =>
      have onLater : ∀ {count : Nat},
          (∀ passed rest, after = passed ++ rest → passed.length < count →
              pattern ⟨(character :: passed).reverse ++ before, rest⟩ = none) →
            scanFrom pattern (character :: before) count after =
              (Place.onward (character :: before) after).filterMap fun place =>
                (pattern place).map Prod.fst := by
        intro count none_before
        apply induction
        intro passed rest split short
        simpa using none_before passed rest split short
      cases remaining with
      | succ remaining =>
          have fails : pattern ⟨before, character :: after⟩ = none :=
            hidden [] _ rfl (Nat.succ_pos remaining)
          rw [scanFrom, Place.onward, List.filterMap_cons, fails]
          apply onLater
          intro passed rest split short
          exact hidden (character :: passed) rest (by simp [split])
            (Nat.succ_lt_succ short)
      | zero =>
          rw [scanFrom, Place.onward, List.filterMap_cons]
          cases read : pattern ⟨before, character :: after⟩ with
          | none =>
              apply onLater
              intro passed rest _ impossible
              cases impossible
          | some found =>
              obtain ⟨value, stop⟩ := found
              apply congrArg (value :: ·)
              apply onLater
              intro passed rest split short
              rw [split] at read
              apply apart before character passed rest value stop read
              rw [split, List.length_append] at short
              omega

theorem scan_eq_readings (apart : NeverOverlaps pattern) (text : Text) :
    pattern.scan text = pattern.readings text := by
  apply scanFrom_eq_filterMap apart
  intro passed rest _ impossible
  cases impossible

theorem exists_readings_eq_append {before after : Text} {value : α}
    {stop : Place}
    (read : pattern ⟨before.reverse, after⟩ = some (value, stop)) :
    ∃ front back, pattern.readings (before ++ after) = front ++ value :: back ∧
      ∀ earlier ∈ front, ∃ left right behind, before ++ after = left ++ right ∧
        pattern ⟨left.reverse, right⟩ = some (earlier, behind) ∧
        left.length < before.length := by
  have member : ⟨before.reverse, after⟩ ∈ Place.all (before ++ after) :=
    Place.mem_all_iff.mpr (by simp [Place.text])
  obtain ⟨places, later, placesEq⟩ := List.append_of_mem member
  have inOrder := Place.pairwise_onward [] (before ++ after)
  change (Place.all (before ++ after)).Pairwise _ at inOrder
  rw [placesEq, List.pairwise_append] at inOrder
  obtain ⟨_, _, ordered⟩ := inOrder
  refine ⟨places.filterMap fun place => (pattern place).map Prod.fst,
    later.filterMap fun place => (pattern place).map Prod.fst, ?_, ?_⟩
  · rw [readings, placesEq, List.filterMap_append, List.filterMap_cons, read]
    rfl
  · intro earlier inFront
    obtain ⟨place, onPlaces, mapped⟩ := List.mem_filterMap.mp inFront
    obtain ⟨⟨_, behind⟩, readEarlier, rfl⟩ := Option.map_eq_some_iff.mp mapped
    have whole : place.text = before ++ after := by
      apply Place.mem_all_iff.mp
      rw [placesEq]
      exact List.mem_append_left _ onPlaces
    have shorter := ordered place onPlaces _ (List.mem_cons_self)
    refine ⟨place.before.reverse, place.after, behind, whole.symm, ?_, ?_⟩
    · rwa [List.reverse_reverse]
    · simpa using shorter

end Pattern

end DiagramEdit
