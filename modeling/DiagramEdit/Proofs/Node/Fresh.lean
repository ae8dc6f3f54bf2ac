import DiagramEdit.Proofs.Node.Site

/-!
# Fresh identifiers

Identifiers in use are words of the text, and a text has fewer words than it has
characters and one more.  So the search for a new identifier succeeds on every
text, and it answers with the least number that is free.
-/

namespace DiagramEdit

theorem not_isWordCharacter_of_opensNode {character : Char}
    (opens : opensNode character) :
    Text.isWordCharacter character = false := by
  simp only [opensNode, Bool.or_eq_true, beq_iff_eq] at opens
  rcases opens with ((rfl | rfl) | rfl) | rfl <;> decide

theorem not_isSpace_of_opensNode {character : Char}
    (opens : opensNode character) :
    Text.isSpace character = false := by
  simp only [opensNode, Bool.or_eq_true, beq_iff_eq] at opens
  rcases opens with ((rfl | rfl) | rfl) | rfl <;> decide

theorem not_startsIdentifier_of_opensNode {character : Char}
    (opens : opensNode character) :
    startsIdentifier character = false := by
  simp only [opensNode, Bool.or_eq_true, beq_iff_eq] at opens
  rcases opens with ((rfl | rfl) | rfl) | rfl <;> decide

theorem startsWithWord_space_append {space : Text} {character : Char}
    (spaces : ∀ other ∈ space, Text.isSpace other)
    (stops : Text.isWordCharacter character = false) (rest : Text) :
    Text.startsWithWord (space ++ character :: rest) = false :=
  Text.startsWithWord_append (Text.startsWithWord_of_spaces spaces)
    (by simpa [Text.startsWithWord] using stops)

namespace Pattern

theorem identifierBeforeBracket_cut_iff {before after word : Text}
    {stop : Place} :
    identifierBeforeBracket ⟨before.reverse, after⟩ = some (word, stop) ↔
      Text.endsInWord before = false ∧ word.head?.any startsIdentifier ∧
        (∀ character ∈ word, Text.isWordCharacter character) ∧
        ∃ space bracket rest, after = word ++ space ++ bracket :: rest ∧
          (∀ character ∈ space, Text.isSpace character) ∧ opensNode bracket ∧
          stop = ⟨(before ++ word ++ space ++ [bracket]).reverse, rest⟩ := by
  simp only [identifierBeforeBracket, bind_eq_some_iff, check_eq_some_iff,
    one_eq_some_iff, run_eq_some_iff_split, pure_eq_some_iff,
    isWordBoundary_cut]
  constructor
  · intro parts
    obtain ⟨_, _, ⟨boundary, startEq⟩, initial, _,
      ⟨starts, behind, split, initialEq⟩, word', _,
      ⟨spaced, behindEq, within, _, wordEq⟩, space, _,
      ⟨opened, spacedEq, spaces, _, spaceEq⟩, bracket, _,
      ⟨opens, rest, openedEq, bracketEq⟩, whole, stopEq⟩ := parts
    subst startEq initialEq wordEq spaceEq bracketEq whole
    change after = initial :: behind at split
    change behind = word' ++ spaced at behindEq
    change spaced = space ++ opened at spacedEq
    change opened = bracket :: rest at openedEq
    have word := isWordCharacter_of_startsIdentifier starts
    have startsWord : Text.startsWithWord after := by
      simpa [split, Text.startsWithWord] using word
    rw [startsWord] at boundary
    refine ⟨by simpa using boundary, by simpa using starts, ?_, space, bracket,
      rest, ?_, spaces, opens, ?_⟩
    · intro character member
      rcases List.mem_cons.mp member with here | later
      · rw [here]
        exact word
      · exact within character later
    · simp [split, behindEq, spacedEq, openedEq]
    · simp [← stopEq]
  · intro parts
    obtain ⟨ends, starts, within, space, bracket, rest, split, spaces, opens,
      stopEq⟩ := parts
    cases word with
    | nil => cases starts
    | cons initial word =>
        have startsInitial : startsIdentifier initial := by simpa using starts
        have startsWord : Text.startsWithWord after := by
          simpa [split, Text.startsWithWord] using within initial (by simp)
        have wordStops :
            (space ++ bracket :: rest).head?.all (!Text.isWordCharacter ·) := by
          rw [Text.all_not_eq_not_any]
          have stopped := startsWithWord_space_append spaces
            (not_isWordCharacter_of_opensNode opens) rest
          simpa [Text.startsWithWord] using stopped
        refine ⟨(), _, ⟨by simp [ends, startsWord], rfl⟩, initial, _,
          ⟨startsInitial, word ++ space ++ bracket :: rest, by simp [split],
            rfl⟩, word, _,
          ⟨space ++ bracket :: rest, by simp, ?_, wordStops, rfl⟩, space, _,
          ⟨bracket :: rest, rfl, spaces, ?_, rfl⟩, bracket, _,
          ⟨opens, rest, rfl, rfl⟩, rfl, ?_⟩
        · intro character member
          exact within character (by simp [member])
        · simpa using not_isSpace_of_opensNode opens
        · simp [stopEq]

end Pattern

section NodeIds

variable {text id : Text}

theorem mem_nodeIds_iff :
    id ∈ nodeIds text ↔
      id ∈ Pattern.identifierBeforeBracket.readings text ∧
        isReserved id = false := by
  simp [nodeIds, List.mem_eraseDups]

theorem mem_wordRuns_of_mem_nodeIds (member : id ∈ nodeIds text) :
    id ∈ Text.wordRuns text := by
  obtain ⟨before, after, stop, split, read⟩ :=
    Pattern.mem_readings_iff.mp (mem_nodeIds_iff.mp member).1
  obtain ⟨ends, starts, within, space, bracket, rest, afterEq, spaces, opens,
    _⟩ :=
    Pattern.identifierBeforeBracket_cut_iff.mp read
  rw [Text.mem_wordRuns_iff]
  refine ⟨?_, within, before, space ++ bracket :: rest,
    by simp [split, afterEq], ends, ?_⟩
  · intro empty
    rw [empty] at starts
    cases starts
  · exact startsWithWord_space_append spaces
      (not_isWordCharacter_of_opensNode opens) rest

theorem mem_wordRuns_of_references (identifies : isIdentifier id)
    (mentioned : references text id) :
    id ∈ Text.wordRuns text := by
  obtain ⟨line, below, member⟩ := (references_iff identifies).mp mentioned
  exact Text.mem_wordRuns_of_mem_lines (List.mem_of_mem_tail below) member

theorem mem_nodeIds_of_isSite {before after : Text}
    (starts : id.head?.any startsIdentifier)
    (within : ∀ character ∈ id, Text.isWordCharacter character)
    (unreserved : isReserved id = false) (site : IsSite id before after) :
    id ∈ nodeIds (before ++ after) := by
  obtain ⟨space, bracket, rest, split, spaces, opens⟩ := site.opens
  rw [mem_nodeIds_iff, Pattern.mem_readings_iff]
  exact ⟨⟨before, after, _, rfl,
      Pattern.identifierBeforeBracket_cut_iff.mpr ⟨(standsApart_iff_of_starts
            starts before).mp site.apart, starts, within, space, bracket, rest,
        split, spaces, opensNode_of_opensLabel opens, rfl⟩⟩, unreserved⟩

end NodeIds

/-- Enough numbers in a row give an identifier that is not taken. -/
theorem exists_numberedId_not_mem {taken : List Text} {count : Nat}
    (many : taken.length < count) :
    ∃ number ∈ List.range' 1 count, numberedId number ∉ taken := by
  have distinct : ((List.range' 1 count).map numberedId).Nodup :=
    List.Nodup.map numberedId_injective List.nodup_range'
  obtain ⟨word, candidate, absent⟩ :=
    Text.exists_not_mem_of_length_lt distinct (by simpa using many)
  obtain ⟨number, inRange, rfl⟩ := List.mem_map.mp candidate
  exact ⟨number, inRange, absent⟩

theorem isUnused_iff_not_mem {taken : List Text} {text id : Text} :
    isUnused taken text id ↔ id ∉ taken ∧ ¬references text id := by
  simp only [isUnused, Bool.and_eq_true, Bool.not_eq_true', ← Bool.not_eq_true,
    List.contains_iff_mem]

/-- The numbers of new identifiers that are tried hold one that is unused. -/
theorem exists_isUnused (text : Text) :
    ∃ number ∈ List.range' 1 (text.length + 1),
      isUnused (nodeIds text) text (numberedId number) := by
  have few : (Text.wordRuns text).length < text.length + 1 :=
    Nat.lt_succ_of_le (Text.length_wordRuns_le text)
  obtain ⟨number, inRange, absent⟩ := exists_numberedId_not_mem few
  refine ⟨number, inRange, isUnused_iff_not_mem.mpr ⟨?_, ?_⟩⟩
  · intro taken
    exact absent (mem_wordRuns_of_mem_nodeIds taken)
  · intro mentioned
    exact absent
      (mem_wordRuns_of_references (isIdentifier_numberedId number) mentioned)

/-- The fresh number is the least positive one whose identifier is unused. -/
theorem freshNumber_spec (text : Text) :
    1 ≤ freshNumber text ∧
      isUnused (nodeIds text) text (numberedId (freshNumber text)) ∧
      ∀ smaller, 1 ≤ smaller → smaller < freshNumber text →
        isUnused (nodeIds text) text (numberedId smaller) = false := by
  obtain ⟨number, inRange, unused⟩ := exists_isUnused text
  cases searched : (List.range' 1 (text.length + 1)).find? fun number =>
      isUnused (nodeIds text) text (numberedId number) with
  | none =>
      have used := List.find?_eq_none.mp searched number inRange
      exact absurd unused used
  | some found =>
      have foundEq : freshNumber text = found := by
        rw [freshNumber, searched]
        rfl
      obtain ⟨holds, member, least⟩ := List.find?_range'_eq_some.mp searched
      rw [foundEq]
      refine ⟨(List.mem_range'_1.mp member).1, holds, ?_⟩
      intro smaller positive below
      simpa using least smaller positive below

theorem isReserved_numberedId (number : Nat) :
    isReserved (numberedId number) = false := by
  have table : ∀ word ∈ reservedWords, word.head? ≠ some 'n' := by decide
  rw [isReserved, ← Bool.not_eq_true, List.contains_iff_mem]
  intro member
  exact table _ member rfl

/-- The line that a new node is written on. -/
def nodeLine (id : Text) : Text :=
  indentation ++ id ++ Shape.rect.wrap newNodeLabel

theorem addNode_text (text : Text) :
    (addNode text).text = Text.appendLine text (nodeLine (addNode text).id) :=
  rfl

theorem isUnused_addNode (text : Text) :
    isUnused (nodeIds text) text (addNode text).id :=
  (freshNumber_spec text).2.1

theorem isIdentifier_addNode (text : Text) : isIdentifier (addNode text).id :=
  isIdentifier_numberedId _

end DiagramEdit
