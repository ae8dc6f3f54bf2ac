import DiagramEdit.Proofs.Header.Deletion
import DiagramEdit.Proofs.Header.Survival

/-!
# A toggle of the header

The first line that is not blank is the one that is read and the one that is
toggled.  Where one direction stands on it, another one takes its place and is
again the only one, so a toggle of a toggle goes back, or goes on between the
two that a toggle writes.
-/

namespace DiagramEdit

/-- The direction that a word names. -/
def Direction.ofWord? (word : Text) : Option Direction :=
  Direction.all.find? (·.keyword == word)

/-- The directions that stand on a line as words of their own, in order. -/
def directionsOn (line : Text) : List Direction :=
  (Text.wordRuns line).filterMap Direction.ofWord?

namespace Direction

theorem ofWord?_eq_some_iff {word : Text} {direction : Direction} :
    ofWord? word = some direction ↔ word = direction.keyword := by
  constructor
  · intro found
    have same := List.find?_some found
    exact (beq_iff_eq.mp same).symm
  · intro same
    rw [same]
    cases direction <;> decide

theorem keyword_ne_nil (direction : Direction) : direction.keyword ≠ [] :=
  ne_nil_of_isIdentifier direction.isIdentifier_keyword

theorem isWordCharacter_of_mem_keyword (direction : Direction)
    {character : Char} (member : character ∈ direction.keyword) :
    Text.isWordCharacter character :=
  isWordCharacter_of_mem_identifier direction.isIdentifier_keyword member

end Direction

section Line

variable {line before after : Text} {direction : Direction}

theorem mem_directionsOn_iff_wordRuns :
    direction ∈ directionsOn line ↔ direction.keyword ∈ Text.wordRuns line := by
  simp [directionsOn, Direction.ofWord?_eq_some_iff]

/-- The directions on a line are those that a whole-word search finds there. -/
theorem mem_directionsOn_iff :
    direction ∈ directionsOn line ↔ mentions direction.keyword line := by
  rw [mem_directionsOn_iff_wordRuns,
    mentions_iff_mem_wordRuns direction.isIdentifier_keyword]

theorem directionsOn_trim (line : Text) :
    directionsOn (Text.trim line) = directionsOn line := by
  rw [directionsOn, Text.wordRuns_trim, directionsOn]

theorem directionsOn_cut (ends : Text.endsInWord before = false)
    (starts : Text.startsWithWord after = false) (direction : Direction) :
    directionsOn (before ++ direction.keyword ++ after) =
      directionsOn before ++ direction :: directionsOn after := by
  have word : directionsOn direction.keyword = [direction] := by
    rw [directionsOn, wordRuns_identifier direction.isIdentifier_keyword,
      List.filterMap_cons_some (Direction.ofWord?_eq_some_iff.mpr rfl),
      List.filterMap_nil]
  rw [directionsOn, Text.wordRuns_append (Or.inr starts),
    Text.wordRuns_append (Or.inl ends), List.filterMap_append,
    List.filterMap_append]
  change directionsOn before ++ directionsOn direction.keyword ++
      directionsOn after = _
  rw [word, List.append_assoc, List.singleton_append]

/-- Two parts of a line without a direction, between which one can stand. -/
structure LeaveRoom (before after : Text) : Prop where
  ends : Text.endsInWord before = false
  starts : Text.startsWithWord after = false
  before_none : directionsOn before = []
  after_none : directionsOn after = []

theorem LeaveRoom.directionsOn_eq (room : LeaveRoom before after)
    (direction : Direction) :
    directionsOn (before ++ direction.keyword ++ after) = [direction] := by
  rw [directionsOn_cut room.ends room.starts, room.before_none, room.after_none,
    List.nil_append]

theorem leaveRoom_of_directionsOn {other : Direction}
    (ends : Text.endsInWord before = false)
    (starts : Text.startsWithWord after = false)
    (single : directionsOn (before ++ direction.keyword ++ after) = [other]) :
    direction = other ∧ LeaveRoom before after := by
  rw [directionsOn_cut ends starts, List.append_eq_singleton_iff] at single
  rcases single with ⟨noneBefore, rest⟩ | ⟨_, impossible⟩
  · obtain ⟨same, noneAfter⟩ := List.cons.inj rest
    exact ⟨same, ends, starts, noneBefore, noneAfter⟩
  · cases impossible

theorem exists_leaveRoom (single : directionsOn line = [direction]) :
    ∃ before after, line = before ++ direction.keyword ++ after ∧
      LeaveRoom before after := by
  have listed : direction ∈ directionsOn line := by simp [single]
  obtain ⟨_, _, before, after, split, ends, starts⟩ :=
    Text.mem_wordRuns_iff.mp (mem_directionsOn_iff_wordRuns.mp listed)
  rw [split] at single
  exact ⟨before, after, split, (leaveRoom_of_directionsOn ends starts single).2⟩

theorem replaceFirst?_ne_none (listed : direction ∈ directionsOn line)
    (replacement : Text) :
    Pattern.replaceFirst? (Pattern.region (Pattern.wholeWord direction.keyword))
        line replacement ≠ none := by
  obtain ⟨before, after, rfl, found⟩ :=
    Pattern.occursIn_iff_cut.mp (mem_directionsOn_iff.mp listed)
  obtain ⟨⟨_, stop⟩, read⟩ := Option.isSome_iff_exists.mp found
  have here := Pattern.region_eq_some_iff.mpr ⟨read, rfl⟩
  exact Pattern.replaceFirst?_ne_none_of_isSome (Option.isSome_of_eq_some here)
    replacement

theorem directionToggled_toggleLine (listed : direction ∈ directionsOn line) :
    DirectionToggled line (toggleLine line) := by
  rw [toggleLine]
  cases searched : Direction.all.findSome? fun direction =>
    Pattern.replaceFirst? (Pattern.region (Pattern.wholeWord direction.keyword))
      line direction.toggled.keyword with
  | none =>
      have inOrder : direction ∈ Direction.all := by cases direction <;> decide
      have missing := List.findSome?_eq_none_iff.mp searched direction inOrder
      exact absurd missing (replaceFirst?_ne_none listed _)
  | some edited =>
      obtain ⟨found, _, replaced⟩ := List.exists_of_findSome?_eq_some searched
      exact directionToggled_of_replaceFirst? replaced

theorem toggleLine_of_none (empty : directionsOn line = []) :
    toggleLine line = line := by
  rcases toggleLine_eq_or_toggled line with
    same | ⟨before, direction, after, split, ends, starts, _⟩
  · exact same
  · rw [split, directionsOn_cut ends starts] at empty
    simp at empty

/-- The only direction on a line is replaced where it stands. -/
theorem LeaveRoom.toggleLine_eq (room : LeaveRoom before after)
    (direction : Direction) :
    toggleLine (before ++ direction.keyword ++ after) =
      before ++ direction.toggled.keyword ++ after := by
  have single := room.directionsOn_eq direction
  have listed :
      direction ∈ directionsOn (before ++ direction.keyword ++ after) := by
    rw [single]
    exact List.mem_singleton_self direction
  obtain ⟨front, found, rest, split, ends, starts, toggled⟩ :=
    directionToggled_toggleLine listed
  rw [split] at single
  obtain ⟨rfl, otherRoom⟩ := leaveRoom_of_directionsOn ends starts single
  have absent : ∀ {part : Text}, directionsOn part = [] →
      found.keyword ∉ Text.wordRuns part := by
    intro part empty member
    rw [← mem_directionsOn_iff_wordRuns, empty] at member
    cases member
  obtain ⟨rfl, rfl⟩ :=
    Text.eq_of_word_cuts (fun _ => found.isWordCharacter_of_mem_keyword)
      found.keyword_ne_nil split room.ends room.starts otherRoom.ends
      otherRoom.starts (absent room.before_none) (absent otherRoom.before_none)
  exact toggled

end Line

/-- The first line of a text that is not blank, and the lines around it. -/
structure IsHeaderLine (text : Text) (earlier : List Text) (line : Text)
    (later : List Text) :
    Prop where
  cut : Text.lines text = earlier ++ line :: later
  blank : ∀ other ∈ earlier, Text.isBlank other
  visible : Text.isBlank line = false

theorem exists_isHeaderLine {text : Text}
    (visible : Text.isBlank text = false) :
    ∃ earlier line later, IsHeaderLine text earlier line later := by
  have whole :=
    List.takeWhile_append_dropWhile (p := Text.isBlank) (l := Text.lines text)
  have stops := List.head?_dropWhile_not Text.isBlank (Text.lines text)
  have blank :
      ∀ other ∈ (Text.lines text).takeWhile Text.isBlank, Text.isBlank other :=
    fun _ member => List.mem_takeWhile_imp member
  cases rest : (Text.lines text).dropWhile Text.isBlank with
  | nil =>
      have blanks := List.all_eq_true.mpr (List.dropWhile_eq_nil_iff.mp rest)
      rw [← Text.isBlank_eq_all_lines, visible] at blanks
      cases blanks
  | cons line later =>
      rw [rest] at whole stops
      exact ⟨_, line, later, whole.symm, blank, by simpa using stops⟩

theorem toggleFirstLine_of_blank {earlier : List Text}
    (blank : ∀ other ∈ earlier, Text.isBlank other) (rest : List Text) :
    toggleFirstLine (earlier ++ rest) = earlier ++ toggleFirstLine rest := by
  induction earlier with
  | nil => rfl
  | cons line earlier induction =>
      rw [List.cons_append, toggleFirstLine, if_pos (blank line (by simp)),
        induction fun other member => blank other (by simp [member]),
        List.cons_append]

/-- A toggled line is visible and one line, as the line it was. -/
theorem DirectionToggled.remains {line edited : Text}
    (toggled : DirectionToggled line edited) (oneLine : '\n' ∉ line) :
    Text.isBlank edited = false ∧ '\n' ∉ edited := by
  obtain ⟨before, direction, after, split, _, _, editedEq⟩ := toggled
  have identifies := direction.toggled.isIdentifier_keyword
  rw [split] at oneLine
  simp only [List.mem_append, not_or] at oneLine
  subst editedEq
  constructor
  · rw [Text.isBlank_append, Text.isBlank_append, isBlank_identifier identifies,
      Bool.and_false, Bool.false_and]
  · simp [oneLine, not_lineFeed_mem_identifier identifies]

namespace IsHeaderLine

variable {text line : Text} {earlier later : List Text}

theorem headerLine_eq (header : IsHeaderLine text earlier line later) :
    headerLine text = Text.trim line := by
  have above : earlier.find? (!Text.isBlank ·) = none := by
    simpa using header.blank
  rw [DiagramEdit.headerLine_eq, header.cut, List.find?_append, above,
    Option.none_or, List.find?_cons_of_pos (by simp [header.visible]),
    Option.getD_some]

theorem directionsOn_headerLine
    (header : IsHeaderLine text earlier line later) :
    directionsOn (headerLine text) = directionsOn line := by
  rw [header.headerLine_eq, directionsOn_trim]

/-- A toggle changes the header line and leaves the lines around it. -/
theorem toggle (header : IsHeaderLine text earlier line later) :
    IsHeaderLine (toggleDirection text) earlier (toggleLine line) later := by
  obtain ⟨cut, blank, visible⟩ := header
  have oneLine : ∀ other ∈ earlier ++ line :: later, '\n' ∉ other :=
    fun other member => Text.not_mem_of_mem_lines (cut ▸ member)
  have remains :
      Text.isBlank (toggleLine line) = false ∧ '\n' ∉ toggleLine line := by
    rcases toggleLine_eq_or_toggled line with same | toggled
    · rw [same]
      exact ⟨visible, oneLine line (by simp)⟩
    · exact toggled.remains (oneLine line (by simp))
  refine ⟨?_, blank, remains.1⟩
  rw [toggleDirection, cut, toggleFirstLine_of_blank blank, toggleFirstLine,
    if_neg (by simp [visible])]
  apply Text.lines_joinLines (by simp)
  intro other member
  rcases List.mem_append.mp member with inEarlier | rest
  · exact oneLine other (by simp [inEarlier])
  · rcases List.mem_cons.mp rest with rfl | inLater
    · exact remains.2
    · exact oneLine other (by simp [inLater])

theorem unique {other : Text} (header : IsHeaderLine text earlier line later)
    (otherHeader : IsHeaderLine other earlier line later) : text = other :=
  Text.eq_of_lines_eq (header.cut.trans otherHeader.cut.symm)

end IsHeaderLine

section Text

variable {text : Text} {direction : Direction}

theorem headerLine_eq_nil_of_isBlank (blank : Text.isBlank text) :
    headerLine text = [] := by
  have spaces := List.all_eq_true.mp blank
  rw [← List.append_nil text, headerLine_space_append spaces]
  rfl

theorem exists_isHeaderLine_of_directionsOn
    (listed : direction ∈ directionsOn (headerLine text)) :
    ∃ earlier line later, IsHeaderLine text earlier line later := by
  apply exists_isHeaderLine
  rw [Bool.eq_false_iff]
  intro blank
  rw [headerLine_eq_nil_of_isBlank blank] at listed
  cases listed

theorem toggleDirection_of_none (empty : directionsOn (headerLine text) = []) :
    toggleDirection text = text := by
  cases blank : Text.isBlank text with
  | true =>
      rw [Text.isBlank_eq_all_lines, List.all_eq_true] at blank
      have same := toggleFirstLine_of_blank blank []
      rw [toggleFirstLine, List.append_nil] at same
      rw [toggleDirection, same, Text.joinLines_lines]
  | false =>
      obtain ⟨earlier, line, later, header⟩ := exists_isHeaderLine blank
      rw [header.directionsOn_headerLine] at empty
      have toggled := header.toggle
      rw [toggleLine_of_none empty] at toggled
      exact toggled.unique header

theorem isVertical_eq (single : directionsOn (headerLine text) = [direction]) :
    isVertical text = (direction == .topDown || direction == .topBottom) := by
  have mentioned : ∀ other : Direction,
      mentions other.keyword (headerLine text) = (direction == other) := by
    intro other
    rw [Bool.eq_iff_iff, ← mem_directionsOn_iff, single, List.mem_singleton,
      beq_iff_eq, eq_comm]
  simp [isVertical, mentioned]

/-- A toggle neither takes a keyword from the header nor gives it one. -/
theorem detect_toggleDirection (text : Text) :
    detect (toggleDirection text) = detect text := by
  have declared :
      declaredDialect? (toggleDirection text) = declaredDialect? text := by
    apply Option.ext
    intro dialect
    rw [declaredDialect?_eq_some_iff, declaredDialect?_eq_some_iff]
    constructor
    · intro parts
      obtain ⟨opening, opens, begins⟩ := parts
      refine ⟨opening, opens, ?_⟩
      rcases toggleDirection_eq_or_toggled text with
        same | ⟨before, found, after, split, ends, _, edited⟩
      · rwa [same] at begins
      · rw [edited] at begins
        rw [split, List.append_assoc]
        exact (opens.isPrefix_of_direction begins ends).trans
          (List.prefix_append _ _)
    · intro parts
      obtain ⟨opening, opens, begins⟩ := parts
      exact ⟨opening, opens, opens.isPrefix_toggleDirection begins⟩
  rw [detect, declared, detect]

theorem IsHeaderLine.toggle_of_room {before after : Text}
    {earlier later : List Text}
    (header :
      IsHeaderLine text earlier (before ++ direction.keyword ++ after) later)
    (room : LeaveRoom before after) :
    IsHeaderLine (toggleDirection text) earlier
      (before ++ direction.toggled.keyword ++ after) later := by
  have toggled := header.toggle
  rwa [room.toggleLine_eq direction] at toggled

theorem exists_isHeaderLine_of_single
    (single : directionsOn (headerLine text) = [direction]) :
    ∃ earlier before after later, LeaveRoom before after ∧
      IsHeaderLine text earlier (before ++ direction.keyword ++ after)
        later := by
  have listed : direction ∈ directionsOn (headerLine text) := by
    rw [single]
    exact List.mem_singleton_self direction
  obtain ⟨earlier, line, later, header⟩ :=
    exists_isHeaderLine_of_directionsOn listed
  rw [header.directionsOn_headerLine] at single
  obtain ⟨before, after, rfl, room⟩ := exists_leaveRoom single
  exact ⟨earlier, before, after, later, room, header⟩

end Text

/-- A toggle edits the line that the dialect is read from, and keeps the
dialect.  The only direction of a header becomes another one, and the next
toggles go to and fro. -/
theorem toggleDirection_edits_header (text : Text) :
    ((Text.isBlank text ∧ toggleDirection text = text) ∨
        ∃ earlier line edited later, IsHeaderLine text earlier line later ∧
          Text.trim line = headerLine text ∧
          IsHeaderLine (toggleDirection text) earlier edited later ∧
          Text.trim edited = headerLine (toggleDirection text)) ∧
      detect (toggleDirection text) = detect text ∧
      (directionsOn (headerLine text) = [] → toggleDirection text = text) ∧
      ∀ direction, directionsOn (headerLine text) = [direction] →
        directionsOn (headerLine (toggleDirection text)) = [direction.toggled] ∧
          (direction.toggled = .leftRight ∨ direction.toggled = .topDown) ∧
          (isVertical (toggleDirection text) = !isVertical text ↔
            direction ≠ .bottomTop) ∧
          (toggleDirection (toggleDirection text) = text ↔
            direction = .topDown ∨ direction = .leftRight) ∧
          toggleDirection (toggleDirection (toggleDirection text)) =
            toggleDirection text := by
  refine ⟨?_, detect_toggleDirection text, toggleDirection_of_none, ?_⟩
  · cases blank : Text.isBlank text with
    | true =>
        left
        exact ⟨rfl,
          toggleDirection_of_none
            (by rw [headerLine_eq_nil_of_isBlank blank]; rfl)⟩
    | false =>
        right
        obtain ⟨earlier, line, later, header⟩ := exists_isHeaderLine blank
        exact ⟨earlier, line, toggleLine line, later, header,
          header.headerLine_eq.symm, header.toggle,
          header.toggle.headerLine_eq.symm⟩
  · intro direction single
    obtain ⟨earlier, before, after, later, room, header⟩ :=
      exists_isHeaderLine_of_single single
    have once := header.toggle_of_room room
    have twice := once.toggle_of_room room
    have thrice := twice.toggle_of_room room
    have onceSingle : directionsOn (headerLine (toggleDirection text)) =
        [direction.toggled] := by
      rw [once.directionsOn_headerLine, room.directionsOn_eq]
    refine ⟨onceSingle, ?_, ?_, ?_, ?_⟩
    · cases direction <;> decide
    · rw [isVertical_eq single, isVertical_eq onceSingle]
      cases direction <;> decide
    · constructor
      · intro restored
        have twiceSingle := twice.directionsOn_headerLine
        rw [room.directionsOn_eq, restored, single] at twiceSingle
        revert twiceSingle
        cases direction <;> decide
      · intro plain
        rcases plain with rfl | rfl
        · exact twice.unique header
        · exact twice.unique header
    · have settled : direction.toggled.toggled.toggled = direction.toggled := by
        cases direction <;> rfl
      rw [settled] at thrice
      exact thrice.unique once

end DiagramEdit
