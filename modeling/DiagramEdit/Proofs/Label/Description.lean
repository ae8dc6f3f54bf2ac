import DiagramEdit.Proofs.Header
import DiagramEdit.Proofs.Label
import DiagramEdit.Proofs.Label.Diagram

/-!
# Whose description is changed

Where quotes stand around the descriptions of states only, a quote behind white
space opens one of them, since a label does not end in white space.  What is
read from there on is a description and its state, so the reader and the edit
both find the one declaration of a state, wherever else its label or its name
stands.
-/

namespace DiagramEdit

namespace Text

/-- A text of at least one character, all of them ASCII letters, digits and
underscores. -/
def IsAsciiName (name : Text) : Prop :=
  name ≠ [] ∧ ∀ character ∈ name, isAsciiWord character

namespace IsAsciiName

variable {name : Text} (isName : IsAsciiName name)

include isName

theorem isWordCharacter {character : Char} (member : character ∈ name) :
    Text.isWordCharacter character :=
  isWordCharacter_of_isAsciiWord (isName.2 character member)

theorem isSolid : IsSolid name :=
  ⟨isName.1,
    fun _ member =>
      not_isSpace_of_isWordCharacter (isName.isWordCharacter member)⟩

theorem endsInWord : Text.endsInWord name :=
  endsInWord_of_word isName.1 fun _ member => isName.isWordCharacter member

theorem getLast?_isNameCharacter : name.getLast?.any isNameCharacter := by
  rw [List.getLast?_eq_some_getLast isName.1]
  exact isNameCharacter_of_isAsciiWord (isName.2 _ (List.getLast_mem isName.1))

theorem fitsApart : Pattern.fitsApart name := by
  refine ⟨fun _ => ?_, fun _ => isName.endsInWord⟩
  obtain ⟨first, more, rfl⟩ := List.exists_cons_of_ne_nil isName.1
  exact isName.isWordCharacter (by simp)

end IsAsciiName

/-- Where a character stands between three parts that do not hold it, it stands
in one of two places. -/
theorem cases_of_two_separators {lead middle trailer left right : Text}
    {character : Char} (inLead : character ∉ lead)
    (inMiddle : character ∉ middle) (inTrailer : character ∉ trailer)
    (split : left ++ character :: right =
      lead ++ character :: (middle ++ character :: trailer)) :
    (left = lead ∧ right = middle ++ character :: trailer) ∨
      (left = lead ++ character :: middle ∧ right = trailer) := by
  rcases append_eq_append_cons_cases split with
    ⟨more, leftEq, behind⟩ | ⟨front, leadEq, behind⟩
  · right
    rcases append_eq_append_cons_cases behind with
      ⟨_, middleEq, _⟩ | ⟨front, moreEq, trailerEq⟩
    · exact absurd (by simp [middleEq]) inMiddle
    · cases front with
      | nil =>
          obtain ⟨_, same⟩ := List.cons.inj trailerEq
          exact ⟨by simpa [moreEq] using leftEq, same.symm⟩
      | cons first front =>
          obtain ⟨_, same⟩ := List.cons.inj trailerEq
          exact absurd (by simp [same]) inTrailer
  · left
    cases front with
    | nil => exact ⟨by simpa using leadEq.symm, (List.cons.inj behind).2⟩
    | cons first front =>
        obtain ⟨rfl, _⟩ := List.cons.inj behind
        exact absurd (by simp [leadEq]) inLead

theorem IsGap.not_getLast?_visible {before space : Text} (gap : IsGap space) :
    ¬(before ++ space).getLast?.any (!isSpace ·) := by
  rw [List.getLast?_append_of_ne_nil _ gap.1,
    List.getLast?_eq_some_getLast gap.1]
  simpa using gap.2 _ (List.getLast_mem gap.1)

end Text

/-- A state with a description, as it is declared on a line. -/
structure DescribedState where
  indent : Text
  label : Text
  id : Text
  indent_blank : ∀ character ∈ indent, Text.isBlankCharacter character
  label_isLabel : IsLabel label
  label_unquoted : '"' ∉ label
  id_isName : Text.IsAsciiName id

namespace DescribedState

def written (state : DescribedState) : Text :=
  state.indent ++ "state \"".toList ++ state.label ++ "\" as ".toList ++
    state.id

/-- The state with another description. -/
def rename (state : DescribedState) (new : Text) (isLabel : IsLabel new)
    (unquoted : '"' ∉ new) : DescribedState :=
  { state with
    label := new
    label_isLabel := isLabel
    label_unquoted := unquoted }

/-- What stands in front of the opening quote. -/
def lead (state : DescribedState) : Text :=
  state.indent ++ ("state".toList ++ [' '])

/-- What stands behind the closing quote. -/
def trailer (state : DescribedState) : Text :=
  [' '] ++ ("as".toList ++ ([' '] ++ state.id))

variable {state : DescribedState}

theorem written_eq (state : DescribedState) :
    state.written =
      state.lead ++ '"' :: (state.label ++ '"' :: state.trailer) := by
  have opening : "state \"".toList = "state".toList ++ [' ', '"'] := rfl
  have closing : "\" as ".toList = ['"', ' '] ++ "as".toList ++ [' '] := rfl
  simp [written, lead, trailer, opening, closing]

theorem lead_unquoted (state : DescribedState) : '"' ∉ state.lead := by
  have indent : '"' ∉ state.indent :=
    fun member => by cases state.indent_blank '"' member
  simp [lead, indent]

theorem trailer_unquoted (state : DescribedState) : '"' ∉ state.trailer := by
  have id : '"' ∉ state.id :=
    fun member => by cases state.id_isName.2 '"' member
  simp [trailer, id]

end DescribedState

theorem NamesState.eq_of_trailer {id rest : Text} {state : DescribedState}
    (names : NamesState id (state.trailer ++ rest))
    (isName : Text.IsAsciiName id) (stops : Text.startsWithWord rest = false) :
    id = state.id := by
  obtain ⟨space, margin, behind, tail, spaceGap, marginGap, bounded⟩ := names
  simp only [DescribedState.trailer, List.append_assoc] at tail
  obtain ⟨_, keyword⟩ :=
    Pattern.eq_of_append_eq_append_of_stops tail Text.isGap_space.2 spaceGap.2
      (by rfl) (by rfl)
  obtain ⟨_, named⟩ :=
    Pattern.eq_of_append_eq_append_of_stops (List.append_cancel_left keyword)
      Text.isGap_space.2 marginGap.2 (state.id_isName.isSolid.stops rest)
      (isName.isSolid.stops behind)
  have ends := bounded isName.getLast?_isNameCharacter isName.endsInWord
  exact (Pattern.eq_of_append_eq_append_of_stops named.symm
    (fun _ member => isName.isWordCharacter member)
    (fun _ member => state.id_isName.isWordCharacter member)
    (Text.startsWithWord_eq_false_iff.mp ends)
    (Text.startsWithWord_eq_false_iff.mp stops)).1

/-- A state diagram in which quotes stand around the descriptions of states
only, each state described once. -/
structure IsStateDiagram (diagram : Diagram DescribedState) : Prop where
  header_unquoted : '"' ∉ diagram.header
  header_named : detect diagram.header = .states
  ids_nodup : ((declaredElements diagram.lines).map DescribedState.id).Nodup
  others_unquoted : ∀ line, .other line ∈ diagram.lines → '"' ∉ line

/-- The text of a state diagram. -/
abbrev Diagram.stateText (diagram : Diagram DescribedState) : Text :=
  diagram.text DescribedState.written

namespace IsStateDiagram

variable {diagram : Diagram DescribedState}
  {earlier later : List (DiagramLine DescribedState)} {state : DescribedState}

/-- A quote behind white space opens a description. -/
theorem exists_declaration_of_quote (described : IsStateDiagram diagram)
    {front space label tail : Text}
    (cut : diagram.stateText = front ++ space ++ '"' :: (label ++ '"' :: tail))
    (gap : Text.IsGap space) (unquoted : '"' ∉ label) :
    ∃ earlier state later,
      diagram.lines = earlier ++ .declaration state :: later ∧
        front ++ space =
          Diagram.above DescribedState.written diagram.header earlier ++
            state.lead ∧ label = state.label ∧
        tail = state.trailer ++ Diagram.below DescribedState.written later := by
  obtain ⟨above, line, below, left, right, pieces, lineEq, beforeEq, afterEq⟩ :=
    Text.joinLines_eq_append_cons (by decide) cut
  cases above with
  | nil =>
      obtain ⟨headerEq, _⟩ := List.cons.inj pieces
      exact absurd (by simp [headerEq, lineEq]) described.header_unquoted
  | cons header above =>
      obtain ⟨rfl, linesEq⟩ := List.cons.inj pieces
      obtain ⟨earlier, rest, split, rfl, restEq⟩ :=
        List.map_eq_append_iff.mp linesEq
      obtain ⟨quoted, later, rfl, written, rfl⟩ :=
        List.map_eq_cons_iff.mp restEq
      cases quoted with
      | other other =>
          have bare := described.others_unquoted other (by simp [split])
          have same : other = line := written
          exact absurd (by simp [same, lineEq]) bare
      | declaration state =>
          have declared : left ++ '"' :: right =
              state.lead ++ '"' :: (state.label ++ '"' :: state.trailer) := by
            rw [← lineEq, ← written, ← state.written_eq]
            rfl
          rcases Text.cases_of_two_separators state.lead_unquoted
            state.label_unquoted state.trailer_unquoted declared with
            ⟨rfl, rfl⟩ | ⟨rfl, rfl⟩
          · rw [List.append_assoc, List.cons_append] at afterEq
            obtain ⟨sameLabel, behind⟩ :=
              Pattern.eq_of_append_eq_append_of_stops afterEq
                (Pattern.bne_of_not_mem unquoted)
                (Pattern.bne_of_not_mem state.label_unquoted) (by rfl) (by rfl)
            exact ⟨earlier, state, later, split, beforeEq, sameLabel,
              (List.cons.inj behind).2⟩
          · -- A closing quote stands behind the visible end of a label.
            have visible := state.label_isLabel.getLast?_visible
            rw [List.append_cons state.lead, ← List.append_assoc] at beforeEq
            rw [← List.getLast?_append_of_ne_nil _ state.label_isLabel.nonempty,
              ← beforeEq] at visible
            exact absurd visible gap.not_getLast?_visible

/-- What stands behind a quote names the state of one declaration only. -/
theorem cut_of_quote (described : IsStateDiagram diagram)
    {front space label tail : Text}
    (split : diagram.lines = earlier ++ .declaration state :: later)
    (cut : diagram.stateText = front ++ space ++ '"' :: (label ++ '"' :: tail))
    (gap : Text.IsGap space) (unquoted : '"' ∉ label)
    (names : NamesState state.id tail) :
    front ++ space =
        Diagram.above DescribedState.written diagram.header earlier ++
          state.lead ∧ label = state.label ∧
      tail = state.trailer ++ Diagram.below DescribedState.written later := by
  obtain ⟨above, other, below, otherSplit, frontEq, labelEq, tailEq⟩ :=
    described.exists_declaration_of_quote cut gap unquoted
  rw [tailEq] at names
  have sameId :=
    names.eq_of_trailer state.id_isName (Text.startsWithWord_flatMap _)
  let mark : DiagramLine DescribedState → Option Text := fun line =>
    line.element?.map DescribedState.id
  have once :
      ((earlier ++ .declaration state :: later).filterMap mark).Nodup := by
    rw [← split]
    simpa only [declaredElements, List.map_filterMap] using described.ids_nodup
  have marked : mark (.declaration other) = some state.id := by
    rw [sameId]
    rfl
  obtain ⟨rfl, stateEq, rfl⟩ :=
    Text.cut_unique_of_nodup once rfl marked (split.symm.trans otherSplit)
  obtain rfl : state = other := DiagramLine.declaration.inj stateEq
  exact ⟨frontEq, labelEq, tailEq⟩

end IsStateDiagram

namespace Pattern

variable {id label before rest : Text} {place stop : Place}

theorem exists_of_describedState
    (read : describedState id place = some (label, stop)) :
    ∃ space tail,
      place.after = "state".toList ++ space ++ '"' :: (label ++ '"' :: tail) ∧
        Text.IsGap space ∧ '"' ∉ label ∧ NamesState id tail := by
  simp only [describedState, bind_eq_some_iff, pure_eq_some_iff] at read
  obtain ⟨_, _, word, space, _, spaced, _, _, opening, _, _, described, _, _,
    named, rfl, rfl⟩ := read
  obtain ⟨nonempty, passesSpace, spaces⟩ := passes_nonemptyRun spaced
  obtain ⟨_, passesLabel, unquoted⟩ := passes_nonemptyRun described
  obtain ⟨tail, closing, names⟩ := namesState_of_quoteAsState named
  have passes := ((passes_literal word).append (passesSpace.append
    ((passes_literal opening).append passesLabel))).after
  refine ⟨space, tail, ?_, ⟨nonempty, spaces⟩, ?_, names⟩
  · rw [passes, closing]
    simp
  · intro member
    simpa using unquoted '"' member

theorem quoteAsState_written (state : DescribedState) (before : Text)
    (stops : Text.startsWithWord rest = false) :
    ∃ stop,
      quoteAsState state.id ⟨before.reverse, '"' :: (state.trailer ++ rest)⟩ =
        some ((), stop) := by
  have cut : '"' :: (state.trailer ++ rest) =
      ['"'] ++ ([' '] ++ ("as".toList ++ ([' '] ++ (state.id ++ rest)))) := by
    simp [DescribedState.trailer]
  have apart : ∀ front : Text, Text.endsInWord (front ++ [' ']) = false :=
    fun front =>
      Text.endsInWord_append_space front Text.isGap_space.1 Text.isGap_space.2
  rw [cut, quoteAsState, bind_eq_of_some (literal_written _ _ _),
    bind_eq_of_some
      (nonemptyRun_written _ _ Text.isGap_space.1 Text.isGap_space.2 (by rfl)),
    bind_eq_of_some (literal_written _ _ _),
    afterSpace_of_visible Text.isGap_space.1 Text.isGap_space.2
      (state.id_isName.isSolid.stops rest)
      (wholeWord_written state.id_isName.fitsApart (apart _) stops)]
  exact ⟨_, rfl⟩

theorem isSome_describedState (state : DescribedState) (before : Text)
    (stops : Text.startsWithWord rest = false) :
    (describedState state.id ⟨before.reverse,
      "state".toList ++
        ([' '] ++
          (['"'] ++
            (state.label ++ '"' :: (state.trailer ++ rest))))⟩).isSome := by
  obtain ⟨stop, named⟩ := quoteAsState_written state
    (before ++ "state".toList ++ [' '] ++ ['"'] ++ state.label) stops
  rw [describedState, bind_eq_of_some (literal_written _ _ _),
    bind_eq_of_some
      (nonemptyRun_written _ _ Text.isGap_space.1 Text.isGap_space.2 (by rfl)),
    bind_eq_of_some (literal_written _ _ _),
    bind_eq_of_some (nonemptyRun_written _ _ state.label_isLabel.nonempty
      (Pattern.bne_of_not_mem state.label_unquoted) (by rfl)),
    bind_eq_of_some named]
  rfl

theorem isSome_labelOfState (state : DescribedState)
    (starts : Text.StartsLine before)
    (stops : Text.startsWithWord rest = false) :
    (labelOfState state.id state.label
      ⟨before.reverse, state.written ++ rest⟩).isSome := by
  have cut : state.written ++ rest =
      state.indent ++
        ("state".toList ++
          ([' '] ++
            (['"'] ++ (state.label ++ '"' :: (state.trailer ++ rest))))) := by
    simp [state.written_eq, DescribedState.lead]
  obtain ⟨stop, named⟩ :=
    quoteAsState_written state
      (before ++ state.indent ++ "state".toList ++ [' '] ++ ['"'] ++
        state.label) stops
  have labelled : region (literal state.label)
      ⟨(before ++ state.indent ++ "state".toList ++ [' '] ++ ['"']).reverse,
        state.label ++ '"' :: (state.trailer ++ rest)⟩ = some (_, _) :=
    region_eq_some_iff.mpr ⟨literal_written _ _ _, rfl⟩
  rw [cut, labelOfState, bind_eq_of_some (lineStart_written starts _),
    bind_eq_of_some (run_written _ _ state.indent_blank (by rfl)),
    bind_eq_of_some (literal_written _ _ _),
    bind_eq_of_some
      (nonemptyRun_written _ _ Text.isGap_space.1 Text.isGap_space.2 (by rfl)),
    bind_eq_of_some (literal_written _ _ _), bind_eq_of_some labelled,
    bind_eq_of_some named]
  rfl

end Pattern

namespace IsStateDiagram

variable {diagram : Diagram DescribedState}
  {earlier later : List (DiagramLine DescribedState)} {state : DescribedState}

/-- The description that is read for a state is its own. -/
theorem stateDescription?_eq (described : IsStateDiagram diagram)
    (split : diagram.lines = earlier ++ .declaration state :: later) :
    stateDescription? diagram.stateText state.id = some state.label := by
  have textEq : diagram.stateText =
      (Diagram.above DescribedState.written diagram.header earlier ++
          state.indent) ++
        ("state".toList ++
          ([' '] ++
            (['"'] ++
              (state.label ++ '"' ::
                (state.trailer ++
                  Diagram.below DescribedState.written later))))) := by
    rw [Diagram.stateText, Diagram.text_cut split, DiagramLine.written,
      state.written_eq]
    simp [DescribedState.lead]
  have occurs : (Pattern.describedState state.id).occursIn diagram.stateText :=
    Pattern.occursIn_iff_cut.mpr ⟨_, _, textEq,
      Pattern.isSome_describedState state _ (Text.startsWithWord_flatMap _)⟩
  obtain ⟨label, found⟩ := Option.isSome_iff_exists.mp occurs
  obtain ⟨place, stop, whole, read⟩ := Pattern.exists_of_first?_eq_some found
  obtain ⟨space, tail, behind, gap, unquoted, names⟩ :=
    Pattern.exists_of_describedState read
  have cut : diagram.stateText =
      place.before.reverse ++ "state".toList ++ space ++ '"' ::
        (label ++ '"' :: tail) := by
    rw [← whole, Place.text, behind]
    simp
  obtain ⟨_, same, _⟩ := described.cut_of_quote split cut gap unquoted names
  rw [stateDescription?, found, same]

theorem replaceFirst?_labelOfState (described : IsStateDiagram diagram)
    (split : diagram.lines = earlier ++ .declaration state :: later)
    {new : Text} (isLabel : IsLabel new) (unquoted : '"' ∉ new) :
    (Pattern.labelOfState state.id state.label).replaceFirst? diagram.stateText
        new =
      some (Diagram.stateText ⟨diagram.header,
        earlier ++ .declaration (state.rename new isLabel unquoted) ::
          later⟩) := by
  have occurs :
      (Pattern.labelOfState state.id state.label).occursIn diagram.stateText :=
    Pattern.occursIn_iff_cut.mpr ⟨_, _, Diagram.text_cut split,
      Pattern.isSome_labelOfState state (Diagram.startsLine_above _ _ _)
        (Text.startsWithWord_flatMap _)⟩
  obtain ⟨found, searched⟩ := Option.isSome_iff_exists.mp occurs
  obtain ⟨before, space, tail, cuts, _, gap, names⟩ :=
    Pattern.exists_of_labelOfState searched
  have cut : diagram.stateText =
      before ++ "state".toList ++ space ++ '"' ::
        (state.label ++ '"' :: tail) := by
    rw [cuts.text_eq]
    simp
  obtain ⟨frontEq, _, tailEq⟩ :=
    described.cut_of_quote split cut gap state.label_unquoted names
  have front : before ++ ("state".toList ++ (space ++ ['"'])) =
      Diagram.above DescribedState.written diagram.header earlier ++
        state.lead ++ ['"'] := by
    rw [← frontEq]
    simp
  rw [Pattern.replaceFirst?, searched, Option.map_some, cuts.replace_eq, front,
    tailEq, Diagram.stateText, Diagram.text_declaration,
    DescribedState.written_eq]
  simp [DescribedState.rename, DescribedState.lead, DescribedState.trailer]

theorem detect_stateText (described : IsStateDiagram diagram) :
    detect diagram.stateText = .states := by
  have named := described.header_named
  obtain ⟨opening, opens, begins⟩ :=
    exists_opening_of_detect_ne (by rw [named]; decide)
  rw [named] at opens
  apply detect_eq_of_isPrefix opens
  rw [Diagram.stateText, Diagram.text, Diagram.pieces, Text.joinLines_cons]
  exact begins.trans (List.prefix_append _ _)

end IsStateDiagram

/-- In a state diagram, the label of a state is the one that its declaration
has, and a change of label changes this one and leaves the rest of the text as
it is. -/
theorem relabel_state {diagram : Diagram DescribedState}
    (described : IsStateDiagram diagram)
    {earlier later : List (DiagramLine DescribedState)} {state : DescribedState}
    (split : diagram.lines = earlier ++ .declaration state :: later)
    {new : Text} (isLabel : IsLabel new) (unquoted : '"' ∉ new) :
    detect diagram.stateText = .states ∧
      stateDescription? diagram.stateText state.id = some state.label ∧
      currentLabel diagram.stateText .states state.id = state.label ∧
      relabel diagram.stateText .states state.id state.label new =
        Diagram.stateText ⟨diagram.header,
          earlier ++ .declaration (state.rename new isLabel unquoted) ::
            later⟩ := by
  have shown := described.stateDescription?_eq split
  refine ⟨described.detect_stateText, shown,
    by rw [currentLabel, shown, Option.getD_some], ?_⟩
  by_cases same : state.label = new
  · subst same
    have line : state.rename state.label isLabel unquoted = state := rfl
    rw [relabel_of_refused (by simp), line, ← split]
  · apply relabel_of_declared (not_refused same isLabel.oneLine)
    rw [relabelDeclaration?,
      described.replaceFirst?_labelOfState split isLabel unquoted]
    rfl

/-- A state that waits. -/
def DescribedState.waiting (id : Text) (isName : Text.IsAsciiName id) :
    DescribedState where
  indent := indentation
  label := "Waiting".toList
  id := id
  indent_blank := isBlankCharacter_of_mem_indentation
  label_isLabel := ⟨by decide, by decide, by simp [isLineBreak]⟩
  label_unquoted := by decide
  id_isName := isName

def waitingHere : DescribedState :=
  .waiting "Wait".toList ⟨by decide, List.all_eq_true.mp rfl⟩

def waitingThere : DescribedState :=
  .waiting "Wait2".toList ⟨by decide, List.all_eq_true.mp rfl⟩

/-- Two states with one label, which stands in another line as well. -/
def twoWaiting : Diagram DescribedState where
  header := "stateDiagram-v2".toList
  lines :=
    [.declaration waitingThere, .other "    Wait2 --> Wait: Waiting".toList,
      .declaration waitingHere, .other []]

theorem isStateDiagram_twoWaiting : IsStateDiagram twoWaiting where
  header_unquoted := by decide
  header_named := by decide +kernel
  ids_nodup := by decide
  others_unquoted := by
    intro line member
    unfold twoWaiting at member
    have among : line = "    Wait2 --> Wait: Waiting".toList ∨ line = [] := by
      simpa only [List.mem_cons, List.not_mem_nil, reduceCtorEq,
        DiagramLine.other.injEq, false_or, or_false] using member
    rcases among with rfl | rfl <;> decide

theorem isLabel_onHold : IsLabel "On hold".toList :=
  ⟨by decide, by decide, by simp [isLineBreak]⟩

theorem relabel_state_twoWaiting :
    IsStateDiagram twoWaiting ∧ IsLabel "On hold".toList ∧
      '"' ∉ "On hold".toList ∧
      twoWaiting.lines =
        [.declaration waitingThere,
            .other "    Wait2 --> Wait: Waiting".toList] ++
          .declaration waitingHere :: [.other []] ∧
      currentLabel twoWaiting.stateText .states "Wait".toList =
        "Waiting".toList ∧
      relabel twoWaiting.stateText .states "Wait".toList "Waiting".toList
          "On hold".toList =
        Diagram.stateText ⟨twoWaiting.header,
          [.declaration waitingThere,
              .other "    Wait2 --> Wait: Waiting".toList] ++
            .declaration (waitingHere.rename "On hold".toList isLabel_onHold
              (by decide)) :: [.other []]⟩ := by
  have split : twoWaiting.lines =
      [.declaration waitingThere,
          .other "    Wait2 --> Wait: Waiting".toList] ++
        .declaration waitingHere :: [.other []] :=
    rfl
  have unquoted : '"' ∉ "On hold".toList := by decide
  obtain ⟨_, _, shown, changed⟩ :=
    relabel_state isStateDiagram_twoWaiting split isLabel_onHold unquoted
  exact ⟨isStateDiagram_twoWaiting, isLabel_onHold, unquoted, split, shown,
    changed⟩

end DiagramEdit
