import DiagramEdit.Proofs.Header.Relabelling
import DiagramEdit.Proofs.Label.Alias
import DiagramEdit.Proofs.Label.Diagram

/-!
# Whose alias is changed

In a sequence diagram the label of a participant is looked up by its identifier,
and then the first declaration that carries this label is changed.  The two are
the same declaration exactly if no participant that is declared above has the
same alias.
-/

namespace DiagramEdit

/-- A participant with an alias, as it is declared on a line. -/
structure Participant where
  indent : Text
  keyword : Text
  id : Text
  label : Text
  indent_blank : ∀ character ∈ indent, Text.isBlankCharacter character
  isKeyword : IsParticipantWord keyword
  id_isSolid : Text.IsSolid id
  id_fits : Pattern.fitsApart id
  label_isLabel : IsLabel label

/-- The text begins with the head of a declaration, and an alias follows on the
same line. -/
def BeginsDeclaration (text : Text) : Prop :=
  ∃ (head : ParticipantHead) (initial : Char) (rest : Text),
    text = head.written ++ initial :: rest ∧ initial ≠ '\n'

namespace Participant

def written (participant : Participant) : Text :=
  participant.indent ++ participant.keyword ++ ' ' :: participant.id ++
    " as ".toList ++ participant.label

/-- The participant with another alias. -/
def rename (participant : Participant) (new : Text) (isLabel : IsLabel new) :
    Participant :=
  { participant with label := new, label_isLabel := isLabel }

def head (participant : Participant) : ParticipantHead where
  indent := participant.indent
  keyword := participant.keyword
  gap := [' ']
  name := participant.id
  space := [' ']
  margin := [' ']
  indent_blank := participant.indent_blank
  isKeyword := participant.isKeyword
  gap_isGap := Text.isGap_space
  name_isSolid := participant.id_isSolid
  space_isGap := Text.isGap_space
  margin_isGap := Text.isGap_space

variable {participant : Participant} {before after : Text}

theorem written_eq (participant : Participant) :
    participant.written = participant.head.written ++ participant.label := by
  have word : " as ".toList = [' '] ++ "as".toList ++ [' '] := rfl
  simp only [written, head, ParticipantHead.written, ParticipantHead.lead, word]
  simp

theorem written_rename (new : Text) (isLabel : IsLabel new) :
    (participant.rename new isLabel).written =
      participant.head.written ++ new :=
  written_eq _

theorem not_lineFeed_mem_written (participant : Participant) :
    '\n' ∉ participant.written := by
  have blankless : '\n' ∉ participant.indent := by
    intro member
    cases participant.indent_blank '\n' member
  have solid : '\n' ∉ participant.id := by
    intro member
    cases participant.id_isSolid.2 '\n' member
  have keyword : '\n' ∉ participant.keyword := by
    rcases participant.isKeyword with same | same <;> rw [same] <;> decide
  have label := participant.label_isLabel.not_lineFeed_mem
  simp [written, blankless, solid, keyword, label]

/-- The alias is found behind the head, and the declaration with another one in
its place. -/
theorem exists_aliasOfParticipant (starts : Text.StartsLine before)
    (ends : after.head?.all (· == '\n')) :
    ∃ found stop, Pattern.aliasOfParticipant participant.label
        ⟨before.reverse, participant.written ++ after⟩ = some (found, stop) ∧
      ∀ new isLabel, found.replace new =
        before ++ ((participant.rename new isLabel).written ++ after) := by
  obtain ⟨nothing, stop, ended⟩ :=
    Pattern.exists_blankLineEnd_iff.mpr (Text.endsLine_of_head? ends)
  have read := Pattern.aliasOfParticipant_of_visible participant.head starts
    (participant.label_isLabel.head?_visible after)
    (Pattern.aliasAtLineEnd_eq_some_iff.mpr ⟨after, rfl, rfl, nothing, ended⟩)
  rw [← List.append_assoc, ← written_eq] at read
  refine ⟨_, stop, read, ?_⟩
  intro new isLabel
  rw [written_rename, Region.replace]
  simp

theorem eq_alias_of_aliasOfParticipant {label : Text} {found : Region}
    {stop : Place} (isLabel : IsLabel label)
    (ends : after.head?.all (· == '\n'))
    (read : Pattern.aliasOfParticipant label
        ⟨before.reverse, participant.written ++ after⟩ = some (found, stop)) :
    participant.label = label := by
  obtain ⟨_, head, rest, split, ended, _⟩ :=
    Pattern.exists_head_of_aliasOfParticipant read
  change participant.written ++ after = head.written ++ label ++ rest at split
  rw [written_eq, List.append_assoc, List.append_assoc] at split
  obtain ⟨_, same⟩ := ParticipantHead.rest_unique split
    (participant.label_isLabel.head?_visible after) (isLabel.head?_visible rest)
  exact participant.label_isLabel.eq_of_endsLine isLabel same
    (Text.endsLine_of_head? ends) ended

/-- The alias is read for the identifier. -/
theorem exists_namedParticipant (starts : Text.StartsLine before)
    (ends : after.head?.all (· == '\n')) :
    ∃ stop,
      Pattern.namedParticipant participant.id
          ⟨before.reverse, participant.written ++ after⟩ =
        some (participant.label, stop) := by
  have isLabel := participant.label_isLabel
  obtain ⟨nothing, stop, ended⟩ :=
    Pattern.exists_blankLineEnd_iff.mpr (Text.endsLine_of_head? ends)
  refine ⟨stop, ?_⟩
  rw [written_eq, List.append_assoc]
  refine Pattern.namedParticipant_of_visible participant.head starts
    participant.id_fits (isLabel.head?_visible after)
    (Pattern.shortestBefore_eq_some_iff.mpr ⟨after, rfl, isLabel.nonempty,
      Pattern.bne_of_not_mem isLabel.not_lineFeed_mem, ⟨nothing, ended⟩, ?_⟩)
  intro shorter character more cut _
  cases read : Pattern.blankLineEnd ⟨shorter.reverse ++
      (before ++ participant.head.written).reverse,
    character :: more ++ after⟩ with
  | none => rfl
  | some found =>
      refine absurd (Pattern.exists_blankLineEnd_iff.mp ⟨_, _, read⟩)
        (Text.not_endsLine_append ?_ ?_)
      · exact fun member => isLabel.not_lineFeed_mem (by simp [cut, member])
      · have visible := isLabel.getLast?_visible
        rwa [cut, List.getLast?_append_of_ne_nil _ (List.cons_ne_nil _ _)]
          at visible

theorem eq_id_of_namedParticipant {id old : Text} {stop : Place}
    (solid : Text.IsSolid id)
    (read : Pattern.namedParticipant id
        ⟨before.reverse, participant.written ++ after⟩ = some (old, stop)) :
    participant.id = id := by
  obtain ⟨_, head, rest, rfl, split, _⟩ :=
    Pattern.exists_head_of_namedParticipant solid read
  change participant.written ++ after = head.written ++ old ++ rest at split
  rw [written_eq, List.append_assoc, List.append_assoc] at split
  exact (ParticipantHead.cut_unique split).1

end Participant

namespace Pattern

variable {before after : Text}

theorem namedParticipant_eq_none {id : Text} (solid : Text.IsSolid id)
    (fails : ¬Text.StartsLine before ∨ ¬BeginsDeclaration after) :
    namedParticipant id ⟨before.reverse, after⟩ = none := by
  cases read : namedParticipant id ⟨before.reverse, after⟩ with
  | none => rfl
  | some found =>
      obtain ⟨old, stop⟩ := found
      obtain ⟨starts, head, rest, _, split, _, nonempty, oneLine⟩ :=
        exists_head_of_namedParticipant solid read
      obtain ⟨initial, more, rfl⟩ := List.exists_cons_of_ne_nil nonempty
      rcases fails with elsewhere | silent
      · exact absurd (Text.isLineStart_cut_iff.mp starts) elsewhere
      · refine absurd ⟨head, initial, more ++ rest, by simpa using split, ?_⟩
          silent
        exact fun lineFeed => oneLine (by simp [lineFeed])

theorem aliasOfParticipant_eq_none {label : Text} (isLabel : IsLabel label)
    (fails : ¬Text.StartsLine before ∨ ¬BeginsDeclaration after) :
    aliasOfParticipant label ⟨before.reverse, after⟩ = none := by
  cases read : aliasOfParticipant label ⟨before.reverse, after⟩ with
  | none => rfl
  | some found =>
      obtain ⟨region, stop⟩ := found
      obtain ⟨starts, head, rest, split, _⟩ :=
        exists_head_of_aliasOfParticipant read
      obtain ⟨initial, more, labelEq⟩ :=
        List.exists_cons_of_ne_nil isLabel.nonempty
      rcases fails with elsewhere | silent
      · exact absurd (Text.isLineStart_cut_iff.mp starts) elsewhere
      · refine absurd
          ⟨head, initial, more ++ rest, by simpa [labelEq] using split, ?_⟩
          silent
        exact fun lineFeed =>
          isLabel.not_lineFeed_mem (by simp [labelEq, lineFeed])

end Pattern

/-- A text declares nothing if another character comes first than those a
keyword begins with. -/
theorem not_beginsDeclaration_of_blanks (blanks rest : Text)
    (blank : ∀ character ∈ blanks, Text.isBlankCharacter character)
    (first : rest.head?.all fun character =>
      !Text.isBlankCharacter character && character != 'p' &&
        character != 'a') :
    ¬BeginsDeclaration (blanks ++ rest) := by
  intro begins
  obtain ⟨head, initial, behind, split, _⟩ := begins
  simp only [ParticipantHead.written, ParticipantHead.lead, List.append_assoc]
    at split
  have stops : rest.head?.all (!Text.isBlankCharacter ·) := by
    cases rest with
    | nil => rfl
    | cons character rest => simp_all
  obtain ⟨_, rfl⟩ :=
    Pattern.eq_of_append_eq_append_of_stops split blank head.indent_blank stops
      (head.isKeyword.stops _)
  rcases head.isKeyword with same | same <;> rw [same] at first <;> cases first

/-- A sequence diagram whose participants are told apart by their identifiers,
with other lines that declare nothing. -/
structure IsSequence (diagram : Diagram Participant) : Prop where
  header_oneLine : '\n' ∉ diagram.header
  header_named : detect diagram.header = .sequence
  ids_nodup : ((declaredElements diagram.lines).map Participant.id).Nodup
  others_oneLine : ∀ line, .other line ∈ diagram.lines → '\n' ∉ line
  others_silent : ∀ line later, .other line :: later <:+ diagram.lines →
    ¬BeginsDeclaration (line ++ Diagram.below Participant.written later)

/-- The text of a sequence diagram. -/
abbrev Diagram.sequenceText (diagram : Diagram Participant) : Text :=
  diagram.text Participant.written

theorem Diagram.sequenceText_rename_self {diagram : Diagram Participant}
    {earlier later : List (DiagramLine Participant)} {participant : Participant}
    (split : diagram.lines = earlier ++ .declaration participant :: later)
    (isLabel : IsLabel participant.label) :
    sequenceText ⟨diagram.header,
        earlier ++
          .declaration (participant.rename participant.label isLabel) ::
          later⟩ = diagram.sequenceText := by
  have line : participant.rename participant.label isLabel = participant := rfl
  rw [line, ← split]

theorem not_beginsDeclaration_of_sequence {header : Text}
    (named : detect header = .sequence) (rest : Text) :
    ¬BeginsDeclaration (header ++ rest) := by
  intro begins
  obtain ⟨head, initial, behind, split, _⟩ := begins
  have declared : detect header ≠ .flowchart := by
    rw [named]
    decide
  obtain ⟨opening, opens, isPrefix⟩ := exists_opening_of_detect_ne declared
  rw [named] at opens
  have indentSpaces : ∀ character ∈ head.indent, Text.isSpace character :=
    fun character member =>
      Text.isSpace_of_isBlankCharacter (head.indent_blank character member)
  have ends : Text.endsInWord head.indent = false := by
    simpa [Text.endsInWord] using Text.endsInWord_space_append indentSpaces []
  have inFront :
      opening <+:
        head.indent ++
          (head.keyword ++
            (head.gap ++ head.name ++ head.space ++ "as".toList ++
              head.margin ++ initial :: behind)) := by
    refine (isPrefix.trans (List.prefix_append header rest)).trans ⟨[], ?_⟩
    rw [split, ParticipantHead.written, ParticipantHead.lead]
    simp
  have inIndent := opens.isPrefix_of_participant inFront ends head.isKeyword
  have blank := Text.isBlank_of_spaces fun character member =>
    indentSpaces character (inIndent.subset member)
  rw [opens.isBlank_eq_false] at blank
  cases blank

namespace IsSequence

variable {α : Type} {diagram : Diagram Participant}
  {earlier later : List (DiagramLine Participant)} {participant : Participant}

theorem oneLine_of (header : '\n' ∉ diagram.header)
    (others : ∀ line, .other line ∈ diagram.lines → '\n' ∉ line) :
    ∀ piece ∈ diagram.pieces Participant.written, '\n' ∉ piece := by
  intro piece member
  rcases List.mem_cons.mp member with rfl | below
  · exact header
  · obtain ⟨line, onLine, rfl⟩ := List.mem_map.mp below
    cases line with
    | declaration other => exact other.not_lineFeed_mem_written
    | other line => exact others line onLine

/-- A pattern that reads declarations only, and none of those above a line,
reads there. -/
theorem first?_eq_some (sequence : IsSequence diagram) {pattern : Pattern α}
    {value : α} {stop : Place}
    (split : diagram.lines = earlier ++ .declaration participant :: later)
    (declares : ∀ before after : Text,
      ¬Text.StartsLine before ∨ ¬BeginsDeclaration after →
        pattern ⟨before.reverse, after⟩ = none)
    (others : ∀ other ∈ declaredElements earlier, ∀ before after : Text,
      after.head?.all (· == '\n') →
        pattern ⟨before.reverse, other.written ++ after⟩ = none)
    (read : pattern ⟨(Diagram.above Participant.written diagram.header
          earlier).reverse,
        participant.written ++ Diagram.below Participant.written later⟩ =
      some (value, stop)) :
    pattern.first? diagram.sequenceText = some value := by
  have pieces : diagram.pieces Participant.written =
      (diagram.header :: earlier.map (·.written Participant.written)) ++
        participant.written :: later.map (·.written Participant.written) := by
    simp [Diagram.pieces, split, DiagramLine.written]
  have oneLine := oneLine_of sequence.header_oneLine sequence.others_oneLine
  rw [pieces] at oneLine
  rw [Diagram.sequenceText, Diagram.text, pieces]
  refine Pattern.first?_joinLines
    (fun before after elsewhere => declares _ _ (Or.inl elsewhere)) oneLine ?_
    read
  intro front piece back cut
  cases front with
  | nil =>
      obtain ⟨rfl, _⟩ := List.cons.inj cut
      exact declares _ _
        (Or.inr (not_beginsDeclaration_of_sequence sequence.header_named _))
  | cons header front =>
      obtain ⟨above, rest, rfl, frontEq, restEq⟩ :=
        List.map_eq_append_iff.mp (List.cons.inj cut).2
      obtain ⟨line, between, rfl, rfl, rfl⟩ := List.map_eq_cons_iff.mp restEq
      cases line with
      | declaration other =>
          exact others other (mem_declaredElements_iff.mpr (by simp)) _ _
            (Text.head?_flatMap_lines _)
      | other line =>
          have suffix :
              .other line :: (between ++ .declaration participant :: later) <:+
                diagram.lines :=
            ⟨above, by simp [split]⟩
          have silent := sequence.others_silent line _ suffix
          refine declares _ _ (Or.inr ?_)
          simpa [Diagram.below, DiagramLine.written] using silent

/-- The label of a participant is its alias. -/
theorem participantAlias? (sequence : IsSequence diagram)
    (split : diagram.lines = earlier ++ .declaration participant :: later) :
    DiagramEdit.participantAlias? diagram.sequenceText participant.id =
      some participant.label := by
  obtain ⟨stop, read⟩ := participant.exists_namedParticipant
    (Diagram.startsLine_above Participant.written diagram.header earlier)
    (Diagram.head?_below Participant.written later)
  refine sequence.first?_eq_some split
    (fun _ _ fails =>
      Pattern.namedParticipant_eq_none participant.id_isSolid fails) ?_ read
  intro other above before after _
  cases found : Pattern.namedParticipant participant.id
    ⟨before.reverse, other.written ++ after⟩ with
  | none => rfl
  | some reading =>
      have distinct := sequence.ids_nodup
      rw [split] at distinct
      exact absurd
        (other.eq_id_of_namedParticipant participant.id_isSolid found)
        (key_ne_of_nodup distinct above)

/-- The first declaration that carries a label is changed, whoever is asked
for. -/
theorem relabel_first (sequence : IsSequence diagram) {id new : Text}
    (isLabel : IsLabel new)
    (split : diagram.lines = earlier ++ .declaration participant :: later)
    (first : ∀ other ∈ declaredElements earlier,
      other.label ≠ participant.label) :
    relabel diagram.sequenceText .sequence id participant.label new =
      Diagram.sequenceText ⟨diagram.header,
        earlier ++ .declaration (participant.rename new isLabel) :: later⟩ := by
  by_cases same : participant.label = new
  · subst same
    rw [relabel_of_refused (by simp), Diagram.sequenceText_rename_self split]
  obtain ⟨found, stop, read, replaced⟩ := participant.exists_aliasOfParticipant
    (Diagram.startsLine_above Participant.written diagram.header earlier)
    (Diagram.head?_below Participant.written later)
  have unread : ∀ other ∈ declaredElements earlier, ∀ before after : Text,
      after.head?.all (· == '\n') →
        Pattern.aliasOfParticipant participant.label
          ⟨before.reverse, other.written ++ after⟩ = none := by
    intro other above before after ends
    cases found : Pattern.aliasOfParticipant participant.label
        ⟨before.reverse, other.written ++ after⟩ with
    | none => rfl
    | some reading =>
        have same := other.eq_alias_of_aliasOfParticipant
          participant.label_isLabel ends found
        exact absurd same (first other above)
  have searched := sequence.first?_eq_some split
    (fun _ _ => Pattern.aliasOfParticipant_eq_none participant.label_isLabel)
    unread read
  have changed :
      relabelDeclaration? diagram.sequenceText .sequence id participant.label
          new = some (found.replace new) := by
    rw [relabelDeclaration?, Pattern.replaceFirst?, searched]
    rfl
  rw [relabel_of_declared (not_refused same isLabel.oneLine) changed,
    replaced new isLabel, Diagram.sequenceText, Diagram.text_declaration]

theorem sequenceText_ne (sequence : IsSequence diagram)
    {above between : List (DiagramLine Participant)} {first : Participant}
    {new : Text} (isLabel : IsLabel new) (differs : new ≠ first.label)
    (split : diagram.lines =
      above ++ .declaration first :: between ++ .declaration participant ::
        later) :
    Diagram.sequenceText ⟨diagram.header,
        above ++ .declaration (first.rename new isLabel) ::
          (between ++ .declaration participant :: later)⟩ ≠
      Diagram.sequenceText ⟨diagram.header,
        above ++ .declaration first :: between ++
          .declaration (participant.rename new isLabel) :: later⟩ := by
  intro same
  have onLines : ∀ line,
      .other line ∈ above ∨ .other line ∈ between ∨ .other line ∈ later →
        '\n' ∉ line := by
    intro line member
    apply sequence.others_oneLine line
    simp only [split, List.mem_append, List.mem_cons]
    tauto
  have pieces :=
    Diagram.pieces_eq_of_text_eq same
      (oneLine_of sequence.header_oneLine fun line member =>
        onLines line (by simpa using member))
      (oneLine_of sequence.header_oneLine fun line member =>
        onLines line (by simpa [or_assoc] using member))
  have lines := (List.cons.inj pieces).2
  simp only [List.map_append, List.map_cons, List.append_assoc,
    List.cons_append] at lines
  obtain ⟨line, _⟩ := List.cons.inj (List.append_cancel_left lines)
  change (first.rename new isLabel).written = first.written at line
  rw [Participant.written_rename, Participant.written_eq] at line
  exact differs (List.append_cancel_left line)

end IsSequence

/-- The label that is shown for a participant is its alias, and a change of
label changes the alias of the first participant that has the same one.  This is
the participant itself, and the text is the same but for its alias, exactly if
the label stays or no participant that is declared above has it. -/
theorem relabel_participant_iff {diagram : Diagram Participant}
    (sequence : IsSequence diagram)
    {earlier later : List (DiagramLine Participant)} {participant : Participant}
    (split : diagram.lines = earlier ++ .declaration participant :: later)
    {new : Text} (isLabel : IsLabel new) :
    currentLabel diagram.sequenceText .sequence participant.id =
        participant.label ∧
      (∃ above first below,
        diagram.lines = above ++ .declaration first :: below ∧
          first.label = participant.label ∧
          (∀ other ∈ declaredElements above, other.label ≠ participant.label) ∧
          relabel diagram.sequenceText .sequence participant.id
              (currentLabel diagram.sequenceText .sequence participant.id) new =
            Diagram.sequenceText ⟨diagram.header,
              above ++ .declaration (first.rename new isLabel) :: below⟩) ∧
      (relabel diagram.sequenceText .sequence participant.id
            (currentLabel diagram.sequenceText .sequence participant.id) new =
          Diagram.sequenceText ⟨diagram.header,
            earlier ++ .declaration (participant.rename new isLabel) :: later⟩ ↔
        new = participant.label ∨
          ∀ other ∈ declaredElements earlier,
            other.label ≠ participant.label) := by
  have shown : currentLabel diagram.sequenceText .sequence participant.id =
      participant.label := by
    rw [currentLabel, sequence.participantAlias? split, Option.getD_some]
  rw [shown]
  refine ⟨rfl, ?_, ?_⟩
  · have declared : participant ∈ declaredElements diagram.lines :=
      mem_declaredElements_iff.mpr (by simp [split])
    obtain ⟨above, first, below, cut, same, none⟩ :=
      exists_first_declaration (fun other => other.label = participant.label)
        declared rfl
    refine ⟨above, first, below, cut, same, none, ?_⟩
    rw [← same] at none ⊢
    exact sequence.relabel_first isLabel cut none
  · constructor
    · intro own
      by_contra fails
      simp only [not_or, not_forall, not_not] at fails
      obtain ⟨differs, other, above, carries⟩ := fails
      obtain ⟨front, first, between, rfl, same, none⟩ :=
        exists_first_declaration (fun other => other.label = participant.label)
          above carries
      have cut : diagram.lines = front ++ .declaration first ::
          (between ++ .declaration participant :: later) := by simp [split]
      rw [← same] at own none differs
      rw [sequence.relabel_first isLabel cut none] at own
      exact sequence.sequenceText_ne isLabel differs split own
    · intro cases_of_label
      rcases cases_of_label with rfl | first
      · rw [relabel_of_refused (by simp),
          Diagram.sequenceText_rename_self split]
      · exact sequence.relabel_first isLabel split first

/-- A participant with a name of one letter, called a user. -/
def Participant.user (letter : Char) (word : Text.isWordCharacter letter) :
    Participant where
  indent := indentation
  keyword := "participant".toList
  id := [letter]
  label := "User".toList
  indent_blank := isBlankCharacter_of_mem_indentation
  isKeyword := Or.inl rfl
  id_isSolid :=
    Text.isSolid_singleton (Text.not_isSpace_of_isWordCharacter word)
  id_fits := ⟨fun _ => word, fun _ => word⟩
  label_isLabel := ⟨by decide, by decide, by simp [isLineBreak]⟩

def firstUser : Participant :=
  .user 'A' (by decide)

def secondUser : Participant :=
  .user 'B' (by decide)

/-- Two users, and a message between them. -/
def twoUsers : Diagram Participant where
  header := "sequenceDiagram".toList
  lines :=
    [.declaration firstUser, .declaration secondUser,
      .other "    A->>B: hi".toList, .other []]

theorem isSequence_twoUsers : IsSequence twoUsers where
  header_oneLine := by decide
  header_named := by decide +kernel
  ids_nodup := by decide
  others_oneLine := by
    intro line member
    have among : line = "    A->>B: hi".toList ∨ line = [] := by
      unfold twoUsers at member
      simpa only [List.mem_cons, List.not_mem_nil, reduceCtorEq,
        DiagramLine.other.injEq, false_or, or_false] using member
    rcases among with rfl | rfl <;> decide
  others_silent := by
    intro line later suffix
    have among : (line = "    A->>B: hi".toList ∧ later = [.other []]) ∨
        (line = [] ∧ later = []) := by
      unfold twoUsers at suffix
      simpa only [List.suffix_cons_iff, List.suffix_nil, List.cons.injEq,
        reduceCtorEq, DiagramLine.other.injEq, false_and, false_or, or_false]
        using suffix
    rcases among with ⟨rfl, rfl⟩ | ⟨rfl, rfl⟩
    · exact not_beginsDeclaration_of_blanks indentation "A->>B: hi\n".toList
        isBlankCharacter_of_mem_indentation (by decide)
    · exact not_beginsDeclaration_of_blanks [] [] (by simp) (by decide)

theorem isLabel_admin : IsLabel "Admin".toList :=
  ⟨by decide, by decide, by simp [isLineBreak]⟩

theorem relabel_participant_iff_twoUsers :
    IsSequence twoUsers ∧ IsLabel "Admin".toList ∧
      twoUsers.lines =
        [.declaration firstUser] ++ .declaration secondUser ::
          [.other "    A->>B: hi".toList, .other []] ∧
      currentLabel twoUsers.sequenceText .sequence "B".toList = "User".toList ∧
      (relabel twoUsers.sequenceText .sequence "B".toList
            (currentLabel twoUsers.sequenceText .sequence "B".toList)
            "Admin".toList =
          Diagram.sequenceText ⟨twoUsers.header,
            [.declaration firstUser] ++
              .declaration (secondUser.rename "Admin".toList isLabel_admin) ::
              [.other "    A->>B: hi".toList, .other []]⟩ ↔
        "Admin".toList = "User".toList ∨
          ∀ other ∈ declaredElements [.declaration firstUser],
            other.label ≠ "User".toList) := by
  have split : twoUsers.lines =
      [.declaration firstUser] ++ .declaration secondUser ::
        [.other "    A->>B: hi".toList, .other []] :=
    rfl
  obtain ⟨shown, _, renamed⟩ :=
    relabel_participant_iff isSequence_twoUsers split isLabel_admin
  exact ⟨isSequence_twoUsers, isLabel_admin, split, shown, renamed⟩

/-- The second of two participants with one alias is not the one that is
changed. -/
theorem not_relabel_participant :
    ¬∀ (diagram : Diagram Participant), IsSequence diagram →
      ∀ (earlier later : List (DiagramLine Participant))
        (participant : Participant),
        diagram.lines = earlier ++ .declaration participant :: later →
          ∀ (new : Text) (isLabel : IsLabel new),
            relabel diagram.sequenceText .sequence participant.id
                (currentLabel diagram.sequenceText .sequence participant.id)
                new =
              Diagram.sequenceText ⟨diagram.header,
                earlier ++ .declaration (participant.rename new isLabel) ::
                  later⟩ := by
  intro renames
  have renamed :=
    renames twoUsers isSequence_twoUsers [.declaration firstUser]
      [.other "    A->>B: hi".toList, .other []] secondUser rfl "Admin".toList
      isLabel_admin
  have differs :
      relabel twoUsers.sequenceText .sequence secondUser.id
          (currentLabel twoUsers.sequenceText .sequence secondUser.id)
          "Admin".toList ≠
        Diagram.sequenceText ⟨twoUsers.header,
          [.declaration firstUser] ++
            .declaration (secondUser.rename "Admin".toList isLabel_admin) ::
            [.other "    A->>B: hi".toList, .other []]⟩ := by
    decide +kernel
  exact differs renamed

end DiagramEdit
