import DiagramEdit.Label
import DiagramEdit.Proofs.Mention
import DiagramEdit.Proofs.Text.LineEnds
import DiagramEdit.Proofs.Text.Passage

/-!
# The head of a participant's declaration

In front of an alias stand the word that declares a participant, a name and
`as`, with white space between them.  The alias that is read for an identifier
and the alias that is rewritten stand behind such a head, at the end of a line.
-/

namespace DiagramEdit

namespace Text

/-- White space of at least one character. -/
def IsGap (space : Text) : Prop :=
  space ≠ [] ∧ ∀ character ∈ space, isSpace character

/-- A text of at least one character that holds no white space. -/
def IsSolid (name : Text) : Prop :=
  name ≠ [] ∧ ∀ character ∈ name, isSpace character = false

theorem IsGap.stops {space : Text} (gap : IsGap space) (rest : Text) :
    (space ++ rest).head?.all (isSpace ·) := by
  obtain ⟨first, space, rfl⟩ := List.exists_cons_of_ne_nil gap.1
  exact gap.2 first (by simp)

theorem IsSolid.stops {name : Text} (solid : IsSolid name) (rest : Text) :
    (name ++ rest).head?.all (!isSpace ·) := by
  obtain ⟨first, name, rfl⟩ := List.exists_cons_of_ne_nil solid.1
  simpa using solid.2 first (by simp)

theorem isSolid_singleton {character : Char}
    (visible : isSpace character = false) :
    IsSolid [character] :=
  ⟨List.cons_ne_nil _ _, by simpa using visible⟩

theorem isGap_space : IsGap [' '] :=
  ⟨by simp, by simp [isSpace]⟩

end Text

/-- A word that declares a participant. -/
def IsParticipantWord (word : Text) : Prop :=
  word = "participant".toList ∨ word = "actor".toList

/-- What stands on a line in front of an alias. -/
structure ParticipantHead where
  indent : Text
  keyword : Text
  gap : Text
  name : Text
  space : Text
  margin : Text
  indent_blank : ∀ character ∈ indent, Text.isBlankCharacter character
  isKeyword : IsParticipantWord keyword
  gap_isGap : Text.IsGap gap
  name_isSolid : Text.IsSolid name
  space_isGap : Text.IsGap space
  margin_isGap : Text.IsGap margin

namespace ParticipantHead

/-- The head up to the white space in front of the alias. -/
def lead (head : ParticipantHead) : Text :=
  head.indent ++ head.keyword ++ head.gap ++ head.name ++ head.space ++
    "as".toList

def written (head : ParticipantHead) : Text :=
  head.lead ++ head.margin

end ParticipantHead

theorem IsParticipantWord.eq_of_append {word other rest rest' : Text}
    (isKeyword : IsParticipantWord word) (isOther : IsParticipantWord other)
    (equality : word ++ rest = other ++ rest') : word = other := by
  rcases isKeyword with rfl | rfl
  · rcases isOther with rfl | rfl
    · rfl
    · cases equality
  · rcases isOther with rfl | rfl
    · cases equality
    · rfl

theorem IsParticipantWord.stops {word : Text}
    (isKeyword : IsParticipantWord word) (rest : Text) :
    (word ++ rest).head?.all (!Text.isBlankCharacter ·) := by
  rcases isKeyword with rfl | rfl <;> rfl

/-- A text has one head up to the white space in front of the alias. -/
theorem ParticipantHead.cut_unique {head other : ParticipantHead}
    {rest rest' : Text}
    (equality : head.written ++ rest = other.written ++ rest') :
    head.name = other.name ∧ head.lead = other.lead ∧
      head.margin ++ rest = other.margin ++ rest' := by
  have stops : ∀ (one : ParticipantHead) (more : Text),
      (one.name ++ (one.space ++ more)).head?.all (!Text.isSpace ·) ∧
        (one.space ++ more).head?.all
          (fun character => !(!Text.isSpace character)) :=
    fun one more =>
      ⟨one.name_isSolid.stops _, by simpa using one.space_isGap.stops more⟩
  simp only [written, lead, List.append_assoc] at equality
  obtain ⟨indentEq, equality⟩ :=
    Pattern.eq_of_append_eq_append_of_stops equality head.indent_blank
      other.indent_blank (head.isKeyword.stops _) (other.isKeyword.stops _)
  have keywordEq := head.isKeyword.eq_of_append other.isKeyword equality
  rw [keywordEq] at equality
  obtain ⟨gapEq, equality⟩ :=
    Pattern.eq_of_append_eq_append_of_stops (List.append_cancel_left equality)
      head.gap_isGap.2 other.gap_isGap.2 (stops head _).1 (stops other _).1
  have solid : ∀ (one : ParticipantHead), ∀ character ∈ one.name,
      !Text.isSpace character := by
    intro one
    simpa using one.name_isSolid.2
  obtain ⟨nameEq, equality⟩ :=
    Pattern.eq_of_append_eq_append_of_stops equality (solid head) (solid other)
      (stops head _).2 (stops other _).2
  obtain ⟨spaceEq, equality⟩ :=
    Pattern.eq_of_append_eq_append_of_stops equality head.space_isGap.2
      other.space_isGap.2 (by rfl) (by rfl)
  refine ⟨nameEq, ?_, List.append_cancel_left equality⟩
  rw [lead, lead, indentEq, keywordEq, gapEq, nameEq, spaceEq]

theorem ParticipantHead.rest_unique {head other : ParticipantHead}
    {rest rest' : Text}
    (equality : head.written ++ rest = other.written ++ rest')
    (visible : rest.head?.all (!Text.isSpace ·))
    (visible' : rest'.head?.all (!Text.isSpace ·)) :
    head.written = other.written ∧ rest = rest' := by
  obtain ⟨_, leadEq, margins⟩ := cut_unique equality
  obtain ⟨marginEq, restEq⟩ :=
    Pattern.eq_of_append_eq_append_of_stops margins head.margin_isGap.2
      other.margin_isGap.2 visible visible'
  exact ⟨by rw [written, written, leadEq, marginEq], restEq⟩

namespace Pattern

variable {place stop : Place}

/-- The blanks at the end of a line are passed over where they are all that
follows. -/
theorem exists_blankLineEnd_iff {before after : Text} :
    (∃ nothing stop, blankLineEnd ⟨before, after⟩ = some (nothing, stop)) ↔
      Text.EndsLine after := by
  simp only [blankLineEnd, bind_eq_some_iff, check_eq_some_iff,
    run_eq_some_iff_split]
  constructor
  · intro parts
    obtain ⟨_, _, blanks, _, ⟨rest, split, blank, _, rfl⟩, ends, rfl⟩ := parts
    exact ⟨blanks, rest, split, blank, ends⟩
  · intro parts
    obtain ⟨blanks, rest, split, blank, ends⟩ := parts
    refine ⟨(), _, blanks, _, ⟨rest, split, blank, ?_, rfl⟩, ends, rfl⟩
    cases rest with
    | nil => rfl
    | cons first rest =>
        obtain rfl : first = '\n' := by simpa using ends
        rfl

theorem passes_wholeWord {id : Text} {nothing : Unit}
    (read : wholeWord id place = some (nothing, stop)) :
    Passes id place stop := by
  obtain ⟨_, after, split, rfl⟩ :=
    identifier_eq_some_iff.mp (wholeWord_eq_some_iff.mp read).1
  exact ⟨split, rfl⟩

section Keyword

variable {indent keyword before rest : Text}

theorem passes_participantKeyword {nothing : Unit}
    (read : participantKeyword place = some (nothing, stop)) :
    place.isLineStart ∧
      ∃ blanks keyword, Passes (blanks ++ keyword) place stop ∧
        (∀ character ∈ blanks, Text.isBlankCharacter character) ∧
        IsParticipantWord keyword := by
  simp only [participantKeyword, bind_eq_some_iff, check_eq_some_iff] at read
  obtain ⟨_, _, ⟨starts, rfl⟩, blanks, middle, run, keyword⟩ := read
  obtain ⟨passes, blank⟩ := passes_run run
  refine ⟨starts, blanks, ?_⟩
  rcases (Option.orElse_eq_some _ _ _).mp keyword with participant | ⟨_, actor⟩
  · exact ⟨_, passes.append (passes_literal participant), blank, Or.inl rfl⟩
  · exact ⟨_, passes.append (passes_literal actor), blank, Or.inr rfl⟩

theorem participantKeyword_written (starts : Text.StartsLine before)
    (blank : ∀ character ∈ indent, Text.isBlankCharacter character)
    (isKeyword : IsParticipantWord keyword) (rest : Text) :
    participantKeyword ⟨before.reverse, indent ++ (keyword ++ rest)⟩ =
      some ((), ⟨(before ++ indent ++ keyword).reverse, rest⟩) := by
  rw [participantKeyword, bind_eq_of_some (lineStart_written starts _),
    bind_eq_of_some (run_written _ _ blank (isKeyword.stops rest)), orElse_eq]
  rcases isKeyword with rfl | rfl
  · rw [literal_written]
    rfl
  · rw [literal_written]
    rfl

end Keyword

/-- An alias and the blanks at the end of its line. -/
def aliasAtLineEnd (written : Text) : Pattern Region := do
  let label ← region (literal written)
  blankLineEnd
  return label

section Head

variable {id written before rest : Text} {found : Region}

theorem aliasAtLineEnd_eq_some_iff :
    aliasAtLineEnd written place = some (found, stop) ↔
      ∃ rest, place.after = written ++ rest ∧
        found = ⟨place, ⟨written.reverse ++ place.before, rest⟩⟩ ∧
        ∃ nothing, blankLineEnd found.stop = some (nothing, stop) := by
  simp only [aliasAtLineEnd, bind_eq_some_iff, region_eq_some_iff,
    literal_eq_some_iff, pure_eq_some_iff]
  constructor
  · intro parts
    obtain ⟨_, _, ⟨⟨rest, split, rfl⟩, rfl⟩, _, _, ends, rfl, rfl⟩ := parts
    exact ⟨rest, split, rfl, _, ends⟩
  · intro parts
    obtain ⟨rest, split, rfl, _, ends⟩ := parts
    exact ⟨_, _, ⟨⟨rest, split, rfl⟩, rfl⟩, _, _, ends, rfl, rfl⟩

theorem exists_head_of_namedParticipant {old : Text} (solid : Text.IsSolid id)
    (read : namedParticipant id place = some (old, stop)) :
    place.isLineStart ∧
      ∃ (head : ParticipantHead) (rest : Text), head.name = id ∧
        place.after = head.written ++ old ++ rest ∧ Text.EndsLine rest ∧
        old ≠ [] ∧ '\n' ∉ old := by
  simp only [namedParticipant, bind_eq_some_iff] at read
  obtain ⟨_, _, declared, named⟩ := read
  obtain ⟨gap, _, gapNonempty, passesGap, gapSpaces, named⟩ :=
    passes_afterSpace named
  simp only [bind_eq_some_iff] at named
  obtain ⟨_, _, word, space, _, spaced, _, _, keyword, label⟩ := named
  obtain ⟨margin, middle, marginNonempty, passesMargin, marginSpaces, label⟩ :=
    passes_afterSpace label
  obtain ⟨starts, indent, first, passesKeyword, blank, isKeyword⟩ :=
    passes_participantKeyword declared
  obtain ⟨spaceNonempty, passesSpace, spaceSpaces⟩ := passes_nonemptyRun spaced
  obtain ⟨rest, labelEq, nonempty, within, ⟨_, ends⟩, _⟩ :=
    shortestBefore_eq_some_iff.mp label
  have passes :=
    ((((passesKeyword.append passesGap).append (passes_wholeWord word)).append
          passesSpace).append (passes_literal keyword)).append passesMargin
  refine ⟨starts, ⟨indent, first, gap, id, space, margin, blank, isKeyword,
    ⟨gapNonempty, gapSpaces⟩, solid, ⟨spaceNonempty, spaceSpaces⟩,
    ⟨marginNonempty, marginSpaces⟩⟩, rest, rfl, ?_, ?_, nonempty, ?_⟩
  · rw [passes.after, labelEq]
    simp [ParticipantHead.written, ParticipantHead.lead]
  · exact exists_blankLineEnd_iff.mp ⟨_, _, ends⟩
  · intro lineFeed
    simpa using within '\n' lineFeed

theorem exists_head_of_aliasOfParticipant
    (read : aliasOfParticipant written place = some (found, stop)) :
    place.isLineStart ∧
      ∃ (head : ParticipantHead) (rest : Text),
        place.after = head.written ++ written ++ rest ∧ Text.EndsLine rest ∧
          found.Cuts place.text (place.before.reverse ++ head.written) written
            rest := by
  simp only [aliasOfParticipant, bind_eq_some_iff] at read
  obtain ⟨_, _, declared, gap, _, gapped, name, _, named, space, _, spaced, _,
    _, keyword, label⟩ := read
  obtain ⟨margin, middle, marginNonempty, passesMargin, marginSpaces, label⟩ :=
    passes_afterSpace label
  obtain ⟨starts, indent, first, passesKeyword, blank, isKeyword⟩ :=
    passes_participantKeyword declared
  obtain ⟨gapNonempty, passesGap, gapSpaces⟩ := passes_nonemptyRun gapped
  obtain ⟨nameNonempty, passesName, nameSolid⟩ := passes_nonemptyRun named
  obtain ⟨spaceNonempty, passesSpace, spaceSpaces⟩ := passes_nonemptyRun spaced
  obtain ⟨rest, labelEq, rfl, _, ends⟩ := aliasAtLineEnd_eq_some_iff.mp label
  have passes := ((((passesKeyword.append passesGap).append passesName).append
    passesSpace).append (passes_literal keyword)).append passesMargin
  let head : ParticipantHead := ⟨indent, first, gap, name, space, margin, blank,
    isKeyword, ⟨gapNonempty, gapSpaces⟩,
    ⟨nameNonempty, by simpa using nameSolid⟩, ⟨spaceNonempty, spaceSpaces⟩,
    ⟨marginNonempty, marginSpaces⟩⟩
  have written_eq : head.written =
      indent ++ first ++ gap ++ name ++ space ++ "as".toList ++ margin :=
    rfl
  refine ⟨starts, head, rest, ?_, exists_blankLineEnd_iff.mp ⟨_, _, ends⟩, ?_⟩
  · rw [passes.after, labelEq, written_eq]
    simp only [List.append_assoc]
  · have reads :
        Passes written middle ⟨written.reverse ++ middle.before, rest⟩ :=
      ⟨labelEq, rfl⟩
    have cuts :
        Region.Cuts ⟨middle, ⟨written.reverse ++ middle.before, rest⟩⟩ _ _ _
          _ :=
      passes.cuts reads
    rw [written_eq]
    simpa only [List.append_assoc] using cuts

variable (head : ParticipantHead)

theorem aliasOfParticipant_head (starts : Text.StartsLine before)
    (after : Text) :
    aliasOfParticipant written ⟨before.reverse, head.written ++ after⟩ =
      afterSpace (aliasAtLineEnd written)
        ⟨(before ++ head.lead).reverse, head.margin ++ after⟩ := by
  have cut : head.written ++ after =
      head.indent ++
        (head.keyword ++
          (head.gap ++
            (head.name ++
              (head.space ++ ("as".toList ++ (head.margin ++ after)))))) := by
    simp [ParticipantHead.written, ParticipantHead.lead]
  have gapStops :=
    head.name_isSolid.stops
      (head.space ++ ("as".toList ++ (head.margin ++ after)))
  have nameStops :
      (head.space ++ ("as".toList ++ (head.margin ++ after))).head?.all
        fun character => !(!Text.isSpace character) := by
    simpa using head.space_isGap.stops ("as".toList ++ (head.margin ++ after))
  rw [cut, aliasOfParticipant,
    bind_eq_of_some
      (participantKeyword_written starts head.indent_blank head.isKeyword _),
    bind_eq_of_some
      (nonemptyRun_written _ _ head.gap_isGap.1 head.gap_isGap.2 gapStops),
    bind_eq_of_some (nonemptyRun_written _ _ head.name_isSolid.1
      (by simpa using head.name_isSolid.2) nameStops),
    bind_eq_of_some
      (nonemptyRun_written _ _ head.space_isGap.1 head.space_isGap.2 (by rfl)),
    bind_eq_of_some (literal_written _ _ _)]
  simp only [ParticipantHead.lead, List.append_assoc]
  rfl

/-- Where something visible stands behind the head, the alias begins there. -/
theorem aliasOfParticipant_of_visible (starts : Text.StartsLine before)
    {after : Text} (visible : after.head?.all (!Text.isSpace ·))
    (read : aliasAtLineEnd written ⟨(before ++ head.written).reverse, after⟩ =
      some (found, stop)) :
    aliasOfParticipant written ⟨before.reverse, head.written ++ after⟩ =
      some (found, stop) := by
  rw [aliasOfParticipant_head head starts]
  apply afterSpace_of_visible head.margin_isGap.1 head.margin_isGap.2 visible
  rwa [List.append_assoc]

theorem namedParticipant_of_visible (starts : Text.StartsLine before)
    (fits : fitsApart head.name) {after value : Text}
    (visible : after.head?.all (!Text.isSpace ·))
    (read : shortestBefore (· != '\n') blankLineEnd
        ⟨(before ++ head.written).reverse, after⟩ = some (value, stop)) :
    namedParticipant head.name ⟨before.reverse, head.written ++ after⟩ =
      some (value, stop) := by
  have cut : head.written ++ after =
      head.indent ++
        (head.keyword ++
          (head.gap ++
            (head.name ++
              (head.space ++ ("as".toList ++ (head.margin ++ after)))))) := by
    simp [ParticipantHead.written, ParticipantHead.lead]
  have apart :
      Text.endsInWord (before ++ head.indent ++ head.keyword ++ head.gap) =
        false :=
    Text.endsInWord_append_space _ head.gap_isGap.1 head.gap_isGap.2
  have stops :
      Text.startsWithWord
          (head.space ++ ("as".toList ++ (head.margin ++ after))) = false := by
    obtain ⟨separator, more, spaceEq⟩ :=
      List.exists_cons_of_ne_nil head.space_isGap.1
    rw [spaceEq]
    exact Text.not_isWordCharacter_of_isSpace
      (head.space_isGap.2 separator (by simp [spaceEq]))
  rw [cut, namedParticipant,
    bind_eq_of_some
      (participantKeyword_written starts head.indent_blank head.isKeyword _)]
  apply afterSpace_of_visible head.gap_isGap.1 head.gap_isGap.2
    (head.name_isSolid.stops _)
  rw [bind_eq_of_some (wholeWord_written fits apart stops),
    bind_eq_of_some
      (nonemptyRun_written _ _ head.space_isGap.1 head.space_isGap.2 (by rfl)),
    bind_eq_of_some (literal_written _ _ _)]
  apply afterSpace_of_visible head.margin_isGap.1 head.margin_isGap.2 visible
  have whole :
      before ++ head.indent ++ head.keyword ++ head.gap ++ head.name ++
          head.space ++ "as".toList ++ head.margin =
        before ++ head.written := by
    simp [ParticipantHead.written, ParticipantHead.lead]
  rw [whole]
  exact read

/-- An alias behind a head and at the end of its line is found there. -/
theorem aliasOfParticipant_isSome (starts : Text.StartsLine before)
    (ends : Text.EndsLine rest) :
    (aliasOfParticipant written
      ⟨before.reverse, head.written ++ (written ++ rest)⟩).isSome := by
  rw [aliasOfParticipant_head head starts]
  apply exists_afterSpace head.margin_isGap.1 head.margin_isGap.2
  obtain ⟨nothing, stop, ended⟩ := exists_blankLineEnd_iff.mpr ends
  rw [aliasAtLineEnd_eq_some_iff.mpr ⟨rest, rfl, rfl, nothing, ended⟩]
  rfl

end Head

end Pattern

end DiagramEdit
