import DiagramEdit.Edit
import DiagramEdit.Proofs.Node.Rewriting
import DiagramEdit.Proofs.Style

/-!
# Lines that grow behind a text

Old lines that know nothing of an identifier stay what they are while lines that
belong to it are added, changed and removed behind them.  A line belongs to an
identifier when it mentions it and begins with a word: then no bracket can be
reached from the line before it.
-/

namespace DiagramEdit

/-- A line that mentions an identifier and begins with a word. -/
structure BelongsTo (id line : Text) : Prop where
  oneLine : '\n' ∉ line
  mentioned : id ∈ Text.wordRuns line
  begins : (Text.trimStart line).head?.any startsIdentifier

/-- Old lines with no site of an identifier and no mention of it below the
first. -/
structure Unaware (id : Text) (old : List Text) : Prop where
  oneLine : ∀ line ∈ old, '\n' ∉ line
  ends : ∃ earlier last character, old = earlier ++ [last ++ [character]] ∧
    Text.isSpace character = false
  noSite : ∀ before after, Text.joinLines old = before ++ after →
    ¬IsSite id before after
  unmentioned : ∀ line ∈ old.tail, id ∉ Text.wordRuns line

/-- A text of old lines and of lines behind them that belong to an
identifier. -/
def GrownFrom (id : Text) (old : List Text) (broken : Bool) (text : Text) :
    Prop :=
  ∃ added, text = Text.joinLines (old ++ added ++ Text.closingLine broken) ∧
    ∀ line ∈ added, BelongsTo id line

theorem visible_before_of_begins {left right : Text} {character : Char}
    (begins :
      (Text.trimStart (left ++ character :: right)).head?.any startsIdentifier)
    (other : startsIdentifier character = false)
    (visible : Text.isSpace character = false) :
    Text.isBlank left = false := by
  rw [Bool.eq_false_iff]
  intro blank
  have spaces : ∀ character ∈ left, Text.isSpace character := by
    simpa [Text.isBlank] using blank
  have first : Text.trimStart (character :: right) = character :: right :=
    Text.trimStart_eq_self (by simpa using visible)
  rw [Text.trimStart_append_of_isSpace spaces, first] at begins
  simp [other] at begins

theorem begins_indentation {initial : Char} (starts : startsIdentifier initial)
    (rest : Text) :
    (Text.trimStart (indentation ++ initial :: rest)).head?.any
      startsIdentifier := by
  have visible := Text.not_isSpace_of_isWordCharacter
    (isWordCharacter_of_startsIdentifier starts)
  rw [Text.trimStart_append_of_isSpace isSpace_of_mem_indentation,
    Text.trimStart_eq_self (by simpa using visible)]
  simpa using starts

theorem begins_indentation_identifier {id : Text} (identifies : isIdentifier id)
    (rest : Text) :
    (Text.trimStart (indentation ++ id ++ rest)).head?.any
      startsIdentifier := by
  obtain ⟨initial, tail, rfl, starts⟩ := exists_cons_of_isIdentifier identifies
  rw [List.append_assoc]
  exact begins_indentation starts (tail ++ rest)

namespace BelongsTo

variable {id line : Text}

theorem visible (belongs : BelongsTo id line) : Text.isBlank line = false := by
  rw [Bool.eq_false_iff]
  intro blank
  have begins := belongs.begins
  have spaces : ∀ character ∈ line, Text.isSpace character := by
    simpa [Text.isBlank] using blank
  rw [Text.trimStart, List.dropWhile_eq_nil_iff.mpr spaces] at begins
  cases begins

theorem trimEnd (belongs : BelongsTo id line) :
    BelongsTo id (Text.trimEnd line) := by
  obtain ⟨space, split, spaces⟩ := Text.exists_trimEnd_append line
  have visibleFront : Text.isBlank (Text.trimEnd line) = false := by
    rw [Text.isBlank_trimEnd]
    exact belongs.visible
  refine ⟨?_, ?_, ?_⟩
  · intro member
    apply belongs.oneLine
    rw [split]
    exact List.mem_append_left _ member
  · have mentioned := belongs.mentioned
    have noWords : Text.wordRuns space = [] :=
      Text.wordRuns_eq_nil fun character member =>
        Text.not_isWordCharacter_of_isSpace (spaces character member)
    rw [split,
      Text.wordRuns_append (Or.inr (Text.startsWithWord_of_spaces spaces)),
      noWords, List.append_nil] at mentioned
    exact mentioned
  · have begins := belongs.begins
    rw [split, Text.head?_trimStart_append visibleFront] at begins
    exact begins

end BelongsTo

theorem belongsTo_of_word {id front rest : Text} (identifies : isIdentifier id)
    (oneLine : '\n' ∉ front ++ id ++ rest)
    (ends : Text.endsInWord front = false)
    (stops : Text.startsWithWord rest = false)
    (begins :
      (Text.trimStart (front ++ id ++ rest)).head?.any startsIdentifier) :
    BelongsTo id (front ++ id ++ rest) := by
  refine ⟨oneLine, Text.mem_wordRuns_iff.mpr ?_, begins⟩
  refine ⟨ne_nil_of_isIdentifier identifies, ?_, front, rest, rfl, ends, stops⟩
  intro character member
  exact isWordCharacter_of_mem_identifier identifies member

theorem exists_front_of_append_eq {flat left before id space : Text}
    (lineStart : flat.getLast?.all (· == '\n')) (identifies : isIdentifier id)
    (spaces : ∀ character ∈ space, Text.isSpace character)
    (visible : Text.isBlank left = false)
    (split : before ++ id ++ space = flat ++ left) :
    ∃ front, left = front ++ id ++ space ∧ before = flat ++ front := by
  rcases List.append_eq_append_iff.mp split with
    ⟨rest, flatEq, spaceEq⟩ | ⟨named, namedEq, leftEq⟩
  · have blank : Text.isBlank left := by
      apply Text.isBlank_of_spaces
      intro character member
      exact spaces character (by simp [spaceEq, member])
    rw [visible] at blank
    cases blank
  · rcases List.append_eq_append_iff.mp namedEq with
      ⟨rest, flatEq, idEq⟩ | ⟨front, beforeEq, frontEq⟩
    · rcases List.eq_nil_or_concat rest with rfl | ⟨rest, last, rfl⟩
      · refine ⟨[], by simp [leftEq, idEq], by simpa using flatEq.symm⟩
      · rw [List.concat_eq_append] at flatEq idEq
        have lineFeed : last = '\n' := by
          rw [flatEq, ← List.append_assoc, List.getLast?_concat] at lineStart
          simpa using lineStart
        have inside : last ∈ id := by simp [idEq]
        have impossible := isWordCharacter_of_mem_identifier identifies inside
        rw [lineFeed, Text.isWordCharacter_lineFeed] at impossible
        cases impossible
    · exact ⟨front, by rw [leftEq, frontEq], beforeEq⟩

theorem lineStart_flatMap (earlier : List Text) :
    (earlier.flatMap (· ++ ['\n'])).getLast?.all (· == '\n') := by
  rcases List.eq_nil_or_concat earlier with rfl | ⟨earlier, last, rfl⟩
  · rfl
  · simp

section Grown

variable {id : Text} {old : List Text} {broken : Bool} {text : Text}

/-- A site in a grown text is on a line that belongs to the identifier. -/
theorem exists_line_of_isSite (identifies : isIdentifier id)
    (unaware : Unaware id old) {added : List Text}
    (belong : ∀ line ∈ added, BelongsTo id line) {before space rest : Text}
    {bracket : Char} (apart : standsApart before id)
    (spaces : ∀ character ∈ space, Text.isSpace character)
    (opens : opensLabel bracket)
    (split : Text.joinLines (old ++ added ++ Text.closingLine broken) =
      before ++ id ++ space ++ bracket :: rest) :
    ∃ earlier later front right,
      added = earlier ++ (front ++ id ++ space ++ bracket :: right) :: later ∧
        before = (old ++ earlier).flatMap (· ++ ['\n']) ++ front ∧
        rest = right ++
          (later ++ Text.closingLine broken).flatMap ('\n' :: ·) := by
  have brackets := isBracket_of_opensLabel opens
  obtain ⟨above, line, below, left, right, piecesEq, lineEq, leftEq, restEq⟩ :=
    Text.joinLines_eq_append_cons (ne_lineFeed_of_isBracket brackets) split
  have nonempty : line ≠ [] := by simp [lineEq]
  have notClosing : line ∉ Text.closingLine broken := by
    intro member
    exact nonempty (Text.eq_nil_of_mem_closingLine member)
  rcases Text.append_eq_append_cons_cases piecesEq with
    ⟨tail, grownEq, belowEq⟩ | ⟨_, _, closingEq⟩
  · rcases Text.append_eq_append_cons_cases grownEq with
      ⟨rest', oldEq, tailEq⟩ | ⟨earlier, aboveEq, addedEq⟩
    · have site :
          IsSite id before
            (id ++ space ++ bracket :: (right ++ rest'.flatMap ('\n' :: ·))) :=
        ⟨apart, space, bracket, _, rfl, spaces, opens⟩
      have whole : Text.joinLines old =
          before ++
            (id ++ space ++ bracket ::
              (right ++ rest'.flatMap ('\n' :: ·))) := by
        rw [oldEq, Text.joinLines_append_cons, lineEq,
          ← List.append_assoc _ left, ← leftEq]
        simp
      exact absurd site (unaware.noSite _ _ whole)
    · have belongs := belong line (by simp [addedEq])
      rw [lineEq] at belongs
      rw [aboveEq] at leftEq
      have visible :=
        visible_before_of_begins belongs.begins
          (not_startsIdentifier_of_isBracket brackets)
          (not_isSpace_of_isBracket brackets)
      obtain ⟨front, leftFront, beforeEq⟩ := exists_front_of_append_eq
        (lineStart_flatMap _) identifies spaces visible leftEq
      refine ⟨earlier, tail, front, right, ?_, beforeEq, ?_⟩
      · rw [addedEq, lineEq, leftFront]
      · rw [restEq, belowEq]
  · exact absurd (by simp [closingEq]) notClosing

theorem exists_rest_of_append_cons {right : Text} {later : List Text}
    {middle rest : Text} {character : Char} (different : character ≠ '\n')
    (split : right ++ (later ++ Text.closingLine broken).flatMap ('\n' :: ·) =
      middle ++ character :: rest) :
    ∃ lineRest below, (∃ line ∈ right :: later, lineRest ⊆ line) ∧
      below ⊆ later ∧
      rest = lineRest ++
        (below ++ Text.closingLine broken).flatMap ('\n' :: ·) := by
  rw [← Text.joinLines_cons, ← List.cons_append] at split
  obtain ⟨above, line, below, lineFront, lineRest, piecesEq, lineEq, _,
    restEq⟩ :=
    Text.joinLines_eq_append_cons different split
  rcases Text.append_eq_append_cons_cases piecesEq with
    ⟨tail, linesEq, belowEq⟩ | ⟨_, _, closingEq⟩
  · refine ⟨lineRest, tail, ⟨line, by simp [linesEq], ?_⟩, ?_,
      by rw [restEq, belowEq]⟩
    · intro other member
      simp [lineEq, member]
    · intro item member
      cases above with
      | nil =>
          obtain ⟨_, laterEq⟩ := List.cons.inj linesEq
          rw [laterEq]
          exact member
      | cons first above =>
          obtain ⟨_, laterEq⟩ := List.cons.inj linesEq
          simp [laterEq, member]
  · have member : line ∈ Text.closingLine broken := by simp [closingEq]
    have empty := Text.eq_nil_of_mem_closingLine member
    simp [lineEq] at empty

theorem BelongsTo.rewritten {front space old rest new : Text} {opener : Char}
    {shape : Shape} (identifies : isIdentifier id)
    (belongs : BelongsTo id (front ++ id ++ space ++ opener :: old))
    (apart : Text.endsInWord front = false)
    (spaces : ∀ character ∈ space, Text.isSpace character)
    (fits : labelFits new) (oneLine : '\n' ∉ rest) :
    BelongsTo id (front ++ id ++ space ++ shape.wrap new ++ rest) := by
  have lineKept : '\n' ∉ front ++ id ++ (space ++ shape.wrap new ++ rest) := by
    have kept := belongs.oneLine
    simp only [List.mem_append, not_or] at kept ⊢
    exact ⟨kept.1.1, ⟨kept.1.2, not_lineFeed_mem_wrap shape fits⟩, oneLine⟩
  have stops :
      Text.startsWithWord (space ++ shape.wrap new ++ rest) = false := by
    rw [List.append_assoc]
    exact Text.startsWithWord_append (Text.startsWithWord_of_spaces spaces)
      (startsWithWord_wrap shape new rest)
  have begins :
      (Text.trimStart
          (front ++ id ++ (space ++ shape.wrap new ++ rest))).head?.any
        startsIdentifier := by
    have begun := belongs.begins
    have visible : Text.isBlank (front ++ id) = false := by
      rw [Text.isBlank_append, isBlank_identifier identifies, Bool.and_false]
    rw [List.append_assoc (front ++ id), Text.head?_trimStart_append visible]
      at begun
    rw [Text.head?_trimStart_append visible]
    exact begun
  have rewritten := belongsTo_of_word identifies lineKept apart stops begins
  simpa using rewritten

/-- A change of label or shape keeps the old lines. -/
theorem GrownFrom.replaced (identifies : isIdentifier id)
    (unaware : Unaware id old) (grown : GrownFrom id old broken text)
    {shape other : Shape} {label new edited : Text} (fits : labelFits new)
    (replaced :
      ReplacedAfter id (shape.wrap label) (other.wrap new) text edited) :
    GrownFrom id old broken edited := by
  obtain ⟨added, textEq, belong⟩ := grown
  obtain ⟨before, space, rest, apart, spaces, split, editedEq⟩ := replaced
  obtain ⟨opener, middle, closer, wrapEq, opens, closes⟩ :=
    shape.exists_wrap_eq label
  have cut : Text.joinLines (old ++ added ++ Text.closingLine broken) =
      before ++ id ++ space ++ opener :: (middle ++ closer :: rest) := by
    rw [← textEq, split, wrapEq]
    simp
  obtain ⟨earlier, later, front, right, addedEq, beforeEq, rightEq⟩ :=
    exists_line_of_isSite identifies unaware belong apart spaces opens cut
  obtain ⟨lineRest, below, ⟨line, onLine, restLine⟩, belowLater, restEq⟩ :=
    exists_rest_of_append_cons (ne_lineFeed_of_isBracket closes) rightEq.symm
  have ends : Text.endsInWord front = false := by
    rw [standsApart_iff identifies, beforeEq] at apart
    exact Text.endsInWord_right apart
  have belongs :=
    belong (front ++ id ++ space ++ opener :: right) (by simp [addedEq])
  have oneLine : '\n' ∉ lineRest := by
    intro member
    have inLine := restLine member
    rcases List.mem_cons.mp onLine with here | there
    · apply belongs.oneLine
      rw [here] at inLine
      simp [inLine]
    · exact (belong line (by simp [addedEq, there])).oneLine inLine
  refine ⟨earlier ++ (front ++ id ++ space ++ other.wrap new ++ lineRest) ::
      below, ?_, ?_⟩
  · have pieces :
        old ++
            (earlier ++ (front ++ id ++ space ++ other.wrap new ++ lineRest) ::
              below) ++ Text.closingLine broken =
          (old ++ earlier) ++
            (front ++ id ++ space ++ other.wrap new ++ lineRest) ::
            (below ++ Text.closingLine broken) := by
      simp
    rw [pieces, Text.joinLines_append_cons, editedEq, beforeEq, restEq]
    simp
  · intro item member
    rcases List.mem_append.mp member with before' | after
    · exact belong item (by simp [addedEq, before'])
    · rcases List.mem_cons.mp after with here | there
      · rw [here]
        exact belongs.rewritten identifies ends spaces fits oneLine
      · exact belong item (by simp [addedEq, belowLater there])

theorem Unaware.ne_nil (unaware : Unaware id old) : old ≠ [] := by
  obtain ⟨earlier, last, character, oldEq, _⟩ := unaware.ends
  rw [oldEq]
  simp

theorem lines_of_grown (unaware : Unaware id old) {added : List Text}
    (belong : ∀ line ∈ added, BelongsTo id line) :
    Text.lines (Text.joinLines (old ++ added ++ Text.closingLine broken)) =
      old ++ added ++ Text.closingLine broken := by
  apply Text.lines_joinLines
  · simp [unaware.ne_nil]
  · intro line member
    rw [List.append_assoc] at member
    rcases List.mem_append.mp member with inOld | rest
    · exact unaware.oneLine line inOld
    · rcases List.mem_append.mp rest with inAdded | closing
      · exact (belong line inAdded).oneLine
      · simp [Text.eq_nil_of_mem_closingLine closing]

/-- A line that belongs to the identifier may be appended. -/
theorem GrownFrom.appendLine (unaware : Unaware id old)
    (grown : GrownFrom id old broken text) {line : Text}
    (belongs : BelongsTo id line) :
    GrownFrom id old broken (Text.appendLine text line) := by
  obtain ⟨added, textEq, belong⟩ := grown
  rcases List.eq_nil_or_concat added with rfl | ⟨earlier, last, rfl⟩
  · obtain ⟨above, last, character, oldEq, visible⟩ := unaware.ends
    have oneLine : '\n' ∉ last ++ [character] :=
      unaware.oneLine _ (by simp [oldEq])
    have notBlank : Text.isBlank (last ++ [character]) = false := by
      simp [Text.isBlank, visible]
    refine ⟨[line], ?_, by simpa using belongs⟩
    rw [textEq, List.append_nil, oldEq,
      Text.appendLine_joinLines above broken line notBlank oneLine,
      Text.trimEnd_append_singleton visible]
    simp
  · rw [List.concat_eq_append] at textEq belong
    have lastBelongs := belong last (by simp)
    refine ⟨earlier ++ [Text.trimEnd last, line], ?_, ?_⟩
    · rw [textEq, ← List.append_assoc old,
        Text.appendLine_joinLines (old ++ earlier) broken line
          lastBelongs.visible lastBelongs.oneLine]
      simp
    · intro item member
      rcases List.mem_append.mp member with above | rest
      · exact belong item (by simp [above])
      · rcases List.mem_cons.mp rest with here | there
        · rw [here]
          exact lastBelongs.trimEnd
        · rw [List.mem_singleton.mp there]
          exact belongs

end Grown

end DiagramEdit
