import DiagramEdit.Node.Edit
import DiagramEdit.Proofs.Text.Search
import DiagramEdit.Proofs.Text.Words

/-!
# Which lines mention an identifier

An identifier in ASCII begins and ends with name characters, so it is read only
where it stands as a whole word.  A line mentions it exactly if it is one of the
words of the line.
-/

namespace DiagramEdit

/-- A letter or an underscore, then letters, digits and underscores, all in
ASCII. -/
def isIdentifier (id : Text) : Bool :=
  id.head?.any startsIdentifier && id.all Text.isAsciiWord

theorem isAsciiWord_of_startsIdentifier {character : Char}
    (starts : startsIdentifier character) :
    Text.isAsciiWord character := by
  simp only [startsIdentifier, Bool.or_eq_true] at starts
  rcases starts with letter | underscore
  · simp [Text.isAsciiWord, Char.isAlphanum, letter]
  · simp [Text.isAsciiWord, underscore]

theorem isWordCharacter_of_startsIdentifier {character : Char}
    (starts : startsIdentifier character) : Text.isWordCharacter character :=
  Text.isWordCharacter_of_isAsciiWord (isAsciiWord_of_startsIdentifier starts)

section Identifier

variable {id : Text}

theorem exists_cons_of_isIdentifier (identifies : isIdentifier id) :
    ∃ initial rest, id = initial :: rest ∧ startsIdentifier initial := by
  cases id with
  | nil => simp [isIdentifier] at identifies
  | cons initial rest =>
      simp only [isIdentifier, List.head?_cons, Option.any_some,
        Bool.and_eq_true] at identifies
      exact ⟨initial, rest, rfl, identifies.1⟩

theorem head?_identifier (identifies : isIdentifier id) :
    id.head?.any startsIdentifier := by
  simp only [isIdentifier, Bool.and_eq_true] at identifies
  exact identifies.1

theorem ne_nil_of_isIdentifier (identifies : isIdentifier id) : id ≠ [] := by
  obtain ⟨initial, rest, rfl, _⟩ := exists_cons_of_isIdentifier identifies
  exact List.cons_ne_nil _ _

theorem isAsciiWord_of_mem_identifier (identifies : isIdentifier id)
    {character : Char} (member : character ∈ id) :
    Text.isAsciiWord character := by
  simp only [isIdentifier, Bool.and_eq_true, List.all_eq_true] at identifies
  exact identifies.2 character member

theorem isWordCharacter_of_mem_identifier (identifies : isIdentifier id)
    {character : Char} (member : character ∈ id) :
    Text.isWordCharacter character :=
  Text.isWordCharacter_of_isAsciiWord
    (isAsciiWord_of_mem_identifier identifies member)

theorem not_isSpace_of_mem_identifier (identifies : isIdentifier id)
    {character : Char} (member : character ∈ id) :
    Text.isSpace character = false :=
  Text.not_isSpace_of_isWordCharacter
    (isWordCharacter_of_mem_identifier identifies member)

theorem not_lineFeed_mem_identifier (identifies : isIdentifier id) :
    '\n' ∉ id := by
  intro member
  have impossible := isWordCharacter_of_mem_identifier identifies member
  rw [Text.isWordCharacter_lineFeed] at impossible
  cases impossible

theorem trim_identifier (identifies : isIdentifier id) : Text.trim id = id := by
  have visible :
      ∀ {reading : Option Char}, (∀ character ∈ reading, character ∈ id) →
        reading.all (!Text.isSpace ·) := by
    intro reading inside
    cases reading with
    | none => rfl
    | some character =>
        simpa
          using not_isSpace_of_mem_identifier identifies (inside character rfl)
  apply Text.trim_eq_self_iff.mpr
  constructor
  · exact visible fun character first => List.mem_of_mem_head? first
  · exact visible fun character last => List.mem_of_mem_getLast? last

theorem isBlank_identifier (identifies : isIdentifier id) :
    Text.isBlank id = false := by
  obtain ⟨initial, rest, rfl, _⟩ := exists_cons_of_isIdentifier identifies
  simp [Text.isBlank,
    not_isSpace_of_mem_identifier identifies (List.mem_cons_self)]

theorem isEndpoint_identifier (identifies : isIdentifier id) :
    isEndpoint id := by
  have noBreak : id.any isLineBreak = false := by
    rw [List.any_eq_false]
    intro character member lineBreak
    have visible := not_isSpace_of_mem_identifier identifies member
    simp only [isLineBreak, Bool.or_eq_true, beq_iff_eq] at lineBreak
    rcases lineBreak with rfl | rfl
    · cases visible
    · cases visible
  simp [isEndpoint, isBlank_identifier identifies, noBreak]

theorem getLast?_any_isNameCharacter (identifies : isIdentifier id) :
    id.getLast?.any Text.isNameCharacter := by
  have nonempty := ne_nil_of_isIdentifier identifies
  have word :=
    isAsciiWord_of_mem_identifier identifies (List.getLast_mem nonempty)
  rw [List.getLast?_eq_some_getLast nonempty]
  exact Text.isNameCharacter_of_isAsciiWord word

theorem endsInWord_identifier (identifies : isIdentifier id) (before : Text) :
    Text.endsInWord (before ++ id) := by
  have nonempty := ne_nil_of_isIdentifier identifies
  rw [Text.endsInWord_append before nonempty]
  exact Text.endsInWord_of_word nonempty
    fun _ member => isWordCharacter_of_mem_identifier identifies member

theorem wordRuns_identifier (identifies : isIdentifier id) :
    Text.wordRuns id = [id] :=
  Text.wordRuns_of_word (ne_nil_of_isIdentifier identifies)
    fun _ member => isWordCharacter_of_mem_identifier identifies member

end Identifier

theorem isWordBoundary_cut (before after : Text) :
    Place.isWordBoundary ⟨before.reverse, after⟩ =
      (Text.endsInWord before != Text.startsWithWord after) := by
  simp [Place.isWordBoundary, Text.endsInWord, Text.startsWithWord]

/-- Whether an identifier can be read behind a text. -/
def standsApart (before id : Text) : Bool :=
  id.head?.all fun initial =>
    !Text.isNameCharacter initial ||
      (Text.endsInWord before != Text.isWordCharacter initial)

theorem standsApart_iff_of_starts {id : Text}
    (starts : id.head?.any startsIdentifier) (before : Text) :
    standsApart before id ↔ Text.endsInWord before = false := by
  cases id with
  | nil => cases starts
  | cons initial rest =>
      have ascii : Text.isAsciiWord initial :=
        isAsciiWord_of_startsIdentifier (by simpa using starts)
      simp [standsApart, Text.isNameCharacter_of_isAsciiWord ascii,
        Text.isWordCharacter_of_isAsciiWord ascii]

theorem standsApart_iff {id : Text} (identifies : isIdentifier id)
    (before : Text) :
    standsApart before id ↔ Text.endsInWord before = false :=
  standsApart_iff_of_starts (head?_identifier identifies) before

namespace Pattern

variable {id : Text}

/-- An identifier is read where it begins, after a word boundary if it asks for
one. -/
theorem identifier_eq_some_iff {place stop : Place} {nothing : Unit} :
    identifier id place = some (nothing, stop) ↔
      (id.head?.any Text.isNameCharacter → place.isWordBoundary) ∧
        ∃ after, place.after = id ++ after ∧
          stop = ⟨id.reverse ++ place.before, after⟩ := by
  by_cases asked : id.head?.any Text.isNameCharacter
  · rw [identifier, if_pos asked, bind_eq_some_iff]
    simp only [check_eq_some_iff, literal_eq_some_iff]
    constructor
    · intro parts
      obtain ⟨_, middle, ⟨boundary, same⟩, read⟩ := parts
      subst same
      exact ⟨fun _ => boundary, read⟩
    · intro parts
      obtain ⟨boundary, read⟩ := parts
      exact ⟨(), place, ⟨boundary asked, rfl⟩, read⟩
  · rw [identifier, if_neg asked, literal_eq_some_iff]
    constructor
    · intro read
      exact ⟨fun asks => absurd asks asked, read⟩
    · intro read
      exact read.2

theorem wholeWord_eq_some_iff {place stop : Place} {nothing : Unit} :
    wholeWord id place = some (nothing, stop) ↔
      identifier id place = some ((), stop) ∧
        (id.getLast?.any Text.isNameCharacter → stop.isWordBoundary) := by
  rw [wholeWord, bind_eq_some_iff]
  by_cases asked : id.getLast?.any Text.isNameCharacter
  · simp only [if_pos asked, check_eq_some_iff]
    constructor
    · intro parts
      obtain ⟨_, middle, read, boundary, same⟩ := parts
      subst same
      exact ⟨read, fun _ => boundary⟩
    · intro parts
      obtain ⟨read, boundary⟩ := parts
      exact ⟨(), stop, read, boundary asked, rfl⟩
  · simp only [if_neg asked, pure_eq_some_iff]
    constructor
    · intro parts
      obtain ⟨_, middle, read, _, same⟩ := parts
      subst same
      exact ⟨read, fun asks => absurd asks asked⟩
    · intro parts
      obtain ⟨read, _⟩ := parts
      exact ⟨(), stop, read, trivial, rfl⟩

theorem identifier_cut_iff {before after : Text} {stop : Place}
    {nothing : Unit} :
    identifier id ⟨before.reverse, after⟩ = some (nothing, stop) ↔
      standsApart before id ∧
        ∃ rest, after = id ++ rest ∧ stop = ⟨(before ++ id).reverse, rest⟩ := by
  rw [identifier_eq_some_iff, isWordBoundary_cut, List.reverse_append]
  constructor
  · intro parts
    obtain ⟨boundary, rest, split, stopEq⟩ := parts
    change after = id ++ rest at split
    refine ⟨?_, rest, split, stopEq⟩
    cases id with
    | nil => rfl
    | cons initial tail =>
        cases name : Text.isNameCharacter initial with
        | false => simp [standsApart, name]
        | true =>
            have bounded := boundary (by simp [name])
            simpa [standsApart, name, split, Text.startsWithWord] using bounded
  · intro parts
    obtain ⟨apart, rest, split, stopEq⟩ := parts
    refine ⟨?_, rest, split, stopEq⟩
    intro asked
    cases id with
    | nil => cases asked
    | cons initial tail =>
        have name : Text.isNameCharacter initial = true := by simpa using asked
        simpa [standsApart, name, split, Text.startsWithWord] using apart

theorem wholeWord_cut_iff (identifies : isIdentifier id) {before after : Text}
    {stop : Place} {nothing : Unit} :
    wholeWord id ⟨before.reverse, after⟩ = some (nothing, stop) ↔
      Text.endsInWord before = false ∧
        ∃ rest, after = id ++ rest ∧ Text.startsWithWord rest = false ∧
          stop = ⟨(before ++ id).reverse, rest⟩ := by
  rw [wholeWord_eq_some_iff, identifier_cut_iff, standsApart_iff identifies]
  have asked := getLast?_any_isNameCharacter identifies
  constructor
  · intro parts
    obtain ⟨⟨ends, rest, split, stopEq⟩, boundary⟩ := parts
    have bounded := boundary asked
    rw [stopEq, isWordBoundary_cut, endsInWord_identifier identifies] at bounded
    exact ⟨ends, rest, split, by simpa using bounded, stopEq⟩
  · intro parts
    obtain ⟨ends, rest, split, starts, stopEq⟩ := parts
    refine ⟨⟨ends, rest, split, stopEq⟩, fun _ => ?_⟩
    rw [stopEq, isWordBoundary_cut, endsInWord_identifier identifies, starts]
    rfl

/-- An identifier that can be read between white space: where it asks for a word
boundary at one of its ends, it ends in a word character there. -/
def fitsApart (id : Text) : Prop :=
  (id.head?.any Text.isNameCharacter → Text.startsWithWord id) ∧
    (id.getLast?.any Text.isNameCharacter → Text.endsInWord id)

theorem standsApart_iff_of_apart {before : Text}
    (apart : Text.endsInWord before = false) :
    standsApart before id ↔
      (id.head?.any Text.isNameCharacter → Text.startsWithWord id) := by
  cases id with
  | nil => simp [standsApart]
  | cons initial rest =>
      cases name : Text.isNameCharacter initial <;>
        simp [standsApart, name, apart, Text.startsWithWord]

theorem endsInWord_append_of_apart {before : Text}
    (apart : Text.endsInWord before = false) :
    Text.endsInWord (before ++ id) = Text.endsInWord id := by
  by_cases empty : id = []
  · rw [empty, List.append_nil, apart]
    rfl
  · exact Text.endsInWord_append before empty

theorem wholeWord_written {before rest : Text} (fits : fitsApart id)
    (apart : Text.endsInWord before = false)
    (stops : Text.startsWithWord rest = false) :
    wholeWord id ⟨before.reverse, id ++ rest⟩ =
      some ((), ⟨(before ++ id).reverse, rest⟩) := by
  obtain ⟨starts, ends⟩ := fits
  refine wholeWord_eq_some_iff.mpr ⟨identifier_cut_iff.mpr
      ⟨(standsApart_iff_of_apart apart).mpr starts, rest, rfl, rfl⟩,
    fun asked => ?_⟩
  rw [isWordBoundary_cut, stops, endsInWord_append_of_apart apart, ends asked]
  rfl

theorem wholeWord_apart_iff {before after rest : Text} {separator : Char}
    {stop : Place} {nothing : Unit} (apart : Text.endsInWord before = false)
    (space : Text.isSpace separator) (split : after = id ++ separator :: rest) :
    wholeWord id ⟨before.reverse, after⟩ = some (nothing, stop) ↔
      fitsApart id ∧ stop = ⟨(before ++ id).reverse, separator :: rest⟩ := by
  have stops : Text.startsWithWord (separator :: rest) = false := by
    simpa [Text.startsWithWord] using Text.not_isWordCharacter_of_isSpace space
  rw [split]
  constructor
  · intro read
    obtain ⟨found, bounded⟩ := wholeWord_eq_some_iff.mp read
    obtain ⟨starts, behind, cut, rfl⟩ := identifier_cut_iff.mp found
    obtain rfl := List.append_cancel_left cut
    refine ⟨⟨(standsApart_iff_of_apart apart).mp starts, fun asked => ?_⟩, rfl⟩
    have boundary := bounded asked
    rw [isWordBoundary_cut, stops, endsInWord_append_of_apart apart] at boundary
    simpa using boundary
  · intro parts
    obtain ⟨fits, rfl⟩ := parts
    exact wholeWord_written fits apart stops

end Pattern

/-- Any identifier is mentioned where it stands between two boundaries, as far
as its own ends ask for them. -/
theorem mentions_iff_cut {id line : Text} :
    mentions id line ↔
      ∃ before after, line = before ++ id ++ after ∧ standsApart before id ∧
        (id.getLast?.any Text.isNameCharacter →
          Text.endsInWord (before ++ id) ≠ Text.startsWithWord after) := by
  rw [mentions, Pattern.occursIn_iff_cut]
  simp only [Option.isSome_iff_exists, Prod.exists,
    Pattern.wholeWord_eq_some_iff, Pattern.identifier_cut_iff]
  constructor
  · intro parts
    obtain ⟨before, rest, split, _, stop, ⟨apart, after, restEq, rfl⟩,
      bounded⟩ := parts
    refine ⟨before, after, by rw [split, restEq, List.append_assoc], apart, ?_⟩
    intro asked
    have boundary := bounded asked
    rwa [isWordBoundary_cut, bne_iff_ne] at boundary
  · intro parts
    obtain ⟨before, after, split, apart, bounded⟩ := parts
    refine ⟨before, id ++ after, by rw [split, List.append_assoc], (), _,
      ⟨apart, after, rfl, rfl⟩, ?_⟩
    intro asked
    rw [isWordBoundary_cut, bne_iff_ne]
    exact bounded asked

section Trimmed

variable {id line space : Text}

theorem mentions_space_append (visible : id.head?.any (!Text.isSpace ·))
    (spaces : ∀ character ∈ space, Text.isSpace character) :
    mentions id (space ++ line) ↔ mentions id line := by
  cases id with
  | nil => cases visible
  | cons initial rest =>
      have apart : ∀ front, standsApart (space ++ front) (initial :: rest) =
          standsApart front (initial :: rest) := fun front => by
        rw [standsApart, standsApart, Text.endsInWord_space_append spaces]
      rw [mentions_iff_cut, mentions_iff_cut]
      constructor
      · intro parts
        obtain ⟨before, after, split, stands, bounded⟩ := parts
        rw [List.append_assoc, List.cons_append] at split
        rcases Text.append_eq_append_cons_cases split with
          ⟨more, spaceEq, _⟩ | ⟨front, rfl, lineEq⟩
        · have isSpace := spaces initial (by simp [spaceEq])
          simp [isSpace] at visible
        · rw [apart] at stands
          refine ⟨front, after, by rw [lineEq]; simp, stands, ?_⟩
          rwa [List.append_assoc, Text.endsInWord_space_append spaces]
            at bounded
      · intro parts
        obtain ⟨front, after, split, stands, bounded⟩ := parts
        refine ⟨space ++ front, after, by rw [split]; simp, by rwa [apart], ?_⟩
        rwa [List.append_assoc, Text.endsInWord_space_append spaces]

theorem mentions_append_space (visible : id.getLast?.any (!Text.isSpace ·))
    (spaces : ∀ character ∈ space, Text.isSpace character) :
    mentions id (line ++ space) ↔ mentions id line := by
  have starts : ∀ rest,
      Text.startsWithWord (rest ++ space) = Text.startsWithWord rest := by
    intro rest
    cases rest with
    | nil => exact Text.startsWithWord_of_spaces spaces
    | cons first rest => rfl
  rcases List.eq_nil_or_concat id with rfl | ⟨rest, last, rfl⟩
  · cases visible
  · rw [mentions_iff_cut, mentions_iff_cut]
    constructor
    · intro parts
      obtain ⟨before, after, split, stands, bounded⟩ := parts
      rw [List.concat_eq_append, ← List.append_assoc,
        List.append_assoc (before ++ rest), List.singleton_append] at split
      rcases Text.append_eq_append_cons_cases split with
        ⟨more, lineEq, rfl⟩ | ⟨front, _, spaceEq⟩
      · refine ⟨before, more, by rw [lineEq]; simp, stands, ?_⟩
        rwa [starts] at bounded
      · have isSpace := spaces last (by simp [spaceEq])
        simp [isSpace] at visible
    · intro parts
      obtain ⟨before, after, split, stands, bounded⟩ := parts
      refine ⟨before, after ++ space, by rw [split]; simp, stands, ?_⟩
      rwa [starts]

theorem mentions_trim_iff (visible : Text.isBlank id = false)
    (trimmed : Text.trim id = id) :
    mentions id (Text.trim line) ↔ mentions id line := by
  obtain ⟨starts, ends⟩ := Text.trim_eq_self_iff.mp trimmed
  have nonempty : id ≠ [] := by
    intro empty
    rw [empty] at visible
    cases visible
  have head : id.head?.any (!Text.isSpace ·) := by
    rw [List.head?_eq_some_head nonempty] at starts ⊢
    exact starts
  have last : id.getLast?.any (!Text.isSpace ·) := by
    rw [List.getLast?_eq_some_getLast nonempty] at ends ⊢
    exact ends
  obtain ⟨right, endSplit, rightSpaces⟩ :=
    Text.exists_trimEnd_append (Text.trimStart line)
  obtain ⟨left, startSplit, leftSpaces⟩ := Text.exists_append_trimStart line
  conv => rhs; rw [startSplit, endSplit]
  rw [mentions_space_append head leftSpaces,
    mentions_append_space last rightSpaces]
  rfl

end Trimmed

/-- A line mentions an identifier exactly if it is one of the words of the
line. -/
theorem mentions_iff_mem_wordRuns {id line : Text}
    (identifies : isIdentifier id) :
    mentions id line ↔ id ∈ Text.wordRuns line := by
  rw [mentions, Pattern.occursIn_iff_cut, Text.mem_wordRuns_iff]
  simp only [Option.isSome_iff_exists, Prod.exists,
    Pattern.wholeWord_cut_iff identifies]
  constructor
  · intro parts
    obtain ⟨before, after, split, _, stop, ends, rest, afterEq, starts, _⟩ :=
      parts
    refine ⟨ne_nil_of_isIdentifier identifies, ?_, before, rest, ?_, ends,
      starts⟩
    · intro character member
      exact isWordCharacter_of_mem_identifier identifies member
    · rw [split, afterEq, List.append_assoc]
  · intro parts
    obtain ⟨_, _, before, rest, split, ends, starts⟩ := parts
    exact ⟨before, id ++ rest, by rw [split, List.append_assoc], (), _, ends,
      rest, rfl, starts, rfl⟩

theorem filter_mentions_closingLine {id : Text} (identifies : isIdentifier id)
    (broken : Bool) :
    (Text.closingLine broken).filter (!mentions id ·) =
      Text.closingLine broken := by
  rw [List.filter_eq_self]
  intro line member
  rw [Text.eq_nil_of_mem_closingLine member, Bool.not_eq_true',
    ← Bool.not_eq_true, mentions_iff_mem_wordRuns identifies]
  exact List.not_mem_nil

theorem references_iff {text id : Text} (identifies : isIdentifier id) :
    references text id ↔
      ∃ line ∈ (Text.lines text).tail, id ∈ Text.wordRuns line := by
  have nonempty : id.isEmpty = false := by
    simpa using ne_nil_of_isIdentifier identifies
  simp only [references, nonempty, Bool.not_false, Bool.true_and,
    List.any_eq_true, mentions_iff_mem_wordRuns identifies]

/-- An identifier is referred to where it stands as a word behind some line
feed. -/
theorem references_iff_cut {text id : Text} (identifies : isIdentifier id) :
    references text id ↔
      ∃ before after, text = before ++ id ++ after ∧ '\n' ∈ before ∧
        Text.endsInWord before = false ∧ Text.startsWithWord after = false := by
  have within : ∀ character ∈ id, Text.isWordCharacter character := by
    intro character member
    exact isWordCharacter_of_mem_identifier identifies member
  have noLineFeed := not_lineFeed_mem_identifier identifies
  rw [references_iff identifies]
  obtain ⟨header, rest, cut⟩ :=
    List.exists_cons_of_ne_nil (Text.lines_ne_nil text)
  have whole := Text.joinLines_lines text
  rw [cut] at whole ⊢
  constructor
  · intro parts
    obtain ⟨line, below, member⟩ := parts
    obtain ⟨_, _, left, right, lineEq, ends, starts⟩ :=
      Text.mem_wordRuns_iff.mp member
    obtain ⟨earlier, later, restEq⟩ :=
      List.append_of_mem (show line ∈ rest from below)
    rw [Text.joinLines_cons, restEq, lineEq] at whole
    refine ⟨header ++ earlier.flatMap ('\n' :: ·) ++ '\n' :: left,
      right ++ later.flatMap ('\n' :: ·), by simp [← whole], by simp, ?_, ?_⟩
    · rw [Text.endsInWord_append_cons Text.isWordCharacter_lineFeed]
      exact ends
    · exact Text.startsWithWord_append starts
        (Text.startsWithWord_flatMap later)
  · intro parts
    obtain ⟨before, after, split, below, ends, starts⟩ := parts
    obtain ⟨earlier, line, later, left, right, linesEq, lineEq, beforeEq,
      afterEq⟩ :=
      Text.joinLines_eq_append_word (ne_nil_of_isIdentifier identifies)
        noLineFeed (whole.trans split)
    cases earlier with
    | nil =>
        have onLine : line ∈ Text.lines text := by
          rw [cut, linesEq]
          simp
        have noBreak := Text.not_mem_of_mem_lines onLine
        have onFirst : '\n' ∈ line := by
          rw [lineEq]
          simp [← show before = left by simpa using beforeEq, below]
        exact absurd onFirst noBreak
    | cons first earlier =>
        refine ⟨line, ?_,
          Text.mem_wordRuns_iff.mpr ⟨ne_nil_of_isIdentifier identifies, within,
            left, right, lineEq, ?_, ?_⟩⟩
        · obtain ⟨_, restEq⟩ := List.cons.inj linesEq
          change line ∈ rest
          rw [restEq]
          simp
        · rw [beforeEq] at ends
          exact Text.endsInWord_right ends
        · rw [afterEq] at starts
          exact Text.startsWithWord_left starts

theorem isIdentifier_numberedId (number : Nat) :
    isIdentifier (numberedId number) := by
  have digits : (Nat.toDigits 10 number).all Text.isAsciiWord := by
    rw [List.all_eq_true]
    intro digit member
    exact Text.isAsciiWord_of_mem_toDigits member
  simp only [isIdentifier, numberedId, List.head?_cons, Option.any_some,
    List.all_cons, digits]
  decide

theorem numberedId_injective : Function.Injective numberedId := by
  intro left right equality
  exact Text.toDigits_injective (List.cons.inj equality).2

end DiagramEdit
