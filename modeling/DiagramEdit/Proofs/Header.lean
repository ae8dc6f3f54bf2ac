import DiagramEdit.Header
import DiagramEdit.Proofs.Text.Characters
import DiagramEdit.Proofs.Text.Pattern
import DiagramEdit.Proofs.Text.Trim

/-!
# What a text opens with

The dialect of a text is decided by its opening: a margin of white space, and
behind it a keyword in any letter case.  Two texts that share an opening are of
the same dialect, so an edit that leaves the opening alone leaves the dialect.
-/

namespace DiagramEdit

namespace Text

/-- A character with a small letter of ASCII is a word character. -/
theorem isWordCharacter_of_isLower_lowerCharacter {character : Char}
    (small : (lowerCharacter character).isLower) :
    isWordCharacter character := by
  by_cases kelvin : character.toNat = 0x212a
  · rw [← Char.ofNat_toNat character, kelvin]
    decide +kernel
  · apply isWordCharacter_of_isAsciiWord
    have letter : character.isUpper || character.isLower := by
      by_cases capital : character.isUpper
      · simp [capital]
      · have same : character.toLower = character :=
          dif_neg fun bounds => capital (decide_eq_true bounds)
        have isLower : character.isLower := by
          simpa [lowerCharacter, kelvin, same] using small
        simp [isLower]
    change character.isAlpha at letter
    simp [isAsciiWord, Char.isAlphanum, letter]

theorem isPrefix_append_cases {opening left right : Text}
    (begins : opening <+: left ++ right) :
    opening <+: left ∨ ∃ more, opening = left ++ more ∧ more <+: right := by
  rcases List.prefix_or_prefix_of_prefix begins
    (List.prefix_append left right) with
    inside | beyond
  · exact Or.inl inside
  · obtain ⟨more, rfl⟩ := beyond
    exact Or.inr ⟨more, rfl, (List.prefix_append_right_inj left).mp begins⟩

theorem isPrefix_append_cons_iff {opening before rest : Text} {character : Char}
    (absent : character ∉ opening) :
    opening <+: before ++ character :: rest ↔ opening <+: before := by
  constructor
  · intro begins
    rcases isPrefix_append_cases begins with inside | ⟨more, rfl, isPrefix⟩
    · exact inside
    · cases more with
      | nil => simp
      | cons first more =>
          obtain ⟨rfl, _⟩ := List.cons_prefix_cons.mp isPrefix
          exact absurd (by simp) absent
  · intro begins
    exact begins.trans (List.prefix_append _ _)

theorem isPrefix_takeWhile {property : Char → Bool} {opening text : Text}
    (all : ∀ character ∈ opening, property character)
    (begins : opening <+: text) :
    opening <+: text.takeWhile property := by
  obtain ⟨rest, rfl⟩ := begins
  rw [List.takeWhile_append_of_pos all]
  exact List.prefix_append _ _

theorem trimEnd_isPrefix (text : Text) : trimEnd text <+: text := by
  obtain ⟨space, split, _⟩ := exists_trimEnd_append text
  exact ⟨space, split.symm⟩

theorem isPrefix_trimEnd {opening text : Text}
    (visible : opening.getLast?.all (!isSpace ·)) (begins : opening <+: text) :
    opening <+: trimEnd text := by
  obtain ⟨space, split, spaces⟩ := exists_trimEnd_append text
  rw [split] at begins
  rcases isPrefix_append_cases begins with inside | ⟨more, whole, inSpace⟩
  · exact inside
  · rcases List.eq_nil_or_concat more with rfl | ⟨front, last, rfl⟩
    · simp [whole]
    · have blank := spaces last (inSpace.subset (by simp))
      rw [whole, List.concat_eq_append, ← List.append_assoc,
        List.getLast?_concat] at visible
      simp [blank] at visible

end Text

theorem isLower_of_mem_headerKeywords {keyword : Text} {dialect : Dialect}
    (entry : (keyword, dialect) ∈ headerKeywords) :
    keyword ≠ [] ∧ ∀ character ∈ keyword, character.isLower := by
  have table :
      ∀ entry ∈ headerKeywords, entry.1 ≠ [] ∧ entry.1.all Char.isLower := by
    decide
  obtain ⟨nonempty, small⟩ := table _ entry
  exact ⟨nonempty, List.all_eq_true.mp small⟩

/-- No keyword begins another one, so a header has at most one of them. -/
theorem eq_of_isPrefix_of_mem_headerKeywords {entry other : Text × Dialect}
    (listed : entry ∈ headerKeywords) (otherListed : other ∈ headerKeywords)
    (begins : entry.1 <+: other.1) : entry = other := by
  have table : ∀ entry ∈ headerKeywords, ∀ other ∈ headerKeywords,
      entry.1 <+: other.1 → entry = other := by decide
  exact table entry listed other otherListed begins

section HeaderLine

variable {text : Text} {dialect : Dialect}

theorem headerLine_isPrefix (text : Text) :
    headerLine text <+: Text.trimStart text := by
  have starts :
      ((Text.trim text).takeWhile (· != '\n')).head?.all (!Text.isSpace ·) := by
    have visible := Text.head?_trimEnd (Text.head?_trimStart text)
    rw [Text.trim]
    cases first : Text.trimEnd (Text.trimStart text) with
    | nil => rfl
    | cons character rest =>
        rw [first] at visible
        by_cases lineFeed : character = '\n'
        · simp [lineFeed]
        · simpa [lineFeed] using visible
  rw [headerLine, Text.trim, Text.trimStart_eq_self starts]
  exact ((Text.trimEnd_isPrefix _).trans (List.takeWhile_prefix _)).trans
    (Text.trimEnd_isPrefix _)

/-- A visible word behind white space at the beginning of a text begins its
header. -/
theorem isPrefix_headerLine {margin word : Text} (nonempty : word ≠ [])
    (visible : ∀ character ∈ word, Text.isSpace character = false)
    (spaces : ∀ character ∈ margin, Text.isSpace character)
    (begins : margin ++ word <+: text) :
    word <+: headerLine text := by
  obtain ⟨initial, more, wordEq⟩ := List.exists_cons_of_ne_nil nonempty
  have ends : word.getLast?.all (!Text.isSpace ·) := by
    rw [List.getLast?_eq_some_getLast nonempty]
    simpa using visible _ (List.getLast_mem nonempty)
  have starts :
      ∀ {body : Text}, word <+: body → Text.trimStart body = body := by
    intro body inBody
    obtain ⟨rest, rfl⟩ := inBody
    apply Text.trimStart_eq_self
    simpa [wordEq] using visible initial (by simp [wordEq])
  have oneLine : ∀ character ∈ word, (character != '\n') = true := by
    apply Pattern.bne_of_not_mem
    intro member
    cases visible '\n' member
  have trimmed : word <+: Text.trim text := by
    obtain ⟨rest, rfl⟩ := begins
    rw [Text.trim, List.append_assoc, Text.trimStart_append_of_isSpace spaces,
      starts (List.prefix_append _ _)]
    exact Text.isPrefix_trimEnd ends (List.prefix_append _ _)
  have onLine := Text.isPrefix_takeWhile oneLine trimmed
  rw [headerLine, Text.trim, starts onLine]
  exact Text.isPrefix_trimEnd ends onLine

theorem declaredDialect?_eq_some_iff_headerLine :
    declaredDialect? text = some dialect ↔
      ∃ keyword, (keyword, dialect) ∈ headerKeywords ∧
        keyword <+: Text.lower (headerLine text) := by
  simp only [declaredDialect?, Option.map_eq_some_iff, Prod.exists]
  constructor
  · intro parts
    obtain ⟨keyword, _, found, rfl⟩ := parts
    have begins := List.find?_some found
    exact ⟨keyword, List.mem_of_find?_eq_some found,
      List.isPrefixOf_iff_prefix.mp begins⟩
  · intro parts
    obtain ⟨keyword, listed, begins⟩ := parts
    cases searched : headerKeywords.find?
        fun entry => entry.1.isPrefixOf (Text.lower (headerLine text)) with
    | none =>
        have fails := List.find?_eq_none.mp searched _ listed
        exact absurd (List.isPrefixOf_iff_prefix.mpr begins) fails
    | some entry =>
        have otherListed := List.mem_of_find?_eq_some searched
        have accepted := List.find?_some searched
        have otherBegins := List.isPrefixOf_iff_prefix.mp accepted
        have same : (keyword, dialect) = entry := by
          rcases List.prefix_or_prefix_of_prefix begins otherBegins with
            shorter | longer
          · exact eq_of_isPrefix_of_mem_headerKeywords listed otherListed
              shorter
          · exact (eq_of_isPrefix_of_mem_headerKeywords otherListed listed
              longer).symm
        exact ⟨keyword, dialect, by rw [same], rfl⟩

end HeaderLine

/-- The beginning of a text that names its dialect: white space, and then a
keyword in any letter case. -/
def IsOpening (dialect : Dialect) (opening : Text) : Prop :=
  ∃ margin word, opening = margin ++ word ∧
    (∀ character ∈ margin, Text.isSpace character) ∧
    (Text.lower word, dialect) ∈ headerKeywords

section KeywordWord

variable {word : Text} {dialect : Dialect}

theorem isWordCharacter_of_mem_keyword
    (entry : (Text.lower word, dialect) ∈ headerKeywords) {character : Char}
    (member : character ∈ word) :
    Text.isWordCharacter character := by
  apply Text.isWordCharacter_of_isLower_lowerCharacter
  exact (isLower_of_mem_headerKeywords entry).2 _ (List.mem_map_of_mem member)

theorem ne_nil_of_keyword
    (entry : (Text.lower word, dialect) ∈ headerKeywords) :
    word ≠ [] := by
  intro empty
  exact (isLower_of_mem_headerKeywords entry).1 (by rw [empty]; rfl)

theorem head?_keyword_append
    (entry : (Text.lower word, dialect) ∈ headerKeywords) (rest : Text) :
    (word ++ rest).head?.all (!Text.isSpace ·) := by
  obtain ⟨initial, more, rfl⟩ :=
    List.exists_cons_of_ne_nil (ne_nil_of_keyword entry)
  have isWord : Text.isWordCharacter initial :=
    isWordCharacter_of_mem_keyword entry (by simp)
  simp [Text.not_isSpace_of_isWordCharacter isWord]

end KeywordWord

namespace IsOpening

variable {dialect : Dialect} {opening : Text}

theorem isSpace_or_isWordCharacter (opens : IsOpening dialect opening)
    {character : Char} (member : character ∈ opening) :
    Text.isSpace character ∨ Text.isWordCharacter character := by
  obtain ⟨margin, word, rfl, spaces, entry⟩ := opens
  rcases List.mem_append.mp member with inMargin | inWord
  · exact Or.inl (spaces character inMargin)
  · exact Or.inr (isWordCharacter_of_mem_keyword entry inWord)

theorem not_mem_of_separates (opens : IsOpening dialect opening)
    {character : Char} (visible : Text.isSpace character = false)
    (separates : Text.isWordCharacter character = false) :
    character ∉ opening := by
  intro member
  rcases opens.isSpace_or_isWordCharacter member with space | word
  · rw [visible] at space
    cases space
  · rw [separates] at word
    cases word

theorem exists_eq_concat (opens : IsOpening dialect opening) :
    ∃ front last, opening = front ++ [last] ∧ Text.isWordCharacter last := by
  obtain ⟨margin, word, rfl, _, entry⟩ := opens
  rcases List.eq_nil_or_concat word with empty | ⟨front, last, rfl⟩
  · exact absurd empty (ne_nil_of_keyword entry)
  · exact ⟨margin ++ front, last, by simp,
      isWordCharacter_of_mem_keyword entry (by simp)⟩

theorem getLast?_visible (opens : IsOpening dialect opening) :
    opening.getLast?.all (!Text.isSpace ·) := by
  obtain ⟨front, last, rfl, word⟩ := opens.exists_eq_concat
  simp [Text.not_isSpace_of_isWordCharacter word]

theorem isBlank_eq_false (opens : IsOpening dialect opening) :
    Text.isBlank opening = false := by
  obtain ⟨front, last, rfl, word⟩ := opens.exists_eq_concat
  simp [Text.isBlank, Text.not_isSpace_of_isWordCharacter word]

/-- A text has one opening at most. -/
theorem eq_of_isPrefix {other text : Text} (opens : IsOpening dialect opening)
    (otherOpens : IsOpening dialect other) (begins : opening <+: text)
    (otherBegins : other <+: text) : opening = other := by
  obtain ⟨margin, word, rfl, spaces, entry⟩ := opens
  obtain ⟨otherMargin, otherWord, rfl, otherSpaces, otherEntry⟩ := otherOpens
  obtain ⟨rest, split⟩ := begins
  obtain ⟨otherRest, otherSplit⟩ := otherBegins
  have whole :
      margin ++ (word ++ rest) = otherMargin ++ (otherWord ++ otherRest) := by
    rw [← List.append_assoc, ← List.append_assoc, split, otherSplit]
  obtain ⟨rfl, words⟩ :=
    Pattern.eq_of_append_eq_append_of_stops whole spaces otherSpaces
      (head?_keyword_append entry rest)
      (head?_keyword_append otherEntry otherRest)
  have within : otherWord <+: word ++ rest := by
    rw [words]
    exact List.prefix_append _ _
  have sameLower : Text.lower word = Text.lower otherWord := by
    rcases List.prefix_or_prefix_of_prefix (List.prefix_append word rest)
      within with
      shorter | longer
    · exact congrArg Prod.fst
        (eq_of_isPrefix_of_mem_headerKeywords entry otherEntry (shorter.map _))
    · exact (congrArg Prod.fst (eq_of_isPrefix_of_mem_headerKeywords otherEntry
        entry (longer.map _))).symm
  have sameLength : word.length = otherWord.length := by
    simpa [Text.lower] using congrArg List.length sameLower
  rw [List.append_inj_left words sameLength]

end IsOpening

/-- A text is of the dialect that its opening names. -/
theorem declaredDialect?_eq_some_iff {text : Text} {dialect : Dialect} :
    declaredDialect? text = some dialect ↔
      ∃ opening, IsOpening dialect opening ∧ opening <+: text := by
  rw [declaredDialect?_eq_some_iff_headerLine]
  constructor
  · intro parts
    obtain ⟨keyword, listed, begins⟩ := parts
    have lowered :
        Text.lower ((headerLine text).take keyword.length) = keyword := by
      rw [Text.lower, List.map_take]
      exact (List.prefix_iff_eq_take.mp begins).symm
    refine ⟨text.takeWhile Text.isSpace ++
        (headerLine text).take keyword.length,
      ⟨_, _, rfl, fun _ member => List.mem_takeWhile_imp member,
        by rwa [lowered]⟩, ?_⟩
    have inBody :=
      (List.take_prefix keyword.length _).trans (headerLine_isPrefix text)
    conv => rhs; rw
      [← List.takeWhile_append_dropWhile (p := Text.isSpace) (l := text)]
    exact (List.prefix_append_right_inj _).mpr inBody
  · intro parts
    obtain ⟨_, ⟨margin, word, rfl, spaces, entry⟩, begins⟩ := parts
    refine ⟨Text.lower word, entry, ?_⟩
    have visible : ∀ character ∈ word, Text.isSpace character = false :=
      fun _ member =>
        Text.not_isSpace_of_isWordCharacter
          (isWordCharacter_of_mem_keyword entry member)
    exact (isPrefix_headerLine (ne_nil_of_keyword entry) visible spaces
        begins).map _

theorem isFlowchart_iff {text : Text} :
    isFlowchart text ↔
      ∃ opening, IsOpening .flowchart opening ∧ opening <+: text := by
  rw [isFlowchart, beq_iff_eq, declaredDialect?_eq_some_iff]

theorem detect_eq_of_isPrefix {text opening : Text} {dialect : Dialect}
    (opens : IsOpening dialect opening) (begins : opening <+: text) :
    detect text = dialect := by
  rw [detect, declaredDialect?_eq_some_iff.mpr ⟨opening, opens, begins⟩,
    Option.getD_some]

/-- A text is read as a flowchart, or it opens with a keyword. -/
theorem exists_opening_of_detect_ne {text : Text}
    (declared : detect text ≠ .flowchart) :
    ∃ opening, IsOpening (detect text) opening ∧ opening <+: text := by
  cases named : declaredDialect? text with
  | none => exact absurd (by rw [detect, named]; rfl) declared
  | some dialect =>
      rw [detect, named, Option.getD_some]
      exact declaredDialect?_eq_some_iff.mp named

end DiagramEdit
