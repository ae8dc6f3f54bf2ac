import DiagramEdit.Proofs.Mention

/-!
# Whole words

An identifier stands in a line as a whole word where neither neighbour continues
it.  The search asks for a boundary where an end of the identifier is a name
character, and word characters decide what a boundary is.  It finds the whole
words, and nothing else, exactly for the identifiers at whose ends the two
classes agree: a name that ends in a superscript digit is never found on its
own, and a combining mark is found in any word.
-/

namespace DiagramEdit

/-- The identifier stands in the line where it is not continued by a word
character: not in front if it begins with one, and not behind if it ends in
one. -/
def StandsAsWord (id line : Text) : Prop :=
  ∃ before after, line = before ++ id ++ after ∧
    ¬(Text.endsInWord before ∧ Text.startsWithWord id) ∧
    ¬(Text.startsWithWord after ∧ Text.endsInWord id)

/-- Each end of the identifier is a name character exactly if it is a word
character. -/
structure HasPlainEnds (id : Text) : Prop where
  first : id.head?.any Text.isNameCharacter = Text.startsWithWord id
  last : id.getLast?.any Text.isNameCharacter = Text.endsInWord id

theorem isNameCharacter_eq_of_ascii {character : Char}
    (ascii : character.toNat < 0x80) :
    Text.isNameCharacter character = Text.isWordCharacter character := by
  rw [Text.isNameCharacter, Text.isWordCharacter, if_pos ascii, if_pos ascii]

section Ends

variable {id : Text}

theorem hasPlainEnds_of_ascii (first : id.head?.all (·.toNat < 0x80))
    (last : id.getLast?.all (·.toNat < 0x80)) : HasPlainEnds id := by
  have agree : ∀ {reading : Option Char}, reading.all (·.toNat < 0x80) →
      reading.any Text.isNameCharacter = reading.any Text.isWordCharacter := by
    intro reading ascii
    cases reading with
    | none => rfl
    | some character => exact isNameCharacter_eq_of_ascii (by simpa using ascii)
  exact ⟨agree first, agree last⟩

theorem hasPlainEnds_of_isIdentifier (identifies : isIdentifier id) :
    HasPlainEnds id := by
  have ascii :
      ∀ {reading : Option Char}, (∀ character ∈ reading, character ∈ id) →
        reading.all (·.toNat < 0x80) := by
    intro reading inside
    cases reading with
    | none => rfl
    | some character =>
        have word :=
          isAsciiWord_of_mem_identifier identifies (inside character rfl)
        simpa using Text.toNat_lt_of_isAsciiWord word
  apply hasPlainEnds_of_ascii
  · exact ascii fun _ first => List.mem_of_mem_head? first
  · exact ascii fun _ last => List.mem_of_mem_getLast? last

theorem standsApart_of_unnamed {before : Text}
    (unnamed : id.head?.any Text.isNameCharacter = false) :
    standsApart before id := by
  cases id with
  | nil => rfl
  | cons initial rest =>
      have other : Text.isNameCharacter initial = false := by
        simpa using unnamed
      simp [standsApart, other]

theorem standsApart_iff_of_named {before : Text}
    (named : id.head?.any Text.isNameCharacter) :
    standsApart before id ↔
      Text.endsInWord before ≠ Text.startsWithWord id := by
  cases id with
  | nil => cases named
  | cons initial rest =>
      have name : Text.isNameCharacter initial := by simpa using named
      simp [standsApart, name, Text.startsWithWord]

theorem standsApart_nil_iff :
    standsApart [] id ↔
      (id.head?.any Text.isNameCharacter → Text.startsWithWord id) := by
  cases named : id.head?.any Text.isNameCharacter with
  | false => simp [standsApart_of_unnamed named]
  | true =>
      rw [standsApart_iff_of_named named]
      simp [Text.endsInWord]

theorem ne_nil_of_named (named : id.getLast?.any Text.isNameCharacter) :
    id ≠ [] := by
  intro empty
  rw [empty] at named
  cases named

/-- Where the classes agree in front, a boundary there says that no word is
continued. -/
theorem HasPlainEnds.standsApart_iff (plain : HasPlainEnds id) (before : Text) :
    standsApart before id ↔
      ¬(Text.endsInWord before ∧ Text.startsWithWord id) := by
  cases named : id.head?.any Text.isNameCharacter with
  | false =>
      have starts : Text.startsWithWord id = false :=
        plain.first.symm.trans named
      simp [standsApart_of_unnamed named, starts]
  | true =>
      have starts : Text.startsWithWord id = true :=
        plain.first.symm.trans named
      simp [standsApart_iff_of_named named, starts]

/-- And where they agree at the end, so does a boundary behind it. -/
theorem HasPlainEnds.bounded_iff (plain : HasPlainEnds id)
    (before after : Text) :
    (id.getLast?.any Text.isNameCharacter →
        Text.endsInWord (before ++ id) ≠ Text.startsWithWord after) ↔
      ¬(Text.startsWithWord after ∧ Text.endsInWord id) := by
  cases named : id.getLast?.any Text.isNameCharacter with
  | false =>
      have ends : Text.endsInWord id = false := plain.last.symm.trans named
      simp [ends]
  | true =>
      have ends : Text.endsInWord id = true := plain.last.symm.trans named
      rw [Text.endsInWord_append _ (ne_nil_of_named named), ends]
      cases Text.startsWithWord after <;> simp

theorem HasPlainEnds.mentions_iff (plain : HasPlainEnds id) (line : Text) :
    mentions id line ↔ StandsAsWord id line := by
  simp only [mentions_iff_cut, plain.standsApart_iff, plain.bounded_iff,
    StandsAsWord]

theorem eq_nil_of_eq_append {before after : Text}
    (split : id = before ++ id ++ after) :
    before = [] ∧ after = [] := by
  have lengths := congrArg List.length split
  rw [List.length_append, List.length_append] at lengths
  exact ⟨List.eq_nil_of_length_eq_zero (by omega),
    List.eq_nil_of_length_eq_zero (by omega)⟩

theorem standsAsWord_self : StandsAsWord id id :=
  ⟨[], [], by simp, by simp [Text.endsInWord], by simp [Text.startsWithWord]⟩

theorem mentions_self_iff :
    mentions id id ↔
      (id.head?.any Text.isNameCharacter → Text.startsWithWord id) ∧
        (id.getLast?.any Text.isNameCharacter → Text.endsInWord id) := by
  rw [mentions_iff_cut]
  constructor
  · intro parts
    obtain ⟨before, after, split, apart, bounded⟩ := parts
    obtain ⟨rfl, rfl⟩ := eq_nil_of_eq_append split
    refine ⟨standsApart_nil_iff.mp apart, ?_⟩
    intro named
    simpa [Text.startsWithWord] using bounded named
  · intro ends
    refine ⟨[], [], by simp, standsApart_nil_iff.mpr ends.1, ?_⟩
    intro named
    simp [ends.2 named, Text.startsWithWord]

/-- Behind a letter the identifier is still found if its first character is a
word character and no name character, although it continues the letter. -/
theorem mentions_and_not_standsAsWord_of_first
    (unnamed : id.head?.any Text.isNameCharacter = false)
    (starts : Text.startsWithWord id)
    (ends : id.getLast?.any Text.isNameCharacter → Text.endsInWord id) :
    mentions id ('a' :: id) ∧ ¬StandsAsWord id ('a' :: id) := by
  have letter : Text.endsInWord ['a'] := by decide
  constructor
  · rw [mentions_iff_cut]
    refine ⟨['a'], [], by simp, standsApart_of_unnamed unnamed, ?_⟩
    intro named
    rw [Text.endsInWord_append _ (ne_nil_of_named named), ends named]
    simp [Text.startsWithWord]
  · intro stands
    obtain ⟨before, after, split, front, _⟩ := stands
    cases before with
    | nil =>
        -- Then the identifier begins with the letter, which is a name
        -- character.
        cases id with
        | nil => cases starts
        | cons initial rest =>
            obtain ⟨rfl, _⟩ := List.cons.inj split
            cases unnamed
    | cons first before =>
        obtain ⟨rfl, tailEq⟩ := List.cons.inj split
        obtain ⟨rfl, _⟩ := eq_nil_of_eq_append tailEq
        exact front ⟨letter, starts⟩

/-- In front of a letter the same holds for the last character. -/
theorem mentions_and_not_standsAsWord_of_last
    (unnamed : id.getLast?.any Text.isNameCharacter = false)
    (ends : Text.endsInWord id)
    (starts : id.head?.any Text.isNameCharacter → Text.startsWithWord id) :
    mentions id (id ++ ['a']) ∧ ¬StandsAsWord id (id ++ ['a']) := by
  have letter : Text.startsWithWord ['a'] := by decide
  constructor
  · rw [mentions_iff_cut]
    exact ⟨[], ['a'], by simp, standsApart_nil_iff.mpr starts,
      by simp [unnamed]⟩
  · intro stands
    obtain ⟨before, after, split, _, behind⟩ := stands
    rcases List.eq_nil_or_concat after with rfl | ⟨after, last, rfl⟩
    · -- Then the identifier ends in the letter, which is a name character.
      rcases List.eq_nil_or_concat id with rfl | ⟨front, final, rfl⟩
      · cases ends
      · rw [List.concat_eq_append, List.append_nil, ← List.append_assoc before]
          at split
        obtain ⟨_, same⟩ := List.append_inj' split rfl
        obtain rfl : 'a' = final := List.singleton_inj.mp same
        simp only [List.concat_eq_append, List.getLast?_concat] at unnamed
        cases unnamed
    · rw [List.concat_eq_append, ← List.append_assoc] at split
      obtain ⟨frontEq, same⟩ := List.append_inj' split rfl
      obtain rfl : 'a' = last := List.singleton_inj.mp same
      obtain ⟨_, rfl⟩ := eq_nil_of_eq_append frontEq
      exact behind ⟨letter, ends⟩

end Ends

/-- The lines that mention an identifier are those in which it stands as a whole
word, exactly if its ends are plain.  An identifier with a line feed stands in
no line. -/
theorem mentions_iff_standsAsWord_iff (id : Text) :
    (∀ line, '\n' ∉ line → (mentions id line ↔ StandsAsWord id line)) ↔
      '\n' ∈ id ∨ HasPlainEnds id := by
  constructor
  · intro law
    by_cases broken : '\n' ∈ id
    · exact Or.inl broken
    right
    -- The lines that tell the two apart are the identifier alone and with a
    -- letter beside it.
    obtain ⟨named_first, named_last⟩ :=
      mentions_self_iff.mp ((law id broken).mpr standsAsWord_self)
    constructor
    · cases named : id.head?.any Text.isNameCharacter with
      | true => exact (named_first named).symm
      | false =>
          by_contra differs
          have starts : Text.startsWithWord id := by simpa using differs
          obtain ⟨mentioned, continued⟩ :=
            mentions_and_not_standsAsWord_of_first named starts named_last
          exact continued ((law _ (by simp [broken])).mp mentioned)
    · cases named : id.getLast?.any Text.isNameCharacter with
      | true => exact (named_last named).symm
      | false =>
          by_contra differs
          have ends : Text.endsInWord id := by simpa using differs
          obtain ⟨mentioned, continued⟩ :=
            mentions_and_not_standsAsWord_of_last named ends named_first
          exact continued ((law _ (by simp [broken])).mp mentioned)
  · intro cases_of_id line oneLine
    rcases cases_of_id with broken | plain
    · have absent : ∀ before after, line ≠ before ++ id ++ after := by
        intro before after split
        exact oneLine (by simp [split, broken])
      constructor
      · intro mentioned
        obtain ⟨before, after, split, _⟩ := mentions_iff_cut.mp mentioned
        exact absurd split (absent before after)
      · intro stands
        obtain ⟨before, after, split, _⟩ := stands
        exact absurd split (absent before after)
    · exact plain.mentions_iff line

/-- A superscript digit at its end keeps an identifier from being found between
spaces. -/
theorem not_mentions_iff_standsAsWord :
    ¬∀ id line, id ≠ [] → '\n' ∉ line →
      (mentions id line ↔ StandsAsWord id line) := by
  intro law
  have stands : StandsAsWord "A²".toList "    A² --> B".toList :=
    ⟨"    ".toList, " --> B".toList, by decide, by decide, by decide⟩
  have mentioned := (law _ _ (by decide) (by decide)).mpr stands
  have absent : mentions "A²".toList "    A² --> B".toList = false := by
    decide +kernel
  rw [absent] at mentioned
  cases mentioned

end DiagramEdit
