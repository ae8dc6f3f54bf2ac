import DiagramEdit.Text.Word

/-!
# Classes of characters

No white space is a word character, and every ASCII letter, digit and underscore
is one.  Numbers are told apart by their digits.
-/

namespace DiagramEdit

namespace Text

/-- The code points of white space. -/
def spaceCodes : List Nat :=
  List.range' 0x09 5 ++ List.range' 0x2000 11 ++
    [0x20, 0x85, 0xa0, 0x1680, 0x2028, 0x2029, 0x202f, 0x205f, 0x3000]

theorem mem_spaceCodes_of_isSpace {character : Char}
    (space : isSpace character) :
    character.toNat ∈ spaceCodes := by
  simp only [isSpace, Bool.or_eq_true, Bool.and_eq_true, decide_eq_true_eq,
    beq_iff_eq] at space
  simp only [spaceCodes, List.mem_append, List.mem_range'_1, List.mem_cons,
    List.not_mem_nil, or_false]
  grind

theorem not_isWordCharacter_of_isSpace {character : Char}
    (space : isSpace character) :
    isWordCharacter character = false := by
  have table :
      ∀ code ∈ spaceCodes, isWordCharacter (Char.ofNat code) = false := by
    decide +kernel
  have listed := table _ (mem_spaceCodes_of_isSpace space)
  rwa [Char.ofNat_toNat] at listed

theorem not_isSpace_of_isWordCharacter {character : Char}
    (word : isWordCharacter character) :
    isSpace character = false := by
  cases space : isSpace character with
  | false => rfl
  | true =>
      have impossible := not_isWordCharacter_of_isSpace space
      rw [word] at impossible
      cases impossible

theorem toNat_lt_of_isAsciiWord {character : Char}
    (word : isAsciiWord character) :
    character.toNat < 0x80 := by
  have ranges : ((decide (character.val ≥ 65 ∧ character.val ≤ 90) ||
      character.val ≥ 97 && character.val ≤ 122) ||
      character.val ≥ 48 && character.val ≤ 57) || character == '_' := word
  simp only [Bool.or_eq_true, Bool.and_eq_true, decide_eq_true_eq, beq_iff_eq,
    UInt32.le_iff_toNat_le, ge_iff_le] at ranges
  change character.val.toNat < 128
  rcases ranges with ((⟨_, upper⟩ | ⟨_, upper⟩) | ⟨_, upper⟩) | rfl
  · exact Nat.lt_of_le_of_lt upper (by decide)
  · exact Nat.lt_of_le_of_lt upper (by decide)
  · exact Nat.lt_of_le_of_lt upper (by decide)
  · decide

theorem isWordCharacter_of_isAsciiWord {character : Char}
    (word : isAsciiWord character) :
    isWordCharacter character := by
  rw [isWordCharacter, if_pos (toNat_lt_of_isAsciiWord word)]
  exact word

theorem isNameCharacter_of_isAsciiWord {character : Char}
    (word : isAsciiWord character) :
    isNameCharacter character := by
  rw [isNameCharacter, if_pos (toNat_lt_of_isAsciiWord word)]
  exact word

theorem toDigits_injective : Function.Injective (Nat.toDigits 10) := by
  intro left right equality
  have values := congrArg (Nat.ofDigitChars 10 · 0) equality
  simpa only [Nat.ofDigitChars_ten_toDigits] using values

theorem isAsciiWord_of_mem_toDigits {number : Nat} {digit : Char}
    (member : digit ∈ Nat.toDigits 10 number) : isAsciiWord digit := by
  have isDigit := Nat.isDigit_of_mem_toDigits (by decide) (by decide) member
  change (digit.isAlpha || digit.isDigit) || digit == '_'
  rw [isDigit, Bool.or_true, Bool.true_or]

end Text

end DiagramEdit
