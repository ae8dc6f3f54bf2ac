import DiagramEdit.Proofs.Text.Characters
import DiagramEdit.Proofs.Text.Lines
import DiagramEdit.Proofs.Text.Pattern
import Mathlib.Data.List.Nodup
import Mathlib.Data.List.Perm.Subperm

/-!
# Words of a text

A word of a text is a run of word characters that cannot be made longer on
either side.  Words do not reach over a character that is none, so the words of
two parts of a text are the words of the text where no word crosses the cut.
-/

namespace DiagramEdit.Text

def endsInWord (text : Text) : Bool :=
  text.getLast?.any isWordCharacter

def startsWithWord (text : Text) : Bool :=
  text.head?.any isWordCharacter

/-- The longest runs of word characters, in order. -/
def wordRuns (text : Text) : List Text :=
  (text.splitOnP (!isWordCharacter ·)).filter (· ≠ [])

theorem all_not_eq_not_any (reading : Option Char) (property : Char → Bool) :
    reading.all (!property ·) = !reading.any property := by
  cases reading <;> simp

theorem mem_wordRuns_iff {text word : Text} :
    word ∈ wordRuns text ↔
      word ≠ [] ∧ (∀ character ∈ word, isWordCharacter character) ∧
        ∃ before after, text = before ++ word ++ after ∧
          endsInWord before = false ∧ startsWithWord after = false := by
  simp only [wordRuns, List.mem_filter, mem_splitOnP_iff, all_not_eq_not_any,
    endsInWord, startsWithWord, Bool.not_eq_true', Bool.not_eq_false',
    decide_eq_true_eq]
  constructor
  · intro parts
    obtain ⟨⟨within, cut⟩, nonempty⟩ := parts
    exact ⟨nonempty, within, cut⟩
  · intro parts
    obtain ⟨nonempty, within, cut⟩ := parts
    exact ⟨⟨within, cut⟩, nonempty⟩

@[simp]
theorem wordRuns_nil : wordRuns [] = [] := rfl

theorem wordRuns_append_cons {left right : Text} {character : Char}
    (separates : isWordCharacter character = false) :
    wordRuns (left ++ character :: right) =
      wordRuns left ++ wordRuns right := by
  rw [wordRuns, List.splitOnP_append_cons _ _ (by simp [separates]),
    List.filter_append]
  rfl

theorem wordRuns_cons {right : Text} {character : Char}
    (separates : isWordCharacter character = false) :
    wordRuns (character :: right) = wordRuns right := by
  have runs :
      wordRuns ([] ++ character :: right) = wordRuns [] ++ wordRuns right :=
    wordRuns_append_cons separates
  simpa using runs

/-- Where no word crosses the cut, the words are those of the two parts. -/
theorem wordRuns_append {left right : Text}
    (boundary : endsInWord left = false ∨ startsWithWord right = false) :
    wordRuns (left ++ right) = wordRuns left ++ wordRuns right := by
  rcases boundary with separates | separates
  · rcases List.eq_nil_or_concat left with rfl | ⟨left, character, rfl⟩
    · rfl
    · rw [List.concat_eq_append] at separates ⊢
      have separating : isWordCharacter character = false := by
        simpa [endsInWord] using separates
      rw [List.append_assoc, List.singleton_append,
        wordRuns_append_cons separating, wordRuns_append_cons separating,
        wordRuns_nil, List.append_nil]
  · cases right with
    | nil => simp
    | cons character right =>
        have separating : isWordCharacter character = false := by
          simpa [startsWithWord] using separates
        rw [wordRuns_append_cons separating, wordRuns_cons separating]

theorem endsInWord_append_cons {left right : Text} {character : Char}
    (separates : isWordCharacter character = false) :
    endsInWord (left ++ character :: right) = endsInWord right := by
  rcases List.eq_nil_or_concat right with rfl | ⟨right, last, rfl⟩
  · simp [endsInWord, separates]
  · rw [List.concat_eq_append, ← List.cons_append, ← List.append_assoc,
      endsInWord, endsInWord, List.getLast?_concat, List.getLast?_concat]

theorem endsInWord_append (left : Text) {right : Text} (nonempty : right ≠ []) :
    endsInWord (left ++ right) = endsInWord right := by
  rw [endsInWord, endsInWord, List.getLast?_append_of_ne_nil _ nonempty]

theorem endsInWord_right {left right : Text}
    (ends : endsInWord (left ++ right) = false) :
    endsInWord right = false := by
  by_cases empty : right = []
  · rw [empty]
    rfl
  · rwa [endsInWord_append left empty] at ends

theorem startsWithWord_left {left right : Text}
    (starts : startsWithWord (left ++ right) = false) :
    startsWithWord left = false := by
  cases left with
  | nil => rfl
  | cons first left => exact starts

theorem startsWithWord_append {left right : Text}
    (starts : startsWithWord left = false)
    (follows : startsWithWord right = false) :
    startsWithWord (left ++ right) = false := by
  cases left with
  | nil => exact follows
  | cons first left => exact starts

theorem isWordCharacter_lineFeed : isWordCharacter '\n' = false :=
  not_isWordCharacter_of_isSpace (by decide)

theorem startsWithWord_eq_false_iff {text : Text} :
    startsWithWord text = false ↔ text.head?.all (!isWordCharacter ·) := by
  cases text with
  | nil => simp [startsWithWord]
  | cons first text => simp [startsWithWord]

theorem startsWithWord_flatMap (pieces : List Text) :
    startsWithWord (pieces.flatMap ('\n' :: ·)) = false := by
  cases pieces with
  | nil => rfl
  | cons piece pieces => simp [startsWithWord, isWordCharacter_lineFeed]

theorem startsWithWord_of_none {text : Text}
    (none : ∀ character ∈ text, isWordCharacter character = false) :
    startsWithWord text = false := by
  cases text with
  | nil => rfl
  | cons first text => simpa [startsWithWord] using none first (by simp)

theorem endsInWord_of_none {text : Text}
    (none : ∀ character ∈ text, isWordCharacter character = false) :
    endsInWord text = false := by
  rcases List.eq_nil_or_concat text with rfl | ⟨text, last, rfl⟩
  · rfl
  · simpa [endsInWord] using none last (by simp)

theorem endsInWord_of_word {word : Text} (nonempty : word ≠ [])
    (within : ∀ character ∈ word, isWordCharacter character) :
    endsInWord word := by
  rw [endsInWord, List.getLast?_eq_some_getLast nonempty]
  exact within _ (List.getLast_mem nonempty)

theorem startsWithWord_of_spaces {space : Text}
    (spaces : ∀ character ∈ space, isSpace character) :
    startsWithWord space = false :=
  startsWithWord_of_none fun character member =>
    not_isWordCharacter_of_isSpace (spaces character member)

theorem endsInWord_append_space (text : Text) {space : Text}
    (nonempty : space ≠ []) (spaces : ∀ character ∈ space, isSpace character) :
    endsInWord (text ++ space) = false := by
  rw [endsInWord_append text nonempty]
  exact endsInWord_of_none fun character member =>
    not_isWordCharacter_of_isSpace (spaces character member)

theorem endsInWord_space_append {space : Text}
    (spaces : ∀ character ∈ space, isSpace character) (text : Text) :
    endsInWord (space ++ text) = endsInWord text := by
  by_cases empty : text = []
  · rw [empty, List.append_nil]
    exact endsInWord_of_none fun character member =>
      not_isWordCharacter_of_isSpace (spaces character member)
  · exact endsInWord_append space empty

theorem wordRuns_of_word {word : Text} (nonempty : word ≠ [])
    (within : ∀ character ∈ word, isWordCharacter character) :
    wordRuns word = [word] := by
  rw [wordRuns, List.splitOnP_eq_singleton (by simpa using within)]
  simp [nonempty]

theorem wordRuns_eq_nil {text : Text}
    (none : ∀ character ∈ text, isWordCharacter character = false) :
    wordRuns text = [] := by
  induction text with
  | nil => rfl
  | cons character text induction =>
      rw [wordRuns_cons (none character (by simp))]
      exact induction fun other member => none other (by simp [member])

theorem length_wordRuns_le (text : Text) :
    (wordRuns text).length ≤ text.length := by
  induction text with
  | nil => exact Nat.le_refl 0
  | cons character text induction =>
      cases word : isWordCharacter character with
      | false =>
          rw [wordRuns_cons word]
          exact Nat.le_succ_of_le induction
      | true =>
          obtain ⟨first, rest, pieces⟩ :=
            List.exists_cons_of_ne_nil
              (List.splitOnP_ne_nil (!isWordCharacter ·) text)
          have counted :
              (rest.filter (· ≠ [])).length ≤ (wordRuns text).length := by
            rw [wordRuns, pieces]
            exact ((List.sublist_cons_self first rest).filter _).length_le
          have runs : wordRuns (character :: text) =
              (character :: first) :: rest.filter (· ≠ []) := by
            simp [wordRuns, List.splitOnP_cons_eq_if_modifyHead, word, pieces]
          rw [runs, List.length_cons, List.length_cons]
          omega

theorem mem_wordRuns_of_mem_lines {text line word : Text}
    (onLine : line ∈ lines text) (member : word ∈ wordRuns line) :
    word ∈ wordRuns text := by
  rw [lines, List.splitOn_eq_splitOnP, mem_splitOnP_iff] at onLine
  obtain ⟨_, before, after, rfl, left, right⟩ := onLine
  have lineFeed := isWordCharacter_lineFeed
  have leftBoundary : endsInWord before = false := by
    cases last : before.getLast? with
    | none => simp [endsInWord, last]
    | some character => simp_all [endsInWord]
  have rightBoundary : startsWithWord after = false := by
    cases first : after.head? with
    | none => simp [startsWithWord, first]
    | some character => simp_all [startsWithWord]
  rw [wordRuns_append (Or.inr rightBoundary),
    wordRuns_append (Or.inl leftBoundary)]
  simp [member]

/-- Of distinct candidates that are more than the words taken, one is not
taken. -/
theorem exists_not_mem_of_length_lt {taken candidates : List Text}
    (distinct : candidates.Nodup) (many : taken.length < candidates.length) :
    ∃ word ∈ candidates, word ∉ taken := by
  by_contra absent
  have included : candidates ⊆ taken := by
    intro word member
    by_contra missing
    exact absent ⟨word, member, missing⟩
  have bounded := (List.subperm_of_subset distinct included).length_le
  omega

theorem word_suffix_unique {left left' word word' : Text}
    (equality : left ++ word = left' ++ word')
    (within : ∀ character ∈ word, isWordCharacter character)
    (within' : ∀ character ∈ word', isWordCharacter character)
    (boundary : endsInWord left = false)
    (boundary' : endsInWord left' = false) :
    left = left' ∧ word = word' := by
  have lastRun :
      ∀ (front back : Text), (∀ character ∈ back, isWordCharacter character) →
        endsInWord front = false →
        (front ++ back).reverse.takeWhile isWordCharacter = back.reverse := by
    intro front back inside ends
    have stops : front.reverse.head?.all (!isWordCharacter ·) := by
      rw [all_not_eq_not_any, List.head?_reverse]
      simpa [endsInWord] using ends
    rw [List.reverse_append]
    exact (Pattern.takeWhile_append_of_stops (by simpa using inside) stops).1
  have words : word = word' := by
    have runs := lastRun left word within boundary
    rw [equality, lastRun left' word' within' boundary'] at runs
    exact (List.reverse_injective runs).symm
  exact ⟨List.append_cancel_right (words ▸ equality), words⟩

theorem wordRuns_trim (text : Text) : wordRuns (trim text) = wordRuns text := by
  have none : ∀ {space : Text}, (∀ character ∈ space, isSpace character) →
      wordRuns space = [] :=
    fun spaces => wordRuns_eq_nil fun character member =>
      not_isWordCharacter_of_isSpace (spaces character member)
  obtain ⟨left, startSplit, leftSpaces⟩ := exists_append_trimStart text
  obtain ⟨right, endSplit, rightSpaces⟩ :=
    exists_trimEnd_append (trimStart text)
  have begins : endsInWord left = false := by
    simpa [endsInWord] using endsInWord_space_append leftSpaces []
  have stops := startsWithWord_of_spaces rightSpaces
  conv => rhs; rw [startSplit, endSplit]
  rw [wordRuns_append (Or.inl begins), wordRuns_append (Or.inr stops),
    none leftSpaces, none rightSpaces, List.nil_append, List.append_nil, trim]

section Cuts

variable {before before' word after after' : Text}

theorem eq_nil_of_word_append {more : Text}
    (within : ∀ character ∈ word, isWordCharacter character)
    (nonempty : word ≠ []) (split : word ++ after = more ++ (word ++ after'))
    (ends : endsInWord before = false) (starts : startsWithWord after = false)
    (ends' : endsInWord (before ++ more) = false)
    (absent : word ∉ wordRuns (before ++ more)) :
    more = [] := by
  rcases List.append_eq_append_iff.mp split with
    ⟨rest, moreEq, afterEq⟩ | ⟨rest, wordEq, _⟩
  · refine absurd
      (mem_wordRuns_iff.mpr ⟨nonempty, within, before, rest, ?_, ends, ?_⟩)
      absent
    · rw [moreEq, List.append_assoc]
    · rw [afterEq] at starts
      exact startsWithWord_left starts
  · by_contra remains
    have word : endsInWord more :=
      endsInWord_of_word remains fun character member =>
        within character (by simp [wordEq, member])
    rw [endsInWord_append before remains, word] at ends'
    cases ends'

/-- A text has one cut at a word that it does not hold in front of the cut. -/
theorem eq_of_word_cuts (within : ∀ character ∈ word, isWordCharacter character)
    (nonempty : word ≠ [])
    (split : before ++ word ++ after = before' ++ word ++ after')
    (ends : endsInWord before = false) (starts : startsWithWord after = false)
    (ends' : endsInWord before' = false)
    (starts' : startsWithWord after' = false) (absent : word ∉ wordRuns before)
    (absent' : word ∉ wordRuns before') :
    before = before' ∧ after = after' := by
  rw [List.append_assoc, List.append_assoc] at split
  have same : before = before' := by
    rcases List.append_eq_append_iff.mp split with
      ⟨more, rfl, rest⟩ | ⟨more, rfl, rest⟩
    · rw [eq_nil_of_word_append within nonempty rest ends starts ends' absent',
        List.append_nil]
    · rw [eq_nil_of_word_append within nonempty rest ends' starts' ends absent,
        List.append_nil]
  rw [same] at split
  exact ⟨same, List.append_cancel_left (List.append_cancel_left split)⟩

end Cuts

end DiagramEdit.Text
