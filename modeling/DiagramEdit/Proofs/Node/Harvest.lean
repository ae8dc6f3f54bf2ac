import DiagramEdit.Proofs.Node.Fresh
import DiagramEdit.Proofs.Node.Surroundings
import DiagramEdit.Proofs.Text.Scan

/-!
# Which identifiers are listed

The identifiers in use are the words in front of an opening bracket.  A scan
that reads on behind each of them and gives characters back where it went too
far finds all of them and nothing else: a word is read to its end, and no word
begins inside of what has been read.  A node that has a definition is listed if
its identifier is such a word at all.
-/

namespace DiagramEdit

/-- Behind `before` the text reads a whole word that begins like an identifier,
and behind the word white space and an opening bracket. -/
structure NamesNode (text word before : Text) : Prop where
  starts : word.head?.any startsIdentifier
  within : ∀ character ∈ word, Text.isWordCharacter character
  apart : Text.endsInWord before = false
  opens : ∃ after, text = before ++ word ++ after ∧
    Text.startsWithWord after = false ∧
    ∃ space bracket rest, after = space ++ bracket :: rest ∧
      (∀ character ∈ space, Text.isSpace character) ∧ opensNode bracket

namespace Pattern

/-- A whole word in front of an opening bracket, where the word and the white
space give back what the rest of the pattern needs. -/
def identifierBacktracking : Pattern Text := do
  check Place.isWordBoundary
  let initial ← one startsIdentifier
  let (rest, _) ← longestThen Text.isWordCharacter
    (longestThen Text.isSpace (one opensNode))
  return initial :: rest

/-- White space has nothing to give back to a bracket. -/
theorem longestThen_isSpace_eq_some_iff {place stop : Place} {space : Text}
    {bracket : Char} :
    longestThen Text.isSpace (one opensNode) place =
        some ((space, bracket), stop) ↔
      ∃ middle, run Text.isSpace place = some (space, middle) ∧
        one opensNode middle = some (bracket, stop) := by
  apply longestThen_eq_some_iff_run
  intro before character after isSpace
  have closed : opensNode character = false := by
    rw [Bool.eq_false_iff]
    intro opens
    rw [not_isSpace_of_opensNode opens] at isSpace
    cases isSpace
  simp [one, closed]

theorem longestThen_isWordCharacter_eq_some_iff {place stop : Place}
    {word space : Text} {bracket : Char} :
    longestThen Text.isWordCharacter (longestThen Text.isSpace (one opensNode))
          place = some ((word, space, bracket), stop) ↔
      ∃ middle, run Text.isWordCharacter place = some (word, middle) ∧
        longestThen Text.isSpace (one opensNode) middle =
          some ((space, bracket), stop) := by
  apply longestThen_eq_some_iff_run
  intro before character after isWord
  have closed : opensNode character = false := by
    rw [Bool.eq_false_iff]
    intro opens
    rw [not_isWordCharacter_of_opensNode opens] at isWord
    cases isWord
  rw [longestThen, longestFrom, Text.not_isSpace_of_isWordCharacter isWord]
  simp [one, closed]

/-- Giving characters back never makes a difference. -/
theorem identifierBacktracking_eq :
    identifierBacktracking = identifierBeforeBracket := by
  have reads_iff :
      ∀ place word stop, identifierBacktracking place = some (word, stop) ↔
        identifierBeforeBracket place = some (word, stop) := by
    intro place word stop
    simp only [identifierBacktracking, identifierBeforeBracket,
      bind_eq_some_iff, pure_eq_some_iff,
      longestThen_isWordCharacter_eq_some_iff, longestThen_isSpace_eq_some_iff,
      Prod.exists]
    constructor
    · intro parts
      obtain ⟨_, start, boundary, initial, first, starts, rest, space, bracket,
        _, ⟨afterWord, words, afterSpace, spaces, opens⟩, whole, stopEq⟩ :=
        parts
      exact ⟨(), start, boundary, initial, first, starts, rest, afterWord,
        words, space, afterSpace, spaces, bracket, _, opens, whole, stopEq⟩
    · intro parts
      obtain ⟨_, start, boundary, initial, first, starts, rest, afterWord,
        words, space, afterSpace, spaces, bracket, _, opens, whole, stopEq⟩ :=
        parts
      exact ⟨(), start, boundary, initial, first, starts, rest, space, bracket,
        _, ⟨afterWord, words, afterSpace, spaces, opens⟩, whole, stopEq⟩
  funext place
  apply Option.ext
  intro found
  exact reads_iff place found.1 found.2

theorem identifierBeforeBracket_iff_namesNode {before after word : Text} :
    (∃ stop,
        identifierBeforeBracket ⟨before.reverse, after⟩ = some (word, stop)) ↔
      NamesNode (before ++ after) word before := by
  simp only [identifierBeforeBracket_cut_iff]
  constructor
  · intro parts
    obtain ⟨_, ends, starts, within, space, bracket, rest, split, spaces, opens,
      _⟩ := parts
    exact ⟨starts, within, ends, space ++ bracket :: rest, by simp [split],
      startsWithWord_space_append spaces
        (not_isWordCharacter_of_opensNode opens) rest, space, bracket, rest,
      rfl, spaces, opens⟩
  · intro names
    obtain ⟨behind, split, _, space, bracket, rest, behindEq, spaces, opens⟩ :=
      names.opens
    rw [List.append_assoc] at split
    have afterEq := List.append_cancel_left split
    exact ⟨_, names.apart, names.starts, names.within, space, bracket, rest,
      by simp [afterEq, behindEq], spaces, opens, rfl⟩

theorem starts_within_word_or_behind {word space tail front rest : Text}
    {bracket initial : Char}
    (spaces : ∀ character ∈ space, Text.isSpace character)
    (opens : opensNode bracket) (starts : startsIdentifier initial)
    (split : word ++ (space ++ bracket :: tail) = front ++ initial :: rest) :
    (∃ more, word = front ++ initial :: more) ∨ rest.length < tail.length := by
  rcases Text.append_eq_append_cons_cases split with
    ⟨more, wordEq, _⟩ | ⟨more, _, behindEq⟩
  · exact Or.inl ⟨more, wordEq⟩
  · right
    rcases Text.append_eq_append_cons_cases behindEq with
      ⟨_, spaceEq, _⟩ | ⟨beyond, _, bracketEq⟩
    · have isSpace := spaces initial (by simp [spaceEq])
      rw [Text.not_isSpace_of_isWordCharacter
        (isWordCharacter_of_startsIdentifier starts)] at isSpace
      cases isSpace
    · cases beyond with
      | nil =>
          rw [← (List.cons.inj bracketEq).1,
            not_startsIdentifier_of_opensNode opens] at starts
          cases starts
      | cons _ beyond =>
          rw [(List.cons.inj bracketEq).2, List.append_eq, List.length_append,
            List.length_cons]
          omega

theorem neverOverlaps_identifierBeforeBracket :
    NeverOverlaps identifierBeforeBracket := by
  intro before character passed rest value stop read inside
  cases readInside :
    identifierBeforeBracket ⟨(character :: passed).reverse ++ before, rest⟩ with
  | none => rfl
  | some found =>
      have outer :
          identifierBeforeBracket
              ⟨before.reverse.reverse, character :: passed ++ rest⟩ =
            some (value, stop) := by
        rwa [List.reverse_reverse]
      have inner :
          identifierBeforeBracket
              ⟨(before.reverse ++ character :: passed).reverse, rest⟩ =
            some found := by
        rw [← readInside, List.reverse_append, List.reverse_reverse]
      obtain ⟨_, _, within, space, bracket, tail, split, spaces, opens, rfl⟩ :=
        identifierBeforeBracket_cut_iff.mp outer
      obtain ⟨apart, starts, _, _, _, _, restEq, _⟩ :=
        identifierBeforeBracket_cut_iff.mp inner
      cases word : found.1 with
      | nil =>
          rw [word] at starts
          cases starts
      | cons initial more =>
          rw [word] at starts restEq
          obtain ⟨behind, rfl⟩ : ∃ behind, rest = initial :: behind :=
            ⟨_, restEq⟩
          rw [List.append_assoc] at split
          rcases starts_within_word_or_behind spaces opens
            (by simpa using starts) split.symm with
            ⟨_, valueEq⟩ | shorter
          · have passed_within :
                ∀ other ∈ character :: passed, Text.isWordCharacter other := by
              intro other member
              apply within
              rw [valueEq]
              exact List.mem_append_left _ member
            have nonempty := List.cons_ne_nil character passed
            rw [Text.endsInWord_append _ nonempty,
              Text.endsInWord_of_word nonempty passed_within] at apart
            cases apart
          · rw [List.length_cons] at inside
            change tail.length < behind.length + 1 at inside
            omega

end Pattern

/-- In the list without its later repetitions an item stands in front of another
one if all places of the latter are behind some place of the former. -/
theorem pairwise_eraseDups {α : Type} [BEq α] [LawfulBEq α] (list : List α) :
    list.eraseDups.Pairwise fun item later =>
      ∀ front back, list = front ++ later :: back → item ∈ front := by
  cases list with
  | nil => simp
  | cons first rest =>
      have different :
          ∀ later ∈ (rest.filter (!· == first)).eraseDups, later ≠ first := by
        intro later member
        simpa using (List.mem_filter.mp (List.mem_eraseDups.mp member)).2
      rw [List.eraseDups_cons, List.pairwise_cons]
      constructor
      · intro later member front back split
        cases front with
        | nil =>
            exact absurd (List.cons.inj split).1.symm (different later member)
        | cons head front =>
            rw [(List.cons.inj split).1]
            exact List.mem_cons_self
      · refine (pairwise_eraseDups (rest.filter (!· == first))).imp_of_mem ?_
        intro item later _ member ordered front back split
        cases front with
        | nil =>
            exact absurd (List.cons.inj split).1.symm (different later member)
        | cons head front =>
            obtain ⟨_, restEq⟩ := List.cons.inj split
            have kept : (!later == first) = true := by
              simpa using different later member
            have cut : rest.filter (!· == first) =
                front.filter (!· == first) ++
                  later :: back.filter (!· == first) := by
              rw [restEq, List.append_eq, List.filter_append,
                List.filter_cons, if_pos kept]
            have inFront := ordered _ _ cut
            exact List.mem_cons_of_mem _ (List.mem_filter.mp inFront).1
termination_by list.length
decreasing_by
  exact Nat.lt_succ_of_le (List.length_filter_le _ _)

theorem nodup_eraseDups {α : Type} [BEq α] [LawfulBEq α] (list : List α) :
    list.eraseDups.Nodup := by
  refine (pairwise_eraseDups list).imp_of_mem ?_
  intro item later _ member ordered same
  obtain ⟨front, back, split, absent⟩ :=
    List.eq_append_cons_of_mem (List.mem_eraseDups.mp member)
  have inFront := ordered front back split
  rw [same] at inFront
  exact absent inFront

section Listed

variable {text word before : Text}

theorem mem_nodeIds_iff_namesNode :
    word ∈ nodeIds text ↔
      isReserved word = false ∧ ∃ before, NamesNode text word before := by
  rw [mem_nodeIds_iff, and_comm, Pattern.mem_readings_iff]
  refine and_congr_right fun _ => ?_
  constructor
  · intro parts
    obtain ⟨before, after, stop, split, read⟩ := parts
    rw [split]
    exact ⟨before,
      Pattern.identifierBeforeBracket_iff_namesNode.mp ⟨stop, read⟩⟩
  · intro parts
    obtain ⟨before, names⟩ := parts
    obtain ⟨after, split, _⟩ := names.opens
    rw [List.append_assoc] at split
    rw [split] at names
    obtain ⟨stop, read⟩ :=
      Pattern.identifierBeforeBracket_iff_namesNode.mpr names
    exact ⟨before, _, stop, split, read⟩

/-- The listed identifiers come in the order of their first places. -/
theorem pairwise_nodeIds (text : Text) :
    (nodeIds text).Pairwise fun word later =>
      ∀ behind, NamesNode text later behind →
        ∃ before, NamesNode text word before ∧
          before.length < behind.length := by
  refine (pairwise_eraseDups _).imp_of_mem ?_
  intro word later _ member ordered behind names
  have unreserved : (!isReserved later) = true :=
    (List.mem_filter.mp (List.mem_eraseDups.mp member)).2
  obtain ⟨after, split, _⟩ := names.opens
  rw [List.append_assoc] at split
  rw [split] at names
  obtain ⟨stop, read⟩ := Pattern.identifierBeforeBracket_iff_namesNode.mpr names
  obtain ⟨front, back, readings, earlier⟩ :=
    Pattern.exists_readings_eq_append read
  have listed :
      (Pattern.identifierBeforeBracket.readings text).filter (!isReserved ·) =
        front.filter (!isReserved ·) ++
          later :: back.filter (!isReserved ·) := by
    rw [split, readings, List.filter_append, List.filter_cons,
      if_pos unreserved]
  have inFront := ordered _ _ listed
  obtain ⟨left, right, stopped, cut, readEarlier, shorter⟩ :=
    earlier word (List.mem_filter.mp inFront).1
  refine ⟨left, ?_, shorter⟩
  rw [split, cut]
  exact Pattern.identifierBeforeBracket_iff_namesNode.mp ⟨stopped, readEarlier⟩

theorem mem_nodeIds_of_findDefinition {id : Text} {node : NodeDefinition}
    (found : findDefinition text id = some node)
    (identifies : isWordIdentifier id) (unreserved : isReserved id = false) :
    id ∈ nodeIds text := by
  obtain ⟨starts, within⟩ := isWordIdentifier_iff.mp identifies
  obtain ⟨_, _, before, space, rest, split, apart, spaces⟩ :=
    exists_of_findDefinition_eq_some found
  have site := isSite_of_wrap apart spaces node.shape node.label rest
  have listed := mem_nodeIds_of_isSite starts within unreserved site
  have whole :
      before ++ (id ++ space ++ node.shape.wrap node.label ++ rest) = text := by
    simp [split]
  rwa [whole] at listed

end Listed

/-- The list of identifiers is that of a scan with backtracking, without its
reserved words and later repetitions.  It holds every word in front of an
opening bracket that begins like an identifier and is not reserved, and nothing
else, once, in the order of the first places; a node with a definition is on it
exactly if its identifier is such a word. -/
theorem nodeIds_exact (text : Text) :
    nodeIds text =
        ((Pattern.identifierBacktracking.scan text).filter
          (!isReserved ·)).eraseDups ∧
      (nodeIds text).Nodup ∧
      (∀ word, word ∈ nodeIds text ↔
        isReserved word = false ∧ ∃ before, NamesNode text word before) ∧
      ((nodeIds text).Pairwise fun word later =>
        ∀ behind, NamesNode text later behind →
          ∃ before, NamesNode text word before ∧
            before.length < behind.length) ∧
      ∀ id, findDefinition text id ≠ none →
        (id ∈ nodeIds text ↔ isWordIdentifier id ∧ isReserved id = false) := by
  refine ⟨?_, nodup_eraseDups _, fun word => mem_nodeIds_iff_namesNode,
    pairwise_nodeIds text, ?_⟩
  · rw [Pattern.identifierBacktracking_eq,
      Pattern.scan_eq_readings Pattern.neverOverlaps_identifierBeforeBracket]
    rfl
  · intro id defined
    obtain ⟨node, found⟩ := Option.ne_none_iff_exists'.mp defined
    constructor
    · intro listed
      obtain ⟨unreserved, before, names⟩ := mem_nodeIds_iff_namesNode.mp listed
      exact ⟨isWordIdentifier_iff.mpr ⟨names.starts, names.within⟩, unreserved⟩
    · intro parts
      exact mem_nodeIds_of_findDefinition found parts.1 parts.2

/-- A line feed may stand in front of the bracket, and a repetition is left
out. -/
example :
    nodeIds
        "flowchart TD\n    A\n[Start] --> end(Last)\n    B{Next} --> A[Again]".toList =
      ["A".toList, "B".toList] := by
  decide +kernel

end DiagramEdit
