import DiagramEdit.Proofs.Text.Trim
import DiagramEdit.Text.Lines

/-!
# Lines of a text

A joined text is its first line followed by the others, each behind a line feed.
A character other than a line feed stands on exactly one of the lines.  An
appended line goes behind the last character that is not white space.
-/

namespace DiagramEdit.Text

theorem intercalate_cons (separator : Char) (item : Text) (rest : List Text) :
    [separator].intercalate (item :: rest) =
      item ++ rest.flatMap (separator :: ·) := by
  induction rest generalizing item with
  | nil => simp
  | cons next rest induction =>
      rw [List.intercalate_cons_cons, induction, List.flatMap_cons]
      simp

theorem intercalate_append (separator : Char) {left : List Text}
    (nonempty : left ≠ []) (right : List Text) :
    [separator].intercalate (left ++ right) =
      [separator].intercalate left ++ right.flatMap (separator :: ·) := by
  cases left with
  | nil => contradiction
  | cons item rest => simp [intercalate_cons]

theorem intercalate_append_cons (separator : Char) (earlier : List Text)
    (item : Text) (later : List Text) :
    [separator].intercalate (earlier ++ item :: later) =
      earlier.flatMap (· ++ [separator]) ++ item ++
        later.flatMap (separator :: ·) := by
  induction earlier with
  | nil => simp [intercalate_cons]
  | cons first earlier induction =>
      have nonempty : earlier ++ item :: later ≠ [] := by simp
      obtain ⟨next, rest, pieces⟩ := List.exists_cons_of_ne_nil nonempty
      rw [List.cons_append, intercalate_cons, pieces, List.flatMap_cons]
      rw [pieces, intercalate_cons] at induction
      simp [induction]

theorem joinLines_cons (line : Text) (rest : List Text) :
    joinLines (line :: rest) = line ++ rest.flatMap ('\n' :: ·) :=
  intercalate_cons '\n' line rest

theorem joinLines_append {left : List Text} (nonempty : left ≠ [])
    (right : List Text) :
    joinLines (left ++ right) = joinLines left ++ right.flatMap ('\n' :: ·) :=
  intercalate_append '\n' nonempty right

theorem joinLines_append_cons (earlier : List Text) (line : Text)
    (later : List Text) :
    joinLines (earlier ++ line :: later) =
      earlier.flatMap (· ++ ['\n']) ++ line ++ later.flatMap ('\n' :: ·) :=
  intercalate_append_cons '\n' earlier line later

theorem lines_ne_nil (text : Text) : lines text ≠ [] :=
  List.splitOn_ne_nil _ _

theorem lines_joinLines {pieces : List Text} (nonempty : pieces ≠ [])
    (oneLine : ∀ line ∈ pieces, '\n' ∉ line) :
    lines (joinLines pieces) = pieces :=
  List.splitOn_intercalate '\n' oneLine nonempty

/-- A text is known by its lines. -/
theorem eq_of_lines_eq {text other : Text} (same : lines text = lines other) :
    text = other := by
  rw [← joinLines_lines text, same, joinLines_lines]

theorem splitOnP_append_of_stops {stops : Char → Bool} {piece after : Text}
    (within : ∀ character ∈ piece, stops character = false)
    (stop : after.head?.all stops) :
    (piece ++ after).splitOnP stops =
      piece :: (if after.isEmpty then [] else after.tail.splitOnP stops) := by
  cases after with
  | nil => simpa using List.splitOnP_eq_singleton within
  | cons separator after =>
      have stopped : stops separator := by simpa using stop
      rw [List.splitOnP_append_cons _ _ stopped,
        List.splitOnP_eq_singleton within]
      rfl

/-- The pieces of a text lie between two separators or the ends of the text. -/
theorem mem_splitOnP_iff {stops : Char → Bool} {text piece : Text} :
    piece ∈ text.splitOnP stops ↔
      (∀ character ∈ piece, stops character = false) ∧
        ∃ before after, text = before ++ piece ++ after ∧
          before.getLast?.all stops ∧ after.head?.all stops := by
  constructor
  · intro member
    induction size :
      text.length using Nat.strong_induction_on generalizing text with
    | h bound induction =>
        have cut :
            text.takeWhile (!stops ·) ++ text.dropWhile (!stops ·) = text :=
          List.takeWhile_append_dropWhile
        have within : ∀ character ∈ text.takeWhile (!stops ·),
            stops character = false := by
          intro character inFirst
          simpa using List.mem_takeWhile_imp inFirst
        have stop : (text.dropWhile (!stops ·)).head?.all stops := by
          have failing := List.head?_dropWhile_not (!stops ·) text
          cases rest : (text.dropWhile (!stops ·)).head? with
          | none => rfl
          | some separator => simp_all
        generalize text.takeWhile (!stops ·) = first at cut within
        generalize text.dropWhile (!stops ·) = rest at cut stop
        rw [← cut, splitOnP_append_of_stops within stop] at member
        rcases List.mem_cons.mp member with rfl | later
        · exact ⟨within, [], rest, by simp [cut], rfl, stop⟩
        · cases rest with
          | nil => cases later
          | cons separator rest =>
              have shorter : rest.length < bound := by
                rw [← size, ← cut, List.length_append, List.length_cons]
                omega
              obtain ⟨inside, before, after, split, left, right⟩ :=
                induction rest.length shorter later rfl
              refine ⟨inside, first ++ separator :: before, after, ?_, ?_,
                right⟩
              · change rest = _ at split
                simp [← cut, split]
              · cases before with
                | nil => simpa using stop
                | cons _ _ => grind
  · rintro ⟨within, before, after, rfl, left, right⟩
    have ending : piece ∈ (piece ++ after).splitOnP stops := by
      rw [splitOnP_append_of_stops within right]
      exact List.mem_cons_self
    rcases List.eq_nil_or_concat before with rfl | ⟨before, separator, rfl⟩
    · exact ending
    · have stopped : stops separator := by simpa using left
      rw [List.concat_eq_append, List.append_assoc, List.append_assoc,
        List.singleton_append, List.splitOnP_append_cons _ _ stopped]
      exact List.mem_append_right _ ending

theorem lines_lineFeed_cons (rest : Text) :
    lines ('\n' :: rest) = [] :: lines rest := by
  rw [lines, lines, List.splitOn_eq_splitOnP, List.splitOn_eq_splitOnP]
  exact List.splitOnP_append_cons [] rest (by simp)

theorem not_mem_of_mem_lines {text line : Text} (member : line ∈ lines text) :
    '\n' ∉ line := by
  rw [lines, List.splitOn_eq_splitOnP] at member
  intro lineFeed
  have inside := (mem_splitOnP_iff.mp member).1 '\n' lineFeed
  cases inside

theorem append_eq_append_cons_cases {α : Type}
    {left right before after : List α} {item : α}
    (split : left ++ right = before ++ item :: after) :
    (∃ rest, left = before ++ item :: rest ∧ after = rest ++ right) ∨
      ∃ front, before = left ++ front ∧ right = front ++ item :: after := by
  rcases List.append_eq_append_iff.mp split with
    ⟨front, beforeEq, rightEq⟩ | ⟨rest, leftEq, rightEq⟩
  · exact Or.inr ⟨front, beforeEq, rightEq⟩
  · cases rest with
    | nil =>
        right
        exact ⟨[], by simpa using leftEq.symm, by simpa using rightEq.symm⟩
    | cons first rest =>
        left
        obtain ⟨same, afterEq⟩ := List.cons.inj rightEq
        exact ⟨rest, by rw [leftEq, same], afterEq⟩

/-- Where a mark occurs once in a list, the items around its bearer do not bear
it. -/
theorem unmarked_of_nodup {α β : Type} {mark : α → Option β} {value : β}
    {before after : List α} {item : α}
    (once : ((before ++ item :: after).filterMap mark).Nodup)
    (marked : mark item = some value) :
    (∀ other ∈ before, mark other ≠ some value) ∧
      ∀ other ∈ after, mark other ≠ some value := by
  rw [List.filterMap_append, List.filterMap_cons_some marked, List.nodup_append]
    at once
  constructor
  · intro other member otherMark
    have inBefore : value ∈ before.filterMap mark :=
      List.mem_filterMap.mpr ⟨other, member, otherMark⟩
    exact once.2.2 value inBefore value (by simp) rfl
  · intro other member otherMark
    have inAfter : value ∈ after.filterMap mark :=
      List.mem_filterMap.mpr ⟨other, member, otherMark⟩
    exact (List.nodup_cons.mp once.2.1).1 inAfter

theorem cut_unique_of_nodup {α β : Type} {mark : α → Option β} {value : β}
    {before after before' after' : List α} {item item' : α}
    (once : ((before ++ item :: after).filterMap mark).Nodup)
    (marked : mark item = some value) (marked' : mark item' = some value)
    (same : before ++ item :: after = before' ++ item' :: after') :
    before = before' ∧ item = item' ∧ after = after' := by
  rcases append_eq_append_cons_cases same with
    ⟨rest, beforeEq, _⟩ | ⟨front, before'Eq, itemEq⟩
  · exact absurd marked'
      ((unmarked_of_nodup once marked).1 item' (by simp [beforeEq]))
  · cases front with
    | nil =>
        obtain ⟨rfl, rfl⟩ := List.cons.inj itemEq
        exact ⟨by simpa using before'Eq.symm, rfl, rfl⟩
    | cons first front =>
        obtain ⟨rfl, _⟩ := List.cons.inj itemEq
        rw [same] at once
        exact absurd marked
          ((unmarked_of_nodup once marked').1 item (by simp [before'Eq]))

/-- What stands behind the last of the characters is determined by the text. -/
theorem eq_of_append_cons_eq_append_cons {left right last last' : Text}
    {character : Char} (absent : character ∉ last) (absent' : character ∉ last')
    (equality : left ++ character :: last = right ++ character :: last') :
    last = last' := by
  rcases append_eq_append_cons_cases equality with
    ⟨rest, _, lastEq'⟩ | ⟨front, _, lastEq⟩
  · exact absurd (by simp [lastEq']) absent'
  · cases front with
    | nil => exact (List.cons.inj lastEq).2
    | cons first front =>
        exact absurd (by simp [(List.cons.inj lastEq).2]) absent

/-- A character that is no line feed stands on one of the lines. -/
theorem joinLines_eq_append_cons {pieces : List Text} {before after : Text}
    {character : Char} (different : character ≠ '\n')
    (split : joinLines pieces = before ++ character :: after) :
    ∃ earlier line later left right, pieces = earlier ++ line :: later ∧
      line = left ++ character :: right ∧
      before = earlier.flatMap (· ++ ['\n']) ++ left ∧
      after = right ++ later.flatMap ('\n' :: ·) := by
  cases pieces with
  | nil => simp [joinLines] at split
  | cons first rest =>
      rw [joinLines_cons] at split
      induction rest generalizing first before with
      | nil =>
          rw [List.flatMap_nil, List.append_nil] at split
          exact ⟨[], first, [], before, after, rfl, split, by simp, by simp⟩
      | cons next rest induction =>
          rcases append_eq_append_cons_cases split with
            ⟨right, firstEq, afterEq⟩ | ⟨passed, beforeEq, restEq⟩
          · exact ⟨[], first, next :: rest, before, right, rfl, firstEq,
              by simp, afterEq⟩
          · cases passed with
            | nil =>
                have sameHead := (List.cons.inj restEq).1
                exact absurd sameHead.symm different
            | cons lineFeed passed =>
                obtain ⟨rfl, restSplit⟩ := List.cons.inj restEq
                obtain ⟨earlier, line, later, left, right, piecesEq, lineEq,
                  passedEq, afterEq⟩ :=
                  induction next restSplit
                refine ⟨first :: earlier, line, later, left, right, ?_, lineEq,
                  ?_, afterEq⟩
                · rw [piecesEq, List.cons_append]
                · simp [beforeEq, passedEq]

theorem joinLines_eq_append_word {pieces : List Text} {before word after : Text}
    (nonempty : word ≠ []) (within : '\n' ∉ word)
    (split : joinLines pieces = before ++ word ++ after) :
    ∃ earlier line later left right, pieces = earlier ++ line :: later ∧
      line = left ++ word ++ right ∧
      before = earlier.flatMap (· ++ ['\n']) ++ left ∧
      after = right ++ later.flatMap ('\n' :: ·) := by
  obtain ⟨initial, word, rfl⟩ := List.exists_cons_of_ne_nil nonempty
  have different : initial ≠ '\n' := by
    intro lineFeed
    exact within (by simp [lineFeed])
  rw [List.append_assoc, List.cons_append] at split
  obtain ⟨earlier, line, later, left, right, piecesEq, lineEq, beforeEq,
    afterEq⟩ :=
    joinLines_eq_append_cons different split
  rcases List.append_eq_append_iff.mp afterEq with
    ⟨rest, rightEq, restEq⟩ | ⟨rest, wordEq, restEq⟩
  · exact ⟨earlier, line, later, left, rest, piecesEq,
      by simp [lineEq, rightEq], beforeEq, restEq⟩
  · cases rest with
    | nil =>
        rw [List.append_nil] at wordEq
        refine ⟨earlier, line, later, left, [], piecesEq,
          by simp [lineEq, wordEq], beforeEq, ?_⟩
        simpa using restEq.symm
    | cons lineFeed rest =>
        have isLineFeed : lineFeed = '\n' := by
          cases later with
          | nil => cases restEq
          | cons next later => exact (List.cons.inj restEq).1.symm
        have member : '\n' ∈ word := by
          rw [wordEq, isLineFeed]
          simp
        exact absurd (List.mem_cons_of_mem _ member) within

theorem exists_lines_eq_concat {text : Text} {character : Char}
    (different : character ≠ '\n') :
    ∃ earlier last,
      lines (text ++ [character]) = earlier ++ [last ++ [character]] := by
  obtain ⟨earlier, line, later, left, right, linesEq, lineEq, _, afterEq⟩ :=
    joinLines_eq_append_cons different (joinLines_lines (text ++ [character]))
  obtain ⟨rightEq, laterEq⟩ := List.append_eq_nil_iff.mp afterEq.symm
  have noLater : later = [] := by
    cases later with
    | nil => rfl
    | cons next later => simp at laterEq
  exact ⟨earlier, left, by rw [linesEq, lineEq, rightEq, noLater]⟩

theorem isBlank_joinLines (pieces : List Text) :
    isBlank (joinLines pieces) = pieces.all isBlank := by
  cases pieces with
  | nil => rfl
  | cons line rest =>
      have below : isBlank (rest.flatMap ('\n' :: ·)) = rest.all isBlank := by
        induction rest with
        | nil => rfl
        | cons next rest induction =>
            rw [List.flatMap_cons, isBlank_append, induction, List.all_cons]
            rfl
      rw [joinLines_cons, isBlank_append, below, List.all_cons]

theorem isBlank_eq_all_lines (text : Text) :
    isBlank text = (lines text).all isBlank := by
  rw [← isBlank_joinLines, joinLines_lines]

theorem exists_lines_append (left right : Text) :
    ∃ front last first rest, lines left = front ++ [last] ∧
      lines right = first :: rest ∧
      lines (left ++ right) = front ++ (last ++ first) :: rest := by
  obtain ⟨front, last, leftEq⟩ :=
    (List.eq_nil_or_concat (lines left)).resolve_left (lines_ne_nil left)
  obtain ⟨first, rest, rightEq⟩ :=
    List.exists_cons_of_ne_nil (lines_ne_nil right)
  rw [List.concat_eq_append] at leftEq
  refine ⟨front, last, first, rest, leftEq, rightEq, ?_⟩
  have inLeft : ∀ line ∈ front ++ [last], '\n' ∉ line := fun line member =>
    not_mem_of_mem_lines (leftEq ▸ member)
  have inRight : ∀ line ∈ first :: rest, '\n' ∉ line := fun line member =>
    not_mem_of_mem_lines (rightEq ▸ member)
  have whole :
      left ++ right = joinLines (front ++ (last ++ first) :: rest) := by
    rw [← joinLines_lines left, ← joinLines_lines right, leftEq, rightEq,
      joinLines_append_cons, joinLines_append_cons, joinLines_cons]
    simp
  rw [whole]
  apply lines_joinLines (by simp)
  intro line member
  rcases List.mem_append.mp member with inFront | below
  · exact inLeft line (by simp [inFront])
  · rcases List.mem_cons.mp below with rfl | inRest
    · rw [List.mem_append, not_or]
      exact ⟨inLeft last (by simp), inRight first (by simp)⟩
    · exact inRight line (by simp [inRest])

/-- The line feed at the end of a text, if there is one. -/
def finalBreak (text : Text) : Text :=
  if text.getLast? == some '\n' then ['\n'] else []

theorem finalBreak_of_visible {text : Text}
    (visible : text.getLast?.any (!isSpace ·)) :
    finalBreak text = [] := by
  have different : text.getLast? ≠ some '\n' := by
    intro last
    rw [last] at visible
    cases visible
  simp [finalBreak, different]

/-- The empty line behind a line feed at the end of a text. -/
def closingLine (broken : Bool) : List Text :=
  if broken then [[]] else []

theorem eq_nil_of_mem_closingLine {line : Text} {broken : Bool}
    (member : line ∈ closingLine broken) : line = [] := by
  cases broken with
  | false => cases member
  | true => exact List.mem_singleton.mp member

theorem joinLines_closingLine {pieces : List Text} (nonempty : pieces ≠ [])
    (broken : Bool) :
    joinLines (pieces ++ closingLine broken) =
      joinLines pieces ++ (if broken then ['\n'] else []) := by
  rw [joinLines_append nonempty]
  cases broken <;> rfl

theorem appendLine_eq {text line : Text} (visible : isBlank text = false) :
    appendLine text line = trimEnd text ++ '\n' :: line ++ finalBreak text := by
  have nonempty : (trimEnd text).isEmpty = false := by
    simpa using trimEnd_ne_nil visible
  simp [appendLine, finalBreak, nonempty]

theorem appendLine_eq_joinLines {text : Text} (visible : isBlank text = false)
    (line : Text) :
    appendLine text line =
      joinLines (lines (trimEnd text) ++ [line] ++
        closingLine (text.getLast? == some '\n')) := by
  rw [appendLine_eq visible, joinLines_closingLine (by simp),
    joinLines_append (lines_ne_nil _), joinLines_lines, finalBreak]
  simp

theorem lines_appendLine {text line : Text} (visible : isBlank text = false)
    (oneLine : '\n' ∉ line) :
    lines (appendLine text line) =
      lines (trimEnd text) ++ line ::
        closingLine (text.getLast? == some '\n') := by
  rw [appendLine_eq_joinLines visible, List.append_assoc, List.singleton_append]
  apply lines_joinLines (by simp)
  intro other member
  rcases List.mem_append.mp member with above | below
  · exact not_mem_of_mem_lines above
  · rcases List.mem_cons.mp below with rfl | closing
    · exact oneLine
    · rw [eq_nil_of_mem_closingLine closing]
      exact List.not_mem_nil

/-- A line is appended behind the last one that is not blank. -/
theorem appendLine_joinLines (earlier : List Text) {last : Text} (broken : Bool)
    (line : Text) (visible : isBlank last = false) (oneLine : '\n' ∉ last) :
    appendLine (joinLines (earlier ++ [last] ++ closingLine broken)) line =
      joinLines (earlier ++ [trimEnd last, line] ++ closingLine broken) := by
  have whole : joinLines (earlier ++ [last] ++ closingLine broken) =
      earlier.flatMap (· ++ ['\n']) ++ last ++
        (if broken then ['\n'] else []) := by
    rw [joinLines_closingLine (by simp), joinLines_append_cons]
    simp
  have breaks :
      ∀ character ∈ (if broken then ['\n'] else []), isSpace character := by
    intro character member
    cases broken with
    | false => cases member
    | true =>
        rw [List.mem_singleton.mp member]
        rfl
  have trimmed : trimEnd (joinLines (earlier ++ [last] ++ closingLine broken)) =
      earlier.flatMap (· ++ ['\n']) ++ trimEnd last := by
    rw [whole, trimEnd_append_of_isSpace breaks,
      trimEnd_append_of_not_isBlank visible]
  have notBlank :
      isBlank (joinLines (earlier ++ [last] ++ closingLine broken)) =
        false := by
    rw [whole, isBlank_append, isBlank_append, visible, Bool.and_false,
      Bool.false_and]
  have ending :
      finalBreak (joinLines (earlier ++ [last] ++ closingLine broken)) =
        if broken then ['\n'] else [] := by
    rw [finalBreak, whole]
    cases broken with
    | true => simp
    | false =>
        rcases List.eq_nil_or_concat last with rfl | ⟨front, character, rfl⟩
        · cases visible
        · have different : character ≠ '\n' := by
            intro lineFeed
            exact oneLine (by simp [lineFeed])
          simp [different]
  have shape : earlier ++ [trimEnd last, line] ++ closingLine broken =
      earlier ++ trimEnd last :: (line :: closingLine broken) := by
    simp
  rw [appendLine_eq notBlank, trimmed, ending, shape, joinLines_append_cons]
  cases broken <;> simp [closingLine]

end DiagramEdit.Text
