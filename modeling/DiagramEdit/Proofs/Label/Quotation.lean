import DiagramEdit.Proofs.Label.Description

/-!
# What the readers of a description accept

The reader of a description and the one that looks for the description to be
changed accept the same words: `state`, a label between quotes, `as` and the
state as a whole word.  They differ in where these may stand.  The former reads
them anywhere, the latter only behind the blanks with which a line begins, and
it knows another form with a colon as well.
-/

namespace DiagramEdit

/-- Behind a text that does not end in a word, the identifier is a whole word in
front of the rest, as far as its ends ask for that. -/
def IsWholeBefore (id rest : Text) : Prop :=
  (id.head?.any Text.isNameCharacter → Text.startsWithWord id) ∧
    (id.getLast?.any Text.isNameCharacter →
      Text.endsInWord id ≠ Text.startsWithWord rest)

/-- What stands behind the closing quote of a description. -/
def EndsDescription (id tail : Text) : Prop :=
  ∃ space margin rest,
    tail = space ++ ("as".toList ++ (margin ++ (id ++ rest))) ∧
      Text.IsGap space ∧ Text.IsGap margin ∧ IsWholeBefore id rest

/-- A text begins with the description of a state. -/
def Describes (id label text : Text) : Prop :=
  ∃ space tail,
    text = "state".toList ++ (space ++ '"' :: (label ++ '"' :: tail)) ∧
      Text.IsGap space ∧ EndsDescription id tail

/-- As `Describes`, behind blanks. -/
def BeginsDescription (id label text : Text) : Prop :=
  ∃ indent more, text = indent ++ more ∧
    (∀ character ∈ indent, Text.isBlankCharacter character) ∧
    Describes id label more

/-- A text begins with a line that holds a state, a colon and its label, and
blanks besides. -/
def BeginsColonLabel (id label text : Text) : Prop :=
  ∃ indent margin blanks rest,
    text = indent ++ (id ++ (margin ++ ':' :: (blanks ++ (label ++ rest)))) ∧
      (∀ character ∈ indent, Text.isBlankCharacter character) ∧
      (∀ character ∈ margin, Text.isBlankCharacter character) ∧
      (∀ character ∈ blanks, Text.isBlankCharacter character) ∧
      IsWholeBefore id (margin ++ ':' :: (blanks ++ (label ++ rest))) ∧
      Text.EndsLine rest

/-- Behind the blanks with which a line begins no word goes on. -/
theorem Text.StartsLine.endsInWord_append {before indent : Text}
    (starts : Text.StartsLine before)
    (blank : ∀ character ∈ indent, Text.isBlankCharacter character) :
    Text.endsInWord (before ++ indent) = false := by
  have atStart : Place.isLineStart ⟨before.reverse, []⟩ :=
    Text.isLineStart_cut_iff.mpr starts
  have apart := endsInWord_of_isLineStart atStart
  rw [List.reverse_reverse] at apart
  exact endsInWord_append_blanks apart blank

theorem Passes.stop_eq_cut {passed before after : Text} {stop : Place}
    (passes : Passes passed ⟨before.reverse, after⟩ stop) :
    stop = ⟨(before ++ passed).reverse, stop.after⟩ := by
  have stopBefore := passes.before
  cases stop
  simpa using stopBefore

namespace Pattern

variable {id label written before after : Text}

theorem wholeWord_eq_some_iff_of_apart {stop : Place}
    (apart : Text.endsInWord before = false) :
    wholeWord id ⟨before.reverse, after⟩ = some ((), stop) ↔
      ∃ rest, after = id ++ rest ∧ IsWholeBefore id rest ∧
        stop = ⟨(before ++ id).reverse, rest⟩ := by
  rw [wholeWord_eq_some_iff, identifier_cut_iff, standsApart_iff_of_apart apart]
  constructor
  · intro parts
    obtain ⟨⟨starts, rest, split, rfl⟩, bounded⟩ := parts
    refine ⟨rest, split, ⟨starts, ?_⟩, rfl⟩
    intro asked
    have boundary := bounded asked
    rwa [isWordBoundary_cut, endsInWord_append_of_apart apart, bne_iff_ne]
      at boundary
  · intro parts
    obtain ⟨rest, split, ⟨starts, ends⟩, rfl⟩ := parts
    refine ⟨⟨starts, rest, split, rfl⟩, ?_⟩
    intro asked
    rw [isWordBoundary_cut, endsInWord_append_of_apart apart, bne_iff_ne]
    exact ends asked

theorem isSome_quoteAsState_iff :
    (quoteAsState id ⟨before.reverse, after⟩).isSome ↔
      ∃ tail, after = '"' :: tail ∧ EndsDescription id tail := by
  constructor
  · intro reads
    obtain ⟨⟨_, _⟩, read⟩ := Option.isSome_iff_exists.mp reads
    simp only [quoteAsState, bind_eq_some_iff] at read
    obtain ⟨_, _, closing, space, _, spaced, _, _, keyword, named⟩ := read
    obtain ⟨spaceNonempty, passesSpace, spaces⟩ := passes_nonemptyRun spaced
    obtain ⟨margin, middle, marginNonempty, passesMargin, margins, word⟩ :=
      passes_afterSpace named
    have passes := (passes_literal closing).append (passesSpace.append
      ((passes_literal keyword).append passesMargin))
    have apart :
        Text.endsInWord
            (before ++ (['"'] ++ (space ++ ("as".toList ++ margin)))) =
          false := by
      simp only [← List.append_assoc]
      exact Text.endsInWord_append_space _ marginNonempty margins
    rw [passes.stop_eq_cut] at word
    obtain ⟨rest, restEq, whole, _⟩ :=
      (wholeWord_eq_some_iff_of_apart apart).mp word
    refine ⟨space ++ ("as".toList ++ (margin ++ (id ++ rest))), ?_, space,
      margin, rest, rfl, ⟨spaceNonempty, spaces⟩, ⟨marginNonempty, margins⟩,
      whole⟩
    have afterEq := passes.after
    rw [restEq] at afterEq
    simpa using afterEq
  · intro parts
    obtain ⟨_, rfl, space, margin, rest, rfl, spaceGap, marginGap, whole⟩ :=
      parts
    have cut : '"' :: (space ++ ("as".toList ++ (margin ++ (id ++ rest)))) =
        ['"'] ++ (space ++ ("as".toList ++ (margin ++ (id ++ rest)))) := rfl
    have apart : ∀ front, Text.endsInWord (front ++ margin) = false :=
      fun front => Text.endsInWord_append_space front marginGap.1 marginGap.2
    rw [cut, quoteAsState, bind_eq_of_some (literal_written _ _ _),
      bind_eq_of_some (nonemptyRun_written _ _ spaceGap.1 spaceGap.2 (by rfl)),
      bind_eq_of_some (literal_written _ _ _)]
    apply exists_afterSpace marginGap.1 marginGap.2
    rw [(wholeWord_eq_some_iff_of_apart (apart _)).mpr ⟨rest, rfl, whole, rfl⟩]
    rfl

theorem exists_quoteAsState {tail : Text} (ends : EndsDescription id tail)
    (before : Text) :
    ∃ stop,
      quoteAsState id ⟨before.reverse, '"' :: tail⟩ = some ((), stop) := by
  have reads : (quoteAsState id ⟨before.reverse, '"' :: tail⟩).isSome :=
    isSome_quoteAsState_iff.mpr ⟨tail, rfl, ends⟩
  obtain ⟨⟨_, stop⟩, read⟩ := Option.isSome_iff_exists.mp reads
  exact ⟨stop, read⟩

/-- A description is read where it stands. -/
theorem exists_describedState_iff :
    (∃ stop, describedState id ⟨before.reverse, after⟩ = some (label, stop)) ↔
      Describes id label after ∧ label ≠ [] ∧ '"' ∉ label := by
  constructor
  · intro parts
    obtain ⟨_, read⟩ := parts
    simp only [describedState, bind_eq_some_iff, pure_eq_some_iff] at read
    obtain ⟨_, _, word, space, _, spaced, _, _, opening, _, _, quoted, _, _,
      named, rfl, _⟩ := read
    obtain ⟨spaceNonempty, passesSpace, spaces⟩ := passes_nonemptyRun spaced
    obtain ⟨labelNonempty, passesLabel, unquoted⟩ := passes_nonemptyRun quoted
    have passes := (passes_literal word).append (passesSpace.append
      ((passes_literal opening).append passesLabel))
    rw [passes.stop_eq_cut] at named
    obtain ⟨tail, tailEq, ends⟩ :=
      isSome_quoteAsState_iff.mp (Option.isSome_of_eq_some named)
    refine ⟨⟨space, tail, ?_, ⟨spaceNonempty, spaces⟩, ends⟩, labelNonempty, ?_⟩
    · have afterEq := passes.after
      rw [tailEq] at afterEq
      simpa using afterEq
    · intro member
      simpa using unquoted '"' member
  · intro parts
    obtain ⟨⟨space, tail, rfl, gap, ends⟩, nonempty, unquoted⟩ := parts
    have cut : "state".toList ++ (space ++ '"' :: (label ++ '"' :: tail)) =
        "state".toList ++ (space ++ (['"'] ++ (label ++ '"' :: tail))) := rfl
    obtain ⟨stop, named⟩ := exists_quoteAsState ends
      (before ++ "state".toList ++ space ++ ['"'] ++ label)
    refine ⟨stop, ?_⟩
    rw [cut, describedState, bind_eq_of_some (literal_written _ _ _),
      bind_eq_of_some (nonemptyRun_written _ _ gap.1 gap.2 (by rfl)),
      bind_eq_of_some (literal_written _ _ _),
      bind_eq_of_some
        (nonemptyRun_written _ _ nonempty (bne_of_not_mem unquoted) (by rfl)),
      bind_eq_of_some named]
    rfl

/-- What is looked for stands behind the blanks with which a line begins. -/
theorem cuts_of_labelOfState {found : Region} {stop : Place}
    (read :
      labelOfState id written ⟨before.reverse, after⟩ = some (found, stop)) :
    Text.StartsLine before ∧
      ∃ indent space tail,
        found.Cuts (before ++ after)
            (before ++ (indent ++ ("state".toList ++ (space ++ ['"'])))) written
            ('"' :: tail) ∧
          (∀ character ∈ indent, Text.isBlankCharacter character) ∧
          Text.IsGap space ∧ EndsDescription id tail := by
  simp only [labelOfState, bind_eq_some_iff, check_eq_some_iff,
    pure_eq_some_iff] at read
  obtain ⟨_, _, ⟨starts, rfl⟩, indent, _, run, _, _, word, space, _, spaced, _,
    _, opening, _, behind, here, _, _, named, rfl, _⟩ := read
  obtain ⟨rfl, reads⟩ := passes_region here
  obtain ⟨passesIndent, blank⟩ := passes_run run
  obtain ⟨nonempty, passesSpace, spaces⟩ := passes_nonemptyRun spaced
  have leads := passesIndent.append
    ((passes_literal word).append (passesSpace.append (passes_literal opening)))
  have passes : Passes _ ⟨before.reverse, after⟩ behind := leads.append reads
  rw [passes.stop_eq_cut] at named
  obtain ⟨tail, tailEq, ends⟩ :=
    isSome_quoteAsState_iff.mp (Option.isSome_of_eq_some named)
  have cuts := leads.cuts reads
  rw [tailEq] at cuts
  refine ⟨Text.isLineStart_cut_iff.mp starts, indent, space, tail, ?_, blank,
    ⟨nonempty, spaces⟩, ends⟩
  simpa [Place.text] using cuts

theorem isSome_labelOfState_iff :
    (labelOfState id written ⟨before.reverse, after⟩).isSome ↔
      Text.StartsLine before ∧ BeginsDescription id written after := by
  constructor
  · intro reads
    obtain ⟨⟨found, stop⟩, read⟩ := Option.isSome_iff_exists.mp reads
    obtain ⟨starts, indent, space, tail, cuts, blank, gap, ends⟩ :=
      cuts_of_labelOfState read
    have split := cuts.text_eq
    simp only [List.append_assoc, List.append_cancel_left_eq] at split
    exact ⟨starts, indent, _, split, blank, space, tail, by simp, gap, ends⟩
  · intro parts
    obtain ⟨starts, indent, _, rfl, blank, space, tail, rfl, gap, ends⟩ := parts
    obtain ⟨stop, named⟩ := exists_quoteAsState ends
      (before ++ indent ++ "state".toList ++ space ++ ['"'] ++ written)
    have cut :
        indent ++
            ("state".toList ++ (space ++ '"' :: (written ++ '"' :: tail))) =
          indent ++
            ("state".toList ++
              (space ++ (['"'] ++ (written ++ '"' :: tail)))) :=
      rfl
    have labelled :
        region (literal written) ⟨(before ++ indent ++ "state".toList ++
              space ++ ['"']).reverse, written ++ '"' :: tail⟩ = some (_, _) :=
      region_eq_some_iff.mpr ⟨literal_written _ _ _, rfl⟩
    rw [cut, labelOfState, bind_eq_of_some (lineStart_written starts _),
      bind_eq_of_some (run_written _ _ blank (by rfl)),
      bind_eq_of_some (literal_written _ _ _),
      bind_eq_of_some (nonemptyRun_written _ _ gap.1 gap.2 (by rfl)),
      bind_eq_of_some (literal_written _ _ _), bind_eq_of_some labelled,
      bind_eq_of_some named]
    rfl

/-- The state, a colon and the label at the end of the line. -/
def labelBehindState (id written : Text) : Pattern Region := do
  wholeWord id
  let _ ← run Text.isBlankCharacter
  literal [':']
  let (_, label) ← longestThen Text.isBlankCharacter (aliasAtLineEnd written)
  return label

theorem isSome_aliasAtLineEnd_iff {place : Place} :
    (aliasAtLineEnd written place).isSome ↔
      ∃ rest, place.after = written ++ rest ∧ Text.EndsLine rest := by
  simp only [Option.isSome_iff_exists, Prod.exists, aliasAtLineEnd_eq_some_iff]
  constructor
  · intro parts
    obtain ⟨_, stop, rest, split, rfl, ended⟩ := parts
    exact ⟨rest, split,
      exists_blankLineEnd_iff.mp ⟨(), stop, ended.choose_spec⟩⟩
  · intro parts
    obtain ⟨rest, split, ends⟩ := parts
    obtain ⟨nothing, stop, read⟩ := exists_blankLineEnd_iff.mpr ends
    exact ⟨_, stop, rest, split, rfl, nothing, read⟩

theorem isSome_labelBehindState_iff (apart : Text.endsInWord before = false) :
    (labelBehindState id written ⟨before.reverse, after⟩).isSome ↔
      ∃ margin blanks rest,
        after = id ++ (margin ++ ':' :: (blanks ++ (written ++ rest))) ∧
          (∀ character ∈ margin, Text.isBlankCharacter character) ∧
          (∀ character ∈ blanks, Text.isBlankCharacter character) ∧
          IsWholeBefore id (margin ++ ':' :: (blanks ++ (written ++ rest))) ∧
          Text.EndsLine rest := by
  constructor
  · intro reads
    obtain ⟨⟨found, stop⟩, read⟩ := Option.isSome_iff_exists.mp reads
    simp only [labelBehindState, bind_eq_some_iff, pure_eq_some_iff,
      Prod.exists] at read
    obtain ⟨_, _, word, margin, _, run, _, _, colon, blanks, _, _, longest,
      _⟩ := read
    obtain ⟨behind, split, whole, rfl⟩ :=
      (wholeWord_eq_some_iff_of_apart apart).mp word
    obtain ⟨passesMargin, marginBlank⟩ := passes_run run
    obtain ⟨_, passesBlanks, blank, label⟩ := passes_longestThen longest
    obtain ⟨rest, labelEq, ends⟩ :=
      isSome_aliasAtLineEnd_iff.mp (Option.isSome_of_eq_some label)
    have behindEq :=
      (passesMargin.append ((passes_literal colon).append passesBlanks)).after
    rw [labelEq] at behindEq
    have colonEq : behind = margin ++ ':' :: (blanks ++ (written ++ rest)) := by
      simpa using behindEq
    exact ⟨margin, blanks, rest, by rw [split, colonEq], marginBlank, blank,
      colonEq ▸ whole, ends⟩
  · intro parts
    obtain ⟨margin, blanks, rest, rfl, marginBlank, blank, whole, ends⟩ := parts
    have cut : margin ++ ':' :: (blanks ++ (written ++ rest)) =
        margin ++ ([':'] ++ (blanks ++ (written ++ rest))) := rfl
    have labelled : ∀ front : Text,
        (longestThen Text.isBlankCharacter (aliasAtLineEnd written)
          ⟨front.reverse, blanks ++ (written ++ rest)⟩).isSome :=
      fun front =>
        exists_longestThen blank
          (isSome_aliasAtLineEnd_iff.mpr ⟨rest, rfl, ends⟩)
    obtain ⟨⟨_, stop⟩, read⟩ := Option.isSome_iff_exists.mp
      (labelled (before ++ id ++ margin ++ [':']))
    rw [labelBehindState,
      bind_eq_of_some
        ((wholeWord_eq_some_iff_of_apart apart).mpr ⟨_, rfl, whole, rfl⟩), cut,
      bind_eq_of_some (run_written _ _ marginBlank (by rfl)),
      bind_eq_of_some (literal_written _ _ _), bind_eq_of_some read]
    rfl

theorem isSome_labelAfterColon_iff :
    (labelAfterColon id written ⟨before.reverse, after⟩).isSome ↔
      Text.StartsLine before ∧ BeginsColonLabel id written after := by
  have unfolded : labelAfterColon id written = do
      check Place.isLineStart
      let (_, label) ← longestThen Text.isBlankCharacter
        (labelBehindState id written)
      return label := rfl
  rw [unfolded]
  constructor
  · intro reads
    obtain ⟨⟨found, stop⟩, read⟩ := Option.isSome_iff_exists.mp reads
    simp only [bind_eq_some_iff, check_eq_some_iff, pure_eq_some_iff,
      Prod.exists] at read
    obtain ⟨_, _, ⟨starts, rfl⟩, indent, _, _, longest, _, _⟩ := read
    obtain ⟨middle, passesIndent, blank, state⟩ := passes_longestThen longest
    rw [Text.isLineStart_cut_iff] at starts
    have apart := starts.endsInWord_append blank
    rw [passesIndent.stop_eq_cut] at state
    obtain ⟨margin, blanks, rest, split, parts⟩ :=
      (isSome_labelBehindState_iff apart).mp (Option.isSome_of_eq_some state)
    refine ⟨starts, indent, margin, blanks, rest, ?_, blank, parts⟩
    rw [← split]
    exact passesIndent.after
  · intro parts
    obtain ⟨starts, indent, margin, blanks, rest, rfl, blank, others⟩ := parts
    have apart := starts.endsInWord_append blank
    have state : (labelBehindState id written ⟨(before ++ indent).reverse,
        id ++ (margin ++ ':' :: (blanks ++ (written ++ rest)))⟩).isSome :=
      (isSome_labelBehindState_iff apart).mpr
        ⟨margin, blanks, rest, rfl, others⟩
    rw [List.reverse_append] at state
    obtain ⟨⟨_, stop⟩, read⟩ :=
      Option.isSome_iff_exists.mp (exists_longestThen blank state)
    rw [bind_eq_of_some (lineStart_written starts _), bind_eq_of_some read]
    rfl

end Pattern

end DiagramEdit
