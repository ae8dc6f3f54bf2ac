import DiagramEdit.Proofs.Label.ParticipantHead

/-!
# Where a declared label stands

A declaration starts its line, and its label stands behind the head of a
participant, between the quotes of a described state, or behind a state and a
colon.  Each of these readers is described by the cut that it makes in the text.
A label edit is refused, rewrites a declaration, or replaces the label
everywhere.
-/

namespace DiagramEdit

theorem endsInWord_of_isLineStart {place : Place} (starts : place.isLineStart) :
    Text.endsInWord place.before.reverse = false := by
  rw [Text.endsInWord, List.getLast?_reverse]
  rw [Place.isLineStart] at starts
  cases first : place.before.head? with
  | none => rfl
  | some character =>
      obtain rfl : character = '\n' := by simpa [first] using starts
      exact Text.isWordCharacter_lineFeed

theorem endsInWord_append_blanks {text blanks : Text}
    (ends : Text.endsInWord text = false)
    (blank : ∀ character ∈ blanks, Text.isBlankCharacter character) :
    Text.endsInWord (text ++ blanks) = false := by
  cases blanks with
  | nil => rwa [List.append_nil]
  | cons first blanks =>
      exact Text.endsInWord_append_space text (by simp) fun character member =>
        Text.isSpace_of_isBlankCharacter (blank character member)

/-- Behind the closing quote of a description stand `as` and the state, and no
word goes on from there. -/
def NamesState (id tail : Text) : Prop :=
  ∃ space margin rest,
    tail = space ++ ("as".toList ++ (margin ++ (id ++ rest))) ∧
      Text.IsGap space ∧ Text.IsGap margin ∧
      (id.getLast?.any Text.isNameCharacter → Text.endsInWord id →
        Text.startsWithWord rest = false)

namespace Pattern

variable {place stop : Place} {text written id : Text} {found : Region}

/-- An alias stands behind the word that declares a participant. -/
theorem exists_of_aliasOfParticipant
    (searched : (aliasOfParticipant written).first? text = some found) :
    ∃ before keyword gap rest,
      found.Cuts text (before ++ (keyword ++ gap)) written rest ∧
        Text.endsInWord before = false ∧ IsParticipantWord keyword := by
  obtain ⟨place, stop, rfl, read⟩ := exists_of_first?_eq_some searched
  obtain ⟨starts, head, rest, _, _, cuts⟩ :=
    exists_head_of_aliasOfParticipant read
  refine ⟨place.before.reverse ++ head.indent, head.keyword,
    head.gap ++ head.name ++ head.space ++ "as".toList ++ head.margin, rest, ?_,
    endsInWord_append_blanks (endsInWord_of_isLineStart starts)
      head.indent_blank, head.isKeyword⟩
  simpa [ParticipantHead.written, ParticipantHead.lead] using cuts

theorem namesState_of_quoteAsState {nothing : Unit}
    (read : quoteAsState id place = some (nothing, stop)) :
    ∃ tail, place.after = '"' :: tail ∧ NamesState id tail := by
  simp only [quoteAsState, bind_eq_some_iff] at read
  obtain ⟨_, _, closing, space, _, spaced, _, _, keyword, named⟩ := read
  obtain ⟨spaceNonempty, passesSpace, spaces⟩ := passes_nonemptyRun spaced
  obtain ⟨margin, middle, marginNonempty, passesMargin, margins, word⟩ :=
    passes_afterSpace named
  obtain ⟨found, bounded⟩ := wholeWord_eq_some_iff.mp word
  obtain ⟨_, rest, split, rfl⟩ := identifier_eq_some_iff.mp found
  have passes := ((passes_literal closing).append (passesSpace.append
    ((passes_literal keyword).append passesMargin))).after
  refine ⟨space ++ ("as".toList ++ (margin ++ (id ++ rest))), ?_, space, margin,
    rest, rfl, ⟨spaceNonempty, spaces⟩, ⟨marginNonempty, margins⟩, ?_⟩
  · rw [passes, split]
    simp
  · intro asked ends
    have boundary := bounded asked
    have whole : id.reverse ++ middle.before =
        (middle.before.reverse ++ id).reverse := by
      simp
    have nonempty : id ≠ [] := by
      rintro rfl
      cases asked
    rw [whole, isWordBoundary_cut, Text.endsInWord_append _ nonempty, ends]
      at boundary
    simpa using boundary

/-- The description of a state stands between quotes behind the word `state`. -/
theorem exists_of_labelOfState
    (searched : (labelOfState id written).first? text = some found) :
    ∃ before space tail,
      found.Cuts text (before ++ ("state".toList ++ (space ++ ['"']))) written
          ('"' :: tail) ∧ Text.endsInWord before = false ∧ Text.IsGap space ∧
        NamesState id tail := by
  obtain ⟨place, stop, rfl, read⟩ := exists_of_first?_eq_some searched
  simp only [labelOfState, bind_eq_some_iff, check_eq_some_iff,
    pure_eq_some_iff] at read
  obtain ⟨_, _, ⟨starts, rfl⟩, blanks, _, run, _, _, word, space, _, spaces, _,
    _, quote, _, _, here, _, _, named, rfl, rfl⟩ := read
  obtain ⟨rfl, reads⟩ := passes_region here
  obtain ⟨passesBlanks, blank⟩ := passes_run run
  obtain ⟨nonempty, passesSpace, isSpace⟩ := passes_nonemptyRun spaces
  obtain ⟨tail, closing, names⟩ := namesState_of_quoteAsState named
  have cuts :=
    (passesBlanks.append ((passes_literal word).append
        (passesSpace.append (passes_literal quote)))).cuts reads
  rw [← List.append_assoc place.before.reverse blanks, closing] at cuts
  exact ⟨_, space, tail, cuts,
    endsInWord_append_blanks (endsInWord_of_isLineStart starts) blank,
    ⟨nonempty, isSpace⟩, names⟩

theorem exists_of_labelAfterColon
    (searched : (labelAfterColon id written).first? text = some found) :
    ∃ before blanks rest,
      found.Cuts text (before ++ ':' :: blanks) written rest ∧
        ∀ character ∈ blanks, Text.isBlankCharacter character := by
  obtain ⟨place, stop, rfl, read⟩ := exists_of_first?_eq_some searched
  simp only [labelAfterColon, bind_eq_some_iff, check_eq_some_iff,
    pure_eq_some_iff, Prod.exists] at read
  obtain ⟨_, _, ⟨_, rfl⟩, indent, _, _, state, rfl, rfl⟩ := read
  obtain ⟨_, passesIndent, _, state⟩ := passes_longestThen state
  simp only [bind_eq_some_iff, pure_eq_some_iff, Prod.exists] at state
  obtain ⟨_, _, word, _, _, run, _, _, colon, blanks, _, _, label, rfl, rfl⟩ :=
    state
  obtain ⟨_, passesBlanks, blank, label⟩ := passes_longestThen label
  simp only [bind_eq_some_iff, pure_eq_some_iff] at label
  obtain ⟨_, _, here, _, _, _, rfl, rfl⟩ := label
  obtain ⟨rfl, reads⟩ := passes_region here
  have head :=
    (passesIndent.append (passes_wholeWord word)).append (passes_run run).1
  have cuts :=
    (head.append ((passes_literal colon).append passesBlanks)).cuts reads
  rw [← List.append_assoc place.before.reverse] at cuts
  exact ⟨_, blanks, _, cuts, blank⟩

end Pattern

section Relabel

variable {text id old new edited : Text} {dialect : Dialect}

theorem relabel_of_refused
    (refused : (old == new || new.any isLineBreak) = true) :
    relabel text dialect id old new = text := by
  unfold relabel
  exact if_pos refused

theorem not_refused (differs : old ≠ new)
    (oneLine : ∀ character ∈ new, isLineBreak character = false) :
    (old == new || new.any isLineBreak) = false := by
  rw [Bool.or_eq_false_iff, List.any_eq_false]
  exact ⟨by simpa using differs, by simpa using oneLine⟩

theorem relabel_flowchart
    (accepted : (old == new || new.any isLineBreak) = false) :
    relabel text .flowchart id old new = updateLabel text id new := by
  unfold relabel
  exact if_neg (by simp [accepted])

theorem relabel_of_declared
    (accepted : (old == new || new.any isLineBreak) = false)
    (changed : relabelDeclaration? text dialect id old new = some edited) :
    relabel text dialect id old new = edited := by
  unfold relabel
  rw [if_neg (by simp [accepted])]
  cases dialect with
  | flowchart => cases changed
  | _ => simp only [changed]

theorem relabel_of_undeclared
    (accepted : (old == new || new.any isLineBreak) = false)
    (other : dialect ≠ .flowchart)
    (undeclared : relabelDeclaration? text dialect id old new = none) :
    relabel text dialect id old new =
      if old = [] then text else Text.replaceAll old new text := by
  unfold relabel
  rw [if_neg (by simp [accepted])]
  cases dialect with
  | flowchart => contradiction
  | _ => simp only [undeclared, List.isEmpty_iff]

end Relabel

end DiagramEdit
