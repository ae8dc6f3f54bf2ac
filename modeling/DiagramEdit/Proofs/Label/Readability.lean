import DiagramEdit.Proofs.Label.Quotation

/-!
# Whether a changed description can be read

Where no quote stands in front of the description of a state, its opening quote
is the first one of the text.  Whatever reads a description begins no later than
there, so it goes on between these quotes.  A change of label writes the new one
between them, whatever it is, and the reader stops at the next quote.  So a
label that holds a quote is written, but not read.
-/

namespace DiagramEdit

/-- The new label is read, or it holds a quote and leaves the text as it was. -/
def ReadsBackOrStays (text id old new : Text) : Prop :=
  stateDescription? (relabel text .states id old new) id = some new ∨
    ('"' ∈ new ∧ relabel text .states id old new = text)

/-- What stands around the label of a state that a line begins to describe,
without a quote in front of it. -/
structure DescriptionFrame (id : Text) where
  before : Text
  indent : Text
  space : Text
  tail : Text
  before_unquoted : '"' ∉ before
  before_startsLine : Text.StartsLine before
  indent_blank : ∀ character ∈ indent, Text.isBlankCharacter character
  space_isGap : Text.IsGap space
  tail_ends : EndsDescription id tail

/-- Where two cuts of a text at a quote have none in front of it, they are
one. -/
theorem eq_of_first_quote {front rest front' rest' : Text}
    (equality : front ++ '"' :: rest = front' ++ '"' :: rest')
    (unquoted : '"' ∉ front) (unquoted' : '"' ∉ front') :
    front = front' ∧ rest = rest' := by
  obtain ⟨same, behind⟩ :=
    Pattern.eq_of_append_eq_append_of_stops equality
      (Pattern.bne_of_not_mem unquoted) (Pattern.bne_of_not_mem unquoted')
      (by rfl) (by rfl)
  exact ⟨same, (List.cons.inj behind).2⟩

theorem quote_not_mem_of_earlier {front rest front' rest' : Text}
    (equality : front ++ rest = front' ++ rest') (unquoted : '"' ∉ front')
    (earlier : front.length ≤ front'.length) : '"' ∉ front := by
  have begins : front <+: front' :=
    List.prefix_of_prefix_length_le (List.prefix_append front rest)
      (equality ▸ List.prefix_append front' rest') earlier
  intro member
  exact unquoted (begins.subset member)

theorem quote_not_mem_of_blank {indent : Text}
    (blank : ∀ character ∈ indent, Text.isBlankCharacter character) :
    '"' ∉ indent := by
  intro member
  cases blank '"' member

theorem Text.IsGap.quote_not_mem {space : Text} (gap : Text.IsGap space) :
    '"' ∉ space := by
  intro member
  cases gap.2 '"' member

namespace DescriptionFrame

variable {id old new label : Text}

/-- What stands in front of the opening quote. -/
def lead (frame : DescriptionFrame id) : Text :=
  frame.before ++ (frame.indent ++ ("state".toList ++ frame.space))

/-- The text with a label between the quotes. -/
def text (frame : DescriptionFrame id) (label : Text) : Text :=
  frame.lead ++ '"' :: (label ++ '"' :: frame.tail)

theorem text_eq (frame : DescriptionFrame id) (label : Text) :
    frame.text label =
      (frame.before ++ frame.indent) ++
        ("state".toList ++
          (frame.space ++ '"' :: (label ++ '"' :: frame.tail))) := by
  simp only [text, lead, List.append_assoc]

theorem text_inj (frame : DescriptionFrame id) :
    frame.text old = frame.text new ↔ old = new := by
  constructor
  · intro same
    have behind := List.append_cancel_left same
    exact List.append_cancel_right (List.cons.inj behind).2
  · intro same
    rw [same]

theorem lead_unquoted (frame : DescriptionFrame id) : '"' ∉ frame.lead := by
  have indent := quote_not_mem_of_blank frame.indent_blank
  have space := frame.space_isGap.quote_not_mem
  simp [lead, frame.before_unquoted, indent, space]

/-- A reader that begins no later than the description reads the label. -/
theorem eq_of_describedState (frame : DescriptionFrame id)
    {front rest other : Text} {stop : Place}
    (cut : frame.text label = front ++ rest)
    (earlier : front.length ≤ (frame.before ++ frame.indent).length)
    (read :
      Pattern.describedState id ⟨front.reverse, rest⟩ = some (other, stop))
    (unquoted : '"' ∉ label) :
    other = label := by
  obtain ⟨⟨space, tail, restEq, gap, _⟩, _, otherUnquoted⟩ :=
    Pattern.exists_describedState_iff.mp ⟨stop, read⟩
  have indent := quote_not_mem_of_blank frame.indent_blank
  have frontUnquoted : '"' ∉ front :=
    quote_not_mem_of_earlier (cut.symm.trans (frame.text_eq label))
      (by simp [frame.before_unquoted, indent]) earlier
  have quoted : frame.text label =
      (front ++ ("state".toList ++ space)) ++ '"' ::
        (other ++ '"' :: tail) := by
    rw [cut, restEq]
    simp only [List.append_assoc]
  obtain ⟨_, between⟩ := eq_of_first_quote quoted.symm
    (by simp [frontUnquoted, gap.quote_not_mem]) frame.lead_unquoted
  exact (eq_of_first_quote between otherUnquoted unquoted).1

/-- What is read from the text is the label, if this can be read at all. -/
theorem stateDescription?_text_iff (frame : DescriptionFrame id) :
    stateDescription? (frame.text label) id = some label ↔
      label ≠ [] ∧ '"' ∉ label := by
  constructor
  · intro found
    obtain ⟨_, _, stop, _, read, _⟩ :=
      Pattern.exists_leftmost_of_first?_eq_some found
    exact (Pattern.exists_describedState_iff.mp ⟨stop, read⟩).2
  · intro readable
    have placed := frame.text_eq label
    obtain ⟨_, here⟩ :
        ∃ stop, Pattern.describedState id _ = some (label, stop) :=
      Pattern.exists_describedState_iff.mpr ⟨⟨frame.space, frame.tail, rfl,
          frame.space_isGap, frame.tail_ends⟩, readable⟩
    have occurs : (Pattern.describedState id).occursIn (frame.text label) :=
      Pattern.occursIn_iff_cut.mpr ⟨_, _, placed, Option.isSome_of_eq_some here⟩
    obtain ⟨other, found⟩ := Option.isSome_iff_exists.mp occurs
    obtain ⟨front, rest, stop, cut, read, leftmost⟩ :=
      Pattern.exists_leftmost_of_first?_eq_some found
    have earlier :=
      leftmost _ _ placed (Option.ne_none_iff_exists'.mpr ⟨_, here⟩)
    rw [stateDescription?, found,
      frame.eq_of_describedState cut earlier read readable.2]

theorem replaceFirst?_text (frame : DescriptionFrame id) (old new : Text) :
    (Pattern.labelOfState id old).replaceFirst? (frame.text old) new =
      some (frame.text new) := by
  have placed : frame.text old =
      frame.before ++
        (frame.indent ++
          ("state".toList ++
            (frame.space ++ '"' :: (old ++ '"' :: frame.tail)))) := by
    rw [frame.text_eq, List.append_assoc]
  have here : (Pattern.labelOfState id old ⟨frame.before.reverse, _⟩).isSome :=
    Pattern.isSome_labelOfState_iff.mpr ⟨frame.before_startsLine, frame.indent,
      _, rfl, frame.indent_blank, frame.space, frame.tail, rfl,
      frame.space_isGap, frame.tail_ends⟩
  have occurs : (Pattern.labelOfState id old).occursIn (frame.text old) :=
    Pattern.occursIn_iff_cut.mpr ⟨_, _, placed, here⟩
  obtain ⟨found, searched⟩ := Option.isSome_iff_exists.mp occurs
  obtain ⟨front, rest, stop, cut, read, leftmost⟩ :=
    Pattern.exists_leftmost_of_first?_eq_some searched
  obtain ⟨_, indent, space, tail, cuts, blank, gap, _⟩ :=
    Pattern.cuts_of_labelOfState read
  rw [← cut] at cuts
  have earlier := leftmost _ _ placed (Option.isSome_iff_ne_none.mp here)
  have frontUnquoted : '"' ∉ front :=
    quote_not_mem_of_earlier (cut.symm.trans placed) frame.before_unquoted
      earlier
  have quoted : frame.text old =
      (front ++ (indent ++ ("state".toList ++ space))) ++ '"' ::
        (old ++ '"' :: tail) := by
    rw [cuts.text_eq]
    simp
  obtain ⟨leadEq, between⟩ :=
    eq_of_first_quote quoted.symm
      (by simp [frontUnquoted, quote_not_mem_of_blank blank, gap.quote_not_mem])
      frame.lead_unquoted
  have closing := List.append_cancel_left between
  rw [Pattern.replaceFirst?, searched, Option.map_some, cuts.replace_eq,
    closing, text, ← leadEq]
  simp

theorem relabel_text (frame : DescriptionFrame id)
    (oneLine : ∀ character ∈ new, isLineBreak character = false) :
    relabel (frame.text old) .states id old new = frame.text new := by
  by_cases same : old = new
  · subst same
    exact relabel_of_refused (by simp)
  · apply relabel_of_declared (not_refused same oneLine)
    rw [relabelDeclaration?, frame.replaceFirst?_text]
    rfl

end DescriptionFrame

/-- A change of label writes every label into the description, and the labels
that are read back are those without a quote.  A label with a quote does not
leave the text as it was, unless it is the old one. -/
theorem readsBackOrStays_iff {id new : Text} (frame : DescriptionFrame id)
    (old : Text) (nonempty : new ≠ [])
    (oneLine : ∀ character ∈ new, isLineBreak character = false) :
    relabel (frame.text old) .states id old new = frame.text new ∧
      (stateDescription? (relabel (frame.text old) .states id old new) id =
          some new ↔ '"' ∉ new) ∧
      (ReadsBackOrStays (frame.text old) id old new ↔
        ('"' ∈ new → old = new)) := by
  have written : relabel (frame.text old) .states id old new = frame.text new :=
    frame.relabel_text oneLine
  have readable :
      stateDescription? (frame.text new) id = some new ↔ '"' ∉ new := by
    rw [frame.stateDescription?_text_iff]
    exact and_iff_right nonempty
  refine ⟨written, by rw [written, readable], ?_⟩
  rw [ReadsBackOrStays, written, readable, frame.text_inj]
  constructor
  · intro lawful quoted
    rcases lawful with unquoted | ⟨_, same⟩
    · exact absurd quoted unquoted
    · exact same.symm
  · intro stays
    by_cases quoted : '"' ∈ new
    · exact Or.inr ⟨quoted, (stays quoted).symm⟩
    · exact Or.inl quoted

/-- A state that waits, and the line below it. -/
def waitingFrame : DescriptionFrame "W".toList where
  before := "stateDiagram-v2\n".toList
  indent := indentation
  space := [' ']
  tail := " as W\n    W --> Done\n".toList
  before_unquoted := by decide
  before_startsLine := rfl
  indent_blank := isBlankCharacter_of_mem_indentation
  space_isGap := Text.isGap_space
  tail_ends := by
    refine ⟨[' '], [' '], "\n    W --> Done\n".toList, rfl, Text.isGap_space,
      Text.isGap_space, ?_⟩
    rw [IsWholeBefore]
    decide

theorem oneLine_quotedHold :
    ∀ character ∈ "on \"hold\"".toList, isLineBreak character = false := by
  simp [isLineBreak]

theorem readsBackOrStays_iff_waiting :
    "on \"hold\"".toList ≠ [] ∧
      (∀ character ∈ "on \"hold\"".toList, isLineBreak character = false) ∧
      relabel (waitingFrame.text "Waiting".toList) .states "W".toList
          "Waiting".toList "on \"hold\"".toList =
        waitingFrame.text "on \"hold\"".toList ∧
      ¬ReadsBackOrStays (waitingFrame.text "Waiting".toList) "W".toList
        "Waiting".toList "on \"hold\"".toList := by
  have nonempty : "on \"hold\"".toList ≠ [] := by decide
  obtain ⟨written, _, lawful⟩ :=
    readsBackOrStays_iff waitingFrame "Waiting".toList nonempty
      oneLine_quotedHold
  refine ⟨nonempty, oneLine_quotedHold, written, ?_⟩
  rw [lawful]
  decide

/-- Not every label that stands on one line is read back or refused. -/
theorem not_readsBackOrStays :
    ¬∀ (id : Text) (frame : DescriptionFrame id) (old new : Text), '"' ∉ old →
      '"' ∉ frame.tail → (∃ character ∈ new, !Text.isSpace character) →
      (∀ character ∈ new, isLineBreak character = false) →
      ReadsBackOrStays (frame.text old) id old new := by
  intro lawful
  have visible : ∃ character ∈ "on \"hold\"".toList, !Text.isSpace character :=
    ⟨'o', by decide, by decide⟩
  have law :=
    lawful _ waitingFrame "Waiting".toList "on \"hold\"".toList (by decide)
      (by decide) visible oneLine_quotedHold
  rw [ReadsBackOrStays, waitingFrame.relabel_text oneLine_quotedHold,
    waitingFrame.stateDescription?_text_iff, waitingFrame.text_inj] at law
  revert law
  decide

end DiagramEdit
