import DiagramEdit.Proofs.Label.Quotation
import DiagramEdit.Proofs.Text.Occurrence

/-!
# Whether a change of description stays in its declaration

The label of a state is read from a description anywhere in the text, but it is
changed only where a line begins to describe the state.  A description that
stands further on in its line, as in the braces of another state, is read and
not found again.  Its label is then replaced wherever it stands, so more than
one place changes if there is another one.
-/

namespace DiagramEdit

/-- Somewhere a line begins to describe the state with this label, in either
form. -/
def IsDescribedAtLineStart (text id label : Text) : Prop :=
  ∃ before after, text = before ++ after ∧ Text.StartsLine before ∧
    (BeginsDescription id label after ∨ BeginsColonLabel id label after)

variable {text id old new edited : Text}

/-- A description of the state is changed exactly if a line begins with one. -/
theorem isSome_relabelDeclaration?_iff :
    (relabelDeclaration? text .states id old new).isSome ↔
      IsDescribedAtLineStart text id old := by
  have searches : (relabelDeclaration? text .states id old new).isSome =
      ((Pattern.labelOfState id old).occursIn text ||
        (Pattern.labelAfterColon id old).occursIn text) := by
    rw [relabelDeclaration?, Option.orElse_eq_orElse, Option.orElse_eq_or,
      Option.isSome_or]
    simp only [Pattern.replaceFirst?, Option.isSome_map, Pattern.occursIn]
  rw [searches, Bool.or_eq_true, Pattern.occursIn_iff_cut,
    Pattern.occursIn_iff_cut]
  simp only [Pattern.isSome_labelOfState_iff,
    Pattern.isSome_labelAfterColon_iff]
  constructor
  · intro found
    rcases found with
      ⟨before, after, split, starts, begins⟩ |
        ⟨before, after, split, starts, begins⟩
    · exact ⟨before, after, split, starts, Or.inl begins⟩
    · exact ⟨before, after, split, starts, Or.inr begins⟩
  · intro found
    obtain ⟨before, after, split, starts, begins⟩ := found
    rcases begins with quoted | colon
    · exact Or.inl ⟨before, after, split, starts, quoted⟩
    · exact Or.inr ⟨before, after, split, starts, colon⟩

theorem replacedAtOnePlace_of_relabelDeclaration?
    (changed : relabelDeclaration? text .states id old new = some edited) :
    Text.ReplacedAtOnePlace old new text edited := by
  have parts :
      (Pattern.labelOfState id old).replaceFirst? text new = some edited ∨
        (Pattern.labelAfterColon id old).replaceFirst? text new =
          some edited := by
    rw [relabelDeclaration?, Option.orElse_eq_orElse, Option.orElse_eq_or,
      Option.or_eq_some_iff] at changed
    rcases changed with quoted | ⟨_, colon⟩
    · exact Or.inl quoted
    · exact Or.inr colon
  rcases parts with quoted | colon
  · obtain ⟨found, searched, rfl⟩ := Option.map_eq_some_iff.mp quoted
    obtain ⟨before, space, tail, cuts, _⟩ :=
      Pattern.exists_of_labelOfState searched
    exact ⟨_, _, cuts.text_eq, cuts.replace_eq new⟩
  · obtain ⟨found, searched, rfl⟩ := Option.map_eq_some_iff.mp colon
    obtain ⟨before, blanks, rest, cuts, _⟩ :=
      Pattern.exists_of_labelAfterColon searched
    exact ⟨_, _, cuts.text_eq, cuts.replace_eq new⟩

theorem isInfix_of_stateDescription?
    (described : stateDescription? text id = some old) :
    old ≠ [] ∧ old <:+: text := by
  obtain ⟨before, after, stop, split, read, _⟩ :=
    Pattern.exists_leftmost_of_first?_eq_some described
  obtain ⟨⟨space, tail, afterEq, _, _⟩, nonempty, _⟩ :=
    Pattern.exists_describedState_iff.mp ⟨stop, read⟩
  refine ⟨nonempty, before ++ ("state".toList ++ (space ++ ['"'])), '"' :: tail,
    ?_⟩
  rw [split, afterEq]
  simp

/-- Where no line begins with a description, the label that is read is replaced
everywhere. -/
theorem relabel_eq_replaceAll (described : stateDescription? text id = some old)
    (differs : old ≠ new)
    (oneLine : ∀ character ∈ new, isLineBreak character = false)
    (nowhere : ¬IsDescribedAtLineStart text id old) :
    relabel text .states id old new = Text.replaceAll old new text := by
  obtain ⟨nonempty, _⟩ := isInfix_of_stateDescription? described
  have missing : relabelDeclaration? text .states id old new = none := by
    rw [← Option.not_isSome_iff_eq_none, isSome_relabelDeclaration?_iff]
    exact nowhere
  rw [relabel_of_undeclared (not_refused differs oneLine) (by decide) missing,
    if_neg nonempty]

/-- A change of the label that is read for a state is made in a declaration
exactly if a line begins with one.  Else the label is replaced everywhere, and
this changes one place exactly if it does not stand at two. -/
theorem relabel_describedState_iff
    (described : stateDescription? text id = some old) (differs : old ≠ new)
    (oneLine : ∀ character ∈ new, isLineBreak character = false) :
    (relabelDeclaration? text .states id old new ≠ none ↔
        IsDescribedAtLineStart text id old) ∧
      (¬IsDescribedAtLineStart text id old →
        relabel text .states id old new = Text.replaceAll old new text) ∧
      (Text.ReplacedAtOnePlace old new text (relabel text .states id old new) ↔
        IsDescribedAtLineStart text id old ∨ ¬Text.OccursTwice old text) := by
  have declared : relabelDeclaration? text .states id old new ≠ none ↔
      IsDescribedAtLineStart text id old := by
    rw [← Option.isSome_iff_ne_none, isSome_relabelDeclaration?_iff]
  refine ⟨declared, relabel_eq_replaceAll described differs oneLine, ?_⟩
  by_cases atLineStart : IsDescribedAtLineStart text id old
  · obtain ⟨edited, changed⟩ :=
      Option.ne_none_iff_exists'.mp (declared.mpr atLineStart)
    have place := replacedAtOnePlace_of_relabelDeclaration? changed
    rw [relabel_of_declared (not_refused differs oneLine) changed]
    exact iff_of_true place (Or.inl atLineStart)
  · obtain ⟨nonempty, occurs⟩ := isInfix_of_stateDescription? described
    rw [relabel_eq_replaceAll described differs oneLine atLineStart,
      Text.replaceAll_one_place_iff nonempty differs occurs]
    constructor
    · intro once
      exact Or.inr once
    · intro either
      exact either.resolve_left atLineStart

/-- A state that is described in the braces of another one, and its label in a
line below. -/
def nestedWaiting : Text :=
  "stateDiagram-v2\n    state P \x7b state \"Waiting\" as W \x7d\n    W --> Done : Waiting over\n".toList

theorem stateDescription?_nestedWaiting :
    stateDescription? nestedWaiting "W".toList = some "Waiting".toList := by
  decide +kernel

theorem not_isDescribedAtLineStart_nestedWaiting :
    ¬IsDescribedAtLineStart nestedWaiting "W".toList "Waiting".toList := by
  have missing :
      relabelDeclaration? nestedWaiting .states "W".toList "Waiting".toList [] =
        none := by
    decide +kernel
  rw [← isSome_relabelDeclaration?_iff, missing]
  simp

theorem occursTwice_nestedWaiting :
    Text.OccursTwice "Waiting".toList nestedWaiting := by
  refine ⟨"stateDiagram-v2\n    state P \x7b state \"".toList,
    "\" as W \x7d\n    W --> Done : ".toList, " over\n".toList, ?_⟩
  decide +kernel

theorem oneLine_idle :
    ∀ character ∈ "Idle".toList, isLineBreak character = false := by
  simp [isLineBreak]

theorem relabel_describedState_iff_nestedWaiting :
    stateDescription? nestedWaiting "W".toList = some "Waiting".toList ∧
      "Waiting".toList ≠ "Idle".toList ∧
      (∀ character ∈ "Idle".toList, isLineBreak character = false) ∧
      ¬IsDescribedAtLineStart nestedWaiting "W".toList "Waiting".toList ∧
      relabel nestedWaiting .states "W".toList "Waiting".toList "Idle".toList =
        Text.replaceAll "Waiting".toList "Idle".toList nestedWaiting ∧
      ¬Text.ReplacedAtOnePlace "Waiting".toList "Idle".toList nestedWaiting
        (relabel nestedWaiting .states "W".toList "Waiting".toList
          "Idle".toList) := by
  have differs : "Waiting".toList ≠ "Idle".toList := by decide
  have nowhere := not_isDescribedAtLineStart_nestedWaiting
  obtain ⟨_, undeclared, place⟩ :=
    relabel_describedState_iff stateDescription?_nestedWaiting differs
      oneLine_idle
  refine ⟨stateDescription?_nestedWaiting, differs, oneLine_idle, nowhere,
    undeclared nowhere, ?_⟩
  intro once
  rcases place.mp once with atLineStart | notTwice
  · exact nowhere atLineStart
  · exact notTwice occursTwice_nestedWaiting

/-- Not every label that is read is changed at one place. -/
theorem not_relabel_one_place :
    ¬∀ text id old new : Text, stateDescription? text id = some old →
      old ≠ new → (∀ character ∈ new, isLineBreak character = false) →
      Text.ReplacedAtOnePlace old new text
        (relabel text .states id old new) := by
  intro lawful
  have differs : "Waiting".toList ≠ "Idle".toList := by decide
  have described := stateDescription?_nestedWaiting
  have place := lawful _ _ _ _ described differs oneLine_idle
  obtain ⟨nonempty, occurs⟩ := isInfix_of_stateDescription? described
  rw [relabel_eq_replaceAll described differs oneLine_idle
      not_isDescribedAtLineStart_nestedWaiting,
    Text.replaceAll_one_place_iff nonempty differs occurs] at place
  exact place occursTwice_nestedWaiting

end DiagramEdit
