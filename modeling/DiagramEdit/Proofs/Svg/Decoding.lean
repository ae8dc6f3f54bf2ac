import DiagramEdit.Proofs.Svg.EncodedId

/-!
# What is decoded

An `id` attribute is decoded exactly if it is written as a renderer writes it:
leading text, the identifier, a hyphen and a number.  Hyphens, digits and
numbers inside of the identifier make no difference, since only one cut has
nothing but digits behind the hyphen.  A state whose `id` has no number is
decoded up to the first hyphen or underscore behind its first character.
-/

namespace DiagramEdit

/-- An attribute as a renderer writes it for an identifier, with a number of the
given digits. -/
structure IsNumberedId (leading id digits value : Text) : Prop where
  value_eq : value = leading ++ id ++ '-' :: digits
  nonempty : id ≠ []
  oneLine : '\n' ∉ id
  someDigit : digits ≠ []
  allDigits : ∀ digit ∈ digits, Text.isDecimalDigit digit

/-- A character that ends an identifier without a number. -/
def separatesId (character : Char) : Bool :=
  character == '-' || character == '_'

/-- An attribute that holds the identifier up to a separator, none of which
stands in the identifier behind its first character. -/
structure IsSeparatedId (leading id : Text) (separator : Char)
    (rest value : Text) :
    Prop where
  value_eq : value = leading ++ id ++ separator :: rest
  separates : separatesId separator
  nonempty : id ≠ []
  oneLine : '\n' ∉ id
  unseparated : ∀ character ∈ id.tail, separatesId character = false

namespace Pattern

variable {leading id value : Text}

theorem numberedIdentifier_atStart?_iff :
    (numberedIdentifier leading).atStart? value = some id ↔
      ∃ digits, IsNumberedId leading id digits value := by
  rw [numberedIdentifier_atStart?_eq_some_iff]
  apply exists_congr
  intro digits
  constructor
  · intro parts
    obtain ⟨valueEq, nonempty, oneLine, someDigit, allDigits⟩ := parts
    exact ⟨valueEq, nonempty, oneLine, someDigit, allDigits⟩
  · intro numbered
    exact ⟨numbered.value_eq, numbered.nonempty, numbered.oneLine,
      numbered.someDigit, numbered.allDigits⟩

/-- The separator behind an identifier without a number. -/
def separator : Pattern Unit := do
  let _ ← one separatesId

theorem separator_eq_some_iff {place stop : Place} {nothing : Unit} :
    separator place = some (nothing, stop) ↔
      ∃ character rest, place.after = character :: rest ∧
        separatesId character ∧ stop = ⟨character :: place.before, rest⟩ := by
  simp only [separator, bind_eq_some_iff, one_eq_some_iff, pure_eq_some_iff]
  constructor
  · intro parts
    obtain ⟨character, _, ⟨separates, rest, afterEq, rfl⟩, _, rfl⟩ := parts
    exact ⟨character, rest, afterEq, separates, rfl⟩
  · intro parts
    obtain ⟨character, rest, afterEq, separates, rfl⟩ := parts
    exact ⟨character, _, ⟨separates, rest, afterEq, rfl⟩, trivial, rfl⟩

theorem separator_eq_none_iff {before rest : Text} {character : Char} :
    separator ⟨before, character :: rest⟩ = none ↔
      separatesId character = false := by
  rw [Option.eq_none_iff_forall_not_mem, Bool.eq_false_iff]
  constructor
  · intro fails separates
    exact fails ((), _)
      (separator_eq_some_iff.mpr ⟨character, rest, rfl, separates, rfl⟩)
  · intro plain found read
    obtain ⟨_, _, cut, separates, _⟩ := separator_eq_some_iff.mp read
    rw [← (List.cons.inj cut).1] at separates
    exact plain separates

/-- The first separator behind the first character ends the identifier. -/
theorem separatedIdentifier_atStart?_iff :
    (separatedIdentifier leading).atStart? value = some id ↔
      ∃ character rest, IsSeparatedId leading id character rest value := by
  have unfolded : separatedIdentifier leading =
      literal leading >>= fun _ => shortestBefore (· != '\n') separator := rfl
  simp only [unfolded, atStart?, Option.map_eq_some_iff, Prod.exists,
    bind_eq_some_iff, literal_eq_some_iff, shortestBefore_eq_some_iff,
    separator_eq_some_iff]
  constructor
  · intro parts
    obtain ⟨id, _, ⟨_, _, ⟨behind, split, rfl⟩, _, idSplit, nonempty, accepted,
      ⟨_, character, rest, rfl, separates, _⟩, minimal⟩, rfl⟩ := parts
    change behind = id ++ character :: rest at idSplit
    refine ⟨character, rest, ?_, separates, nonempty, ?_, ?_⟩
    · rw [split, idSplit, List.append_assoc]
    · intro member
      simpa using accepted '\n' member
    · intro inner member
      obtain ⟨first, others, idEq⟩ := List.exists_cons_of_ne_nil nonempty
      rw [idEq] at member
      obtain ⟨front, more, tailEq⟩ := List.append_of_mem member
      -- The identifier would have ended in front of this separator.
      have cut : id = (first :: front) ++ inner :: more := by
        rw [idEq]
        exact congrArg (first :: ·) tailEq
      exact separator_eq_none_iff.mp
        (minimal _ inner more cut (List.cons_ne_nil first front))
  · intro parts
    obtain ⟨character, rest, separated⟩ := parts
    refine ⟨id, _,
      ⟨(), _, ⟨id ++ character :: rest, ?_, rfl⟩, character :: rest, rfl,
        separated.nonempty, bne_of_not_mem separated.oneLine,
        ⟨(), character, rest, rfl, separated.separates, rfl⟩, ?_⟩, rfl⟩
    · rw [separated.value_eq, List.append_assoc]
    · intro shorter inner more idEq nonempty
      obtain ⟨first, front, rfl⟩ := List.exists_cons_of_ne_nil nonempty
      have member : inner ∈ id.tail := by simp [idEq]
      exact separator_eq_none_iff.mpr (separated.unseparated inner member)

end Pattern

/-- The digits at the end of an attribute tell where its identifier ends. -/
theorem IsNumberedId.unique {leading id other digits otherDigits value : Text}
    (numbered : IsNumberedId leading id digits value)
    (otherwise : IsNumberedId leading other otherDigits value) :
    id = other ∧ digits = otherDigits := by
  have read := Pattern.numberedIdentifier_atStart?_iff.mpr ⟨digits, numbered⟩
  have readOther :=
    Pattern.numberedIdentifier_atStart?_iff.mpr ⟨otherDigits, otherwise⟩
  have same : id = other := Option.some.inj (read.symm.trans readOther)
  subst same
  have values := numbered.value_eq.symm.trans otherwise.value_eq
  exact ⟨rfl, (List.cons.inj (List.append_cancel_left values)).2⟩

namespace Svg

namespace Node

/-- The `id` of the node encodes the identifier with a number. -/
def EncodesNumbered (node : Node) (leading id : Text) : Prop :=
  ∃ value digits, node.id? = some value ∧ IsNumberedId leading id digits value

/-- The `id` of the node holds the identifier up to a separator. -/
def EncodesSeparated (node : Node) (leading id : Text) : Prop :=
  ∃ value separator rest, node.id? = some value ∧
    IsSeparatedId leading id separator rest value

variable {node : Node} {leading id : Text}

theorem encodedId?_numbered_iff :
    node.encodedId? (.numberedIdentifier leading) = some id ↔
      node.EncodesNumbered leading id := by
  rw [encodedId?, Option.bind_eq_some_iff]
  apply exists_congr
  intro value
  rw [Pattern.numberedIdentifier_atStart?_iff, exists_and_left]

theorem encodedId?_separated_iff :
    node.encodedId? (.separatedIdentifier leading) = some id ↔
      node.EncodesSeparated leading id := by
  rw [encodedId?, Option.bind_eq_some_iff]
  apply exists_congr
  intro value
  rw [Pattern.separatedIdentifier_atStart?_iff]
  simp only [exists_and_left]

theorem encodedId?_numbered_eq_none_iff :
    node.encodedId? (.numberedIdentifier leading) = none ↔
      ∀ id, ¬node.EncodesNumbered leading id := by
  rw [Option.eq_none_iff_forall_not_mem]
  apply forall_congr'
  intro id
  rw [Option.mem_def, encodedId?_numbered_iff]

theorem flowchartId?_iff :
    node.flowchartId? = some id ↔
      node.EncodesNumbered "flowchart-".toList id ∨
        ((∀ other, ¬node.EncodesNumbered "flowchart-".toList other) ∧
          node.attribute? "data-id".toList = some id ∧ id ≠ []) := by
  rw [flowchartId?, Option.filter_eq_some_iff, Option.orElse_eq_some,
    encodedId?_numbered_iff, encodedId?_numbered_eq_none_iff]
  constructor
  · intro parts
    obtain ⟨encoded | ⟨absent, data⟩, visible⟩ := parts
    · exact Or.inl encoded
    · exact Or.inr ⟨absent, data, by simpa using visible⟩
  · intro parts
    rcases parts with encoded | ⟨absent, data, nonempty⟩
    · have nonempty : id ≠ [] := encoded.choose_spec.choose_spec.2.nonempty
      exact ⟨Or.inl encoded, by simpa using nonempty⟩
    · exact ⟨Or.inr ⟨absent, data⟩, by simpa using nonempty⟩

/-- A state without a number is decoded where its `id` encodes none. -/
theorem stateId?_iff :
    node.stateId? = some id ↔
      node.EncodesNumbered "state-".toList id ∨
        ((∀ other, ¬node.EncodesNumbered "state-".toList other) ∧
          node.EncodesSeparated "state-".toList id) := by
  rw [stateId?, Option.orElse_eq_some, encodedId?_numbered_iff,
    encodedId?_numbered_eq_none_iff, encodedId?_separated_iff]

end Node

/-- Generated identifiers are decoded exactly.  What has been encoded with a
number is decoded again, from one cut of the attribute only, and nothing else
is; a flowchart node falls back on its data attribute and a state on an `id`
without a number where the `id` encodes no number. -/
theorem generatedIds_decoded (node : Node) :
    (∀ leading id value,
        (Pattern.numberedIdentifier leading).atStart? value = some id ↔
          ∃ digits, IsNumberedId leading id digits value) ∧
      (∀ leading id other digits otherDigits value,
        IsNumberedId leading id digits value →
          IsNumberedId leading other otherDigits value →
          id = other ∧ digits = otherDigits) ∧
      (∀ id, node.flowchartId? = some id ↔
        node.EncodesNumbered "flowchart-".toList id ∨
          ((∀ other, ¬node.EncodesNumbered "flowchart-".toList other) ∧
            node.attribute? "data-id".toList = some id ∧ id ≠ [])) ∧
      (∀ id, node.classId? = some id ↔
        node.EncodesNumbered "classId-".toList id) ∧
      ∀ id, node.stateId? = some id ↔
        node.EncodesNumbered "state-".toList id ∨
          ((∀ other, ¬node.EncodesNumbered "state-".toList other) ∧
            node.EncodesSeparated "state-".toList id) := by
  refine ⟨?_, ?_, ?_, ?_, ?_⟩
  · intro leading id value
    exact Pattern.numberedIdentifier_atStart?_iff
  · intro leading id other digits otherDigits value numbered otherwise
    exact numbered.unique otherwise
  · intro id
    exact Node.flowchartId?_iff
  · intro id
    exact Node.encodedId?_numbered_iff
  · intro id
    exact Node.stateId?_iff

end Svg

end DiagramEdit
