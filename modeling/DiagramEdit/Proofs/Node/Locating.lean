import DiagramEdit.Proofs.Node.Site
import Mathlib.Order.WellFounded

/-!
# What the definition of a node is

A node may be written in the brackets of a shape at many places, and at one
place with labels of different lengths.  The search finds the most specific
shape in which it is written, the leftmost place of that shape, and the shortest
label there.
-/

namespace DiagramEdit

/-- A label that may stand between the brackets of the shape. -/
def Shape.Admits (shape : Shape) (label : Text) : Prop :=
  if shape.isDouble then
    label ≠ [] ∧ '\n' ∉ label
  else
    ∀ character ∈ label, character ∉ shape.opening ∧ character ∉ shape.closing

/-- Behind `before` the text reads the identifier, white space, and an admitted
label in the brackets of the shape. -/
structure Defines (text id : Text) (shape : Shape) (before label : Text) :
    Prop where
  apart : standsApart before id
  admitted : shape.Admits label
  written : ∃ space rest,
    text = before ++ id ++ space ++ shape.wrap label ++ rest ∧
      ∀ character ∈ space, Text.isSpace character

/-- The node is written somewhere in the brackets of the shape. -/
def HasSite (text id : Text) (shape : Shape) : Prop :=
  ∃ before label, Defines text id shape before label

/-- The label is the shortest one at this place. -/
structure DefinesShortest (text id : Text) (shape : Shape)
    (before label : Text) :
    Prop where
  defines : Defines text id shape before label
  shortest : ∀ other, Defines text id shape before other →
    label.length ≤ other.length

/-- The label is the shortest one at the leftmost place where the node is
written in the brackets of the shape. -/
def DefinesFirst (text id : Text) (shape : Shape) (label : Text) : Prop :=
  ∃ before, DefinesShortest text id shape before label ∧
    ∀ elsewhere other, Defines text id shape elsewhere other →
      before.length ≤ elsewhere.length

variable {id : Text} {shape : Shape}

theorem Defines.isPrefix {text before label : Text}
    (defines : Defines text id shape before label) :
    before <+: text := by
  obtain ⟨space, rest, split, _⟩ := defines.written
  exact ⟨id ++ space ++ shape.wrap label ++ rest, by simp [split]⟩

theorem definesShortest_iff {text before label : Text} :
    DefinesShortest text id shape before label ↔
      Defines text id shape before label ∧
        ∀ other, Defines text id shape before other →
          label.length ≤ other.length :=
  ⟨fun first => ⟨first.defines, first.shortest⟩,
    fun parts => ⟨parts.1, parts.2⟩⟩

theorem exists_definesShortest {text before label : Text}
    (defines : Defines text id shape before label) :
    ∃ shortest, DefinesShortest text id shape before shortest := by
  obtain ⟨shortest, defined, minimal⟩ :=
    (measure List.length).wf.has_min
      {other | Defines text id shape before other} ⟨label, defines⟩
  refine ⟨shortest, defined, ?_⟩
  intro other otherDefines
  exact Nat.le_of_not_lt (minimal other otherDefines)

theorem append_closing_eq_of_wrap_eq
    {space space' label label' rest rest' : Text}
    (equality :
      space ++ shape.wrap label ++ rest = space' ++ shape.wrap label' ++ rest')
    (spaces : ∀ character ∈ space, Text.isSpace character)
    (spaces' : ∀ character ∈ space', Text.isSpace character) :
    label ++ (shape.closing ++ rest) = label' ++ (shape.closing ++ rest') := by
  rw [List.append_assoc, List.append_assoc] at equality
  have wraps := (Pattern.eq_of_append_eq_append_of_stops equality spaces spaces'
    (head?_wrap_all shape label rest) (head?_wrap_all shape label' rest')).2
  simpa [Shape.wrap] using wraps

/-- Between single brackets only one label can be read. -/
theorem eq_of_admits_of_not_isDouble {label label' rest rest' : Text}
    (single : ¬shape.isDouble) (admitted : shape.Admits label)
    (admitted' : shape.Admits label')
    (equality :
      label ++ (shape.closing ++ rest) = label' ++ (shape.closing ++ rest')) :
    label = label' := by
  rw [Shape.Admits, if_neg single] at admitted admitted'
  have noClosing : ∀ character ∈ label, !shape.closing.contains character := by
    intro character member
    simpa using (admitted character member).2
  have noClosing' :
      ∀ character ∈ label', !shape.closing.contains character := by
    intro character member
    simpa using (admitted' character member).2
  have stops : ∀ after, (shape.closing ++ after).head?.all fun character =>
      !(!shape.closing.contains character) := by
    intro after
    obtain ⟨bracket, more, closingEq, _⟩ := shape.exists_closing_eq_cons
    simp [closingEq]
  exact (Pattern.eq_of_append_eq_append_of_stops equality noClosing noClosing'
    (stops rest) (stops rest')).1

/-- A label is readable if it is admitted and no shorter one is. -/
theorem isReadable_iff {text before space label rest : Text}
    (apart : standsApart before id)
    (split : text = before ++ id ++ space ++ shape.wrap label ++ rest)
    (spaces : ∀ character ∈ space, Text.isSpace character) :
    Pattern.IsReadable shape label rest ↔
      shape.Admits label ∧
        ∀ other, Defines text id shape before other →
          label.length ≤ other.length := by
  have sameText : ∀ other, Defines text id shape before other →
      ∃ otherRest,
        label ++ (shape.closing ++ rest) =
          other ++ (shape.closing ++ otherRest) := by
    intro other defines
    obtain ⟨otherSpace, otherRest, otherSplit, otherSpaces⟩ := defines.written
    refine ⟨otherRest, append_closing_eq_of_wrap_eq ?_ spaces otherSpaces⟩
    rw [split] at otherSplit
    simpa using otherSplit
  by_cases double : shape.isDouble
  · rw [Pattern.IsReadable, if_pos double, Shape.Admits, if_pos double,
      and_assoc]
    refine and_congr_right fun nonempty => and_congr_right fun oneLine => ?_
    constructor
    · intro minimal other defines
      by_contra longer
      obtain ⟨otherRest, same⟩ := sameText other defines
      obtain ⟨character, more, cut, closes⟩ :=
        exists_eq_append_cons_of_length_lt same (Nat.lt_of_not_le longer)
      have admitted := defines.admitted
      rw [Shape.Admits, if_pos double] at admitted
      refine minimal other character more cut admitted.1 ⟨otherRest, ?_⟩
      rw [closes, List.append_assoc]
    · intro shortest shorter character more cut inside closes
      obtain ⟨after, closed⟩ := closes
      have defines : Defines text id shape before shorter := by
        refine ⟨apart, ?_, space, after, ?_, spaces⟩
        · rw [Shape.Admits, if_pos double]
          refine ⟨inside, fun lineFeed => oneLine ?_⟩
          rw [cut]
          exact List.mem_append_left _ lineFeed
        · rw [split, cut]
          simp [Shape.wrap, closed]
      have lengths := shortest shorter defines
      rw [cut, List.length_append, List.length_cons] at lengths
      omega
  · rw [Pattern.IsReadable, if_neg double]
    have admits_iff : shape.Admits label ↔
        ∀ character ∈ label, character ∉ shape.opening ∧
          character ∉ shape.closing := by
      rw [Shape.Admits, if_neg double]
    rw [← admits_iff]
    refine (and_iff_left_of_imp ?_).symm
    intro admitted other defines
    obtain ⟨otherRest, same⟩ := sameText other defines
    exact (congrArg List.length
      (eq_of_admits_of_not_isDouble double admitted defines.admitted same)).le

namespace Pattern

/-- At a cut of the text the pattern reads the shortest label that can be read
there. -/
theorem definition_cut_iff_definesShortest {before after label : Text} :
    (∃ stop, definition id shape ⟨before.reverse, after⟩ = some (label, stop)) ↔
      DefinesShortest (before ++ after) id shape before label := by
  simp only [definition_cut_iff]
  constructor
  · intro parts
    obtain ⟨stop, apart, space, rest, afterEq, spaces, readable, _⟩ := parts
    have split : before ++ after =
        before ++ id ++ space ++ shape.wrap label ++ rest := by
      simp [afterEq]
    obtain ⟨admitted, shortest⟩ :=
      (isReadable_iff apart split spaces).mp readable
    exact ⟨⟨apart, admitted, space, rest, split, spaces⟩, shortest⟩
  · intro first
    obtain ⟨apart, admitted, space, rest, split, spaces⟩ := first.defines
    have readable :=
      (isReadable_iff apart split spaces).mpr ⟨admitted, first.shortest⟩
    exact ⟨_, apart, space, rest, by simpa using split, spaces, readable, rfl⟩

theorem definition_cut_eq_none_iff {before after : Text} :
    definition id shape ⟨before.reverse, after⟩ = none ↔
      ∀ label, ¬Defines (before ++ after) id shape before label := by
  constructor
  · intro fails label defines
    obtain ⟨shortest, first⟩ := exists_definesShortest defines
    obtain ⟨stop, read⟩ := definition_cut_iff_definesShortest.mpr first
    rw [fails] at read
    cases read
  · intro absent
    cases read : definition id shape ⟨before.reverse, after⟩ with
    | none => rfl
    | some found =>
        have first := definition_cut_iff_definesShortest.mp ⟨found.2, read⟩
        exact absurd first.defines (absent found.1)

theorem first?_definition_eq_none_iff {text : Text} :
    (definition id shape).first? text = none ↔ ¬HasSite text id shape := by
  rw [first?_eq_none_iff_cuts]
  simp only [definition_cut_eq_none_iff, HasSite, not_exists]
  constructor
  · intro fails before label defines
    obtain ⟨after, split⟩ := defines.isPrefix
    rw [← split] at defines
    exact fails before after split.symm label defines
  · intro absent before after split label defines
    rw [← split] at defines
    exact absent before label defines

/-- The search reads the shortest label at the leftmost place. -/
theorem first?_definition_eq_some_iff {text label : Text} :
    (definition id shape).first? text = some label ↔
      DefinesFirst text id shape label := by
  rw [first?_eq_some_iff]
  constructor
  · intro parts
    obtain ⟨before, after, stop, split, read, earliest⟩ := parts
    have first := definition_cut_iff_definesShortest.mp ⟨stop, read⟩
    rw [← split] at first
    refine ⟨before, first, ?_⟩
    intro elsewhere other defines
    by_contra further
    obtain ⟨later, elsewhereSplit⟩ := defines.isPrefix
    obtain ⟨character, more, cut, laterEq⟩ := exists_eq_append_cons_of_length_lt
      (split.symm.trans elsewhereSplit.symm) (Nat.lt_of_not_le further)
    have fails :=
      definition_cut_eq_none_iff.mp (earliest elsewhere character more cut)
        other
    rw [← laterEq, elsewhereSplit] at fails
    exact fails defines
  · intro parts
    obtain ⟨before, first, leftmost⟩ := parts
    obtain ⟨after, split⟩ := first.defines.isPrefix
    rw [← split] at first
    obtain ⟨stop, read⟩ := definition_cut_iff_definesShortest.mpr first
    refine ⟨before, after, stop, split.symm, read, ?_⟩
    intro shorter character more cut
    rw [definition_cut_eq_none_iff]
    intro other defines
    have whole : shorter ++ (character :: more ++ after) = text := by
      rw [← split, cut]
      simp
    rw [whole] at defines
    have lengths := leftmost shorter other defines
    rw [cut, List.length_append, List.length_cons] at lengths
    omega

end Pattern

/-- What is found, and when nothing is.  The definition that is found has the
first shape, from the most specific one on, in which the node is written
anywhere in the text, and the shortest label at the leftmost place where it is
written so. -/
theorem findDefinition_iff (nonempty : id ≠ []) (text : Text) :
    (∀ node, findDefinition text id = some node ↔
        node.id = id ∧
          ∃ earlier later,
            Shape.bySpecificity = earlier ++ node.shape :: later ∧
              (∀ other ∈ earlier, ¬HasSite text id other) ∧
              DefinesFirst text id node.shape node.label) ∧
      (findDefinition text id = none ↔ ∀ shape, ¬HasSite text id shape) := by
  rw [findDefinition_eq nonempty]
  constructor
  · intro node
    simp only [List.findSome?_eq_some_iff, Option.map_eq_some_iff,
      Option.map_eq_none_iff, Pattern.first?_definition_eq_some_iff,
      Pattern.first?_definition_eq_none_iff]
    constructor
    · intro parts
      obtain ⟨earlier, shape, later, order, ⟨label, first, same⟩, absent⟩ :=
        parts
      subst same
      exact ⟨rfl, earlier, later, order, absent, first⟩
    · intro parts
      obtain ⟨same, earlier, later, order, absent, first⟩ := parts
      subst same
      exact ⟨earlier, node.shape, later, order, ⟨node.label, first, rfl⟩,
        absent⟩
  · simp only [List.findSome?_eq_none_iff, Option.map_eq_none_iff,
      Pattern.first?_definition_eq_none_iff]
    constructor
    · intro absent shape
      exact absent shape (Shape.mem_bySpecificity shape)
    · intro absent shape _
      exact absent shape

/-- The node is written in two shapes, and in the more specific one with
brackets inside its label and further ones behind it. -/
def nestedBrackets : Text :=
  "XA((0)) A[[u]] A\n((b(c)) d))".toList

theorem findDefinition_iff_nestedBrackets :
    ['A'] ≠ [] ∧ HasSite nestedBrackets ['A'] .subroutine ∧
      DefinesFirst nestedBrackets ['A'] .circle "b(c".toList := by
  have nonempty : ['A'] ≠ [] := List.cons_ne_nil _ _
  have found : findDefinition nestedBrackets ['A'] =
      some ⟨['A'], "b(c".toList, .circle⟩ := by
    decide +kernel
  have written :
      Defines nestedBrackets ['A'] .subroutine "XA((0)) ".toList ['u'] :=
    ⟨by decide +kernel, ⟨by decide, by decide⟩, [], " A\n((b(c)) d))".toList,
      by decide +kernel, by simp⟩
  obtain ⟨_, _, _, _, _, first⟩ :=
    ((findDefinition_iff nonempty nestedBrackets).1 _).mp found
  exact ⟨nonempty, ⟨_, _, written⟩, first⟩

end DiagramEdit
