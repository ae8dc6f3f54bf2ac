import DiagramEdit.Proofs.Node.Precedence

/-!
# Setting a label twice

A label is set where the brackets directly follow the identifier, if they do
anywhere, but it is read at the first place, where white space may stand in
between.  Setting a label again changes nothing unless these are two places.
-/

namespace DiagramEdit

/-- A label on one line that holds no bracket. -/
def IsPlain (label : Text) : Prop :=
  ∀ character ∈ label, isBracket character = false ∧ character ≠ '\n'

theorem IsPlain.noBracket {label : Text} (plain : IsPlain label) :
    ∀ character ∈ label, isBracket character = false :=
  fun character member => (plain character member).1

theorem isPlain_of_labelFits {label : Text} (fits : labelFits label) :
    IsPlain label := by
  intro character member
  refine ⟨not_isBracket_of_labelFits fits member, ?_⟩
  intro lineFeed
  have impossible := not_isLineBreak_of_labelFits fits member
  rw [lineFeed] at impossible
  cases impossible

theorem Shape.Admits.replace {shape : Shape} {front old new tail : Text}
    (inside : front ≠ []) (plain : IsPlain new)
    (admitted : shape.Admits (front ++ old ++ tail)) :
    shape.Admits (front ++ new ++ tail) := by
  unfold Shape.Admits at admitted ⊢
  by_cases double : shape.isDouble
  · rw [if_pos double] at admitted ⊢
    have oneLine : '\n' ∉ new := fun member => (plain '\n' member).2 rfl
    refine ⟨by simp [inside], ?_⟩
    simp only [List.mem_append, not_or] at admitted ⊢
    exact ⟨⟨admitted.2.1.1, oneLine⟩, admitted.2.2⟩
  · rw [if_neg double] at admitted ⊢
    intro character member
    by_cases inNew : character ∈ new
    · exact Shape.not_mem_of_not_isBracket (plain.noBracket character inNew)
    · apply admitted character
      simp only [List.mem_append, inNew, or_false] at member ⊢
      exact member.imp_left Or.inl

/-- Somewhere the brackets directly follow the identifier, but in front of every
such place the node is written in the same shape, and there it is read. -/
structure DirectIsHidden (text : Text) (node : NodeDefinition) : Prop where
  direct : ∃ before, IsDirect text node.id (node.shape.wrap node.label) before
  hidden : ∀ before, IsDirect text node.id (node.shape.wrap node.label) before →
    ∃ elsewhere label, Defines text node.id node.shape elsewhere label ∧
      elsewhere.length < before.length

namespace Replaces

variable {text edited id before space old new rest : Text} {shape other : Shape}

theorem exists_former
    (replaces : Replaces text edited id (shape.wrap old) (shape.wrap new) before
      space rest) (bare : IsBare id) (oldPlain : IsPlain old)
    (newPlain : IsPlain new) {elsewhere label : Text}
    (defines : Defines edited id other elsewhere label)
    (front : elsewhere.length < before.length) :
    ∃ former, Defines text id other elsewhere former := by
  have places := replaces.edited_eq ▸ defines
  rw [replaces.text_eq]
  rcases bare.front_cases replaces.spaces newPlain.noBracket places front with
    closed | reachesOver
  · exact ⟨label, closed.of_front space (shape.wrap old) rest⟩
  · obtain ⟨otherSpace, inner, tail, after, otherSpaces, beforeEq, labelEq,
      restEq⟩ := reachesOver
    have inside : inner ++ id ++ space ++ shape.opening ≠ [] := by
      simp [bare.ne_nil]
    have admitted := defines.admitted
    rw [labelEq] at admitted
    refine ⟨inner ++ id ++ space ++ shape.opening ++ old ++ tail, defines.apart,
      admitted.replace inside oldPlain, otherSpace, after, ?_, otherSpaces⟩
    rw [beforeEq]
    simp only [Shape.wrap, List.append_assoc] at restEq ⊢
    rw [restEq]

theorem hasSite_of_rank_lt
    (replaces : Replaces text edited id (shape.wrap old) (shape.wrap new) before
      space rest) (bare : IsBare id) (oldPlain : IsPlain old)
    (fits : labelFits new) (lower : other.rank < shape.rank)
    (written : HasSite edited id other) :
    HasSite text id other := by
  obtain ⟨elsewhere, label, defines⟩ := written
  have newPlain := isPlain_of_labelFits fits
  have places := replaces.edited_eq ▸ defines
  rcases bare.place_cases replaces.spaces newPlain.noBracket places with
    ⟨front, _⟩ | here | ⟨more, _, behind⟩
  · obtain ⟨former, formerly⟩ :=
      replaces.exists_former bare oldPlain newPlain defines front
    exact ⟨elsewhere, former, formerly⟩
  · subst here
    exact absurd lower (Nat.not_lt.mpr (places.rank_le replaces.spaces fits))
  · rw [replaces.text_eq]
    exact ⟨_, label, defines_behind_iff.mpr behind⟩

theorem definesShortest
    (replaces : Replaces text edited id (shape.wrap old) (shape.wrap new) before
      space rest) (fits : labelFits new) :
    DefinesShortest edited id shape before new := by
  rw [replaces.edited_eq]
  exact definesShortest_of_wrap replaces.apart replaces.spaces fits rest

theorem exists_found
    (replaces : Replaces text edited id (shape.wrap old) (shape.wrap new) before
      space rest) (bare : IsBare id) (oldPlain : IsPlain old)
    (fits : labelFits new)
    (found : findDefinition text id = some ⟨id, old, shape⟩) :
    ∃ label, findDefinition edited id = some ⟨id, label, shape⟩ := by
  have absent := ((findDefinition_eq_some_iff_rank bare.ne_nil).mp found).2.1
  obtain ⟨⟨id', label, shape'⟩, found', notHigher⟩ :=
    exists_found_of_hasSite bare.ne_nil
      ⟨before, new, (replaces.definesShortest fits).defines⟩
  obtain ⟨rfl, _, first⟩ :=
    (findDefinition_eq_some_iff_rank bare.ne_nil).mp found'
  rcases Nat.lt_or_eq_of_le notHigher with lower | same
  · have written :=
      replaces.hasSite_of_rank_lt bare oldPlain fits lower first.hasSite
    exact absurd written (absent shape' lower)
  · obtain rfl := Shape.rank_injective same
    exact ⟨label, found'⟩

theorem found_of_leftmost
    (replaces : Replaces text edited id (shape.wrap old) (shape.wrap new) before
      space rest) (bare : IsBare id) (oldPlain : IsPlain old)
    (fits : labelFits new)
    (found : findDefinition text id = some ⟨id, old, shape⟩)
    (leftmost : ∀ elsewhere label, Defines text id shape elsewhere label →
      before.length ≤ elsewhere.length) :
    findDefinition edited id = some ⟨id, new, shape⟩ := by
  obtain ⟨label, found'⟩ := replaces.exists_found bare oldPlain fits found
  have first := ((findDefinition_eq_some_iff_rank bare.ne_nil).mp found').2.2
  have firstNew : DefinesFirst edited id shape new := by
    refine ⟨before, replaces.definesShortest fits, ?_⟩
    intro elsewhere other defines
    by_contra front
    obtain ⟨former, formerly⟩ :=
      replaces.exists_former bare oldPlain (isPlain_of_labelFits fits) defines
        (Nat.lt_of_not_le front)
    exact front (leftmost elsewhere former formerly)
  have same : label = new := first.unique firstNew
  rw [found', same]

theorem defines_old_of_front
    (replaces : Replaces text edited id (shape.wrap old) (shape.wrap new) before
      space rest) (bare : IsBare id) (oldPlain : IsPlain old) {place : Text}
    (defines : Defines text id shape place old)
    (front : place.length < before.length) :
    Defines edited id shape place old := by
  obtain ⟨placeSpace, placeRest, split, placeSpaces⟩ := defines.written
  have edits : Defines text id shape before old :=
    ⟨replaces.apart, defines.admitted, space, rest, replaces.text_eq,
      replaces.spaces⟩
  rw [split] at edits
  rw [replaces.edited_eq]
  -- Seen from the old label, the edited place is one behind it.
  rcases bare.place_cases placeSpaces oldPlain.noBracket edits with
    ⟨shorter, _⟩ | here | ⟨more, beforeEq, _⟩
  · exact absurd shorter (Nat.lt_asymm front)
  · rw [here] at front
    exact absurd front (Nat.lt_irrefl _)
  · have closed : Defines before id shape place old :=
      ⟨defines.apart, defines.admitted, placeSpace, more, beforeEq, placeSpaces⟩
    exact closed.of_front space (shape.wrap new) rest

theorem not_definesShortest_of_front
    (replaces : Replaces text edited id (shape.wrap old) (shape.wrap new) before
      space rest) (bare : IsBare id) (newPlain : IsPlain new)
    (differs : old ≠ new) {place : Text} (front : place.length < before.length)
    (shortest : DefinesShortest text id shape place old)
    (remains : Defines edited id shape place old) :
    ¬DefinesShortest edited id shape place new := by
  intro shortest'
  have places := replaces.edited_eq ▸ shortest'.defines
  rcases bare.front_cases replaces.spaces newPlain.noBracket places front with
    closed | reachesOver
  · have read : Defines text id shape place new := by
      rw [replaces.text_eq]
      exact closed.of_front space (shape.wrap old) rest
    have oldShortest : DefinesShortest edited id shape place old := by
      refine ⟨remains, ?_⟩
      intro other otherDefines
      exact le_trans (shortest.shortest new read)
        (shortest'.shortest other otherDefines)
    exact differs (oldShortest.unique shortest')
  · -- A label that reaches over the new one is longer than it.
    obtain ⟨_, _, _, _, _, _, newEq, _⟩ := reachesOver
    have lengths := congrArg List.length newEq
    have positive := List.length_pos_of_ne_nil bare.ne_nil
    simp only [List.length_append] at lengths
    omega

/-- A label that is read again stands at the leftmost place of its shape. -/
theorem leftmost_of_found
    (replaces : Replaces text edited id (shape.wrap old) (shape.wrap new) before
      space rest) (bare : IsBare id) (oldPlain : IsPlain old)
    (fits : labelFits new) (differs : old ≠ new)
    (found : findDefinition text id = some ⟨id, old, shape⟩)
    (found' : findDefinition edited id = some ⟨id, new, shape⟩)
    {elsewhere label : Text} (defines : Defines text id shape elsewhere label) :
    before.length ≤ elsewhere.length := by
  obtain ⟨_, _, first, shortest, leftmost⟩ :=
    (findDefinition_eq_some_iff_rank bare.ne_nil).mp found
  obtain ⟨_, _, place, shortest', leftmost'⟩ :=
    (findDefinition_eq_some_iff_rank bare.ne_nil).mp found'
  refine le_trans ?_ (leftmost elsewhere label defines)
  by_contra further
  have front : first.length < before.length := Nat.lt_of_not_le further
  have remains :=
    replaces.defines_old_of_front bare oldPlain shortest.defines front
  have notBehind : place.length ≤ first.length := leftmost' first old remains
  obtain ⟨former, formerly⟩ :=
    replaces.exists_former bare oldPlain (isPlain_of_labelFits fits)
      shortest'.defines (Nat.lt_of_le_of_lt notBehind front)
  -- The first place of the shape is the same in both texts.
  have same : first = place := remains.before_eq shortest'.defines
    (Nat.le_antisymm (leftmost place former formerly) notBehind)
  subst same
  exact replaces.not_definesShortest_of_front bare (isPlain_of_labelFits fits)
    differs front shortest remains shortest'

end Replaces

section Twice

variable {text id : Text}

/-- The preferred place is the leftmost one of its shape unless it is hidden. -/
theorem IsPreferred.leftmost_iff
    {label before space rest edited replacement : Text} {shape : Shape}
    (preferred : IsPreferred text id (shape.wrap label) before space)
    (replaces :
      Replaces text edited id (shape.wrap label) replacement before space rest)
    (first : DefinesFirst text id shape label) :
    (∀ elsewhere other, Defines text id shape elsewhere other →
        before.length ≤ elsewhere.length) ↔
      ¬DirectIsHidden text ⟨id, label, shape⟩ := by
  obtain ⟨place, shortest, leftmost⟩ := first
  rcases preferred with ⟨noSpace, preferred⟩ | ⟨noDirect, preferred⟩
  · subst noSpace
    constructor
    · intro isFirst hides
      obtain ⟨elsewhere, other, defines, shorter⟩ :=
        hides.hidden before replaces.isDirect
      exact absurd shorter (Nat.not_lt.mpr (isFirst elsewhere other defines))
    · intro visible elsewhere other defines
      by_contra further
      refine visible ⟨⟨before, replaces.isDirect⟩, ?_⟩
      intro direct isDirect
      exact ⟨elsewhere, other, defines,
        Nat.lt_of_lt_of_le (Nat.lt_of_not_le further)
          (preferred direct isDirect)⟩
  · obtain ⟨placeSpace, placeRest, split, placeSpaces⟩ :=
      shortest.defines.written
    have placed : IsSpaced text id (shape.wrap label) place :=
      ⟨shortest.defines.apart, placeSpace, placeSpaces, placeRest, split.symm⟩
    refine iff_of_true ?_ ?_
    · intro elsewhere other defines
      exact le_trans (preferred place placed) (leftmost elsewhere other defines)
    · intro hides
      obtain ⟨direct, isDirect⟩ := hides.direct
      exact noDirect direct isDirect

/-- A label that has been set is read if the place where it is set is not
hidden. -/
theorem findDefinition_updateLabel_iff (bare : IsBare id) {old new : Text}
    {shape : Shape} (found : findDefinition text id = some ⟨id, old, shape⟩)
    (plain : IsPlain old) (differs : old ≠ new) (fits : labelFits new) :
    findDefinition (updateLabel text id new) id = some ⟨id, new, shape⟩ ↔
      ¬DirectIsHidden text ⟨id, old, shape⟩ := by
  obtain ⟨before, space, rest, replaces, preferred⟩ :=
    exists_replaces_updateLabel found differs fits
  have first := ((findDefinition_eq_some_iff_rank bare.ne_nil).mp found).2.2
  rw [← preferred.leftmost_iff replaces first]
  constructor
  · intro found' elsewhere label defines
    exact replaces.leftmost_of_found bare plain fits differs found found'
      defines
  · intro leftmost
    exact replaces.found_of_leftmost bare plain fits found leftmost

end Twice

/-- Setting a plain label again changes nothing, unless the label is not read
where it has been set: in the shape in which the node is read its brackets
follow the identifier directly somewhere, but only behind a place where they do
not. -/
theorem updateLabel_updateLabel_eq_iff {text id : Text} (bare : IsBare id)
    (plain : ∀ node, findDefinition text id = some node → IsPlain node.label)
    (label : Text) :
    updateLabel (updateLabel text id label) id label =
        updateLabel text id label ↔
      ∀ node, findDefinition text id = some node → node.label ≠ label →
        labelFits label → ¬DirectIsHidden text node := by
  by_cases changed : updateLabel text id label = text
  · rw [changed]
    refine iff_of_true changed ?_
    intro node found differs fits
    exact absurd changed (updateLabel_ne_iff.mpr ⟨node, found, differs, fits⟩)
  · obtain ⟨⟨id', old, shape⟩, found, differs, fits⟩ :=
      updateLabel_ne_iff.mp changed
    obtain rfl : id' = id :=
      ((findDefinition_eq_some_iff_rank bare.ne_nil).mp found).1
    have read_iff :=
      findDefinition_updateLabel_iff bare found (plain _ found) differs fits
    obtain ⟨before, space, rest, replaces, _⟩ :=
      exists_replaces_updateLabel found differs fits
    obtain ⟨read, found'⟩ :=
      replaces.exists_found bare (plain _ found) fits found
    rw [← not_iff_not, ← ne_eq, updateLabel_ne_iff]
    constructor
    · intro parts visible
      obtain ⟨node, foundNode, notRead, _⟩ := parts
      have reads := read_iff.mpr (visible _ found differs fits)
      rw [reads] at foundNode
      exact notRead
        (congrArg NodeDefinition.label (Option.some.inj foundNode)).symm
    · intro hides
      refine ⟨⟨id', read, shape⟩, found', ?_, fits⟩
      intro same
      rw [show read = label from same] at found'
      have visible := read_iff.mp found'
      refine hides ?_
      intro node foundNode _ _
      rw [found] at foundNode
      rwa [← Option.some.inj foundNode]

/-- The node is written with white space in front of its brackets, then
without. -/
def spacedFirst : Text :=
  "flowchart TD\n    A [x]\n    A[x]\n".toList

theorem updateLabel_updateLabel_eq_iff_spacedFirst :
    IsBare ['A'] ∧
      (∀ node, findDefinition spacedFirst ['A'] = some node →
        IsPlain node.label) ∧
      DirectIsHidden spacedFirst ⟨['A'], ['x'], .rect⟩ := by
  have bare : IsBare ['A'] := isBare_of_isWordIdentifier (by decide)
  have found :
      findDefinition spacedFirst ['A'] = some ⟨['A'], ['x'], .rect⟩ := by
    decide +kernel
  have plain : ∀ node, findDefinition spacedFirst ['A'] = some node →
      IsPlain node.label := by
    intro node found'
    obtain rfl := Option.some.inj (found.symm.trans found')
    exact isPlain_of_labelFits (by decide)
  refine ⟨bare, plain, ?_⟩
  by_contra visible
  have same := (updateLabel_updateLabel_eq_iff bare plain ['L']).mpr ?_
  · revert same
    decide +kernel
  · intro node found' _ _
    obtain rfl := Option.some.inj (found.symm.trans found')
    exact visible

/-- The second edit finds the old label in front of the new one, and replaces it
behind. -/
theorem not_updateLabel_updateLabel_eq :
    ¬∀ text id label : Text, updateLabel (updateLabel text id label) id label =
      updateLabel text id label := by
  intro idempotent
  have same := idempotent spacedFirst ['A'] ['L']
  revert same
  decide +kernel

end DiagramEdit
