import DiagramEdit.Proofs.Node.Precedence
import Mathlib.Data.List.Infix

/-!
# Reading a changed shape

A shape is changed at one place.  The node is read there again if no other place
takes precedence: none in a shape that is tried before the new one, and none in
the new shape further to the left with another label.
-/

namespace DiagramEdit

/-- Behind the opening brackets of the shape no label goes on over the whole
text: between single brackets it holds one of them, between double ones a line
feed or, behind the first character, the closing brackets. -/
def Shape.Stops (shape : Shape) (inner : Text) : Prop :=
  if shape.isDouble then
    '\n' ∈ inner ∨ shape.closing <:+: inner.tail
  else
    inner.any fun character =>
      shape.opening.contains character || shape.closing.contains character

instance (shape : Shape) (inner : Text) : Decidable (shape.Stops inner) :=
  inferInstanceAs (Decidable (if shape.isDouble then
    '\n' ∈ inner ∨ shape.closing <:+: inner.tail
  else
    inner.any fun character =>
      shape.opening.contains character || shape.closing.contains character))

/-- Nothing that is opened behind the identifier is still open at the end. -/
def IsSettled (id before : Text) : Prop :=
  ∀ (elsewhere space : Text) (shape : Shape) (inner : Text),
    standsApart elsewhere id → (∀ character ∈ space, Text.isSpace character) →
      before = elsewhere ++ id ++ space ++ shape.opening ++ inner →
      shape.Stops inner

variable {id : Text}

/-- What is opened behind an identifier is seen behind the white space that
follows it. -/
theorem isSettled_iff {before : Text} :
    IsSettled id before ↔
      ∀ elsewhere ∈ before.inits, standsApart elsewhere id →
        id <+: before.drop elsewhere.length →
        ∀ shape ∈ Shape.bySpecificity,
          shape.opening <+:
              ((before.drop elsewhere.length).drop id.length).dropWhile
                Text.isSpace →
            shape.Stops ((((before.drop elsewhere.length).drop
                  id.length).dropWhile Text.isSpace).drop
              shape.opening.length) := by
  constructor
  · intro settled elsewhere member apart begins shape _ opened
    obtain ⟨after, split⟩ := (List.mem_inits _ _).mp member
    rw [← split, List.drop_left] at begins opened ⊢
    obtain ⟨behind, rfl⟩ := begins
    rw [List.drop_left] at opened ⊢
    obtain ⟨inner, openedEq⟩ := opened
    rw [← openedEq, List.drop_left]
    refine settled elsewhere (behind.takeWhile Text.isSpace) shape inner apart
      ?_ ?_
    · intro character member
      exact List.mem_takeWhile_imp member
    · rw [List.append_assoc _ shape.opening, openedEq,
        List.append_assoc _ (behind.takeWhile _),
        List.takeWhile_append_dropWhile, List.append_assoc, split]
  · intro seen elsewhere space shape inner apart spaces beforeEq
    obtain ⟨bracket, more, openingEq, opens⟩ := shape.exists_opening_eq_cons
    have visible := not_isSpace_of_isBracket (isBracket_of_opensLabel opens)
    have stops : (shape.opening ++ inner).head?.all (!Text.isSpace ·) := by
      simp [openingEq, visible]
    have dropped := (Pattern.takeWhile_append_of_stops spaces stops).2
    have behind :
        ((before.drop elsewhere.length).drop id.length).dropWhile Text.isSpace =
          shape.opening ++ inner := by
      simp only [beforeEq, List.append_assoc, List.drop_left]
      exact dropped
    have seenHere :=
      seen elsewhere ?_ apart ?_ shape (Shape.mem_bySpecificity shape)
    · rw [behind, List.drop_left] at seenHere
      exact seenHere (List.prefix_append _ _)
    · rw [List.mem_inits, beforeEq]
      simp only [List.append_assoc]
      exact List.prefix_append _ _
    · simp only [beforeEq, List.append_assoc, List.drop_left]
      exact List.prefix_append _ _

instance (id before : Text) : Decidable (IsSettled id before) :=
  decidable_of_iff _ isSettled_iff.symm

theorem Shape.Stops.exists_shorter {shape : Shape} {inner more : Text}
    (stops : shape.Stops inner) (admitted : shape.Admits (inner ++ more)) :
    ∃ label rest, shape.Admits label ∧
      inner = label ++ shape.closing ++ rest := by
  unfold Shape.Stops at stops
  unfold Shape.Admits at admitted ⊢
  by_cases double : shape.isDouble
  · simp only [if_pos double] at stops admitted ⊢
    rcases stops with lineFeed | ⟨begun, ended, tailEq⟩
    · exact absurd (List.mem_append_left more lineFeed) admitted.2
    · cases inner with
      | nil =>
          obtain ⟨bracket, closers, closingEq, _⟩ :=
            shape.exists_closing_eq_cons
          simp [closingEq] at tailEq
      | cons initial inner =>
          change begun ++ shape.closing ++ ended = inner at tailEq
          subst tailEq
          refine ⟨initial :: begun, ended, ⟨List.cons_ne_nil _ _, ?_⟩, rfl⟩
          intro lineFeed
          apply admitted.2
          rw [List.append_assoc, ← List.cons_append, List.append_assoc]
          exact List.mem_append_left _ lineFeed
  · rw [if_neg double] at stops admitted
    obtain ⟨character, member, bracket⟩ := List.any_eq_true.mp stops
    have outside := admitted character (List.mem_append_left more member)
    simp [outside.1, outside.2] at bracket

theorem not_reachesOver_of_isSettled
    {before space label rest text elsewhere otherLabel : Text}
    {shape other : Shape} (settled : IsSettled id before)
    (shortest : DefinesShortest text id other elsewhere otherLabel)
    (whole : text = before ++ id ++ space ++ shape.wrap label ++ rest) :
    ¬ReachesOver id before space shape label rest other elsewhere
      otherLabel := by
  intro reachesOver
  obtain ⟨otherSpace, inner, tail, after, otherSpaces, beforeEq, labelEq, _⟩ :=
    reachesOver
  have stops :=
    settled elsewhere otherSpace other inner shortest.defines.apart otherSpaces
      beforeEq
  have labelSplit : otherLabel =
      inner ++ (id ++ space ++ shape.opening ++ label ++ tail) := by
    rw [labelEq]
    simp
  obtain ⟨shorter, ended, admitted, innerEq⟩ :=
    stops.exists_shorter (labelSplit ▸ shortest.defines.admitted)
  have defines : Defines text id other elsewhere shorter := by
    refine ⟨shortest.defines.apart, admitted, otherSpace,
      ended ++ id ++ space ++ shape.wrap label ++ rest, ?_, otherSpaces⟩
    rw [whole, beforeEq, innerEq]
    simp [Shape.wrap]
  have lengths := shortest.shortest shorter defines
  obtain ⟨bracket, closers, closingEq, _⟩ := other.exists_closing_eq_cons
  rw [labelSplit, innerEq, closingEq] at lengths
  simp only [List.length_append, List.length_cons] at lengths
  omega

section Written

variable {before space label rest : Text} {shape other : Shape}

theorem HasSite.of_front (written : HasSite before id other)
    (space wrapped rest : Text) :
    HasSite (before ++ id ++ space ++ wrapped ++ rest) id other := by
  obtain ⟨elsewhere, otherLabel, defines⟩ := written
  exact ⟨elsewhere, otherLabel, defines.of_front space wrapped rest⟩

/-- In front of a written label a place is closed if what is opened there is
settled. -/
theorem IsSettled.defines_of_front (settled : IsSettled id before)
    (bare : IsBare id) (spaces : ∀ character ∈ space, Text.isSpace character)
    (fits : labelFits label) {elsewhere otherLabel : Text}
    (shortest : DefinesShortest
      (before ++ id ++ space ++ shape.wrap label ++ rest) id other elsewhere
      otherLabel) (front : elsewhere.length < before.length) :
    Defines before id other elsewhere otherLabel := by
  have plain : ∀ character ∈ label, isBracket character = false :=
    fun _ member => not_isBracket_of_labelFits fits member
  rcases bare.front_cases spaces plain shortest.defines front with
    closed | reachesOver
  · exact closed
  · exact absurd reachesOver (not_reachesOver_of_isSettled settled shortest rfl)

theorem IsSettled.hasSite_iff (settled : IsSettled id before) (bare : IsBare id)
    (spaces : ∀ character ∈ space, Text.isSpace character)
    (fits : labelFits label) (lower : other.rank < shape.rank) :
    HasSite (before ++ id ++ space ++ shape.wrap label ++ rest) id other ↔
      HasSite before id other ∨ HasSite rest id other := by
  constructor
  · intro written
    obtain ⟨otherLabel, elsewhere, shortest, _⟩ := written.exists_definesFirst
    have plain : ∀ character ∈ label, isBracket character = false :=
      fun _ member => not_isBracket_of_labelFits fits member
    rcases bare.place_cases spaces plain shortest.defines with
      ⟨front, _⟩ | here | ⟨more, _, behind⟩
    · have closed := settled.defines_of_front bare spaces fits shortest front
      exact Or.inl ⟨elsewhere, otherLabel, closed⟩
    · subst here
      exact absurd lower (Nat.not_lt.mpr (shortest.defines.rank_le spaces fits))
    · exact Or.inr ⟨more, otherLabel, behind⟩
  · intro written
    rcases written with front | ⟨more, otherLabel, behind⟩
    · exact front.of_front space (shape.wrap label) rest
    · exact ⟨_, otherLabel, defines_behind_iff.mpr behind⟩

theorem IsSettled.definesFirst_of_front (settled : IsSettled id before)
    (bare : IsBare id) (spaces : ∀ character ∈ space, Text.isSpace character)
    (fits : labelFits label) {otherLabel : Text}
    (first : DefinesFirst before id other otherLabel) :
    DefinesFirst (before ++ id ++ space ++ shape.wrap label ++ rest) id other
      otherLabel := by
  obtain ⟨place, shortest, leftmost⟩ := first
  have front := shortest.defines.length_lt bare.ne_nil
  refine ⟨place, ⟨shortest.defines.of_front space (shape.wrap label) rest, ?_⟩,
    ?_⟩
  · intro longer longerDefines
    obtain ⟨least, leastShortest⟩ := exists_definesShortest longerDefines
    have closed := settled.defines_of_front bare spaces fits leastShortest front
    exact le_trans (shortest.shortest least closed)
      (leastShortest.shortest longer longerDefines)
  · intro elsewhere any anyDefines
    by_contra further
    obtain ⟨least, leastShortest⟩ := exists_definesShortest anyDefines
    have closed := settled.defines_of_front bare spaces fits leastShortest
      (Nat.lt_trans (Nat.lt_of_not_le further) front)
    exact further (leftmost elsewhere least closed)

theorem IsSettled.definesFirst_iff (settled : IsSettled id before)
    (bare : IsBare id) (apart : standsApart before id)
    (spaces : ∀ character ∈ space, Text.isSpace character)
    (fits : labelFits label) :
    DefinesFirst (before ++ id ++ space ++ shape.wrap label ++ rest) id shape
        label ↔
      ∀ otherLabel, DefinesFirst before id shape otherLabel →
        otherLabel = label := by
  constructor
  · intro first otherLabel front
    exact (settled.definesFirst_of_front bare spaces fits front).unique first
  · intro same
    by_cases written : HasSite before id shape
    · obtain ⟨otherLabel, front⟩ := written.exists_definesFirst
      have first :
          DefinesFirst (before ++ id ++ space ++ shape.wrap label ++ rest) id
            shape otherLabel :=
        settled.definesFirst_of_front bare spaces fits front
      rwa [same otherLabel front] at first
    · refine ⟨before, definesShortest_of_wrap apart spaces fits rest, ?_⟩
      intro elsewhere any anyDefines
      by_contra further
      obtain ⟨least, leastShortest⟩ := exists_definesShortest anyDefines
      have closed := settled.defines_of_front bare spaces fits leastShortest
        (Nat.lt_of_not_le further)
      exact written ⟨elsewhere, least, closed⟩

/-- A written label is what is found if no shape that is tried before is
written in front of it or behind it, and no other label in its own shape in
front of it. -/
theorem IsSettled.findDefinition_eq_iff (settled : IsSettled id before)
    (bare : IsBare id) (apart : standsApart before id)
    (spaces : ∀ character ∈ space, Text.isSpace character)
    (fits : labelFits label) (shape : Shape) (rest : Text) :
    findDefinition (before ++ id ++ space ++ shape.wrap label ++ rest) id =
        some ⟨id, label, shape⟩ ↔
      (∀ other : Shape, other.rank < shape.rank →
          ¬HasSite before id other ∧ ¬HasSite rest id other) ∧
        ∀ otherLabel, DefinesFirst before id shape otherLabel →
          otherLabel = label := by
  rw [findDefinition_eq_some_iff_rank bare.ne_nil, eq_self, true_and,
    settled.definesFirst_iff bare apart spaces fits]
  refine and_congr_left'
    (forall_congr' fun other => forall_congr' fun lower => ?_)
  rw [settled.hasSite_iff bare spaces fits lower, not_or]

end Written

/-- What can keep a changed shape from being read.  Its brackets are put in at
one place; if everything in front is settled, the node is read with the new
shape and its label unless a shape that is tried before is written in front or
behind, or the new shape with another label in front.  A shape that is tried
before the old one is always read. -/
theorem findDefinition_updateShape_iff {text : Text} {shape : Shape}
    (bare : IsBare id) (changed : updateShape text id shape ≠ text) :
    ∃ node before rest, findDefinition text id = some node ∧
      Replaces text (updateShape text id shape) id (node.shape.wrap node.label)
        (shape.wrap node.label) before [] rest ∧
      (IsSettled id before →
        (findDefinition (updateShape text id shape) id =
              some ⟨id, node.label, shape⟩ ↔
            (∀ other : Shape, other.rank < shape.rank →
                ¬HasSite before id other ∧ ¬HasSite rest id other) ∧
              ∀ label, DefinesFirst before id shape label →
                label = node.label) ∧
          (shape.rank < node.shape.rank →
            findDefinition (updateShape text id shape) id =
              some ⟨id, node.label, shape⟩)) := by
  obtain ⟨node, before, rest, found, _, fits, replaces⟩ :=
    exists_replaces_updateShape changed
  refine ⟨node, before, rest, found, replaces, ?_⟩
  intro settled
  have read_iff :=
    settled.findDefinition_eq_iff bare replaces.apart replaces.spaces fits shape
      rest
  rw [← replaces.edited_eq] at read_iff
  refine ⟨read_iff, ?_⟩
  intro lower
  have absent := ((findDefinition_eq_some_iff_rank bare.ne_nil).mp found).2.1
  -- What is written beside the place was written before, and none of it took
  -- precedence.
  have notFront : ∀ other : Shape, other.rank < node.shape.rank →
      ¬HasSite before id other := by
    intro other less written
    refine absent other less ?_
    rw [replaces.text_eq]
    exact written.of_front [] (node.shape.wrap node.label) rest
  refine read_iff.mpr ⟨?_, ?_⟩
  · intro other less
    refine ⟨notFront other (Nat.lt_trans less lower), ?_⟩
    intro written
    obtain ⟨more, label, behind⟩ := written
    refine absent other (Nat.lt_trans less lower) ?_
    rw [replaces.text_eq]
    exact ⟨_, label, defines_behind_iff.mpr behind⟩
  · intro label first
    exact absurd first.hasSite (notFront shape lower)

/-- The node is written in two shapes, and in the less specific one with other
labels in front and behind. -/
def roundedBeside : Text :=
  "A(u) --> B\n    A[x] --> A(w)\n".toList

theorem findDefinition_updateShape_iff_roundedBeside :
    IsBare ['A'] ∧ updateShape roundedBeside ['A'] .round ≠ roundedBeside ∧
      IsSettled ['A'] "A(u) --> B\n    ".toList ∧
      ¬((∀ other : Shape, other.rank < Shape.round.rank →
          ¬HasSite "A(u) --> B\n    ".toList ['A'] other ∧
            ¬HasSite " --> A(w)\n".toList ['A'] other) ∧
        ∀ label, DefinesFirst "A(u) --> B\n    ".toList ['A'] .round label →
          label = ['x']) := by
  have bare : IsBare ['A'] := isBare_of_isWordIdentifier (by decide)
  have changed : updateShape roundedBeside ['A'] .round ≠ roundedBeside := by
    decide +kernel
  have settled : IsSettled ['A'] "A(u) --> B\n    ".toList := by decide +kernel
  have onlyPlace : ∀ before ∈ roundedBeside.inits,
      "A[x]".toList <+: roundedBeside.drop before.length →
        before = "A(u) --> B\n    ".toList := by decide +kernel
  obtain ⟨node, before, rest, found, replaces, reads⟩ :=
    findDefinition_updateShape_iff bare changed
  have isRect :
      findDefinition roundedBeside ['A'] = some ⟨['A'], ['x'], .rect⟩ := by
    decide +kernel
  obtain rfl := Option.some.inj (isRect.symm.trans found)
  have whole : roundedBeside = before ++ ("A[x]".toList ++ rest) := by
    rw [replaces.text_eq]
    simp [Shape.wrap, Shape.opening, Shape.closing]
  have place : before = "A(u) --> B\n    ".toList := by
    apply onlyPlace before ((List.mem_inits _ _).mpr ⟨_, whole.symm⟩)
    rw [whole, List.drop_left]
    exact List.prefix_append _ _
  subst place
  have restEq : rest = " --> A(w)\n".toList := by
    have split : roundedBeside =
        "A(u) --> B\n    ".toList ++
          ("A[x]".toList ++ " --> A(w)\n".toList) := by
      decide
    rw [split] at whole
    exact (List.append_cancel_left (List.append_cancel_left whole)).symm
  subst restEq
  refine ⟨bare, changed, settled, (reads settled).1.not.mp ?_⟩
  decide +kernel

/-- Another definition in a shape that is tried earlier is read instead of the
new shape. -/
theorem not_findDefinition_updateShape :
    ¬∀ (text id : Text) (shape : Shape) (node : NodeDefinition), findDefinition
          text id = some node → updateShape text id shape ≠ text →
      findDefinition (updateShape text id shape) id =
        some ⟨id, node.label, shape⟩ := by
  intro reads
  have read :=
    reads "flowchart TD\n    A((x)) --> B\n    A[y]\n".toList ['A'] .diamond
      ⟨['A'], ['x'], .circle⟩ (by decide +kernel) (by decide +kernel)
  revert read
  decide +kernel

end DiagramEdit
