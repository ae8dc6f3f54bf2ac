import DiagramEdit.Proofs.Node.Surroundings

/-!
# Which definition of a node takes precedence

A node that is written in several shapes is read in the one that is tried first.
The rank of a shape is its number in that order.  In a text with a written label
the places that compete with it are those in front of it, those behind it, and
itself.
-/

namespace DiagramEdit

namespace Shape

/-- How many shapes are tried before this one. -/
def rank (shape : Shape) : Nat :=
  bySpecificity.idxOf shape

theorem rank_injective {shape other : Shape} (same : other.rank = shape.rank) :
    other = shape :=
  (List.idxOf_inj (mem_bySpecificity other)).mp same

theorem rank_lt_of_isDouble {shape other : Shape} (double : shape.isDouble)
    (single : other.isDouble = false) : shape.rank < other.rank := by
  have table : ∀ shape ∈ bySpecificity, ∀ other ∈ bySpecificity,
      shape.isDouble → other.isDouble = false → shape.rank < other.rank := by
    decide
  exact table shape (mem_bySpecificity shape) other (mem_bySpecificity other)
    double single

/-- The shapes that are tried before a shape are those of lower rank. -/
theorem mem_earlier_iff {shape other : Shape} {earlier later : List Shape}
    (order : bySpecificity = earlier ++ shape :: later) :
    other ∈ earlier ↔ other.rank < shape.rank := by
  have distinct : (earlier ++ shape :: later).Nodup := by
    rw [← order]
    decide
  have notEarlier : shape ∉ earlier := by
    intro member
    exact (List.nodup_append.mp distinct).2.2 shape member shape
      List.mem_cons_self rfl
  have shapeRank : shape.rank = earlier.length := by
    rw [rank, order, List.idxOf_append_of_notMem notEarlier,
      List.idxOf_cons_self, Nat.add_zero]
  rw [shapeRank, rank, order]
  constructor
  · intro member
    rw [List.idxOf_append_of_mem member]
    exact List.idxOf_lt_length_iff.mpr member
  · intro lower
    by_contra notMember
    rw [List.idxOf_append_of_notMem notMember] at lower
    omega

end Shape

section Selection

variable {text id : Text}

/-- A definition is found if no shape of lower rank is written anywhere. -/
theorem findDefinition_eq_some_iff_rank (nonempty : id ≠ [])
    {node : NodeDefinition} :
    findDefinition text id = some node ↔
      node.id = id ∧
        (∀ other : Shape, other.rank < node.shape.rank →
          ¬HasSite text id other) ∧
        DefinesFirst text id node.shape node.label := by
  rw [findDefinition_eq nonempty]
  simp only [List.findSome?_eq_some_iff, Option.map_eq_some_iff,
    Option.map_eq_none_iff, Pattern.first?_definition_eq_some_iff,
    Pattern.first?_definition_eq_none_iff]
  constructor
  · intro parts
    obtain ⟨earlier, shape, later, order, ⟨label, first, same⟩, absent⟩ := parts
    subst same
    refine ⟨rfl, ?_, first⟩
    intro other lower
    exact absent other ((Shape.mem_earlier_iff order).mpr lower)
  · intro parts
    obtain ⟨same, absent, first⟩ := parts
    subst same
    obtain ⟨earlier, later, order, _⟩ := node.shape.bySpecificity_eq_append
    refine ⟨earlier, node.shape, later, order, ⟨node.label, first, rfl⟩, ?_⟩
    intro other member
    exact absent other ((Shape.mem_earlier_iff order).mp member)

theorem exists_found_of_hasSite (nonempty : id ≠ []) {shape : Shape}
    (written : HasSite text id shape) :
    ∃ node, findDefinition text id = some node ∧
      node.shape.rank ≤ shape.rank := by
  cases found : findDefinition text id with
  | none =>
      rw [findDefinition_eq nonempty] at found
      simp only [List.findSome?_eq_none_iff, Option.map_eq_none_iff,
        Pattern.first?_definition_eq_none_iff] at found
      exact absurd written (found shape (Shape.mem_bySpecificity shape))
  | some node =>
      refine ⟨node, rfl, Nat.le_of_not_lt ?_⟩
      intro lower
      exact ((findDefinition_eq_some_iff_rank nonempty).mp found).2.1 shape
        lower written

variable {shape : Shape} {before label label' : Text}

theorem DefinesFirst.hasSite (first : DefinesFirst text id shape label) :
    HasSite text id shape := by
  obtain ⟨before, shortest, _⟩ := first
  exact ⟨before, label, shortest.defines⟩

theorem HasSite.exists_definesFirst (written : HasSite text id shape) :
    ∃ label, DefinesFirst text id shape label := by
  cases searched : (Pattern.definition id shape).first? text with
  | none =>
      exact absurd written (Pattern.first?_definition_eq_none_iff.mp searched)
  | some label =>
      exact ⟨label, Pattern.first?_definition_eq_some_iff.mp searched⟩

theorem DefinesFirst.unique (first : DefinesFirst text id shape label)
    (first' : DefinesFirst text id shape label') : label = label' := by
  have searched := Pattern.first?_definition_eq_some_iff.mpr first
  rw [Pattern.first?_definition_eq_some_iff.mpr first'] at searched
  exact (Option.some.inj searched).symm

theorem DefinesShortest.unique
    (shortest : DefinesShortest text id shape before label)
    (shortest' : DefinesShortest text id shape before label') :
    label = label' := by
  obtain ⟨after, split⟩ := shortest.defines.isPrefix
  rw [← split] at shortest shortest'
  obtain ⟨stop, read⟩ := Pattern.definition_cut_iff_definesShortest.mpr shortest
  obtain ⟨stop', read'⟩ :=
    Pattern.definition_cut_iff_definesShortest.mpr shortest'
  rw [read] at read'
  exact congrArg Prod.fst (Option.some.inj read')

theorem Defines.before_eq {elsewhere : Text}
    (defines : Defines text id shape before label)
    (defines' : Defines text id shape elsewhere label')
    (lengths : before.length = elsewhere.length) :
    before = elsewhere :=
  (List.prefix_of_prefix_length_le defines.isPrefix defines'.isPrefix
      lengths.le).eq_of_length lengths

theorem Defines.length_lt (nonempty : id ≠ [])
    (defines : Defines text id shape before label) :
    before.length < text.length := by
  obtain ⟨space, rest, split, _⟩ := defines.written
  have positive := List.length_pos_of_ne_nil nonempty
  rw [split]
  simp only [List.length_append]
  omega

/-- Where a label that fits is written, no shape is read that is tried before
its own. -/
theorem Defines.rank_le {space rest : Text} {other : Shape}
    (spaces : ∀ character ∈ space, Text.isSpace character)
    (fits : labelFits label)
    (defines : Defines (before ++ id ++ space ++ shape.wrap label ++ rest) id
      other before label') :
    shape.rank ≤ other.rank := by
  rcases defines.shape_cases spaces fits with same | ⟨double, single⟩
  · exact (congrArg Shape.rank same).ge
  · exact (Shape.rank_lt_of_isDouble double single).le

end Selection

end DiagramEdit
