import DiagramEdit.Proofs.Header.Deletion

/-!
# Deletions one after another

A deletion takes the lines below the first that mention the node and no other
ones.  So nothing below the first line mentions the node afterwards, a second
deletion of it finds nothing to take, and of two nodes it does not matter which
one goes first.
-/

namespace DiagramEdit

section Removal

variable {text id other first : Text} {statements : List Text}

theorem ne_nil_of_not_isBlank (visible : Text.isBlank id = false) :
    id ≠ [] := by
  intro empty
  rw [empty] at visible
  cases visible

theorem references_eq_false_iff (nonempty : id ≠ [])
    (cut : Text.lines text = first :: statements) :
    references text id = false ↔
      ∀ line ∈ statements, mentions id line = false := by
  have present : id.isEmpty = false := by simpa using nonempty
  rw [references, present, cut, Bool.not_false, Bool.true_and, List.tail_cons,
    List.any_eq_false]
  simp only [Bool.not_eq_true]

/-- No line that stays below the first mentions the node. -/
theorem references_deleteNode (visible : Text.isBlank id = false)
    (text : Text) :
    references (deleteNode text id) id = false := by
  obtain ⟨first, statements, cut⟩ :=
    List.exists_cons_of_ne_nil (Text.lines_ne_nil text)
  rw [references_eq_false_iff (ne_nil_of_not_isBlank visible)
    (lines_deleteNode visible cut)]
  intro line stays
  simpa using List.of_mem_filter stays

/-- A deletion finds nothing to take exactly where nothing mentions the node. -/
theorem deleteNode_eq_self_iff (visible : Text.isBlank id = false)
    (text : Text) :
    deleteNode text id = text ↔ references text id = false := by
  obtain ⟨first, statements, cut⟩ :=
    List.exists_cons_of_ne_nil (Text.lines_ne_nil text)
  have lines := lines_deleteNode visible cut
  rw [references_eq_false_iff (ne_nil_of_not_isBlank visible) cut]
  constructor
  · intro same
    rw [same, cut] at lines
    have kept := List.filter_eq_self.mp (List.cons.inj lines).2.symm
    intro line member
    simpa using kept line member
  · intro unmentioned
    apply Text.eq_of_lines_eq
    rw [lines, cut, List.filter_eq_self.mpr]
    intro line member
    simpa using unmentioned line member

theorem lines_deleteNode_deleteNode (visible : Text.isBlank id = false)
    (otherVisible : Text.isBlank other = false)
    (cut : Text.lines text = first :: statements) :
    Text.lines (deleteNode (deleteNode text id) other) =
      first ::
        statements.filter fun line =>
          !mentions other line && !mentions id line := by
  rw [lines_deleteNode otherVisible (lines_deleteNode visible cut),
    List.filter_filter]

theorem deleteNode_deleteNode_comm (visible : Text.isBlank id = false)
    (otherVisible : Text.isBlank other = false) (text : Text) :
    deleteNode (deleteNode text id) other =
      deleteNode (deleteNode text other) id := by
  obtain ⟨first, statements, cut⟩ :=
    List.exists_cons_of_ne_nil (Text.lines_ne_nil text)
  apply Text.eq_of_lines_eq
  rw [lines_deleteNode_deleteNode visible otherVisible cut,
    lines_deleteNode_deleteNode otherVisible visible cut]
  simp only [Bool.and_comm]

end Removal

/-- A deletion leaves the lines that do not mention the node, in their order,
and the first one; so it leaves nothing to delete, and deletions can change
places. -/
theorem deleteNode_removes_mentions {id other : Text}
    (visible : Text.isBlank id = false)
    (otherVisible : Text.isBlank other = false) (text : Text) :
    references (deleteNode text id) id = false ∧
      (deleteNode text id = text ↔ references text id = false) ∧
      deleteNode (deleteNode text id) id = deleteNode text id ∧
      deleteNode (deleteNode text id) other =
        deleteNode (deleteNode text other) id ∧
      ∃ first statements, Text.lines text = first :: statements ∧
        Text.lines (deleteNode text id) =
          first :: statements.filter (!mentions id ·) := by
  obtain ⟨first, statements, cut⟩ :=
    List.exists_cons_of_ne_nil (Text.lines_ne_nil text)
  have unmentioned := references_deleteNode visible text
  have idempotent :=
    (deleteNode_eq_self_iff visible (deleteNode text id)).mpr unmentioned
  exact ⟨unmentioned, deleteNode_eq_self_iff visible text, idempotent,
    deleteNode_deleteNode_comm visible otherVisible text, first, statements,
    cut, lines_deleteNode visible cut⟩

/-- The first line stays although it mentions both, a longer name keeps its
line, and the line that mentions both can go with either of them. -/
theorem deleteNode_removes_mentions_eitherOrder :
    let text :=
      "graph TD; A --> B\r\n    A[x] --> B\r\n    AB[Keep]\r\n    style B fill:red\r\n".toList
    deleteNode (deleteNode text ['A']) ['B'] =
        deleteNode (deleteNode text ['B']) ['A'] ∧
      deleteNode (deleteNode text ['A']) ['B'] =
        "graph TD; A --> B\r\n    AB[Keep]\r\n".toList := by
  intro text
  obtain ⟨_, _, _, inEitherOrder, _⟩ :=
    deleteNode_removes_mentions (show Text.isBlank ['A'] = false by decide)
      (show Text.isBlank ['B'] = false by decide) text
  exact ⟨inEitherOrder, by decide +kernel⟩

end DiagramEdit
