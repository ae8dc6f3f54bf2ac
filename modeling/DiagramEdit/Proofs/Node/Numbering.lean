import DiagramEdit.Proofs.Mention.WholeWord
import DiagramEdit.Proofs.Node.Appending
import Mathlib.Order.Bounds.Basic
import Mathlib.Order.Monotone.Basic

/-!
# Numbers of new nodes

A new node takes the first number whose identifier is not in use.  The search
for it ends on every text, and since a text that a node is added to keeps all
identifiers in use, every further node takes a greater number and leaves the
earlier ones defined.  What is written on the first line alone is not in use, so
a statement there can name a node before it is added.
-/

namespace DiagramEdit

/-- An identifier is in use if it is listed or stands as a word below the first
line. -/
def InUse (text id : Text) : Prop :=
  id ∈ nodeIds text ∨ ∃ line ∈ (Text.lines text).tail, StandsAsWord id line

/-- The least positive number whose identifier is not in use. -/
def IsFirstFree (text : Text) (number : Nat) : Prop :=
  IsLeast {number | 1 ≤ number ∧ ¬InUse text (numberedId number)} number

/-- Counting up from a number ends at the first one that is accepted. -/
inductive CountsTo (accepts : Nat → Prop) : Nat → Nat → Prop where
  | here {number : Nat} (accepted : accepts number) :
      CountsTo accepts number number
  | later {number last : Nat} (refused : ¬accepts number)
      (counted : CountsTo accepts (number + 1) last) :
      CountsTo accepts number last

/-- The text after a node has been added so many times. -/
def afterAdding (text : Text) : Nat → Text
  | 0 => text
  | count + 1 => (addNode (afterAdding text count)).text

theorem countsTo_add {accepts : Nat → Prop} {number distance : Nat}
    (accepted : accepts (number + distance))
    (refused : ∀ smaller, number ≤ smaller → smaller < number + distance →
      ¬accepts smaller) :
    CountsTo accepts number (number + distance) := by
  induction distance generalizing number with
  | zero => exact .here accepted
  | succ distance induction =>
      have onward : number + (distance + 1) = number + 1 + distance := by omega
      apply CountsTo.later (refused number (Nat.le_refl number) (by omega))
      rw [onward] at accepted ⊢
      apply induction accepted
      intro smaller above below
      exact refused smaller (Nat.le_of_succ_le above) (by omega)

section Search

variable (text : Text)

theorem references_iff_standsAsWord {id : Text} (identifies : isIdentifier id) :
    references text id ↔
      ∃ line ∈ (Text.lines text).tail, StandsAsWord id line := by
  have nonempty : id.isEmpty = false := by
    simpa using ne_nil_of_isIdentifier identifies
  simp only [references, nonempty, Bool.not_false, Bool.true_and,
    List.any_eq_true, (hasPlainEnds_of_isIdentifier identifies).mentions_iff]

theorem isUnused_iff_not_inUse {id : Text} (identifies : isIdentifier id) :
    isUnused (nodeIds text) text id ↔ ¬InUse text id := by
  rw [isUnused_iff_not_mem, InUse, not_or,
    references_iff_standsAsWord text identifies]

theorem isFirstFree_freshNumber : IsFirstFree text (freshNumber text) := by
  obtain ⟨positive, unused, least⟩ := freshNumber_spec text
  constructor
  · exact ⟨positive,
      (isUnused_iff_not_inUse text (isIdentifier_numberedId _)).mp unused⟩
  · intro number free
    by_contra greater
    have used := least number free.1 (Nat.lt_of_not_le greater)
    rw [(isUnused_iff_not_inUse text (isIdentifier_numberedId number)).mpr
      free.2] at used
    cases used

theorem IsFirstFree.unique {text : Text} {number other : Nat}
    (first : IsFirstFree text number) (first' : IsFirstFree text other) :
    number = other :=
  IsLeast.unique first first'

/-- The search passes over numbers in use until it comes to the first free
one. -/
theorem countsTo_freshNumber :
    CountsTo (fun number => ¬InUse text (numberedId number)) 1
      (freshNumber text) := by
  obtain ⟨⟨positive, free⟩, least⟩ := isFirstFree_freshNumber text
  obtain ⟨distance, fromOne⟩ := Nat.exists_eq_add_of_le positive
  rw [fromOne] at free least ⊢
  apply countsTo_add free
  intro smaller above below free_smaller
  exact Nat.not_lt_of_le (least ⟨above, free_smaller⟩) below

/-- There are fewer identifiers in use than characters and one more. -/
theorem freshNumber_le : freshNumber text ≤ text.length + 1 := by
  obtain ⟨number, inRange, unused⟩ := exists_isUnused text
  have bounds := List.mem_range'_1.mp inRange
  have free :=
    (isUnused_iff_not_inUse text (isIdentifier_numberedId number)).mp unused
  have least := (isFirstFree_freshNumber text).2 ⟨bounds.1, free⟩
  omega

end Search

section Adding

variable (text : Text)

theorem InUse.addNode {text id : Text} (identifies : isIdentifier id)
    (used : InUse text id) :
    InUse (DiagramEdit.addNode text).text id := by
  rw [addNode_text]
  rcases used with listed | mentioned
  · exact Or.inl (mem_nodeIds_appendLine listed _)
  · right
    rw [← references_iff_standsAsWord _ identifies] at mentioned ⊢
    exact references_appendLine identifies mentioned _

theorem inUse_addNode : InUse (addNode text).text (addNode text).id :=
  Or.inl (mem_nodeIds_of_findDefinition (findDefinition_addNode text)
    (isWordIdentifier_of_isIdentifier (isIdentifier_addNode text))
    (isReserved_numberedId _))

theorem freshNumber_lt_addNode :
    freshNumber text < freshNumber (addNode text).text := by
  obtain ⟨⟨positive, free⟩, _⟩ := isFirstFree_freshNumber (addNode text).text
  obtain ⟨_, least⟩ := isFirstFree_freshNumber text
  have used : ∀ {number : Nat}, InUse text (numberedId number) →
      InUse (addNode text).text (numberedId number) :=
    fun inUse => inUse.addNode (isIdentifier_numberedId _)
  apply Nat.lt_of_le_of_ne
  · exact least ⟨positive, fun inUse => free (used inUse)⟩
  · intro same
    rw [← same] at free
    exact free (inUse_addNode text)

theorem strictMono_freshNumber :
    StrictMono fun count => freshNumber (afterAdding text count) :=
  strictMono_nat_of_lt_succ fun count =>
    freshNumber_lt_addNode (afterAdding text count)

/-- Nodes that have been added stay defined. -/
theorem findDefinition_afterAdding {count index : Nat} (added : index < count) :
    findDefinition (afterAdding text count)
        (addNode (afterAdding text index)).id =
      some ⟨(addNode (afterAdding text index)).id, newNodeLabel, .rect⟩ := by
  induction count with
  | zero => cases added
  | succ count induction =>
      rcases Nat.lt_succ_iff_lt_or_eq.mp added with earlier | rfl
      · have numbers := strictMono_freshNumber text earlier
        have different : (addNode (afterAdding text index)).id ≠
            (addNode (afterAdding text count)).id := by
          intro same
          exact Nat.ne_of_lt numbers (numberedId_injective same)
        rw [afterAdding,
          findDefinition_addNode_of_ne _
            (fun _ member =>
              not_isSpace_of_mem_identifier (isIdentifier_addNode _) member)
            different]
        exact induction earlier
      · exact findDefinition_addNode _

end Adding

/-- The search for a number ends, at the least positive one whose identifier is
not in use, and this is at most one more than the text has characters.  The new
node is found as a rectangle with its label; nodes added one after the other
have increasing numbers, and all of them are found in the end. -/
theorem addNode_takes_first_free (text : Text) :
    CountsTo (fun number => ¬InUse text (numberedId number)) 1
        (freshNumber text) ∧ (addNode text).id = numberedId (freshNumber text) ∧
      IsFirstFree text (freshNumber text) ∧ freshNumber text ≤ text.length + 1 ∧
      findDefinition (addNode text).text (addNode text).id =
        some ⟨(addNode text).id, newNodeLabel, .rect⟩ ∧
      (StrictMono fun count => freshNumber (afterAdding text count)) ∧
      ∀ count index, index < count →
        findDefinition (afterAdding text count)
            (addNode (afterAdding text index)).id =
          some ⟨(addNode (afterAdding text index)).id, newNodeLabel, .rect⟩ :=
  ⟨countsTo_freshNumber text, rfl, isFirstFree_freshNumber text,
    freshNumber_le text, findDefinition_addNode text,
    strictMono_freshNumber text,
    fun _ _ added => findDefinition_afterAdding text added⟩

/-- The identifier of a new node stands on no line below the first one.  It
stands in the text at all exactly if the first line names the first free
number. -/
theorem standsAsWord_addNode_iff (text : Text) :
    (∀ line ∈ (Text.lines text).tail, ¬StandsAsWord (addNode text).id line) ∧
      ((∃ line ∈ Text.lines text, StandsAsWord (addNode text).id line) ↔
        ∃ number header, IsFirstFree text number ∧
          (Text.lines text).head? = some header ∧
          StandsAsWord (numberedId number) header) := by
  have first := isFirstFree_freshNumber text
  have notBelow : ∀ line ∈ (Text.lines text).tail,
      ¬StandsAsWord (addNode text).id line := by
    intro line below stands
    exact first.1.2 (Or.inr ⟨line, below, stands⟩)
  refine ⟨notBelow, ?_⟩
  obtain ⟨header, statements, cut⟩ :=
    List.exists_cons_of_ne_nil (Text.lines_ne_nil text)
  rw [cut] at notBelow ⊢
  constructor
  · intro stands
    obtain ⟨line, onLine, named⟩ := stands
    rcases List.mem_cons.mp onLine with rfl | below
    · exact ⟨freshNumber text, line, first, rfl, named⟩
    · exact absurd named (notBelow line below)
  · intro parts
    obtain ⟨number, line, free, isFirst, named⟩ := parts
    obtain rfl : header = line := Option.some.inj isFirst
    rw [free.unique first] at named
    exact ⟨header, List.mem_cons_self, named⟩

/-- An edge on the first line names the node that is added next. -/
theorem not_unnamed_addNode :
    ¬∀ text, ∀ line ∈ Text.lines text,
      ¬StandsAsWord (addNode text).id line := by
  intro unnamed
  have added : (addNode "graph TD; A --> N1".toList).id = "N1".toList := by
    decide +kernel
  apply unnamed "graph TD; A --> N1".toList "graph TD; A --> N1".toList
    (by decide)
  rw [added]
  exact ⟨"graph TD; A --> ".toList, [], by decide, by decide, by decide⟩

end DiagramEdit
