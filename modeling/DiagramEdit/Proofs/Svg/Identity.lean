import DiagramEdit.Proofs.Label.Scope
import DiagramEdit.Proofs.Svg.Decoding

/-!
# What a click picks has an identity

The identity of a drawn element is encoded in its attributes, or it is the text
that the element shows.  An encoded identifier is never empty, and a text that
is blank names nothing.  Where a drawing encodes no identifiers, the shown text
is all there is: the label stands in the selected element or, for a bare shape,
in the group around it.
-/

namespace DiagramEdit

/-- The dialects whose drawings encode no identifiers. -/
def Dialect.shownOnly : List Dialect :=
  [.sequence, .entities, .mindmap, .pie, .gantt]

namespace Svg

namespace Node

theorem subtree_eq_cons (node : Node) :
    node.subtree = node :: node.descendants := by
  cases node
  rfl

theorem hasTag_eq_false {node : Node} {tag other : Text}
    (tagged : node.hasTag tag) (differs : tag ≠ other) :
    node.hasTag other = false := by
  simp only [hasTag, Bool.and_eq_true, beq_iff_eq] at tagged
  obtain ⟨_, rfl⟩ := tagged
  simp [hasTag, differs]

/-- What can show the label of a node, the preferred elements first: the texts,
and after them the foreign content. -/
def labelElements (node : Node) : List Node :=
  node.subtree.filter (·.hasTag "text".toList) ++
    node.descendants.filter (·.hasTag "foreignObject".toList)

theorem labelElement?_eq_head? (node : Node) :
    node.labelElement? = node.labelElements.head? := by
  rw [labelElement?, labelElements, subtree_eq_cons, List.head?_append,
    List.head?_filter, List.head?_filter, firstBelow?_eq_find?,
    firstBelow?_eq_find?]
  by_cases text : node.hasTag "text".toList
  · have first :
        (node :: node.descendants).find? (·.hasTag "text".toList) = some node :=
      List.find?_cons_of_pos text
    rw [if_pos text, first, Option.some_or]
  · have onward : (node :: node.descendants).find? (·.hasTag "text".toList) =
        node.descendants.find? (·.hasTag "text".toList) :=
      List.find?_cons_of_neg text
    rw [if_neg text, onward, Option.orElse_eq_orElse, Option.orElse_eq_or]

theorem mem_labelElements_iff {node shown : Node} :
    shown ∈ node.labelElements ↔
      ((shown = node ∨ shown ∈ node.descendants) ∧ shown.hasTag "text".toList) ∨
        (shown ∈ node.descendants ∧ shown.hasTag "foreignObject".toList) := by
  rw [labelElements, List.mem_append, List.mem_filter, List.mem_filter,
    subtree_eq_cons, List.mem_cons]

end Node

namespace Path

variable {path target : Path} {shown : Node} {dialect : Dialect} {source : Text}
  {identity : ElementIdentity}

/-- The group that the end of a path is a child of. -/
def parentGroup? (path : Path) : Option Node :=
  path.parentElement?.filter (·.hasTag "g".toList)

/-- What can show the label at the end of a path, the preferred elements first.
What stands in the group around it comes last. -/
def labelElements (path : Path) : List Node :=
  path.node.labelElements ++ path.parentGroup?.elim [] Node.labelElements

theorem labelElement?_eq_head? (path : Path) :
    path.labelElement? = path.labelElements.head? := by
  rw [labelElement?, labelElements, List.head?_append,
    ← Node.labelElement?_eq_head?, Option.orElse_eq_orElse, Option.orElse_eq_or,
    parentGroup?]
  cases path.parentElement?.filter (·.hasTag "g".toList) with
  | none => rfl
  | some group =>
      rw [Option.bind_some, Option.elim_some, ← Node.labelElement?_eq_head?]

/-- An element that shows a label, at the end of a path or inside of it, or
inside of the group around it. -/
structure ShowsLabel (path : Path) (shown : Node) : Prop where
  tagged : shown.hasTag "text".toList ∨ shown.hasTag "foreignObject".toList
  placed : shown = path.node ∨ shown ∈ path.node.descendants ∨
    ∃ group, path.parentElement? = some group ∧ group.hasTag "g".toList ∧
      shown ∈ group.descendants

theorem showsLabel_of_mem_labelElements (member : shown ∈ path.labelElements) :
    path.ShowsLabel shown := by
  rw [labelElements, List.mem_append] at member
  rcases member with inside | around
  · rw [Node.mem_labelElements_iff] at inside
    rcases inside with ⟨here | below, text⟩ | ⟨below, foreign⟩
    · exact ⟨.inl text, .inl here⟩
    · exact ⟨.inl text, .inr (.inl below)⟩
    · exact ⟨.inr foreign, .inr (.inl below)⟩
  · cases parent : path.parentGroup? with
    | none => simp [parent] at around
    | some group =>
        rw [parent, Option.elim_some, Node.mem_labelElements_iff] at around
        obtain ⟨parent, isGroup⟩ := Option.filter_eq_some_iff.mp parent
        rcases around with ⟨here | below, text⟩ | ⟨below, foreign⟩
        · -- A group is no text, so the label stands below it.
          subst here
          rw [Node.hasTag_eq_false isGroup (by decide)] at text
          cases text
        · exact ⟨.inl text, .inr (.inr ⟨group, parent, isGroup, below⟩)⟩
        · exact ⟨.inr foreign, .inr (.inr ⟨group, parent, isGroup, below⟩)⟩

/-- The preferred label is the identity, unless it is blank. -/
theorem visibleIdentity?_eq_some_iff :
    path.visibleIdentity? dialect = some identity ↔
      ∃ shown others, path.labelElements = shown :: others ∧
        Text.trim shown.textContent ≠ [] ∧
        identity =
          ⟨Text.trim shown.textContent, Text.trim shown.textContent,
            dialect⟩ := by
  rw [visibleIdentity?, labelElement?_eq_head?]
  cases path.labelElements with
  | nil => simp
  | cons first further =>
      rw [List.head?_cons, Option.bind_eq_bind, Option.bind_some]
      simp only [Option.pure_def, Option.ite_none_left_eq_some,
        List.isEmpty_iff, Option.some.injEq]
      constructor
      · intro parts
        obtain ⟨nonblank, rfl⟩ := parts
        exact ⟨first, further, rfl, nonblank, rfl⟩
      · intro parts
        obtain ⟨shown, others, labels, nonblank, rfl⟩ := parts
        obtain ⟨rfl, rfl⟩ := List.cons.inj labels
        exact ⟨nonblank, rfl⟩

theorem identity?_of_shownOnly (shownOnly : dialect ∈ Dialect.shownOnly) :
    path.identity? dialect source = path.visibleIdentity? dialect := by
  cases dialect with
  | flowchart | classes | states => simp [Dialect.shownOnly] at shownOnly
  | sequence | entities | mindmap | pie | gantt => rfl

end Path

/-- An identity in a dialect that names something.  A flowchart node may have an
empty label. -/
structure IsNaming (dialect : Dialect) (identity : ElementIdentity) : Prop where
  dialect_eq : identity.dialect = dialect
  id_ne_nil : identity.id ≠ []
  label_ne_nil : dialect ≠ .flowchart → identity.label ≠ []

namespace Path

variable {path target : Path} {dialect : Dialect} {source : Text}
  {identity : ElementIdentity}

theorem isNaming_of_visibleIdentity?
    (visible : path.visibleIdentity? dialect = some identity) :
    IsNaming dialect identity := by
  obtain ⟨shown, others, _, nonblank, rfl⟩ :=
    visibleIdentity?_eq_some_iff.mp visible
  exact ⟨rfl, nonblank, fun _ => nonblank⟩

/-- Whatever the end of a path is identified by, it is named. -/
theorem isNaming_of_identity?
    (identified : path.identity? dialect source = some identity) :
    IsNaming dialect identity := by
  cases dialect with
  | flowchart =>
      obtain ⟨id, encoded, rfl⟩ := Option.map_eq_some_iff.mp identified
      refine ⟨rfl, ?_, fun other => absurd rfl other⟩
      rcases Node.flowchartId?_iff.mp encoded with
        ⟨_, _, _, numbered⟩ | ⟨_, _, nonempty⟩
      · exact numbered.nonempty
      · exact nonempty
  | classes =>
      rw [identity?] at identified
      cases encoded : path.node.classId? with
      | none =>
          rw [encoded] at identified
          exact isNaming_of_visibleIdentity? identified
      | some name =>
          rw [encoded] at identified
          obtain rfl := Option.some.inj identified
          obtain ⟨_, _, _, numbered⟩ := Node.encodedId?_numbered_iff.mp encoded
          exact ⟨rfl, numbered.nonempty, fun _ => numbered.nonempty⟩
  | states =>
      rw [identity?] at identified
      cases encoded : path.node.stateId? with
      | none =>
          rw [encoded] at identified
          exact isNaming_of_visibleIdentity? identified
      | some id =>
          rw [encoded] at identified
          obtain rfl := Option.some.inj identified
          have nonempty : id ≠ [] := by
            rcases Node.stateId?_iff.mp encoded with
              ⟨_, _, _, numbered⟩ | ⟨_, _, _, _, _, separated⟩
            · exact numbered.nonempty
            · exact separated.nonempty
          refine ⟨rfl, nonempty, fun _ => ?_⟩
          cases described : stateDescription? source id with
          | none => exact nonempty
          | some label => exact (isInfix_of_stateDescription? described).1
  | sequence | entities | mindmap | pie | gantt =>
      exact isNaming_of_visibleIdentity? identified

theorem pick?_eq_some_iff :
    target.pick? source = some identity ↔
      ∃ selected, target.selected? (detect source) = some selected ∧
        selected.identity? (detect source) source = some identity :=
  Option.bind_eq_some_iff

/-- Where drawings encode no identifiers, a click picks the preferred label of
the element it selects, and nothing if that is blank. -/
theorem pick?_eq_some_iff_of_shownOnly
    (shownOnly : detect source ∈ Dialect.shownOnly) :
    target.pick? source = some identity ↔
      ∃ selected shown others,
        target.selected? (detect source) = some selected ∧
          selected.labelElements = shown :: others ∧
          Text.trim shown.textContent ≠ [] ∧
          identity =
            ⟨Text.trim shown.textContent, Text.trim shown.textContent,
              detect source⟩ := by
  simp only [pick?_eq_some_iff, identity?_of_shownOnly shownOnly,
    visibleIdentity?_eq_some_iff, exists_and_left]

/-- A click never picks an empty identity.  Where drawings encode no
identifiers, the identity is the trimmed text of a label at the selected
element, inside of it, or inside of the group around it. -/
theorem identity_of_pick? (picked : target.pick? source = some identity) :
    identity.dialect = detect source ∧ identity.id ≠ [] ∧
      (detect source ≠ .flowchart → identity.label ≠ []) ∧
      (detect source ∈ Dialect.shownOnly →
        identity.label = identity.id ∧
          ∃ selected shown, target.selected? (detect source) = some selected ∧
            selected.ShowsLabel shown ∧
            identity.id = Text.trim shown.textContent) := by
  obtain ⟨_, _, identified⟩ := pick?_eq_some_iff.mp picked
  have naming := isNaming_of_identity? identified
  refine ⟨naming.dialect_eq, naming.id_ne_nil, naming.label_ne_nil, ?_⟩
  intro shownOnly
  obtain ⟨selected, shown, others, resolved, labels, _, rfl⟩ :=
    (pick?_eq_some_iff_of_shownOnly shownOnly).mp picked
  have member : shown ∈ selected.labelElements := by
    rw [labels]
    exact List.mem_cons_self
  exact ⟨rfl, selected, shown, resolved, showsLabel_of_mem_labelElements member,
    rfl⟩

/-- The bare shape of an actor, with a comment inside. -/
def actorShape : Node :=
  .mk 3 (.element "rect".toList [⟨none, "class".toList, "actor".toList⟩])
    [.mk 4 .comment []]

/-- The group of the actor, which shows the name as foreign content. -/
def actorGroup : Node :=
  .mk 2 (.element "g".toList []) [actorShape,
    .mk 5 (.element "foreignObject".toList [])
      [.mk 6 (.text "\n Alice ".toList) []]]

def actorSvg : Node :=
  .mk 1 (.element "svg".toList []) [actorGroup]

def actorDocument : Node :=
  .mk 0 .document [actorSvg]

/-- The comment in the shape of the actor. -/
def actorComment : Path :=
  ⟨.mk 4 .comment [], [actorShape, actorGroup, actorSvg, actorDocument]⟩

theorem identity_of_pick?_actor :
    actorComment ∈ within [] actorDocument ∧
      actorComment.pick? "sequenceDiagram\n".toList =
        some ⟨"Alice".toList, "Alice".toList, .sequence⟩ ∧
      ∃ selected shown,
        actorComment.selected? (detect "sequenceDiagram\n".toList) =
            some selected ∧ selected.ShowsLabel shown ∧
          "Alice".toList = Text.trim shown.textContent := by
  have picked : actorComment.pick? "sequenceDiagram\n".toList =
      some ⟨"Alice".toList, "Alice".toList, .sequence⟩ := by decide +kernel
  have shownOnly : detect "sequenceDiagram\n".toList ∈ Dialect.shownOnly := by
    decide +kernel
  have inDocument : actorComment ∈ within [] actorDocument := by
    simp [actorComment, actorDocument, actorSvg, actorGroup, actorShape, within,
      withinAll]
  exact ⟨inDocument, picked, ((identity_of_pick? picked).2.2.2 shownOnly).2⟩

end Path

end Svg

end DiagramEdit
