import DiagramEdit.Label
import DiagramEdit.Proofs.Svg.EncodedId

/-!
# Clicks inside drawn nodes

A node of a flowchart, a class and a state are drawn as an element with a class
of its own and a numbered `id`.  A click on anything inside that element picks
the node, as long as no closer element has the same class.
-/

namespace DiagramEdit

namespace Svg

namespace Path

/-- The path and those of the nodes around it, up to the outer one and without
it. -/
def upTo (inner outer : Path) : List Path :=
  inner.upward.take (inner.above.length - outer.above.length)

theorem drop_chain (between above : List Node) :
    (chain (between ++ above)).drop between.length = chain above := by
  induction between with
  | nil => rfl
  | cons node between induction => simpa [chain] using induction

mutual

/-- What lies inside a node has that node among those that enclose it. -/
theorem enclosed_of_mem_within {path : Path} {above : List Node} {node : Node}
    (inside : path ∈ within above node) :
    ∃ between, path.node :: path.above = between ++ node :: above := by
  cases node with
  | mk position content children =>
      rw [within] at inside
      rcases List.mem_cons.mp inside with here | deeper
      · exact ⟨[], by rw [here, List.nil_append]⟩
      · obtain ⟨between, child, enclosed⟩ := enclosed_of_mem_withinAll deeper
        exact ⟨between ++ [child], by simp [enclosed]⟩

theorem enclosed_of_mem_withinAll {path : Path} {above nodes : List Node}
    (inside : path ∈ withinAll above nodes) :
    ∃ between node, path.node :: path.above = between ++ node :: above := by
  cases nodes with
  | nil => simp [withinAll] at inside
  | cons node rest =>
      rw [withinAll] at inside
      rcases List.mem_append.mp inside with first | later
      · obtain ⟨between, enclosed⟩ := enclosed_of_mem_within first
        exact ⟨between, node, enclosed⟩
      · exact enclosed_of_mem_withinAll later

end

/-- The way outwards from inside a node leads through the node. -/
theorem upward_eq_upTo_append {inner outer : Path}
    (inside : inner ∈ within outer.above outer.node) :
    inner.upward = inner.upTo outer ++ outer.upward := by
  obtain ⟨between, enclosed⟩ := enclosed_of_mem_within inside
  have lengths : inner.above.length - outer.above.length = between.length := by
    have total := congrArg List.length enclosed
    simp only [List.length_cons, List.length_append] at total
    omega
  have rest : inner.upward.drop between.length = outer.upward := by
    rw [upward, enclosed, drop_chain]
    rfl
  rw [upTo, lengths, ← rest, List.take_append_drop]

end Path

theorem Selector.closest?_of_inside {selector : Selector} {inner outer : Path}
    (inside : inner ∈ Path.within outer.above outer.node)
    (accepted : selector.accepts outer.node)
    (nearest : ∀ path ∈ inner.upTo outer, ¬selector.accepts path.node) :
    selector.closest? inner = some outer := by
  have skipped :
      (inner.upTo outer).find? (fun path => selector.accepts path.node) =
        none :=
    List.find?_eq_none.mpr nearest
  have upward : outer.upward = outer :: Path.chain outer.above := rfl
  rw [closest?, Path.upward_eq_upTo_append inside, List.find?_append, skipped,
    upward]
  simp [accepted]

end Svg

/-- How the drawing of a dialect marks an element that stands for a declared
one. -/
structure NodeMark where
  className : Text
  /-- What its `id` begins with. -/
  leading : Text

/-- The dialects whose drawings encode identifiers mark the element of a
node. -/
def Dialect.nodeMark? : Dialect → Option NodeMark
  | .flowchart => some ⟨"node".toList, "flowchart-".toList⟩
  | .classes => some ⟨"classGroup".toList, "classId-".toList⟩
  | .states => some ⟨"statediagram-state".toList, "state-".toList⟩
  | _ => none

namespace Svg

theorem Path.selected?_of_inside {dialect : Dialect} {mark : NodeMark}
    {inner outer : Path} (marked : dialect.nodeMark? = some mark)
    (inside : inner ∈ Path.within outer.above outer.node)
    (isNode : outer.node.hasClass mark.className)
    (nearest : ∀ path ∈ inner.upTo outer, ¬path.node.hasClass mark.className) :
    inner.selected? dialect = some outer := by
  have closest :
      (Selector.hasClass mark.className).closest? inner = some outer :=
    Selector.closest?_of_inside inside isNode nearest
  cases dialect with
  | flowchart | classes | states =>
      obtain rfl := Option.some.inj marked
      rw [selected?, Dialect.selectors, List.findSome?_cons, closest]
      rfl
  | sequence | entities | mindmap | pie | gantt =>
      simp [Dialect.nodeMark?] at marked

theorem Path.identity?_of_encoded {dialect : Dialect} {mark : NodeMark}
    {path : Path} {source id digits : Text}
    (marked : dialect.nodeMark? = some mark)
    (encoded : path.node.id? = some (mark.leading ++ id ++ '-' :: digits))
    (nonempty : id ≠ []) (oneLine : '\n' ∉ id) (someDigit : digits ≠ [])
    (allDigits : ∀ digit ∈ digits, Text.isDecimalDigit digit) :
    path.identity? dialect source =
      some ⟨id, currentLabel source dialect id, dialect⟩ := by
  have read :
      path.node.encodedId? (.numberedIdentifier mark.leading) = some id :=
    Node.encodedId?_numbered encoded nonempty oneLine someDigit allDigits
  cases dialect with
  | flowchart =>
      obtain rfl := Option.some.inj marked
      have flowchartId : path.node.flowchartId? = some id := by
        rw [Node.flowchartId?, read]
        simp [nonempty]
      rw [identity?, flowchartId]
      rfl
  | classes =>
      obtain rfl := Option.some.inj marked
      have classId : path.node.classId? = some id := read
      rw [identity?, classId]
      rfl
  | states =>
      obtain rfl := Option.some.inj marked
      have stateId : path.node.stateId? = some id := by
        rw [Node.stateId?, read]
        rfl
      rw [identity?, stateId]
      rfl
  | sequence | entities | mindmap | pie | gantt =>
      simp [Dialect.nodeMark?] at marked

/-- A click anywhere inside a drawn node picks the node: its identifier is the
one that the `id` encodes, and its label the one that the source gives it.
Elements of the same class in between would be nodes of their own. -/
theorem pick?_inside_node {source : Text} {mark : NodeMark} {inner outer : Path}
    {id digits : Text} (marked : (detect source).nodeMark? = some mark)
    (isNode : outer.node.hasClass mark.className)
    (encoded : outer.node.id? = some (mark.leading ++ id ++ '-' :: digits))
    (nonempty : id ≠ []) (oneLine : '\n' ∉ id) (someDigit : digits ≠ [])
    (allDigits : ∀ digit ∈ digits, Text.isDecimalDigit digit)
    (inside : inner ∈ Path.within outer.above outer.node)
    (nearest : ∀ path ∈ inner.upTo outer, ¬path.node.hasClass mark.className) :
    inner.pick? source =
      some ⟨id, currentLabel source (detect source) id, detect source⟩ := by
  have selected := Path.selected?_of_inside marked inside isNode nearest
  rw [Path.pick?, selected]
  exact Path.identity?_of_encoded marked encoded nonempty oneLine someDigit
    allDigits

/-- A group with a comment inside. -/
def drawnGroup : Node :=
  .mk 3 (.element "g".toList []) [.mk 4 .comment []]

/-- A flowchart node `a-1` as a drawing shows it, with the group inside. -/
def drawnElement : Node :=
  .mk 2
    (.element "g".toList
      [⟨none, "class".toList, "node default".toList⟩,
        ⟨none, "id".toList, "flowchart-a-1-07".toList⟩])
    [drawnGroup]

def drawnSvg : Node :=
  .mk 1 (.element "svg".toList []) [drawnElement]

def drawnDocument : Node :=
  .mk 0 .document [drawnSvg]

/-- The drawn node in its document. -/
def drawnNode : Path :=
  ⟨drawnElement, [drawnSvg, drawnDocument]⟩

/-- The comment in the group of the drawn node. -/
def drawnComment : Path :=
  ⟨.mk 4 .comment [], [drawnGroup, drawnElement, drawnSvg, drawnDocument]⟩

theorem pick?_inside_node_comment :
    drawnComment ∈ Path.within [] drawnDocument ∧
      drawnComment ∈ Path.within drawnNode.above drawnNode.node ∧
      drawnComment.pick? "graph TD\n  a-1{Go}".toList =
        some ⟨"a-1".toList, "Go".toList, .flowchart⟩ := by
  have inDocument : drawnComment ∈ Path.within [] drawnDocument := by
    simp [drawnComment, drawnDocument, drawnSvg, drawnElement, drawnGroup,
      Path.within, Path.withinAll]
  have inside : drawnComment ∈ Path.within drawnNode.above drawnNode.node := by
    simp [drawnComment, drawnNode, drawnElement, drawnGroup, Path.within,
      Path.withinAll]
  have dialect : detect "graph TD\n  a-1{Go}".toList = .flowchart := by
    decide +kernel
  have marked : (detect "graph TD\n  a-1{Go}".toList).nodeMark? =
      some ⟨"node".toList, "flowchart-".toList⟩ := by rw [dialect]; rfl
  have isNode : drawnNode.node.hasClass "node".toList := by decide +kernel
  have encoded : drawnNode.node.id? =
      some ("flowchart-".toList ++ "a-1".toList ++ '-' :: "07".toList) := by
    decide +kernel
  have allDigits : "07".toList.all Text.isDecimalDigit := by decide
  have nearest : ∀ path ∈ drawnComment.upTo drawnNode,
      ¬path.node.hasClass "node".toList := by
    decide
  have picked :=
    pick?_inside_node marked isNode encoded (by decide) (by decide) (by decide)
      (List.all_eq_true.mp allDigits) inside nearest
  have label :
      currentLabel "graph TD\n  a-1{Go}".toList .flowchart "a-1".toList =
        "Go".toList := by
    decide +kernel
  refine ⟨inDocument, inside, ?_⟩
  rw [picked, dialect, label]

end Svg

end DiagramEdit
