import DiagramEdit.Proofs.Node.Fresh
import DiagramEdit.Proofs.Node.Growth

/-!
# The life of a new node

A text does not know the identifier of the node that is added to it.  Whatever
is then done to the node alone happens on lines behind the old ones, and
deleting the node takes all of these lines away.
-/

namespace DiagramEdit

/-- An edit of one node: its label, its shape, its colours, or an edge at it. -/
inductive Edit.Concerns (id : Text) : Edit → Prop where
  | label (label : Text) : Concerns id (.updateLabel id label)
  | shape (shape : Shape) : Concerns id (.updateShape id shape)
  | color (role : ColorRole) (color : Option Text) :
      Concerns id (.setColor role id color)
  | edgeFrom {target : Text} (identifies : isIdentifier target) :
      Concerns id (.addEdge id target)
  | edgeTo {source : Text} (identifies : isIdentifier source) :
      Concerns id (.addEdge source id)

section Added

variable {id : Text} (identifies : isIdentifier id)

include identifies

theorem belongsTo_edgeFrom {target : Text}
    (target_identifies : isIdentifier target) :
    BelongsTo id (indentation ++ id ++ " --> ".toList ++ target) := by
  rw [List.append_assoc]
  apply belongsTo_of_word identifies
  · have indent : '\n' ∉ indentation := by decide
    have arrow : '\n' ∉ " --> ".toList := by decide
    simp only [List.mem_append, indent, arrow,
      not_lineFeed_mem_identifier identifies,
      not_lineFeed_mem_identifier target_identifies, or_self, not_false_eq_true]
  · decide
  · rfl
  · exact begins_indentation_identifier identifies _

theorem belongsTo_edgeTo {source : Text}
    (source_identifies : isIdentifier source) :
    BelongsTo id (indentation ++ source ++ " --> ".toList ++ id) := by
  have belongs :
      BelongsTo id ((indentation ++ source ++ " --> ".toList) ++ id ++ []) := by
    apply belongsTo_of_word identifies
    · have indent : '\n' ∉ indentation := by decide
      have arrow : '\n' ∉ " --> ".toList := by decide
      simp only [List.mem_append, indent, arrow,
        not_lineFeed_mem_identifier identifies,
        not_lineFeed_mem_identifier source_identifies, or_self,
        List.not_mem_nil, not_false_eq_true]
    · exact Text.endsInWord_append_cons
        (Text.not_isWordCharacter_of_isSpace (by decide))
    · rfl
    · have begins := begins_indentation_identifier source_identifies
        (" --> ".toList ++ id ++ [])
      simpa only [List.append_assoc] using begins
  rwa [List.append_nil] at belongs

theorem belongsTo_style {body : Text} (oneLine : '\n' ∉ body) :
    BelongsTo id ("    style ".toList ++ id ++ ' ' :: body) := by
  apply belongsTo_of_word identifies
  · have keyword : '\n' ∉ "    style ".toList := by decide
    have notSpace : '\n' ≠ ' ' := by decide
    simp only [List.mem_append, List.mem_cons, keyword, notSpace, oneLine,
      not_lineFeed_mem_identifier identifies, or_self, not_false_eq_true]
  · decide
  · rfl
  · exact begins_indentation (by decide) _

theorem belongsTo_node (shape : Shape) {label : Text} (fits : labelFits label) :
    BelongsTo id (indentation ++ id ++ shape.wrap label) := by
  apply belongsTo_of_word identifies
  · have indent : '\n' ∉ indentation := by decide
    simp only [List.mem_append, indent, not_lineFeed_mem_identifier identifies,
      not_lineFeed_mem_wrap shape fits, or_self, not_false_eq_true]
  · decide
  · simpa using startsWithWord_wrap shape label []
  · exact begins_indentation_identifier identifies _

theorem BelongsTo.restyled {line rendered name : Text} {value : Option Text}
    {directive : StyleDirective} (belongs : BelongsTo id line)
    (read : StyleDirective.ofLine? id line = some directive)
    (named : '\n' ∉ name) (valued : ∀ chosen ∈ value, '\n' ∉ chosen)
    (result : (directive.assign name value).render = some rendered) :
    BelongsTo id rendered := by
  obtain ⟨indent, space, separator, body, split, indents, _, _, _, rfl⟩ :=
    (ofLine?_eq_some_iff identifies).mp read
  have kept := belongs.oneLine
  simp only [split, List.mem_append, List.mem_cons, not_or] at kept
  have noBreak : '\n' ∉ rendered :=
    StyleDirective.not_lineFeed_mem_render_assign result kept.1.1.1.1
      (not_lineFeed_mem_identifier identifies)
      (StyleDirective.not_lineFeed_mem_ofBody kept.2.2) named valued
  have shape :
      ∃ rest, rendered = (indent ++ "style ".toList) ++ id ++ ' ' :: rest := by
    by_cases empty : ((StyleDirective.ofBody indent id body).assign name
      value).properties.isEmpty
    · simp [StyleDirective.render, empty] at result
    · simp only [StyleDirective.render, empty, Bool.false_eq_true, if_false,
        Option.some.injEq] at result
      exact ⟨_, by rw [← result, List.append_assoc]; rfl⟩
  obtain ⟨rest, rfl⟩ := shape
  apply belongsTo_of_word identifies noBreak
  · have keyword :
        indent ++ "style ".toList = indent ++ "style".toList ++ [' '] := by
      rw [List.append_assoc]
      rfl
    rw [keyword]
    exact Text.endsInWord_append_cons
      (Text.not_isWordCharacter_of_isSpace (by decide))
  · rfl
  · rw [List.append_assoc, List.append_assoc,
      Text.trimStart_append_of_isSpace indents]
    rfl

theorem BelongsTo.recolored {line rendered : Text} {color : Option Text}
    {directive : StyleDirective} (belongs : BelongsTo id line)
    (read : StyleDirective.ofLine? id line = some directive) (role : ColorRole)
    (valid : color.all isColor)
    (result : (directive.assign role.name (color.map Text.trim)).render =
      some rendered) :
    BelongsTo id rendered := by
  apply belongs.restyled identifies read role.not_lineFeed_mem_name ?_ result
  intro chosen isChosen
  obtain ⟨value, rfl, rfl⟩ := Option.map_eq_some_iff.mp isChosen
  exact not_lineFeed_mem_trim valid

end Added

section Steps

variable {id : Text} {old : List Text} {broken : Bool} {text : Text}

theorem GrownFrom.setColor (identifies : isIdentifier id)
    (unaware : Unaware id old) (grown : GrownFrom id old broken text)
    (role : ColorRole) (color : Option Text) :
    GrownFrom id old broken (setColor role text id color) := by
  rcases setColor_cases role text id color with
    same |
      ⟨valid, header, statements, cut,
        ⟨edited, restyled, result⟩ | ⟨value, chosen, result⟩⟩
  · rw [same]
    exact grown
  · obtain ⟨added, textEq, belong⟩ := grown
    obtain ⟨first, oldRest, oldEq⟩ := List.exists_cons_of_ne_nil unaware.ne_nil
    rw [textEq, lines_of_grown unaware belong, oldEq, List.cons_append,
      List.cons_append, List.append_assoc] at cut
    obtain ⟨rfl, rfl⟩ := List.cons.inj cut
    have untouched :
        ∀ line ∈ oldRest, StyleDirective.ofLine? id line = none := by
      intro line member
      apply ofLine?_eq_none identifies
      apply unaware.unmentioned
      rw [oldEq]
      exact member
    -- The old lines hold no directive, so the first one is on an added line or
    -- closes the text.
    rw [restyle_append untouched] at restyled
    obtain ⟨editedRest, restyledRest, rfl⟩ := Option.map_eq_some_iff.mp restyled
    obtain ⟨before, line, after, directive, split, _, read, changed⟩ :=
      restyle_eq_some restyledRest
    rcases changed with same | changed
    · refine ⟨added, ?_, belong⟩
      rw [result, same, oldEq]
      simp
    · rcases Text.append_eq_append_cons_cases split with
        ⟨rest, addedEq, afterEq⟩ | ⟨_, _, closingEq⟩
      · have belongs := belong line (by simp [addedEq])
        refine ⟨before ++
            (directive.assign role.name (color.map Text.trim)).render.toList ++
            rest, ?_, ?_⟩
        · rw [result, changed, afterEq, oldEq]
          simp
        · intro item member
          rcases List.mem_append.mp member with front | later
          · rcases List.mem_append.mp front with earlier | rendered
            · exact belong item (by simp [addedEq, earlier])
            · exact belongs.recolored identifies read role valid
                (Option.mem_toList.mp rendered)
          · exact belong item (by simp [addedEq, later])
      · have closing : line ∈ Text.closingLine broken := by simp [closingEq]
        have mentioned := mem_wordRuns_of_ofLine? identifies read
        rw [Text.eq_nil_of_mem_closingLine closing] at mentioned
        cases mentioned
  · rw [result]
    apply grown.appendLine unaware
    rw [chosen] at valid
    rw [List.append_assoc _ (' ' :: role.name), List.cons_append]
    apply belongsTo_style identifies
    simp only [List.mem_append, List.mem_cons, role.not_lineFeed_mem_name,
      not_lineFeed_mem_trim valid]
    decide

theorem GrownFrom.addEdge (unaware : Unaware id old)
    (grown : GrownFrom id old broken text) {source target : Text}
    (source_identifies : isIdentifier source)
    (target_identifies : isIdentifier target)
    (belongs :
      BelongsTo id (indentation ++ source ++ " --> ".toList ++ target)) :
    GrownFrom id old broken (addEdge text source target) := by
  rw [DiagramEdit.addEdge]
  by_cases endpoints : isEndpoint source && isEndpoint target
  · rw [if_pos endpoints, trim_identifier source_identifies,
      trim_identifier target_identifies]
    exact grown.appendLine unaware belongs
  · rw [if_neg endpoints]
    exact grown

/-- An edit that concerns the identifier keeps the old lines. -/
theorem GrownFrom.apply (identifies : isIdentifier id)
    (unaware : Unaware id old) (grown : GrownFrom id old broken text)
    {edit : Edit} (concerned : edit.Concerns id) :
    GrownFrom id old broken (edit.apply text) := by
  cases concerned with
  | label label =>
      change GrownFrom id old broken (updateLabel text id label)
      cases found : findDefinition text id with
      | none =>
          rw [updateLabel_of_none found]
          exact grown
      | some node =>
          cases fits : labelFits label with
          | false =>
              rw [updateLabel_of_not_fits fits]
              exact grown
          | true =>
              exact grown.replaced identifies unaware fits
                (updateLabel_replaces found fits)
  | shape shape =>
      change GrownFrom id old broken (updateShape text id shape)
      cases found : findDefinition text id with
      | none =>
          rw [updateShape_of_none found]
          exact grown
      | some node =>
          rcases updateShape_eq_or_replaces found shape with
            same | ⟨fits, replaced⟩
          · rw [same]
            exact grown
          · exact grown.replaced identifies unaware fits replaced
  | color role color => exact grown.setColor identifies unaware role color
  | edgeFrom target_identifies =>
      exact grown.addEdge unaware identifies target_identifies
        (belongsTo_edgeFrom identifies target_identifies)
  | edgeTo source_identifies =>
      exact grown.addEdge unaware source_identifies identifies
        (belongsTo_edgeTo identifies source_identifies)

theorem GrownFrom.applyAll (identifies : isIdentifier id)
    (unaware : Unaware id old) (grown : GrownFrom id old broken text)
    {edits : List Edit} (concerned : ∀ edit ∈ edits, edit.Concerns id) :
    GrownFrom id old broken (Edit.applyAll text edits) := by
  induction edits generalizing text with
  | nil => exact grown
  | cons edit edits induction =>
      have stepped := grown.apply identifies unaware (concerned edit (by simp))
      exact induction stepped fun later member =>
        concerned later (by simp [member])

theorem GrownFrom.isPrefix_lines (unaware : Unaware id old)
    (grown : GrownFrom id old broken text) :
    old <+: Text.lines text := by
  obtain ⟨added, rfl, belong⟩ := grown
  rw [lines_of_grown unaware belong, List.append_assoc]
  exact List.prefix_append _ _

theorem GrownFrom.deleteNode (identifies : isIdentifier id)
    (unaware : Unaware id old) (grown : GrownFrom id old broken text) :
    deleteNode text id = Text.joinLines (old ++ Text.closingLine broken) := by
  obtain ⟨added, rfl, belong⟩ := grown
  obtain ⟨first, oldRest, oldEq⟩ := List.exists_cons_of_ne_nil unaware.ne_nil
  have visible := isBlank_identifier identifies
  have kept : ∀ line ∈ oldRest, (!mentions id line) = true := by
    intro line member
    rw [Bool.not_eq_true', ← Bool.not_eq_true,
      mentions_iff_mem_wordRuns identifies]
    apply unaware.unmentioned
    rw [oldEq]
    exact member
  have dropped : ∀ line ∈ added, ¬(!mentions id line) = true := by
    intro line member
    have mentioned :=
      (mentions_iff_mem_wordRuns identifies).mpr (belong line member).mentioned
    simp [mentioned]
  rw [DiagramEdit.deleteNode, visible, lines_of_grown unaware belong, oldEq]
  simp only [Bool.false_eq_true, if_false, List.cons_append, List.filter_append,
    List.filter_eq_self.mpr kept, List.filter_eq_nil_iff.mpr dropped,
    filter_mentions_closingLine identifies, List.append_nil]

end Steps

section Start

variable {text id : Text}

theorem IsSite.append {before after : Text} (site : IsSite id before after)
    (more : Text) :
    IsSite id before (after ++ more) := by
  obtain ⟨space, bracket, rest, split, spaces, opens⟩ := site.opens
  exact ⟨site.apart, space, bracket, rest ++ more, by simp [split], spaces,
    opens⟩

theorem references_of_references_trimEnd (identifies : isIdentifier id)
    (mentioned : references (Text.trimEnd text) id) : references text id := by
  obtain ⟨space, split, spaces⟩ := Text.exists_trimEnd_append text
  obtain ⟨before, after, cut, below, ends, starts⟩ :=
    (references_iff_cut identifies).mp mentioned
  refine (references_iff_cut identifies).mpr
    ⟨before, after ++ space, ?_, below, ends, ?_⟩
  · rw [split, cut, List.append_assoc]
  · exact Text.startsWithWord_append starts
      (Text.startsWithWord_of_spaces spaces)

theorem unaware_of_isUnused (visible : Text.isBlank text = false)
    (identifies : isIdentifier id) (unreserved : isReserved id = false)
    (unused : isUnused (nodeIds text) text id) :
    Unaware id (Text.lines (Text.trimEnd text)) := by
  obtain ⟨notTaken, notReferred⟩ := isUnused_iff_not_mem.mp unused
  refine ⟨fun _ member => Text.not_mem_of_mem_lines member, ?_, ?_, ?_⟩
  · have last := Text.getLast?_trimEnd text
    rcases List.eq_nil_or_concat (Text.trimEnd text) with
      empty | ⟨front, character, whole⟩
    · exact absurd empty (Text.trimEnd_ne_nil visible)
    · rw [List.concat_eq_append] at whole
      have visibleLast : Text.isSpace character = false := by
        rw [whole] at last
        simpa using last
      have different : character ≠ '\n' := by
        intro lineFeed
        rw [lineFeed] at visibleLast
        cases visibleLast
      obtain ⟨earlier, line, linesEq⟩ := Text.exists_lines_eq_concat different
      exact ⟨earlier, line, character, by rw [whole, linesEq], visibleLast⟩
  · intro before after split site
    obtain ⟨space, whole, _⟩ := Text.exists_trimEnd_append text
    rw [Text.joinLines_lines] at split
    apply notTaken
    have inUse :=
      mem_nodeIds_of_isSite (head?_identifier identifies)
        (fun _ member => isWordCharacter_of_mem_identifier identifies member)
        unreserved (site.append space)
    rwa [← List.append_assoc, ← split, ← whole] at inUse
  · intro line below member
    apply notReferred
    apply references_of_references_trimEnd identifies
    exact (references_iff identifies).mpr ⟨line, below, member⟩

theorem unaware_addNode (visible : Text.isBlank text = false) :
    Unaware (addNode text).id (Text.lines (Text.trimEnd text)) :=
  unaware_of_isUnused visible (isIdentifier_addNode text)
    (isReserved_numberedId _) (isUnused_addNode text)

/-- A new node is a line of its own behind the old ones. -/
theorem grown_addNode (visible : Text.isBlank text = false) :
    GrownFrom (addNode text).id (Text.lines (Text.trimEnd text))
      (text.getLast? == some '\n') (addNode text).text := by
  refine ⟨[nodeLine (addNode text).id], ?_, ?_⟩
  · rw [addNode_text, Text.appendLine_eq visible,
      Text.joinLines_closingLine (by simp),
      Text.joinLines_append (Text.lines_ne_nil _), Text.joinLines_lines,
      Text.finalBreak]
    simp
  · intro item member
    rw [List.mem_singleton.mp member]
    exact belongsTo_node (isIdentifier_addNode text) Shape.rect
      labelFits_newNodeLabel

end Start

/-- After any edits of a node that was added, deleting it leaves the text as
it was without the white space at its end, and in between no old line has
changed. -/
theorem deleteNode_applyAll_addNode {text : Text}
    (visible : Text.isBlank text = false) {edits : List Edit}
    (concerned : ∀ edit ∈ edits, edit.Concerns (addNode text).id) :
    deleteNode (Edit.applyAll (addNode text).text edits) (addNode text).id =
        Text.trimEnd text ++
          (if text.getLast? = some '\n' then ['\n'] else []) ∧
      ∀ done, done <+: edits →
        Text.lines (Text.trimEnd text) <+:
          Text.lines (Edit.applyAll (addNode text).text done) := by
  have identifies : isIdentifier (addNode text).id := isIdentifier_numberedId _
  have unaware := unaware_addNode visible
  have grown := grown_addNode visible
  constructor
  · have grownAll := grown.applyAll identifies unaware concerned
    rw [grownAll.deleteNode identifies unaware,
      Text.joinLines_closingLine unaware.ne_nil, Text.joinLines_lines]
    by_cases broken : text.getLast? = some '\n'
    · simp [broken]
    · simp [broken]
  · intro done isPrefix
    have grownDone := grown.applyAll identifies unaware
      (fun edit member => concerned edit (isPrefix.subset member))
    exact grownDone.isPrefix_lines unaware

/-- The header names the new node, a colour looks like its definition, and the
text ends in blanks. -/
theorem deleteNode_applyAll_addNode_header :
    deleteNode
        (Edit.applyAll (addNode "graph TD; A --> N1\n\tA[x]  \n".toList).text
          [.setColor .fill "N1".toList (some "N1((red))".toList),
            .updateLabel "N1".toList "late".toList,
            .addEdge "A".toList "N1".toList, .updateShape "N1".toList .hexagon,
            .setColor .stroke "N1".toList none]) "N1".toList =
      "graph TD; A --> N1\n\tA[x]\n".toList := by
  have added :
      (addNode "graph TD; A --> N1\n\tA[x]  \n".toList).id = "N1".toList := by
    decide +kernel
  have visible :
      Text.isBlank "graph TD; A --> N1\n\tA[x]  \n".toList = false := by
    decide
  have concerned :
      ∀ edit ∈ ([.setColor .fill "N1".toList (some "N1((red))".toList),
        .updateLabel "N1".toList "late".toList, .addEdge "A".toList "N1".toList,
        .updateShape "N1".toList .hexagon, .setColor .stroke "N1".toList none] :
        List Edit),
        edit.Concerns (addNode "graph TD; A --> N1\n\tA[x]  \n".toList).id := by
    rw [added]
    intro edit member
    simp only [List.mem_cons, List.not_mem_nil, or_false] at member
    rcases member with rfl | rfl | rfl | rfl | rfl
    · exact .color _ _
    · exact .label _
    · exact .edgeTo (by decide)
    · exact .shape _
    · exact .color _ _
  have deleted := (deleteNode_applyAll_addNode visible concerned).1
  rw [added] at deleted
  rw [deleted]
  decide

end DiagramEdit
