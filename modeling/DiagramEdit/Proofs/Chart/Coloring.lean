import DiagramEdit.Proofs.Chart.Addition
import DiagramEdit.Proofs.Chart.Directive

/-!
# Colouring a node

The style statement of a node is the only line that is read as a directive of
its identifier, so a colour is written there, or in a new statement at the end.
-/

namespace DiagramEdit

namespace Chart

variable {chart : Chart} {id : Text}

theorem isEntry_roleName (role : ColorRole) :
    IsEntry role.name ∧ ':' ∉ role.name := by
  cases role with
  | fill => decide
  | stroke => decide

theorem wellFormed_colored (role : ColorRole) {color : Text}
    (colors : isColor color)
    (plain : ∀ character ∈ color, isBracket character = false) :
    StyleProperty.WellFormed ⟨role.name, Text.trim color⟩ := by
  obtain ⟨nonempty, separated⟩ := isColor_trim colors
  obtain ⟨entry, noColon⟩ := isEntry_roleName role
  refine ⟨entry, noColon, nonempty, Text.trim_trim color, ?_⟩
  intro character member
  obtain ⟨comma, semicolon, lineFeed, carriageReturn⟩ :=
    separated character member
  have bracket := plain character (Text.mem_of_mem_trim member)
  simp [isPlain, isLineBreak, bracket, comma, semicolon, lineFeed,
    carriageReturn]

theorem wellFormed_of_mem_assign {role : ColorRole} {color : Option Text}
    (colors : color.all isColor)
    (plain : ∀ value ∈ color, ∀ character ∈ value, isBracket character = false)
    {properties : List StyleProperty}
    (wellFormed : ∀ property ∈ properties, property.WellFormed) :
    ∀ property ∈ StyleProperty.assign role.name (color.map Text.trim)
      properties,
      property.WellFormed := by
  intro property member
  rcases StyleProperty.mem_assign member with old | ⟨valued, named⟩
  · exact wellFormed property old
  · obtain ⟨value, rfl, valueEq⟩ := Option.map_eq_some_iff.mp valued.symm
    have colored := wellFormed_colored role colors (plain value rfl)
    rw [valueEq] at colored
    rcases named with isName | ⟨old, among, isOld⟩
    · exact ⟨isName ▸ colored.name, isName ▸ colored.noColon, colored.value⟩
    · have kept := wellFormed old among
      exact ⟨isOld ▸ kept.name, isOld ▸ kept.noColon, colored.value⟩

theorem recolor_of_unstyled {name : Text} {value : Option Text}
    {statement : Statement} (other : statement.styledId? ≠ some id) :
    statement.recolor id name value = some statement := by
  cases statement with
  | node other shape label => rfl
  | edge source target => rfl
  | style node properties =>
      have different : node ≠ id := by
        intro same
        exact other (congrArg some same)
      simp [Statement.recolor, different]

theorem filterMap_recolor_of_unstyled {name : Text} {value : Option Text}
    {statements : List Statement}
    (others : ∀ statement ∈ statements, statement.styledId? ≠ some id) :
    statements.filterMap (Statement.recolor id name value) = statements := by
  calc
    statements.filterMap (Statement.recolor id name value) =
      statements.filterMap some := by
      apply List.filterMap_congr
      intro statement among
      exact recolor_of_unstyled (others statement among)
    _ = statements := List.filterMap_some

theorem recolor_style_eq_none {name : Text} {value : Option Text}
    {properties : List StyleProperty}
    (left : StyleProperty.assign name value properties = []) :
    Statement.recolor id name value (.style id properties) = none := by
  simp [Statement.recolor, StyleProperty.recolored_eq_assign, left]

theorem recolor_style_eq_some {name : Text} {value : Option Text}
    {properties rest : List StyleProperty} {first : StyleProperty}
    (left : StyleProperty.assign name value properties = first :: rest) :
    Statement.recolor id name value (.style id properties) =
      some (.style id (first :: rest)) := by
  simp [Statement.recolor, StyleProperty.recolored_eq_assign, left]

/-- The directive after an assignment is the line of the style after it, if any
is left. -/
theorem render_assign {name : Text} {value : Option Text}
    {properties : List StyleProperty} (identifies : isIdentifier id)
    (wellFormed : ∀ property ∈ StyleProperty.assign name value properties,
      property.WellFormed) :
    ((Statement.directive id properties).assign name value).render =
      (Statement.recolor id name value (.style id properties)).map
        Statement.line := by
  change (Statement.directive id
      (StyleProperty.assign name value properties)).render = _
  cases assigned : StyleProperty.assign name value properties with
  | nil =>
      rw [recolor_style_eq_none assigned]
      rfl
  | cons first rest =>
      rw [assigned] at wellFormed
      have left : (Statement.style id (first :: rest)).WellFormed :=
        ⟨identifies, List.cons_ne_nil _ _, wellFormed⟩
      rw [Statement.render_directive left, recolor_style_eq_some assigned,
        Option.map_some]

/-- One statement may be replaced by another of the same kind or removed. -/
theorem WellFormed.replace (wellFormed : chart.WellFormed)
    {earlier later : List Statement} {old : Statement}
    (cut : chart.statements = earlier ++ old :: later) {new : Option Statement}
    (keeps : ∀ statement ∈ new, statement.WellFormed ∧
      statement.nodeId? = old.nodeId? ∧ statement.styledId? = old.styledId?) :
    WellFormed { chart with statements := earlier ++ new.toList ++ later } := by
  have once : ∀ mark : Statement → Option Text,
      (chart.statements.filterMap mark).Nodup →
        (∀ statement ∈ new, mark statement = mark old) →
        ((earlier ++ new.toList ++ later).filterMap mark).Nodup := by
    intro mark nodup same
    rw [cut] at nodup
    cases new with
    | none =>
        rw [Option.toList_none, List.append_nil]
        have fewer :=
          (List.Sublist.refl earlier).append (List.sublist_cons_self old later)
        exact nodup.sublist (fewer.filterMap mark)
    | some statement =>
        have marks :
            (earlier ++ (some statement).toList ++ later).filterMap mark =
              (earlier ++ old :: later).filterMap mark := by
          simp [List.filterMap_append, List.filterMap_cons, same statement rfl]
        rwa [marks]
  refine ⟨wellFormed.header_visible, wellFormed.header_trimmed,
    wellFormed.header_plain, ?_,
    once _ wellFormed.defined_once fun statement isNew =>
      (keeps statement isNew).2.1,
    once _ wellFormed.styled_once fun statement isNew =>
      (keeps statement isNew).2.2⟩
  intro statement member
  rcases List.mem_append.mp member with front | after
  · rcases List.mem_append.mp front with before | isNew
    · exact wellFormed.statements statement (by simp [cut, before])
    · exact (keeps statement (Option.mem_toList.mp isNew)).1
  · exact wellFormed.statements statement (by simp [cut, after])

theorem cases_styled (id : Text) (chart : Chart) :
    (∃ earlier properties later,
        chart.statements = earlier ++ Statement.style id properties :: later) ∨
      ∀ statement ∈ chart.statements, statement.styledId? ≠ some id := by
  by_cases styled : ∃ statement ∈ chart.statements,
    statement.styledId? = some id
  · obtain ⟨statement, among, isStyle⟩ := styled
    obtain ⟨earlier, later, cut⟩ := List.append_of_mem among
    cases statement with
    | node other shape label => cases isStyle
    | edge source target => cases isStyle
    | style other properties =>
        obtain rfl : other = id := Option.some.inj isStyle
        exact Or.inl ⟨earlier, properties, later, cut⟩
  · right
    intro statement among isStyle
    exact styled ⟨statement, among, isStyle⟩

theorem WellFormed.ofLine?_eq_none (wellFormed : chart.WellFormed)
    (identifies : isIdentifier id) {statements : List Statement}
    (among : statements ⊆ chart.statements)
    (unstyled : ∀ statement ∈ statements, statement.styledId? ≠ some id) :
    ∀ line ∈ statements.map Statement.line,
      StyleDirective.ofLine? id line = none := by
  intro line member
  obtain ⟨statement, inStatements, rfl⟩ := List.mem_map.mp member
  exact Statement.ofLine?_eq_none_of_styledId?
    (wellFormed.statements statement (among inStatements)) identifies
    (unstyled statement inStatements)

theorem ofLine?_closingLine (identifies : isIdentifier id) (broken : Bool) :
    ∀ line ∈ Text.closingLine broken,
      StyleDirective.ofLine? id line = none := by
  intro line member
  apply DiagramEdit.ofLine?_eq_none identifies
  rw [Text.eq_nil_of_mem_closingLine member]
  exact List.not_mem_nil

theorem WellFormed.filterMap_recolor (wellFormed : chart.WellFormed)
    {earlier later : List Statement} {properties : List StyleProperty}
    (cut : chart.statements = earlier ++ Statement.style id properties :: later)
    (name : Text) (value : Option Text) :
    chart.statements.filterMap (Statement.recolor id name value) =
      earlier ++
        (Statement.recolor id name value (.style id properties)).toList ++
        later := by
  have once := wellFormed.styled_once
  rw [cut] at once
  obtain ⟨before, after⟩ := Text.unmarked_of_nodup once rfl
  rw [cut, List.filterMap_append, List.filterMap_cons,
    filterMap_recolor_of_unstyled before, filterMap_recolor_of_unstyled after]
  cases Statement.recolor id name value (.style id properties) <;> simp

theorem wellFormed_of_mem_recolor {name : Text} {value : Option Text}
    {properties : List StyleProperty} (identifies : isIdentifier id)
    (assigned : ∀ property ∈ StyleProperty.assign name value properties,
      property.WellFormed) :
    ∀ statement ∈ Statement.recolor id name value (.style id properties),
      statement.WellFormed ∧
        statement.nodeId? = (Statement.style id properties).nodeId? ∧
        statement.styledId? = (Statement.style id properties).styledId? := by
  intro statement isNew
  cases left : StyleProperty.assign name value properties with
  | nil =>
      rw [recolor_style_eq_none left] at isNew
      cases isNew
  | cons first rest =>
      rw [recolor_style_eq_some left, Option.mem_some_iff] at isNew
      rw [← isNew, ← left]
      exact ⟨⟨identifies, by simp [left], assigned⟩, rfl, rfl⟩

/-- A node that has a style gets its colour there. -/
theorem WellFormed.setColor_styled (wellFormed : chart.WellFormed)
    (identifies : isIdentifier id) (role : ColorRole) {color : Option Text}
    (accepted : (references chart.render id && color.all isColor) = true)
    (plain : ∀ value ∈ color, ∀ character ∈ value, isBracket character = false)
    {earlier later : List Statement} {properties : List StyleProperty}
    (cut :
      chart.statements = earlier ++ Statement.style id properties :: later) :
    let recolored := Statement.recolor id role.name (color.map Text.trim)
    let edited : Chart :=
      { chart with statements := chart.statements.filterMap recolored }
    DiagramEdit.setColor role chart.render id color = edited.render ∧
      edited.WellFormed := by
  intro recolored edited
  have styleWellFormed : (Statement.style id properties).WellFormed :=
    wellFormed.statements _ (by simp [cut])
  have assigned :
      ∀ property ∈ StyleProperty.assign role.name (color.map Text.trim)
        properties,
        property.WellFormed :=
    wellFormed_of_mem_assign (Bool.and_eq_true_iff.mp accepted).2 plain
      styleWellFormed.2.2
  have statements :=
    wellFormed.filterMap_recolor cut role.name (color.map Text.trim)
  constructor
  · have once := wellFormed.styled_once
    rw [cut] at once
    have noneBefore :=
      wellFormed.ofLine?_eq_none identifies
        (show earlier ⊆ chart.statements by simp [cut])
        (Text.unmarked_of_nodup once rfl).1
    have lines : Text.lines chart.render = chart.header ::
        (earlier.map Statement.line ++ (Statement.style id properties).line ::
          (later.map Statement.line ++ Text.closingLine chart.broken)) := by
      rw [wellFormed.lines_render, cut]
      simp
    have restyled :
        restyle id role.name (color.map Text.trim)
            (earlier.map Statement.line ++
              (Statement.style id properties).line ::
                (later.map Statement.line ++ Text.closingLine chart.broken)) =
          _ :=
      restyle_of_first noneBefore (Statement.ofLine?_style styleWellFormed)
        (Statement.render_directive styleWellFormed)
    rw [setColor_of_restyled lines accepted restyled, render_eq edited]
    change _ = Text.joinLines (chart.header ::
      (chart.statements.filterMap recolored).map Statement.line ++
      Text.closingLine chart.broken)
    rw [statements, render_assign identifies assigned]
    cases found : Statement.recolor id role.name (color.map Text.trim)
      (.style id properties) <;> simp
  · change WellFormed
      { chart with statements := chart.statements.filterMap recolored }
    rw [statements]
    exact wellFormed.replace cut (wellFormed_of_mem_recolor identifies assigned)

theorem WellFormed.restyle_eq_none (wellFormed : chart.WellFormed)
    (identifies : isIdentifier id)
    (unstyled : ∀ statement ∈ chart.statements, statement.styledId? ≠ some id)
    (name : Text) (value : Option Text) :
    restyle id name value
        (chart.statements.map Statement.line ++ Text.closingLine chart.broken) =
      none := by
  apply restyle_eq_none_iff.mpr
  intro line member
  rcases List.mem_append.mp member with written | closing
  · exact wellFormed.ofLine?_eq_none identifies (List.Subset.refl _) unstyled
      line written
  · exact ofLine?_closingLine identifies chart.broken line closing

/-- A node without a style gets one at the end. -/
theorem WellFormed.setColor_unstyled (wellFormed : chart.WellFormed)
    (identifies : isIdentifier id) (role : ColorRole) {value : Text}
    (accepted : (references chart.render id && isColor value) = true)
    (plain : ∀ character ∈ value, isBracket character = false)
    (unstyled : ∀ statement ∈ chart.statements, statement.styledId? ≠ some id) :
    let styled := chart.append (.style id [⟨role.name, Text.trim value⟩])
    DiagramEdit.setColor role chart.render id (some value) = styled.render ∧
      styled.WellFormed := by
  intro styled
  constructor
  · have notRestyled := wellFormed.restyle_eq_none identifies unstyled role.name
      ((some value).map Text.trim)
    have written :=
      wellFormed.appendLine_render (.style id [⟨role.name, Text.trim value⟩])
    have lineEq : (Statement.style id [⟨role.name, Text.trim value⟩]).line =
        "    style ".toList ++ id ++ ' ' :: role.name ++ ':' ::
          Text.trim value := by
      rw [Statement.line, Statement.text_style, styleBody_singleton]
      simp
    rw [lineEq] at written
    rw [setColor_of_not_restyled wellFormed.lines_render accepted notRestyled]
    exact written
  · have colored :=
      wellFormed_colored role (Bool.and_eq_true_iff.mp accepted).2 plain
    have styleWellFormed :
        (Statement.style id [⟨role.name, Text.trim value⟩]).WellFormed := by
      refine ⟨identifies, List.cons_ne_nil _ _, ?_⟩
      intro property member
      rw [List.mem_singleton.mp member]
      exact colored
    apply wellFormed.append styleWellFormed
    · intro node impossible
      cases impossible
    · intro node isNew
      obtain rfl : id = node := Option.some.inj isNew
      exact unstyled

theorem any_styledId?_eq_false
    (unstyled : ∀ statement ∈ chart.statements, statement.styledId? ≠ some id) :
    (chart.statements.any fun statement => statement.styledId? == some id) =
      false := by
  rw [List.any_eq_false]
  intro statement among isStyle
  exact unstyled statement among (beq_iff_eq.mp isStyle)

theorem WellFormed.setColor (wellFormed : chart.WellFormed)
    (identifies : isIdentifier id) (role : ColorRole) {color : Option Text}
    (plain : ∀ value ∈ color, ∀ character ∈ value,
      isBracket character = false) :
    DiagramEdit.setColor role chart.render id color =
        (chart.setColor role id color).render ∧
      (chart.setColor role id color).WellFormed := by
  unfold Chart.setColor
  rw [← wellFormed.references_eq_mentions identifies]
  by_cases accepted : references chart.render id && color.all isColor
  · rw [if_pos accepted]
    rcases cases_styled id chart with
      ⟨earlier, properties, later, cut⟩ | unstyled
    · have styled :
          (chart.statements.any fun statement =>
            statement.styledId? == some id) := by
        rw [List.any_eq_true]
        exact ⟨.style id properties, by simp [cut], beq_self_eq_true _⟩
      rw [if_pos styled]
      exact wellFormed.setColor_styled identifies role accepted plain cut
    · rw [any_styledId?_eq_false unstyled]
      cases color with
      | none =>
          have notRestyled :=
            wellFormed.restyle_eq_none identifies unstyled role.name none
          have kept :
              DiagramEdit.setColor role chart.render id none = chart.render :=
            setColor_of_not_restyled wellFormed.lines_render accepted
              notRestyled
          exact ⟨kept, wellFormed⟩
      | some value =>
          exact wellFormed.setColor_unstyled identifies role accepted
            (plain value rfl) unstyled
  · rw [if_neg accepted]
    exact ⟨setColor_of_refused (Bool.not_eq_true _ ▸ accepted), wellFormed⟩

end Chart

end DiagramEdit
