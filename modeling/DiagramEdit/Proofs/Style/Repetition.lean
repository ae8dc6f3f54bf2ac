import DiagramEdit.Proofs.Style.Clearing
import DiagramEdit.Proofs.Style.Placement

/-!
# A colour is set again or taken back

A property that sets a colour is read again where it has been written, whatever
stands in front of it and behind it.  So the node has the colour afterwards, and
setting it once more changes nothing.  A directive that has been added for the
colour goes when the colour is cleared.
-/

namespace DiagramEdit

namespace StyleProperty

variable {name value : Text} {properties : List StyleProperty}

/-- The value of the first property of the name. -/
def valueOf? (name : Text) (properties : List StyleProperty) : Option Text :=
  (properties.find? (·.isNamed name)).map StyleProperty.value

theorem valueOf?_append_cons {earlier later : List StyleProperty}
    {set : StyleProperty}
    (unnamed : ∀ other ∈ earlier, other.isNamed name = false)
    (named : set.isNamed name) :
    valueOf? name (earlier ++ set :: later) = some set.value := by
  have skipped : earlier.find? (·.isNamed name) = none :=
    List.find?_eq_none.mpr fun other member =>
      Bool.eq_false_iff.mp (unnamed other member)
  rw [valueOf?, List.find?_append, skipped, Option.none_or,
    List.find?_cons_of_pos named, Option.map_some]

theorem exists_assign_some (name value : Text)
    (properties : List StyleProperty) :
    ∃ earlier set later,
      assign name (some value) properties = earlier ++ set :: later ∧
        (∀ other ∈ earlier, other.isNamed name = false) ∧ set.isNamed name ∧
        set.value = value := by
  rcases cases_isNamed name properties with
    unnamed | ⟨earlier, old, later, rfl, unnamed, named⟩
  · exact ⟨properties, ⟨name, value⟩, [], assign_some_of_unnamed unnamed value,
      unnamed, beq_self_eq_true _, rfl⟩
  · exact ⟨earlier, ⟨old.name, value⟩, later,
      assign_some_of_first unnamed named value, unnamed, named, rfl⟩

theorem valueOf?_assign_some (name value : Text)
    (properties : List StyleProperty) :
    valueOf? name (assign name (some value) properties) = some value := by
  obtain ⟨earlier, set, later, split, unnamed, named, rfl⟩ :=
    exists_assign_some name value properties
  rw [split, valueOf?_append_cons unnamed named]

theorem assign_some_eq_self_iff_valueOf? :
    assign name (some value) properties = properties ↔
      valueOf? name properties = some value := by
  rcases cases_isNamed name properties with
    unnamed | ⟨earlier, old, later, rfl, unnamed, named⟩
  · have absent : properties.find? (·.isNamed name) = none :=
      List.find?_eq_none.mpr fun other member =>
        Bool.eq_false_iff.mp (unnamed other member)
    rw [assign_some_of_unnamed unnamed, valueOf?, absent]
    simp
  · rw [assign_some_eq_self_iff unnamed named,
      valueOf?_append_cons unnamed named, Option.some.injEq]

end StyleProperty

namespace StyleDirective

variable {directive edited : StyleDirective}

theorem exists_properties_ofBody {earlier later : List StyleProperty}
    {set : StyleProperty}
    (isRead : ∀ property ∈ edited.properties, property.IsRead)
    (split : edited.properties = earlier ++ set :: later) (plain : set.IsPlain)
    (indent id : Text) :
    ∃ rest,
      (ofBody indent id edited.body).properties =
        earlier.filter (!·.render.isEmpty) ++ set :: rest := by
  have whole : edited.properties.filter (!·.render.isEmpty) =
      earlier.filter (!·.render.isEmpty) ++ set ::
        later.filter (!·.render.isEmpty) := by
    rw [split, List.filter_append, StyleProperty.filter_render_cons plain.named]
  cases terminated : edited.terminated with
  | true =>
      rw [ofBody_of_terminated isRead indent terminated, whole]
      exact ⟨_, rfl⟩
  | false =>
      by_cases ends :
        (StyleProperty.textOfList edited.properties).getLast? = some ';'
      · -- Only the last property is read without its semicolon, and that is
        -- another one.
        rcases List.eq_nil_or_concat later with rfl | ⟨front, last, rfl⟩
        · rw [split] at ends
          have semicolon :=
            StyleProperty.getLast?_textOfList_concat ends (by decide)
          exact absurd (List.mem_of_getLast? semicolon) plain.noSemicolon_render
        · rw [List.concat_eq_append, ← List.cons_append, ← List.append_assoc]
            at split
          rw [split] at ends
          obtain ⟨stem, lastWritten⟩ := List.getLast?_eq_some_iff.mp
            (StyleProperty.getLast?_textOfList_concat ends (by decide))
          rw [properties_ofBody_of_semicolon isRead terminated split
              lastWritten, List.filter_append,
            StyleProperty.filter_render_cons plain.named, List.append_assoc,
            List.cons_append]
          exact ⟨_, rfl⟩
      · rw [ofBody_of_open isRead indent terminated ends, whole]
        exact ⟨_, rfl⟩

theorem valueOf?_ofBody_assign {color : Text} (role : ColorRole)
    (isRead : ∀ property ∈ directive.properties, property.IsRead)
    (valid : isColor color) (indent id : Text) :
    StyleProperty.valueOf? role.name
        (ofBody indent id
          (directive.assign role.name
            (some (Text.trim color))).body).properties =
      some (Text.trim color) := by
  obtain ⟨earlier, set, later, split, unnamed, named, valued⟩ :=
    StyleProperty.exists_assign_some role.name (Text.trim color)
      directive.properties
  have plain : set.IsPlain :=
    ⟨StyleProperty.name_ne_nil_of_isNamed role.name_ne_nil named,
      StyleProperty.noSemicolon_of_isNamed named,
      valued ▸ not_semicolon_mem_trim valid⟩
  have editedRead :
      ∀ property ∈ (directive.assign role.name
        (some (Text.trim color))).properties,
        property.IsRead :=
    fun _ member =>
      isRead_of_mem_assign isRead (show (some color).all isColor from valid)
        member
  obtain ⟨rest, found⟩ :=
    exists_properties_ofBody editedRead split plain indent id
  rw [found, StyleProperty.valueOf?_append_cons _ named, valued]
  intro other member
  exact unnamed other (List.mem_of_mem_filter member)

end StyleDirective

/-- The colour that the first directive of a node gives it. -/
def colorOf? (role : ColorRole) (text id : Text) : Option Text :=
  (firstDirective? text id).bind fun directive =>
    StyleProperty.valueOf? role.name directive.properties

section SetColor

variable {text id color : Text} {role : ColorRole}

/-- A colour that has been set is read back. -/
theorem colorOf?_setColor (identifies : isWordIdentifier id)
    (mentioned : references text id) (role : ColorRole)
    (valid : isColor color) :
    colorOf? role (setColor role text id (some color)) id =
      some (Text.trim color) := by
  have nonempty := ne_nil_of_isWordIdentifier identifies
  obtain ⟨header, before, directive, after, place⟩ := exists_stylePlace text id
  cases place with
  | first found =>
      by_cases same : StyleProperty.assign role.name (some (Text.trim color))
          directive.properties = directive.properties
      · rw [found.setColor_eq_self nonempty
            (show (some color).all isColor from valid) same, colorOf?,
          found.firstDirective?_eq]
        exact StyleProperty.assign_some_eq_self_iff_valueOf?.mp same
      · obtain ⟨written, _, rewritten⟩ :=
          found.exists_setColor nonempty role valid same
        rw [colorOf?, rewritten.firstDirective?_eq]
        exact StyleDirective.valueOf?_ofBody_assign role
          (StyleDirective.isRead_of_ofLine? found.read) valid directive.indent
          id
  | behind unstyled trimmedCut =>
      obtain ⟨line, _, written⟩ :=
        isWritten_setColor_of_unstyled identifies mentioned role valid unstyled
          trimmedCut
      rw [colorOf?, written.firstDirective?_eq]
      exact StyleProperty.valueOf?_assign_some _ _ _

/-- A node that has a colour is not edited when the colour is set. -/
theorem setColor_eq_self_of_colorOf? (nonempty : id ≠ [])
    (valid : isColor color)
    (has : colorOf? role text id = some (Text.trim color)) :
    setColor role text id (some color) = text := by
  obtain ⟨directive, found, valued⟩ := Option.bind_eq_some_iff.mp has
  obtain ⟨header, before, line, after, first⟩ := exists_isFirstDirective found
  exact first.setColor_eq_self nonempty
    (show (some color).all isColor from valid)
    (StyleProperty.assign_some_eq_self_iff_valueOf?.mpr valued)

/-- A directive that has been added for a colour goes with it, and the white
space at the end of the text does not come back. -/
theorem setColor_none_of_added (identifies : isWordIdentifier id)
    (mentioned : references text id) (role : ColorRole) (valid : isColor color)
    (unstyled : ∀ other ∈ (Text.lines text).tail,
      StyleDirective.ofLine? id other = none) :
    setColor role (setColor role text id (some color)) id none =
      Text.trimEnd text ++ Text.finalBreak text := by
  obtain ⟨header, before, trimmedCut⟩ :=
    List.exists_cons_of_ne_nil (Text.lines_ne_nil (Text.trimEnd text))
  obtain ⟨line, _, written⟩ :=
    isWritten_setColor_of_unstyled identifies mentioned role valid unstyled
      trimmedCut
  have named : StyleProperty.isNamed role.name ⟨role.name, Text.trim color⟩ :=
    beq_self_eq_true _
  have cleared :
      StyleProperty.assign role.name none
          ((StyleDirective.bare id).assign role.name
            (some (Text.trim color))).properties = [] :=
    if_pos named
  have changed :
      StyleProperty.assign role.name none
          ((StyleDirective.bare id).assign role.name
            (some (Text.trim color))).properties ≠
        ((StyleDirective.bare id).assign role.name
          (some (Text.trim color))).properties := by
    rw [cleared]
    exact (StyleProperty.assign_some_ne_nil _ _ _).symm
  have lines :=
    written.lines_setColor (ne_nil_of_isWordIdentifier identifies) role
      (show (none : Option Text).all isColor from rfl)
  rw [Option.map_none, if_neg changed,
    StyleDirective.render_eq_none_iff.mpr cleared, Option.toList_none,
    List.append_nil, ← List.cons_append, ← trimmedCut] at lines
  rw [← Text.joinLines_lines (setColor role _ id none), lines,
    Text.joinLines_closingLine (Text.lines_ne_nil _), Text.joinLines_lines,
    Text.finalBreak]

end SetColor

/-- Setting a colour twice is setting it once, whatever directives the text has.
Where the node has none, clearing the colour gives the text back, but for the
white space at its end. -/
theorem setColor_repeated_and_undone {text id color : Text}
    (identifies : isWordIdentifier id) (mentioned : references text id)
    (role : ColorRole) (valid : isColor color) :
    setColor role (setColor role text id (some color)) id (some color) =
        setColor role text id (some color) ∧
      ((∀ line ∈ (Text.lines text).tail,
          StyleDirective.ofLine? id line = none) →
        setColor role (setColor role text id (some color)) id none =
          Text.trimEnd text ++ Text.finalBreak text) :=
  ⟨setColor_eq_self_of_colorOf? (ne_nil_of_isWordIdentifier identifies) valid
      (colorOf?_setColor identifies mentioned role valid),
    setColor_none_of_added identifies mentioned role valid⟩

/-- A fill stands behind a semicolon and in front of another directive, and a
stroke is taken back from a text that ends in white space. -/
theorem setColor_repeated_and_undone_loose :
    let styled :=
      "flowchart TD\n    style A Fill ;,FILL\n    style A fill:red\n".toList
    let filled := setColor .fill styled ['A'] (some " #0f0".toList)
    let unstyled := "flowchart TD\r\n    A --> B \r\n\t\n".toList
    filled =
        "flowchart TD\n    style A Fill ;,FILL:#0f0\n    style A fill:red\n".toList ∧
      setColor .fill filled ['A'] (some " #0f0".toList) = filled ∧
      setColor .stroke (setColor .stroke unstyled ['A'] (some "red".toList))
          ['A'] none = "flowchart TD\r\n    A --> B\n".toList := by
  intro styled filled unstyled
  have mentioned : references styled ['A'] ∧ references unstyled ['A'] := by
    decide +kernel
  refine ⟨by decide +kernel, ?_, ?_⟩
  · exact (setColor_repeated_and_undone (by decide) mentioned.1 .fill
      (by decide +kernel)).1
  · have undone := (setColor_repeated_and_undone (by decide) mentioned.2 .stroke
      (show isColor "red".toList by decide +kernel)).2 (by decide +kernel)
    exact undone.trans (by decide +kernel)

end DiagramEdit
