import DiagramEdit.Proofs.Style.ReadBack

/-!
# A style edit changes one line

The first directive of the node is the only line that a colour can change.  If
no semicolon stands inside its body and every property has a name, the new line
is read as the directive with one property set or removed; a directive that
loses its only property loses its line.
-/

namespace DiagramEdit

/-- The first line below the header that is a directive of the node, and the
lines around it. -/
structure IsFirstDirective (text id header : Text) (before : List Text)
    (line : Text) (after : List Text) (directive : StyleDirective) :
    Prop where
  cut : Text.lines text = header :: (before ++ line :: after)
  unstyled : ∀ other ∈ before, StyleDirective.ofLine? id other = none
  read : StyleDirective.ofLine? id line = some directive

namespace IsFirstDirective

variable {role : ColorRole} {text id header line : Text}
  {before after : List Text} {directive : StyleDirective} {color : Option Text}

theorem isReferenced
    (first : IsFirstDirective text id header before line after directive)
    (nonempty : id ≠ []) :
    references text id := by
  have present : id.isEmpty = false := by simpa using nonempty
  rw [references, present, Bool.not_false, Bool.true_and, List.any_eq_true]
  exact ⟨line, by simp [first.cut],
    StyleDirective.mentions_of_ofLine? first.read⟩

/-- The lines of a text whose first directive of the node is edited. -/
theorem lines_setColor
    (first : IsFirstDirective text id header before line after directive)
    (nonempty : id ≠ []) (role : ColorRole) (valid : color.all isColor) :
    Text.lines (setColor role text id color) =
      if StyleProperty.assign role.name (color.map Text.trim)
          directive.properties = directive.properties then
        header :: (before ++ line :: after)
      else
        header ::
          (before ++
            (directive.assign role.name (color.map Text.trim)).render.toList ++
            after) := by
  have accepted : (references text id && color.all isColor) = true := by
    rw [first.isReferenced nonempty, valid]
    rfl
  obtain ⟨cut, unstyled, read⟩ := first
  have unchanged : (directive.assign role.name (color.map Text.trim)).render =
      directive.render ↔ _ :=
    StyleDirective.render_assign_eq_iff (StyleDirective.isRead_of_ofLine? read)
      valid
  have restyled :
      restyle id role.name (color.map Text.trim) (before ++ line :: after) =
        _ :=
    restyle_append_cons unstyled read
  have within : ∀ other ∈ header :: (before ++ line :: after), '\n' ∉ other :=
    fun other member => Text.not_mem_of_mem_lines (cut ▸ member)
  by_cases same : StyleProperty.assign role.name (color.map Text.trim)
      directive.properties = directive.properties
  · rw [if_pos (unchanged.mpr same)] at restyled
    rw [setColor_of_restyled cut accepted restyled, if_pos same]
    exact Text.lines_joinLines (List.cons_ne_nil _ _) within
  · rw [if_neg fun equality => same (unchanged.mp equality)] at restyled
    rw [setColor_of_restyled cut accepted restyled, if_neg same]
    apply Text.lines_joinLines (List.cons_ne_nil _ _)
    intro other member
    have idLine :=
      StyleDirective.not_lineFeed_mem_id read (within line (by simp))
    simp only [List.mem_cons, List.mem_append, Option.mem_toList] at member
    rcases member with rfl | (earlier | rendered) | later
    · exact within _ (by simp)
    · exact within other (by simp [earlier])
    · exact not_lineFeed_mem_restyled read rendered (within line (by simp))
        idLine valid
    · exact within other (by simp [later])

theorem setColor_eq_self
    (first : IsFirstDirective text id header before line after directive)
    (nonempty : id ≠ []) (valid : color.all isColor)
    (same : StyleProperty.assign role.name (color.map Text.trim)
        directive.properties = directive.properties) :
    setColor role text id color = text := by
  have lines := first.lines_setColor nonempty role valid
  rw [if_pos same, ← first.cut] at lines
  rw [← Text.joinLines_lines (setColor role text id color), lines,
    Text.joinLines_lines]

end IsFirstDirective

namespace StyleProperty

/-- A property with a name and without a semicolon. -/
structure IsPlain (property : StyleProperty) : Prop where
  named : property.name ≠ []
  name_noSemicolon : ';' ∉ property.name
  value_noSemicolon : ';' ∉ property.value

theorem IsPlain.noSemicolon_render {property : StyleProperty}
    (plain : property.IsPlain) :
    ';' ∉ property.render :=
  not_mem_render (by decide) plain.name_noSemicolon plain.value_noSemicolon

theorem isPlain_of_mem_assign {role : ColorRole} {color : Option Text}
    {properties : List StyleProperty}
    (plain : ∀ property ∈ properties, property.IsPlain)
    (valid : color.all isColor) {property : StyleProperty}
    (member : property ∈ assign role.name (color.map Text.trim) properties) :
    property.IsPlain := by
  rcases mem_assign member with among | ⟨valued, named⟩
  · exact plain property among
  · obtain ⟨chosen, rfl, valueEq⟩ := Option.map_eq_some_iff.mp valued.symm
    have noSemicolon : ';' ∉ property.value :=
      valueEq ▸ not_semicolon_mem_trim valid
    rcases named with isName | ⟨old, among, sameName⟩
    · exact ⟨isName ▸ role.name_ne_nil, by rw [isName]; cases role <;> decide,
        noSemicolon⟩
    · exact ⟨sameName ▸ (plain old among).named,
        sameName ▸ (plain old among).name_noSemicolon, noSemicolon⟩

end StyleProperty

theorem StyleDirective.noSemicolon_of_ofBody {indent id body : Text}
    (closed : ';' ∉ (Text.trim body).dropLast) :
    ∀ property ∈ (ofBody indent id body).properties,
      ';' ∉ property.name ∧ ';' ∉ property.value := by
  have inside : ∀ items, ';' ∉ items →
      ∀ property ∈ StyleProperty.listOfText items, ';' ∉ property.name ∧
        ';' ∉ property.value := by
    intro items absent property listed
    exact ⟨fun inName =>
        absent (StyleProperty.mem_of_mem_listOfText listed (Or.inl inName)),
      fun inValue =>
        absent (StyleProperty.mem_of_mem_listOfText listed (Or.inr inValue))⟩
  apply inside
  by_cases terminated : (Text.trim body).getLast? == some ';'
  · rwa [if_pos terminated]
  · rw [if_neg terminated]
    rcases List.eq_nil_or_concat (Text.trim body) with
      empty | ⟨front, last, split⟩
    · simp [empty]
    · rw [split, List.concat_eq_append] at closed terminated ⊢
      rw [List.dropLast_concat] at closed
      intro semicolon
      rcases List.mem_append.mp semicolon with inFront | isLast
      · exact closed inFront
      · rw [← List.mem_singleton.mp isLast, List.getLast?_concat] at terminated
        exact terminated rfl

/-- The first directive of a node has one property set or removed and is read as
such again.  It is the only line that changes, and it goes if it has no property
left. -/
theorem setColor_edits_one_line {text id header line indent body : Text}
    {before after : List Text} {directive : StyleDirective}
    (first : IsFirstDirective text id header before line after directive)
    (nonempty : id ≠ [])
    (styled : (Pattern.styleLine id).atStart? line = some (indent, body))
    (closed : ';' ∉ (Text.trim body).dropLast)
    (named : ∀ property ∈ directive.properties, property.name ≠ [])
    (role : ColorRole) {color : Option Text} (valid : color.all isColor) :
    ∃ edited,
      StyleProperty.Assigned role.name (color.map Text.trim)
          directive.properties edited ∧
        (edited = directive.properties → setColor role text id color = text) ∧
        (edited ≠ directive.properties → edited = [] →
          Text.lines (setColor role text id color) =
            header :: (before ++ after)) ∧
        (edited ≠ directive.properties → edited ≠ [] →
          ∃ restyled,
            Text.lines (setColor role text id color) =
                header :: (before ++ restyled :: after) ∧
              StyleDirective.ofLine? id restyled =
                some { directive with properties := edited }) := by
  obtain ⟨_, _, found, rfl⟩ :=
    StyleDirective.ofLine?_eq_some_iff_styleLine.mp first.read
  obtain ⟨rfl, rfl⟩ := Prod.mk.inj (Option.some.inj (styled.symm.trans found))
  have lines := first.lines_setColor nonempty role valid
  refine ⟨_, StyleProperty.assigned_iff.mpr rfl,
    first.setColor_eq_self nonempty valid, ?_, ?_⟩
  · intro differs empty
    rw [lines, if_neg differs, StyleDirective.render_eq_none_iff.mpr empty,
      Option.toList_none, List.append_nil]
  · intro differs remains
    have isRead :
        ∀ property ∈ ((StyleDirective.ofBody indent id body).assign role.name
          (color.map Text.trim)).properties,
          property.IsRead :=
      fun _ member =>
        StyleDirective.isRead_of_mem_assign
          (StyleDirective.isRead_of_ofLine? first.read) valid member
    have plain : ∀ property ∈ (StyleDirective.ofBody indent id body).properties,
        property.IsPlain := by
      intro property among
      have absent := StyleDirective.noSemicolon_of_ofBody closed property among
      exact ⟨named property among, absent.1, absent.2⟩
    have editedPlain :
        ∀ property ∈ ((StyleDirective.ofBody indent id body).assign role.name
          (color.map Text.trim)).properties,
          property.IsPlain :=
      fun _ member => StyleProperty.isPlain_of_mem_assign plain valid member
    refine ⟨_, ?_, (StyleDirective.ofLine?_written first.read isRead).trans ?_⟩
    · rw [lines, if_neg differs, StyleDirective.render_of_ne_nil remains,
        Option.toList_some, List.append_assoc, List.singleton_append]
      rfl
    · rw [StyleDirective.ofBody_of_plain isRead _
        (fun property member => (editedPlain property member).named)
        (fun property member =>
          (editedPlain property member).noSemicolon_render)]
      rfl

/-- The properties of a line with blanks around every sign and a colon in a
value. -/
def looselyWritten : List StyleProperty :=
  [⟨"FILL".toList, "#000".toList⟩, ⟨"color".toList, "a:b".toList⟩,
    ⟨"opacity".toList, []⟩]

theorem setColor_edits_one_line_looselyWritten :
    let line := "  style  A\tFILL : #000 ,, color:a:b,opacity ;\r".toList
    let text :=
      "flowchart TD\n    style B fill:red\n".toList ++ line ++
        "\n    A --> B".toList
    StyleDirective.ofLine? ['A'] line =
        some ⟨"  ".toList, ['A'], looselyWritten, true⟩ ∧
      ∃ restyled,
        Text.lines (setColor .fill text ['A'] (some " red ".toList)) =
            ["flowchart TD".toList, "    style B fill:red".toList, restyled,
              "    A --> B".toList] ∧
          StyleDirective.ofLine? ['A'] restyled =
            some ⟨"  ".toList, ['A'],
              ⟨"FILL".toList, "red".toList⟩ :: looselyWritten.tail, true⟩ := by
  intro line text
  have read : StyleDirective.ofLine? ['A'] line =
      some ⟨"  ".toList, ['A'], looselyWritten, true⟩ := by decide +kernel
  have first : IsFirstDirective text ['A'] "flowchart TD".toList
      ["    style B fill:red".toList] line ["    A --> B".toList] _ :=
    ⟨by decide +kernel, by decide +kernel, read⟩
  have styled : (Pattern.styleLine ['A']).atStart? line =
      some ("  ".toList, "FILL : #000 ,, color:a:b,opacity ;\r".toList) := by
    decide +kernel
  obtain ⟨edited, assigned, _, _, rewritten⟩ :=
    setColor_edits_one_line first (by decide) styled (by decide +kernel)
      (by decide) .fill
      (show (some " red ".toList).all isColor by decide +kernel)
  have editedEq :
      edited = ⟨"FILL".toList, "red".toList⟩ :: looselyWritten.tail :=
    (StyleProperty.assigned_iff.mp assigned).trans (by decide +kernel)
  subst editedEq
  exact ⟨read, rewritten (by decide) (by decide)⟩

end DiagramEdit
