import DiagramEdit.Proofs.Style.OneLine

/-!
# What stays of a cleared colour

A colour is cleared by taking the first property of its name out of the first
directive of the node.  The node keeps the colour if the property stands there
once more or in a later directive, or if a name with a semicolon behind it comes
to the end of the line: there the semicolon ends the directive and is no longer
read as a part of the name.
-/

namespace DiagramEdit

namespace StyleProperty

variable {name : Text} {properties : List StyleProperty}

theorem assign_none_eq_eraseP :
    assign name none properties = properties.eraseP (·.isNamed name) := by
  induction properties with
  | nil => rfl
  | cons first rest induction =>
      rw [assign_cons, List.eraseP_cons, induction]
      cases named : first.isNamed name with
      | true => exact if_pos named
      | false => exact if_neg (Bool.eq_false_iff.mp named)

theorem assign_none_eq_self_iff :
    assign name none properties = properties ↔
      properties.any (·.isNamed name) = false := by
  rw [assign_none_eq_eraseP, List.eraseP_eq_self_iff, List.any_eq_false]

theorem any_isNamed_assign_none :
    (assign name none properties).any (·.isNamed name) ↔
      1 < properties.countP (·.isNamed name) := by
  rcases cases_isNamed name properties with
    unnamed | ⟨earlier, old, later, rfl, unnamed, named⟩
  · have none : properties.countP (·.isNamed name) = 0 :=
      List.countP_eq_zero.mpr fun other member =>
        Bool.eq_false_iff.mp (unnamed other member)
    rw [assign_none_of_unnamed unnamed, none]
    simpa using unnamed
  · have none : earlier.countP (·.isNamed name) = 0 :=
      List.countP_eq_zero.mpr fun other member =>
        Bool.eq_false_iff.mp (unnamed other member)
    have few : earlier.any (·.isNamed name) = false := by simpa using unnamed
    rw [assign_none_of_first unnamed named, List.countP_append, none,
      List.countP_cons_of_pos named, List.any_append, few, Bool.false_or,
      List.any_eq_true, ← List.countP_pos_iff]
    omega

theorem getLast?_textOfList_concat {front : List StyleProperty}
    {last : StyleProperty} {character : Char}
    (ends : (textOfList (front ++ [last])).getLast? = some character)
    (different : character ≠ ',') :
    last.render.getLast? = some character := by
  rw [textOfList_append_cons, List.flatMap_nil, List.append_nil,
    List.getLast?_append] at ends
  cases rendered : last.render.getLast? with
  | some final => rwa [rendered, Option.some_or] at ends
  | none =>
      have comma := getLast?_flatMap_render front
      rw [rendered, Option.none_or] at ends
      rw [ends, Option.all_some, beq_iff_eq] at comma
      exact absurd comma different

theorem any_isNamed_filter (nonempty : name ≠ []) :
    (properties.filter (!·.render.isEmpty)).any (·.isNamed name) =
      properties.any (·.isNamed name) := by
  rw [List.any_filter]
  congr 1
  funext property
  cases named : property.isNamed name with
  | false => exact Bool.and_false _
  | true => simpa using render_ne_nil (name_ne_nil_of_isNamed nonempty named)

/-- A blank item is no property, and would be of no name. -/
theorem any_isNamed_ofText (nonempty : name ≠ []) (item : Text) :
    (([item].filter (!·.isEmpty)).map ofText).any (·.isNamed name) =
      (ofText item).isNamed name := by
  cases item with
  | nil =>
      have unnamed : (ofText []).isNamed name = false := by
        rw [isNamed, Text.equalIgnoringCase, beq_eq_false_iff_ne]
        intro same
        exact nonempty (List.map_eq_nil_iff.mp same.symm)
      rw [unnamed]
      rfl
  | cons initial rest => simp

theorem not_isNamed_of_semicolon (role : ColorRole) (bare value : Text) :
    (⟨bare ++ [';'], value⟩ : StyleProperty).isNamed role.name = false := by
  rw [Bool.eq_false_iff]
  intro named
  exact noSemicolon_of_isNamed named
    (List.mem_append_right bare List.mem_cons_self)

/-- Without the semicolon it ends in, a property keeps its name or, if it has no
value, bares it. -/
theorem isNamed_ofText_trim_iff {role : ColorRole} {last : StyleProperty}
    (isRead : last.IsRead) {stem : Text}
    (written : last.render = stem ++ [';']) :
    (ofText (Text.trim stem)).isNamed role.name ↔
      last.isNamed role.name ∨
        ∃ bare, last = ⟨bare ++ [';'], []⟩ ∧
          Text.equalIgnoringCase (Text.trim bare) role.name := by
  obtain ⟨name, value⟩ := last
  rcases List.eq_nil_or_concat value with rfl | ⟨front, final, rfl⟩
  · have nameEq : name = stem ++ [';'] := written
    subst nameEq
    have noColon : ':' ∉ Text.trim stem := fun member =>
      isRead.name_noColon (List.mem_append_left _ (Text.mem_of_mem_trim member))
    rw [ofText_of_noColon noColon, not_isNamed_of_semicolon]
    simp [isNamed]
  · have split : name ++ ':' :: front ++ [final] = stem ++ [';'] := by
      simpa [render] using written
    have stemEq := (List.append_inj' split rfl).1
    have visible : Text.isSpace ':' = false := by decide
    obtain ⟨rest, trimmed⟩ :=
      Text.exists_trim_append_cons visible isRead.name_trimmed front
    rw [← stemEq, trimmed, ofText_append_colon isRead.name_noColon]
    simp [isNamed, isRead.name_trimmed]

end StyleProperty

/-- Whether a directive has a property of the name. -/
def StyleDirective.hasProperty (name : Text) (directive : StyleDirective) :
    Bool :=
  directive.properties.any (·.isNamed name)

/-- Whether one of the lines colours the node. -/
def colors (role : ColorRole) (id : Text) (lines : List Text) : Bool :=
  lines.any fun line =>
    (StyleDirective.ofLine? id line).any (·.hasProperty role.name)

/-- Whether a line below the first colours the node. -/
def isColored (role : ColorRole) (text id : Text) : Bool :=
  colors role id (Text.lines text).tail

namespace StyleDirective

/-- The line ends in a bare name and a semicolon, which is read as the end of
the directive. -/
def BaresName (name : Text) (directive : StyleDirective) : Prop :=
  directive.terminated = false ∧
    ∃ bare, directive.properties.getLast? = some ⟨bare ++ [';'], []⟩ ∧
      Text.equalIgnoringCase (Text.trim bare) name

/-- A directive that has a property of the name when its first one has been
taken out. -/
inductive Retains (name : Text) (directive : StyleDirective) : Prop where
  | again :
      1 < directive.properties.countP (·.isNamed name) → Retains name directive
  | bared :
      directive.hasProperty name → (directive.assign name none).BaresName name →
        Retains name directive

variable {role : ColorRole} {id line : Text} {directive edited : StyleDirective}

theorem properties_ofBody_of_semicolon {indent stem : Text}
    {front : List StyleProperty} {last : StyleProperty}
    (isRead : ∀ property ∈ edited.properties, property.IsRead)
    (unterminated : edited.terminated = false)
    (split : edited.properties = front ++ [last])
    (written : last.render = stem ++ [';']) :
    (ofBody indent id edited.body).properties =
      front.filter (!·.render.isEmpty) ++
        (([Text.trim stem].filter (!·.isEmpty)).map StyleProperty.ofText) := by
  have lastRead : last.IsRead := isRead last (by simp [split])
  have frontRead : ∀ property ∈ front, property.IsRead := fun property member =>
    isRead property (by simp [split, member])
  have bodyEq : edited.body =
      [','].intercalate (front.map StyleProperty.render ++ [stem]) ++
        [';'] := by
    rw [body, unterminated, split, StyleProperty.textOfList_append_cons,
      written, Text.intercalate_append_cons, List.flatMap_map]
    simp
  have ends : (edited.body.getLast? == some ';') = true := by
    rw [bodyEq, List.getLast?_concat]
    rfl
  have noComma :
      ∀ item ∈ front.map StyleProperty.render ++ [stem], ',' ∉ item := by
    intro item member
    rcases List.mem_append.mp member with inFront | isStem
    · exact StyleProperty.noComma_of_mem_render frontRead item inFront
    · intro comma
      rw [List.mem_singleton.mp isStem] at comma
      exact lastRead.noComma_render (written ▸ List.mem_append_left _ comma)
  rw [ofBody, trim_body isRead]
  simp only [ends, if_true]
  rw [bodyEq, List.dropLast_concat,
    StyleProperty.listOfText_intercalate noComma, List.map_append,
    StyleProperty.trimmed_render frontRead, List.filter_append, List.map_append,
    StyleProperty.map_ofText_render frontRead]
  rfl

theorem not_baresName_of_ends {name : Text}
    (ends : (StyleProperty.textOfList edited.properties).getLast? ≠ some ';') :
    ¬edited.BaresName name := by
  intro bares
  obtain ⟨_, bare, isLast, _⟩ := bares
  obtain ⟨front, split⟩ := List.getLast?_eq_some_iff.mp isLast
  apply ends
  have written : (⟨bare ++ [';'], []⟩ : StyleProperty).render = bare ++ [';'] :=
    rfl
  rw [split, StyleProperty.textOfList_append_cons, written, List.flatMap_nil,
    List.append_nil, ← List.append_assoc]
  exact List.getLast?_concat

/-- A directive that has been written has a property of the name if it has been
written with one, or if its last name has lost a semicolon. -/
theorem hasProperty_ofBody_iff
    (isRead : ∀ property ∈ edited.properties, property.IsRead) (indent : Text) :
    (ofBody indent id edited.body).hasProperty role.name ↔
      edited.hasProperty role.name ∨ edited.BaresName role.name := by
  cases terminated : edited.terminated with
  | true =>
      rw [ofBody_of_terminated isRead indent terminated, hasProperty,
        StyleProperty.any_isNamed_filter role.name_ne_nil]
      simp [hasProperty, BaresName, terminated]
  | false =>
      -- The last property ends the line, so a semicolon at its end changes its
      -- part.
      by_cases ends :
        (StyleProperty.textOfList edited.properties).getLast? = some ';'
      · rcases List.eq_nil_or_concat edited.properties with
          empty | ⟨front, last, split⟩
        · rw [empty] at ends
          cases ends
        · rw [List.concat_eq_append] at split
          rw [split] at ends
          obtain ⟨stem, written⟩ := List.getLast?_eq_some_iff.mp
            (StyleProperty.getLast?_textOfList_concat ends (by decide))
          have lastRead : last.IsRead := isRead last (by simp [split])
          have kept :
              (StyleProperty.ofText (Text.trim stem)).isNamed role.name ↔ _ :=
            StyleProperty.isNamed_ofText_trim_iff lastRead written
          rw [hasProperty,
            properties_ofBody_of_semicolon isRead terminated split written,
            List.any_append, StyleProperty.any_isNamed_filter role.name_ne_nil,
            StyleProperty.any_isNamed_ofText role.name_ne_nil, Bool.or_eq_true,
            kept]
          simp [hasProperty, BaresName, terminated, split, or_assoc]
      · rw [ofBody_of_open isRead indent terminated ends, hasProperty,
          StyleProperty.any_isNamed_filter role.name_ne_nil]
        exact (or_iff_left (not_baresName_of_ends ends)).symm

theorem retains_iff_of_hasProperty {name : Text}
    (has : directive.hasProperty name) :
    directive.Retains name ↔
      (directive.assign name none).hasProperty name ∨
        (directive.assign name none).BaresName name := by
  have several : (directive.assign name none).hasProperty name ↔
      1 < directive.properties.countP (·.isNamed name) :=
    StyleProperty.any_isNamed_assign_none
  rw [several]
  constructor
  · intro retained
    cases retained with
    | again several => exact Or.inl several
    | bared _ bares => exact Or.inr bares
  · intro cases
    rcases cases with several | bares
    · exact .again several
    · exact .bared has bares

/-- What the line of a cleared directive still tells. -/
theorem colors_render_assign_iff (read : ofLine? id line = some directive)
    (has : directive.hasProperty role.name) :
    colors role id (directive.assign role.name none).render.toList ↔
      directive.Retains role.name := by
  have isRead : ∀ property ∈ (directive.assign role.name none).properties,
      property.IsRead :=
    fun _ member => isRead_of_mem_assign (isRead_of_ofLine? read)
      (show (none : Option Text).all isColor from rfl) member
  rw [retains_iff_of_hasProperty has]
  by_cases empty : (directive.assign role.name none).properties = []
  · rw [render_eq_none_iff.mpr empty, hasProperty, BaresName, empty]
    simp [colors]
  · have reread := ofLine?_written read isRead
    rw [render_of_ne_nil empty]
    have kept :
        (directive.assign role.name none).indent ++ "style ".toList ++
            (directive.assign role.name none).id =
          directive.indent ++ "style ".toList ++ id := by
      rw [← id_of_ofLine? read]
      rfl
    rw [kept, Option.toList_some, colors, List.any_cons, reread, List.any_nil,
      Bool.or_false, Option.any_some, hasProperty_ofBody_iff isRead]

end StyleDirective

/-- Only the first directive of a node is cleared, and only of its first
property of the name. -/
def KeepsColor (role : ColorRole) (text id : Text) : Prop :=
  ∃ header before line after directive,
    IsFirstDirective text id header before line after directive ∧
      (directive.Retains role.name ∨ colors role id after)

section Clearing

variable {role : ColorRole} {text id header line : Text}
  {before after : List Text} {directive : StyleDirective}

theorem colors_append (left right : List Text) :
    colors role id (left ++ right) =
      (colors role id left || colors role id right) :=
  List.any_append

theorem not_colors_of_unstyled {lines : List Text}
    (unstyled : ∀ other ∈ lines, StyleDirective.ofLine? id other = none) :
    colors role id lines = false := by
  rw [colors, List.any_eq_false]
  intro other member
  simp [unstyled other member]

theorem isColored_setColor_none_of_first
    (first : IsFirstDirective text id header before line after directive)
    (nonempty : id ≠ []) :
    isColored role (setColor role text id none) id ↔
      directive.Retains role.name ∨ colors role id after := by
  have lines :=
    first.lines_setColor nonempty role
      (show (none : Option Text).all isColor from rfl)
  have quiet : colors role id before = false :=
    not_colors_of_unstyled first.unstyled
  rw [isColored, lines, Option.map_none]
  cases has : directive.hasProperty role.name with
  | true =>
      have changed : StyleProperty.assign role.name none directive.properties ≠
          directive.properties := by
        intro same
        rw [StyleProperty.assign_none_eq_self_iff] at same
        exact Bool.eq_false_iff.mp same has
      rw [if_neg changed, List.tail_cons, colors_append, colors_append, quiet,
        Bool.false_or, Bool.or_eq_true,
        StyleDirective.colors_render_assign_iff first.read has]
  | false =>
      have spared : ¬directive.Retains role.name := by
        intro retained
        cases retained with
        | again several =>
            obtain ⟨other, member, named⟩ :=
              List.countP_pos_iff.mp (Nat.zero_lt_of_lt several)
            exact List.any_eq_false.mp has other member named
        | bared named => exact Bool.eq_false_iff.mp has named
      rw [if_pos (StyleProperty.assign_none_eq_self_iff.mpr has),
        List.tail_cons, colors_append, quiet, Bool.false_or, colors,
        List.any_cons, first.read, Option.any_some, has, Bool.false_or]
      exact (or_iff_right spared).symm

theorem setColor_none_of_unstyled
    (unstyled : ∀ other ∈ (Text.lines text).tail,
      StyleDirective.ofLine? id other = none) :
    setColor role text id none = text := by
  obtain ⟨header, statements, cut⟩ :=
    List.exists_cons_of_ne_nil (Text.lines_ne_nil text)
  rw [cut, List.tail_cons] at unstyled
  cases accepted : references text id && (none : Option Text).all isColor with
  | false => exact setColor_of_refused accepted
  | true =>
      exact setColor_of_not_restyled cut accepted
        (restyle_eq_none_iff.mpr unstyled)

/-- A node keeps a cleared colour exactly if its first directive or a later one
retains it. -/
theorem isColored_setColor_none_iff (role : ColorRole) (text : Text)
    (nonempty : id ≠ []) :
    isColored role (setColor role text id none) id ↔
      KeepsColor role text id := by
  constructor
  · intro colored
    obtain ⟨header, statements, cut⟩ :=
      List.exists_cons_of_ne_nil (Text.lines_ne_nil text)
    cases restyled : restyle id role.name none statements with
    | some edited =>
        obtain ⟨before, line, after, directive, rfl, unstyled, read, _⟩ :=
          restyle_eq_some restyled
        have first :
            IsFirstDirective text id header before line after directive :=
          ⟨cut, unstyled, read⟩
        exact ⟨header, before, line, after, directive, first,
          (isColored_setColor_none_of_first first nonempty).mp colored⟩
    | none =>
        have unstyled : ∀ other ∈ (Text.lines text).tail,
            StyleDirective.ofLine? id other = none := by
          rw [cut]
          exact restyle_eq_none_iff.mp restyled
        rw [setColor_none_of_unstyled unstyled, isColored,
          not_colors_of_unstyled unstyled] at colored
        cases colored
  · intro keeps
    obtain ⟨header, before, line, after, directive, first, retained⟩ := keeps
    exact (isColored_setColor_none_of_first first nonempty).mpr retained

/-- The semicolon comes to the end of the line and bares the name in front of
it. -/
theorem isColored_setColor_none_iff_bared :
    let text := "flowchart TD\n    style A FILL:#f00,Fill ;,\n".toList
    setColor .fill text ['A'] none =
        "flowchart TD\n    style A Fill ;\n".toList ∧
      KeepsColor .fill text ['A'] := by
  intro text
  have colored : isColored .fill (setColor .fill text ['A'] none) ['A'] := by
    decide +kernel
  exact ⟨by decide +kernel,
    (isColored_setColor_none_iff .fill text (by decide)).mp colored⟩

end Clearing

/-- A second directive of the node still colours it. -/
theorem not_isColored_setColor_none :
    ¬∀ (role : ColorRole) (text id : Text), isIdentifier id →
      ¬isColored role (setColor role text id none) id := by
  intro cleared
  have kept :=
    cleared .fill
      "flowchart TD\n    A[Start]\n    style A fill:#f00\n    style A fill:#0f0\n".toList
      ['A'] (by decide)
  revert kept
  decide +kernel

end DiagramEdit
