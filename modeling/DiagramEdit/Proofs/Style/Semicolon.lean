import DiagramEdit.Proofs.Style.Placement

/-!
# Statements behind a semicolon

A body is cut into properties at its commas only, so a statement behind a
semicolon belongs to the value it stands behind.  It stays when the property
that is set stands in front of that value, and when no property has the name;
the new one is then written behind it.
-/

namespace DiagramEdit

namespace Text

/-- A text that begins with a semicolon and goes on to the end of two items,
where nothing or a comma stands in front of both, reaches in front of the
second; so both items are the same. -/
theorem eq_of_suffix_append {lead old new behind : Text}
    (closed : lead.getLast?.all (· == ',')) (oldItem : ',' ∉ old)
    (newItem : ',' ∉ new) (within : ';' ∉ new)
    (inOld : ';' :: behind <:+ lead ++ old)
    (inNew : ';' :: behind <:+ lead ++ new) :
    old = new := by
  rcases List.suffix_or_suffix_of_suffix inNew
    (List.suffix_append lead new) with
    inside | outside
  · exact absurd (inside.subset List.mem_cons_self) within
  · obtain ⟨more, moreEq⟩ := outside
    rw [← moreEq] at inOld inNew
    obtain ⟨rest, leadEq⟩ := List.suffix_append_self_iff.mp inNew
    rcases List.eq_nil_or_concat more with rfl | ⟨front, last, rfl⟩
    · rw [List.nil_append] at moreEq
      exact absurd (by simp [moreEq]) within
    · rw [List.concat_eq_append, ← List.append_assoc] at leadEq
      have comma : last = ',' := by
        rw [← leadEq, List.getLast?_concat] at closed
        simpa using closed
      obtain ⟨rest', oldEq⟩ := inOld
      have cut :
          rest ++ front ++ ',' :: old = rest' ++ front ++ ',' :: new := by
        simpa [← leadEq, comma] using oldEq.symm
      exact eq_of_append_cons_eq_append_cons oldItem newItem cut

end Text

namespace StyleProperty

variable {role : ColorRole} {set : StyleProperty}
  {earlier later : List StyleProperty} {value front further : Text}

/-- A property that is set keeps the text behind a semicolon if it has the value
already, or if the semicolon stands in a later property. -/
theorem suffix_textOfList_iff
    (isRead : ∀ property ∈ earlier ++ set :: later, property.IsRead)
    (setRead : (⟨set.name, value⟩ : StyleProperty).IsRead)
    (named : set.isNamed role.name) (noSemicolon : ';' ∉ value)
    (behind : textOfList (earlier ++ set :: later) = front ++ ';' :: further) :
    ';' :: further <:+ textOfList (earlier ++ ⟨set.name, value⟩ :: later) ↔
      set.value = value ∨
        ';' :: further <:+ later.flatMap (',' :: ·.render) := by
  constructor
  · intro kept
    rw [textOfList_append_cons] at kept behind
    -- The text behind the semicolon begins behind the property, or it reaches
    -- into it.
    rcases List.suffix_or_suffix_of_suffix kept (List.suffix_append _ _) with
      inLater | reaches
    · exact Or.inr inLater
    · obtain ⟨more, moreEq⟩ := reaches
      cases more with
      | nil =>
          right
          rw [← moreEq]
          exact List.suffix_refl _
      | cons semicolon more =>
          left
          obtain ⟨rfl, -⟩ := List.cons.inj moreEq
          have old : ';' :: further <:+ _ := ⟨front, behind.symm⟩
          rw [← moreEq, List.suffix_append_self_iff] at kept old
          have within : ';' ∉ (⟨set.name, value⟩ : StyleProperty).render :=
            not_mem_render (by decide) (noSemicolon_of_isNamed named)
              noSemicolon
          have oldRead := isRead set (by simp)
          have same :=
            Text.eq_of_suffix_append (getLast?_flatMap_render earlier)
              oldRead.noComma_render setRead.noComma_render within old kept
          have read := congrArg ofText same
          rw [oldRead.ofText_render, setRead.ofText_render] at read
          exact congrArg StyleProperty.value read
  · intro cases
    rcases cases with rfl | inLater
    · exact ⟨front, behind.symm⟩
    · rw [textOfList_append_cons]
      exact List.suffix_append_of_suffix inLater

end StyleProperty

namespace StyleDirective

/-- The line of a directive with another text of its properties. -/
def lineWith (directive : StyleDirective) (written : Text) : Text :=
  directive.indent ++ "style ".toList ++ directive.id ++
    ' ' :: (written ++ (if directive.terminated then [';'] else []))

theorem render_eq_lineWith {directive : StyleDirective}
    (nonempty : directive.properties ≠ []) :
    directive.render =
      some
        (directive.lineWith (StyleProperty.textOfList directive.properties)) :=
  render_of_ne_nil nonempty

theorem lineWith_inj {directive : StyleDirective} {written written' : Text} :
    directive.lineWith written = directive.lineWith written' ↔
      written = written' := by
  simp [lineWith]

end StyleDirective

section SetColor

variable {text id header line front further color : Text}
  {before after : List Text} {directive : StyleDirective}

/-- The line that is written for a directive with another colour. -/
theorem IsFirstDirective.lines_setColor_some
    (first : IsFirstDirective text id header before line after directive)
    (nonempty : id ≠ []) (role : ColorRole) (valid : isColor color)
    (changed : StyleProperty.assign role.name (some (Text.trim color))
        directive.properties ≠ directive.properties) :
    Text.lines (setColor role text id (some color)) =
      header ::
        (before ++
          directive.lineWith (StyleProperty.textOfList (StyleProperty.assign
            role.name (some (Text.trim color)) directive.properties)) ::
          after) := by
  have remains :
      (directive.assign role.name (some (Text.trim color))).properties ≠ [] :=
    StyleProperty.assign_some_ne_nil _ _ _
  obtain ⟨written, rendered, rewritten⟩ :=
    first.exists_setColor nonempty role valid changed
  rw [StyleDirective.render_eq_lineWith remains] at rendered
  rw [rewritten.cut, ← Option.some.inj rendered]
  rfl

theorem IsFirstDirective.lines_setColor_of_unnamed
    (first : IsFirstDirective text id header before line after directive)
    (nonempty : id ≠ []) (role : ColorRole) (valid : isColor color)
    (styled : directive.properties ≠ [])
    (unnamed : ∀ property ∈ directive.properties,
      property.isNamed role.name = false) :
    Text.lines (setColor role text id (some color)) =
      header ::
        (before ++
          directive.lineWith (StyleProperty.textOfList directive.properties ++
            ',' :: role.name ++ ':' :: Text.trim color) :: after) := by
  have assigned :=
    StyleProperty.assign_some_of_unnamed unnamed (Text.trim color)
  have pair : (⟨role.name, Text.trim color⟩ : StyleProperty).render =
      role.name ++ ':' :: Text.trim color := by
    simp [StyleProperty.render, (isColor_trim valid).1]
  rw [first.lines_setColor_some nonempty role valid (by simp [assigned]),
    assigned, StyleProperty.textOfList_concat styled, pair]
  simp

/-- Where no property has the name, the colour is written behind the statements
that follow a semicolon.  Where one has, and another value, they stay exactly if
they begin behind it. -/
theorem setColor_keeps_further_iff
    (first : IsFirstDirective text id header before line after directive)
    (nonempty : id ≠ [])
    (behind :
      StyleProperty.textOfList directive.properties = front ++ ';' :: further)
    (role : ColorRole) (valid : isColor color) :
    ((∀ property ∈ directive.properties, property.isNamed role.name = false) →
        Text.lines (setColor role text id (some color)) =
          header ::
            (before ++
              directive.lineWith (front ++ ';' :: further ++ ',' :: role.name ++
                ':' :: Text.trim color) :: after)) ∧
      ∀ earlier set later, directive.properties = earlier ++ set :: later →
        (∀ other ∈ earlier, other.isNamed role.name = false) →
        set.isNamed role.name →
        (set.value = Text.trim color →
            setColor role text id (some color) = text) ∧
          (set.value ≠ Text.trim color →
            ((∃ kept,
                Text.lines (setColor role text id (some color)) =
                  header ::
                    (before ++ directive.lineWith (kept ++ ';' :: further) ::
                      after)) ↔
              ';' :: further <:+ later.flatMap (',' :: ·.render))) := by
  constructor
  · intro unnamed
    have styled : directive.properties ≠ [] := by
      intro empty
      rw [empty] at behind
      simp [StyleProperty.textOfList] at behind
    rw [first.lines_setColor_of_unnamed nonempty role valid styled unnamed,
      behind]
  · intro earlier set later split unnamed named
    have isRead := StyleDirective.isRead_of_ofLine? first.read
    have same :
        StyleProperty.assign role.name (some (Text.trim color))
              directive.properties = directive.properties ↔
          set.value = Text.trim color := by
      rw [split, StyleProperty.assign_some_eq_self_iff unnamed named]
    constructor
    · intro valued
      exact first.setColor_eq_self nonempty
        (show (some color).all isColor from valid) (same.mpr valued)
    · intro differs
      have setRead : (⟨set.name, Text.trim color⟩ : StyleProperty).IsRead :=
        (isRead set (by simp [split])).withValue (Text.trim_trim color)
          (not_comma_mem_trim valid)
      have lines :=
        first.lines_setColor_some nonempty role valid (same.not.mpr differs)
      rw [split] at isRead behind
      have kept := StyleProperty.suffix_textOfList_iff isRead setRead named
        (not_semicolon_mem_trim valid) behind
      rw [or_iff_right differs] at kept
      rw [← kept, lines, split,
        StyleProperty.assign_some_of_first unnamed named, List.IsSuffix]
      simp only [List.cons.injEq, true_and, List.append_cancel_left_eq,
        and_true, StyleDirective.lineWith_inj, eq_comm]

/-- Two directives on one line, of which the first one is read. -/
def joinedDirectives : Text :=
  "flowchart TD\n    A --> B\n    style A fill:#f00; style B fill:#0f0\n".toList

theorem isFirstDirective_joinedDirectives :
    IsFirstDirective joinedDirectives ['A'] "flowchart TD".toList
      ["    A --> B".toList] "    style A fill:#f00; style B fill:#0f0".toList
      [[]]
      ⟨"    ".toList, ['A'],
        [⟨"fill".toList, "#f00; style B fill:#0f0".toList⟩], false⟩ :=
  ⟨by decide +kernel, by decide +kernel, by decide +kernel⟩

/-- The second directive goes with the fill, and it gets the stroke. -/
theorem setColor_keeps_further_iff_joinedDirectives :
    (¬∃ kept,
        Text.lines (setColor .fill joinedDirectives ['A'] (some "red".toList)) =
          ["flowchart TD".toList, "    A --> B".toList,
            "    style A ".toList ++ (kept ++ "; style B fill:#0f0".toList),
            []]) ∧
      Text.lines (setColor .stroke joinedDirectives ['A'] (some "red".toList)) =
        ["flowchart TD".toList, "    A --> B".toList,
          "    style A fill:#f00; style B fill:#0f0,stroke:red".toList,
          []] := by
  have behind :
      StyleProperty.textOfList
          [⟨"fill".toList, "#f00; style B fill:#0f0".toList⟩] =
        "fill:#f00".toList ++ ';' :: " style B fill:#0f0".toList := by
    decide
  have keeps :=
    fun role =>
      setColor_keeps_further_iff isFirstDirective_joinedDirectives (by decide)
        behind role (show isColor "red".toList by decide +kernel)
  constructor
  · intro kept
    obtain ⟨_, overwrites⟩ := (keeps .fill).2 [] _ [] rfl (by simp) (by decide)
    have later :=
      (overwrites (by decide)).mp
        (by simpa [StyleDirective.lineWith] using kept)
    revert later
    decide
  · exact (keeps .stroke).1 (by decide)

end SetColor

/-- The statement behind the semicolon is overwritten with the value in front of
it. -/
theorem not_further_infix_setColor :
    ¬∀ (role : ColorRole) (text id color header line front further : Text)
      (before after : List Text) (directive : StyleDirective),
      isIdentifier id → isColor color →
      IsFirstDirective text id header before line after directive →
      line = front ++ ';' :: further → Text.isBlank further = false →
        further <:+: setColor role text id (some color) := by
  intro kept
  have present :=
    kept .fill joinedDirectives ['A'] "red".toList _ _
      "    style A fill:#f00".toList " style B fill:#0f0".toList _ _ _
      (by decide) (by decide +kernel) isFirstDirective_joinedDirectives
      (by decide) (by decide)
  revert present
  decide +kernel

end DiagramEdit
