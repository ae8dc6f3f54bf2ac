import DiagramEdit.Proofs.Node.Surroundings
import DiagramEdit.Proofs.Style.OneLine

/-!
# Where a colour is written

A colour is written in the first directive of the node, or in a new directive
behind the last visible line when there is none.  In both cases the directive
stands there afterwards with the property set, written as edits write it, and is
the first of the node again.  So the next colour is written in the same place.
-/

namespace DiagramEdit

section Identifier

variable {id : Text}

theorem ne_nil_of_isWordIdentifier (identifies : isWordIdentifier id) :
    id ≠ [] := by
  intro empty
  rw [empty] at identifies
  cases identifies

theorem fitsApart_of_isWordIdentifier (identifies : isWordIdentifier id) :
    Pattern.fitsApart id := by
  obtain ⟨_, word⟩ := isWordIdentifier_iff.mp identifies
  have nonempty := ne_nil_of_isWordIdentifier identifies
  constructor
  · intro _
    rw [Text.startsWithWord, List.head?_eq_some_head nonempty]
    exact word _ (List.head_mem nonempty)
  · intro _
    exact Text.endsInWord_of_word nonempty word

theorem not_lineFeed_mem_wordIdentifier (identifies : isWordIdentifier id) :
    '\n' ∉ id := by
  intro member
  have impossible := (isWordIdentifier_iff.mp identifies).2 '\n' member
  rw [Text.isWordCharacter_lineFeed] at impossible
  cases impossible

theorem isBlank_of_references {text : Text} (visible : Text.isBlank id = false)
    (mentioned : references text id) : Text.isBlank text = false := by
  rw [references, Bool.and_eq_true, List.any_eq_true] at mentioned
  obtain ⟨_, line, below, mentions⟩ := mentioned
  obtain ⟨before, after, split, _⟩ := mentions_iff_cut.mp mentions
  rw [Bool.eq_false_iff]
  intro blank
  rw [Text.isBlank_eq_all_lines, List.all_eq_true] at blank
  have onLine := blank line (List.mem_of_mem_tail below)
  rw [split, Text.isBlank_append, Text.isBlank_append, visible, Bool.and_false,
    Bool.false_and] at onLine
  cases onLine

end Identifier

theorem StyleDirective.ofLine?_eq_none_of_append {id line more : Text}
    (unread : ofLine? id (line ++ more) = none) : ofLine? id line = none := by
  cases read : ofLine? id line with
  | none => rfl
  | some directive =>
      obtain ⟨indent, body, styled, _⟩ := ofLine?_eq_some_iff_styleLine.mp read
      obtain ⟨fits, indents, space, separator, split, nonempty, spaces,
        isSpace⟩ :=
        Pattern.styleLine_cut styled
      obtain ⟨found, longer⟩ : ∃ found,
          (Pattern.styleLine id).atStart? (line ++ more) =
            some (indent, found) := by
        rw [split, List.append_assoc, List.cons_append]
        exact Pattern.exists_styleLine fits indents nonempty spaces isSpace
      rw [ofLine?_eq_some_iff_styleLine.mpr ⟨indent, found, longer, rfl⟩]
        at unread
      cases unread

theorem unstyled_trimEnd {text id : Text}
    (unstyled : ∀ other ∈ (Text.lines text).tail,
      StyleDirective.ofLine? id other = none) :
    ∀ other ∈ (Text.lines (Text.trimEnd text)).tail,
      StyleDirective.ofLine? id other = none := by
  obtain ⟨space, split, _⟩ := Text.exists_trimEnd_append text
  obtain ⟨front, last, first, rest, trimmedEq, _, linesEq⟩ :=
    Text.exists_lines_append (Text.trimEnd text) space
  rw [← split] at linesEq
  rw [linesEq] at unstyled
  rw [trimmedEq]
  intro other member
  cases front with
  | nil => cases member
  | cons header front =>
      rcases List.mem_append.mp (show other ∈ front ++ [last] from member) with
        inFront | isLast
      · exact unstyled other (by simp [inFront])
      · rw [List.mem_singleton.mp isLast]
        exact StyleDirective.ofLine?_eq_none_of_append
          (unstyled (last ++ first) (by simp))

namespace StyleDirective

/-- A directive that is read as it is written: in an indentation of white space,
and with properties that have names and no semicolons. -/
structure IsPlain (directive : StyleDirective) : Prop where
  indents : ∀ character ∈ directive.indent, Text.isSpace character
  isRead : ∀ property ∈ directive.properties, property.IsRead
  plain : ∀ property ∈ directive.properties, property.IsPlain

/-- A directive of a node that sets nothing, in the indentation of appended
lines. -/
def bare (id : Text) : StyleDirective :=
  ⟨indentation, id, [], false⟩

theorem isPlain_bare (id : Text) : (bare id).IsPlain :=
  ⟨fun _ member => isSpace_of_mem_indentation _ member, by simp [bare],
    by simp [bare]⟩

variable {id line : Text} {directive : StyleDirective}

theorem IsPlain.assign (plain : directive.IsPlain) (role : ColorRole)
    {color : Text} (valid : isColor color) :
    (directive.assign role.name (some (Text.trim color))).IsPlain := by
  have accepted : (some color).all isColor := valid
  refine ⟨plain.indents, ?_, ?_⟩
  · intro property member
    exact isRead_of_mem_assign plain.isRead accepted member
  · intro property member
    exact StyleProperty.isPlain_of_mem_assign plain.plain accepted member

/-- A plain directive is read again from its line. -/
theorem IsPlain.ofLine?_render (plain : directive.IsPlain)
    (sameId : directive.id = id) (fits : Pattern.fitsApart id)
    (rendered : directive.render = some line) :
    ofLine? id line = some directive := by
  have nonempty : directive.properties ≠ [] := by
    intro empty
    rw [render_eq_none_iff.mpr empty] at rendered
    cases rendered
  rw [render_of_ne_nil nonempty, sameId] at rendered
  have visible := (Text.trim_eq_self_iff.mp (trim_body plain.isRead)).1
  have styled := Pattern.styleLine_written fits plain.indents visible
  rw [Option.some.inj rendered] at styled
  have whole : ofBody directive.indent id directive.body =
      ⟨directive.indent, id, directive.properties, directive.terminated⟩ :=
    ofBody_of_plain plain.isRead directive.indent
      (fun property member => (plain.plain property member).named)
      (fun property member => (plain.plain property member).noSemicolon_render)
  have same :
      (⟨directive.indent, id, directive.properties, directive.terminated⟩ :
          StyleDirective) = directive := by
    rw [← sameId]
  exact ofLine?_eq_some_iff_styleLine.mpr ⟨_, _, styled, whole.trans same⟩

end StyleDirective

/-- The first directive of a node below the first line. -/
def firstDirective? (text id : Text) : Option StyleDirective :=
  (Text.lines text).tail.findSome? (StyleDirective.ofLine? id)

section FirstDirective

variable {text id : Text} {directive : StyleDirective}

theorem IsFirstDirective.firstDirective?_eq {header line : Text}
    {before after : List Text}
    (first : IsFirstDirective text id header before line after directive) :
    firstDirective? text id = some directive := by
  rw [firstDirective?, first.cut, List.tail_cons, List.findSome?_append,
    List.findSome?_eq_none_iff.mpr first.unstyled, Option.none_or,
    List.findSome?_cons, first.read]

theorem exists_isFirstDirective
    (found : firstDirective? text id = some directive) :
    ∃ header before line after,
      IsFirstDirective text id header before line after directive := by
  obtain ⟨before, line, after, split, read, unstyled⟩ :=
    List.findSome?_eq_some_iff.mp found
  obtain ⟨header, statements, cut⟩ :=
    List.exists_cons_of_ne_nil (Text.lines_ne_nil text)
  rw [cut, List.tail_cons] at split
  exact ⟨header, before, line, after, cut.trans (congrArg _ split), unstyled,
    read⟩

theorem firstDirective?_eq_none_iff :
    firstDirective? text id = none ↔
      ∀ other ∈ (Text.lines text).tail,
        StyleDirective.ofLine? id other = none :=
  List.findSome?_eq_none_iff

end FirstDirective

/-- The place where a colour of a node is written, and the directive that is
found there. -/
inductive StylePlace (text id : Text) :
    Text → List Text → StyleDirective → List Text → Prop where
  | first {header line : Text} {before after : List Text}
      {directive : StyleDirective} :
      IsFirstDirective text id header before line after directive →
        StylePlace text id header before directive after
  | behind {header : Text} {before : List Text} :
      (∀ other ∈ (Text.lines text).tail,
          StyleDirective.ofLine? id other = none) →
        Text.lines (Text.trimEnd text) = header :: before →
        StylePlace text id header before (.bare id)
          (Text.closingLine (text.getLast? == some '\n'))

/-- The first directive of the node stands on its line as edits write it. -/
def IsWritten (text id header : Text) (before : List Text)
    (directive : StyleDirective) (after : List Text) : Prop :=
  ∃ line, directive.render = some line ∧
    IsFirstDirective text id header before line after directive

/-- A text is known by its lines, if one of them is the directive as edits write
it. -/
theorem IsWritten.unique {text other id header : Text}
    {before after : List Text} {directive : StyleDirective}
    (written : IsWritten text id header before directive after)
    (otherWritten : IsWritten other id header before directive after) :
    text = other := by
  obtain ⟨line, rendered, first⟩ := written
  obtain ⟨otherLine, otherRendered, otherFirst⟩ := otherWritten
  obtain rfl := Option.some.inj (rendered.symm.trans otherRendered)
  exact Text.eq_of_lines_eq (first.cut.trans otherFirst.cut.symm)

theorem IsWritten.directive_unique {text id header : Text}
    {before after : List Text} {directive directive' : StyleDirective}
    (written : IsWritten text id header before directive after)
    (otherWritten : IsWritten text id header before directive' after) :
    directive = directive' := by
  obtain ⟨line, _, first⟩ := written
  obtain ⟨otherLine, _, otherFirst⟩ := otherWritten
  have lines := first.cut.symm.trans otherFirst.cut
  obtain rfl :=
    (List.cons.inj (List.append_cancel_left (List.cons.inj lines).2)).1
  exact Option.some.inj (first.read.symm.trans otherFirst.read)

theorem exists_stylePlace (text id : Text) :
    ∃ header before directive after,
      StylePlace text id header before directive after := by
  cases found : firstDirective? text id with
  | some directive =>
      obtain ⟨header, before, line, after, first⟩ :=
        exists_isFirstDirective found
      exact ⟨header, before, directive, after, .first first⟩
  | none =>
      obtain ⟨header, before, trimmedCut⟩ :=
        List.exists_cons_of_ne_nil (Text.lines_ne_nil (Text.trimEnd text))
      exact ⟨header, before, _, _,
        .behind (firstDirective?_eq_none_iff.mp found) trimmedCut⟩

section SetColor

variable {role : ColorRole} {text id header color : Text}
  {before after : List Text} {directive : StyleDirective}

/-- A node without a directive gets one behind the last visible line. -/
theorem isWritten_setColor_of_unstyled (identifies : isWordIdentifier id)
    (mentioned : references text id) (role : ColorRole) (valid : isColor color)
    (unstyled : ∀ other ∈ (Text.lines text).tail,
      StyleDirective.ofLine? id other = none)
    (trimmedCut : Text.lines (Text.trimEnd text) = header :: before) :
    IsWritten (setColor role text id (some color)) id header before
      ((StyleDirective.bare id).assign role.name (some (Text.trim color)))
      (Text.closingLine (text.getLast? == some '\n')) := by
  have visible :=
    isBlank_of_references (isBare_of_isWordIdentifier identifies).visible
      mentioned
  have plain := (StyleDirective.isPlain_bare id).assign role valid
  obtain ⟨first, statements, cut⟩ :=
    List.exists_cons_of_ne_nil (Text.lines_ne_nil text)
  have accepted : (references text id && (some color).all isColor) = true := by
    rw [mentioned]
    exact valid
  have notRestyled :
      restyle id role.name ((some color).map Text.trim) statements = none :=
    restyle_eq_none_iff.mpr (by simpa [cut] using unstyled)
  have appended := setColor_of_not_restyled cut accepted notRestyled
  rw [Option.map_some, Option.getD_some] at appended
  have rendered :
      ((StyleDirective.bare id).assign role.name
          (some (Text.trim color))).render =
        some ("    style ".toList ++ id ++ ' ' :: role.name ++ ':' ::
          Text.trim color) := by
    have nonempty : (Text.trim color).isEmpty = false := by
      simpa using (isColor_trim valid).1
    simp [StyleDirective.assign, StyleDirective.bare, StyleProperty.assign,
      StyleDirective.render, StyleProperty.render, nonempty, indentation]
  have oneLine :
      '\n' ∉
        "    style ".toList ++ id ++ ' ' :: role.name ++ ':' ::
          Text.trim color := by
    simp [not_lineFeed_mem_wordIdentifier identifies,
      role.not_lineFeed_mem_name, not_lineFeed_mem_trim valid]
  have below := unstyled_trimEnd unstyled
  rw [trimmedCut, List.tail_cons] at below
  refine ⟨_, rendered, ?_, below,
    plain.ofLine?_render rfl (fitsApart_of_isWordIdentifier identifies)
      rendered⟩
  rw [appended, Text.lines_appendLine visible oneLine, trimmedCut,
    List.cons_append]

/-- A colour that the first directive does not have yet is written into its
line. -/
theorem IsFirstDirective.exists_setColor {line : Text}
    (first : IsFirstDirective text id header before line after directive)
    (nonempty : id ≠ []) (role : ColorRole) (valid : isColor color)
    (changed : StyleProperty.assign role.name (some (Text.trim color))
        directive.properties ≠ directive.properties) :
    ∃ written,
      (directive.assign role.name (some (Text.trim color))).render =
          some written ∧
        IsFirstDirective (setColor role text id (some color)) id header before
          written after
          (.ofBody directive.indent id
            (directive.assign role.name (some (Text.trim color))).body) := by
  have accepted : (some color).all isColor := valid
  have isRead :
      ∀ property ∈ (directive.assign role.name
        (some (Text.trim color))).properties,
        property.IsRead :=
    fun _ member => StyleDirective.isRead_of_mem_assign
      (StyleDirective.isRead_of_ofLine? first.read) accepted member
  have remains :
      (directive.assign role.name (some (Text.trim color))).properties ≠ [] :=
    StyleProperty.assign_some_ne_nil _ _ _
  have rendered := StyleDirective.render_of_ne_nil remains
  have lines := first.lines_setColor nonempty role accepted
  rw [Option.map_some, if_neg changed, rendered, Option.toList_some,
    List.append_assoc, List.singleton_append] at lines
  refine ⟨_, rendered, lines, first.unstyled, ?_⟩
  have reread := StyleDirective.ofLine?_written first.read isRead
  rwa [← StyleDirective.id_of_ofLine? first.read] at reread ⊢

theorem IsFirstDirective.isWritten_setColor {line : Text}
    (first : IsFirstDirective text id header before line after directive)
    (identifies : isWordIdentifier id) (plain : directive.IsPlain)
    (role : ColorRole) (valid : isColor color)
    (changed : StyleProperty.assign role.name (some (Text.trim color))
        directive.properties ≠ directive.properties) :
    IsWritten (setColor role text id (some color)) id header before
      (directive.assign role.name (some (Text.trim color))) after := by
  obtain ⟨written, rendered, rewritten⟩ :=
    first.exists_setColor (ne_nil_of_isWordIdentifier identifies) role valid
      changed
  have sameId : directive.id = id := StyleDirective.id_of_ofLine? first.read
  exact ⟨written, rendered, rewritten.cut, rewritten.unstyled,
    (plain.assign role valid).ofLine?_render sameId
      (fitsApart_of_isWordIdentifier identifies) rendered⟩

/-- A colour is written at its place, whether a directive stands there or
not. -/
theorem StylePlace.isWritten_setColor
    (place : StylePlace text id header before directive after)
    (identifies : isWordIdentifier id) (mentioned : references text id)
    (plain : directive.IsPlain) (role : ColorRole) (valid : isColor color)
    (changed : StyleProperty.assign role.name (some (Text.trim color))
        directive.properties ≠ directive.properties) :
    IsWritten (setColor role text id (some color)) id header before
      (directive.assign role.name (some (Text.trim color))) after := by
  cases place with
  | first found =>
      exact found.isWritten_setColor identifies plain role valid changed
  | behind unstyled trimmedCut =>
      exact isWritten_setColor_of_unstyled identifies mentioned role valid
        unstyled trimmedCut

/-- What has been written takes the next colour, which may be the one it has. -/
theorem IsWritten.setColor
    (written : IsWritten text id header before directive after)
    (identifies : isWordIdentifier id) (plain : directive.IsPlain)
    (role : ColorRole) (valid : isColor color) :
    IsWritten (DiagramEdit.setColor role text id (some color)) id header before
      (directive.assign role.name (some (Text.trim color))) after := by
  obtain ⟨line, rendered, first⟩ := written
  by_cases same : StyleProperty.assign role.name (some (Text.trim color))
      directive.properties = directive.properties
  · have unchanged :=
      first.setColor_eq_self (ne_nil_of_isWordIdentifier identifies)
        (show (some color).all isColor from valid) same
    rw [unchanged, StyleDirective.assign, same]
    exact ⟨line, rendered, first⟩
  · exact first.isWritten_setColor identifies plain role valid same

end SetColor

end DiagramEdit
