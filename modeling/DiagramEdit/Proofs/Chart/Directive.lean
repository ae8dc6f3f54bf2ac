import DiagramEdit.Proofs.Chart.Statement

/-!
# Reading back a style statement

The line of a statement is a directive of an identifier only if it is the style
of exactly that node, and then the properties are read as they were written.
-/

namespace DiagramEdit

theorem ofText_written {property : StyleProperty}
    (wellFormed : property.WellFormed) :
    StyleProperty.ofText (property.name ++ ':' :: property.value) =
      property := by
  have accepted := Pattern.bne_of_not_mem wellFormed.noColon
  have stops :
      (':' :: property.value).head?.all
        (fun character => !(character != ':')) := by
    simp
  obtain ⟨taken, dropped⟩ := Pattern.takeWhile_append_of_stops accepted stops
  simp only [StyleProperty.ofText, taken, dropped, wellFormed.name.trimmed,
    wellFormed.value.trimmed]

theorem trim_written {property : StyleProperty}
    (wellFormed : property.WellFormed) :
    Text.trim (property.name ++ ':' :: property.value) =
      property.name ++ ':' :: property.value := by
  obtain ⟨initial, name, nameEq⟩ :=
    List.exists_cons_of_ne_nil wellFormed.name.nonempty
  have starts := wellFormed.name.head_visible
  have ends := wellFormed.value.last_visible
  apply Text.trim_eq_self_iff.mpr
  constructor
  · rw [nameEq] at starts ⊢
    exact starts
  · rcases List.eq_nil_or_concat property.value with
      empty | ⟨front, last, valueEq⟩
    · exact absurd empty wellFormed.value.nonempty
    · rw [valueEq, List.concat_eq_append, List.getLast?_concat] at ends
      rw [valueEq, List.concat_eq_append, ← List.cons_append,
        ← List.append_assoc, List.getLast?_concat]
      exact ends

theorem listOfText_styleBody {properties : List StyleProperty}
    (nonempty : properties ≠ [])
    (wellFormed : ∀ property ∈ properties, property.WellFormed) :
    StyleProperty.listOfText (styleBody properties) = properties := by
  have noComma :
      ∀ item ∈ properties.map fun property =>
        property.name ++ ':' :: property.value,
        ',' ∉ item := by
    intro item member comma
    obtain ⟨property, among, rfl⟩ := List.mem_map.mp member
    rcases List.mem_append.mp comma with inName | rest
    · cases (wellFormed property among).name.plain ',' inName
    · rcases List.mem_cons.mp rest with colon | inValue
      · cases colon
      · cases (wellFormed property among).value.plain ',' inValue
  have pieces := List.splitOn_intercalate ',' noComma (by simpa using nonempty)
  have trimmed :
      (properties.map fun property =>
            property.name ++ ':' :: property.value).map Text.trim =
        properties.map fun property =>
          property.name ++ ':' :: property.value := by
    rw [List.map_map]
    apply List.map_congr_left
    intro property among
    exact trim_written (wellFormed property among)
  rw [StyleProperty.listOfText, styleBody, pieces, trimmed,
    List.filter_eq_self.mpr, List.map_map]
  · calc
      properties.map (StyleProperty.ofText ∘
          fun property => property.name ++ ':' :: property.value) =
        properties.map fun property => property := by
            apply List.map_congr_left
            intro property among
            exact ofText_written (wellFormed property among)
      _ = properties := List.map_id' properties
  · intro item member
    obtain ⟨property, _, rfl⟩ := List.mem_map.mp member
    simp

namespace Statement

/-- The directive that is read from the style of a node. -/
def directive (id : Text) (properties : List StyleProperty) : StyleDirective :=
  ⟨"    ".toList, id, properties, false⟩

theorem ofBody_styleBody {properties : List StyleProperty}
    (nonempty : properties ≠ [])
    (wellFormed : ∀ property ∈ properties, property.WellFormed) (id : Text) :
    StyleDirective.ofBody "    ".toList id (styleBody properties) =
      directive id properties := by
  obtain ⟨front, last, bodyEq, visible, plain⟩ :=
    getLast?_styleBody nonempty wellFormed
  have starts := head?_styleBody nonempty wellFormed
  have trimmed : Text.trim (styleBody properties) = styleBody properties := by
    apply Text.trim_eq_self_iff.mpr
    constructor
    · cases first : (styleBody properties).head? with
      | none => rfl
      | some character =>
          rw [first] at starts
          exact starts
    · rw [bodyEq, List.getLast?_concat]
      simpa using visible
  have notTerminated :
      ((styleBody properties).getLast? == some ';') = false := by
    rw [bodyEq, List.getLast?_concat, beq_eq_false_iff_ne, ne_eq,
      Option.some.injEq]
    intro semicolon
    rw [semicolon] at plain
    cases plain
  simp only [StyleDirective.ofBody, trimmed, notTerminated, Bool.false_eq_true,
    if_false, listOfText_styleBody nonempty wellFormed]
  rfl

theorem render_directive {id : Text} {properties : List StyleProperty}
    (wellFormed : (style id properties).WellFormed) :
    (directive id properties).render = some (style id properties).line := by
  have nonempty : properties.isEmpty = false := by simpa using wellFormed.2.1
  have rendered : properties.map StyleProperty.render =
      properties.map fun property =>
        property.name ++ ':' :: property.value := by
    apply List.map_congr_left
    intro property among
    have valued : property.value.isEmpty = false := by
      simpa using (wellFormed.2.2 property among).value.nonempty
    rw [StyleProperty.render, valued]
    rfl
  simp only [StyleDirective.render, directive, nonempty, rendered,
    Bool.false_eq_true, if_false, line, text_style, styleBody]
  simp

theorem text_eq_of_ofLine? {statement : Statement}
    (wellFormed : statement.WellFormed) {id : Text}
    (identifies : isIdentifier id) {found : StyleDirective}
    (read : StyleDirective.ofLine? id statement.line = some found) :
    ∃ space separator body,
      statement.text = "style".toList ++ (space ++ (id ++ separator :: body)) ∧
        space ≠ [] ∧ (∀ character ∈ space, Text.isSpace character) ∧
        Text.isSpace separator := by
  obtain ⟨indent, space, separator, body, lineEq, indents, nonempty, spaces,
    isSpace, _⟩ :=
    (ofLine?_eq_some_iff identifies).mp read
  obtain ⟨initial, rest, textEq, starts⟩ := exists_text_eq_cons wellFormed
  have visible : statement.text.head?.all (!Text.isSpace ·) := by
    have word := isWordCharacter_of_startsIdentifier starts
    simpa [textEq] using Text.not_isSpace_of_isWordCharacter word
  have cut : "    ".toList ++ statement.text =
      indent ++ ("style".toList ++ (space ++ (id ++ separator :: body))) := by
    rw [← line, lineEq]
    simp only [List.append_assoc]
  have stops :
      ("style".toList ++ (space ++ (id ++ separator :: body))).head?.all
        (!Text.isSpace ·) := by
    rfl
  exact ⟨space, separator, body,
    (Pattern.eq_of_append_eq_append_of_stops cut isSpace_of_mem_indentation
      indents visible stops).2, nonempty, spaces, isSpace⟩

/-- A word in front of none is the keyword if white space follows the
keyword. -/
theorem keyword_cut {word rest space after : Text}
    (within : ∀ character ∈ word, Text.isWordCharacter character)
    (stops : rest.head?.all (!Text.isWordCharacter ·)) (nonempty : space ≠ [])
    (spaces : ∀ character ∈ space, Text.isSpace character)
    (textEq : word ++ rest = "style".toList ++ (space ++ after)) :
    rest = space ++ after := by
  have letters : "style".toList.all Text.isWordCharacter := by decide
  have spaceStops : (space ++ after).head?.all (!Text.isWordCharacter ·) := by
    obtain ⟨first, space, rfl⟩ := List.exists_cons_of_ne_nil nonempty
    simpa using Text.not_isWordCharacter_of_isSpace (spaces first (by simp))
  exact (Pattern.eq_of_append_eq_append_of_stops textEq within
    (List.all_eq_true.mp letters) stops spaceStops).2

theorem head?_identifier_append {id : Text} (identifies : isIdentifier id)
    (rest : Text) :
    (id ++ rest).head?.all (!Text.isSpace ·) := by
  obtain ⟨initial, tail, rfl, _⟩ := exists_cons_of_isIdentifier identifies
  simpa using not_isSpace_of_mem_identifier identifies List.mem_cons_self

/-- White space that begins with a blank in front of something visible is the
blank. -/
theorem blank_cut {left space right : Text}
    (leftStops : left.head?.all (!Text.isSpace ·))
    (spaces : ∀ character ∈ space, Text.isSpace character)
    (rightStops : right.head?.all (!Text.isSpace ·))
    (cut : ' ' :: left = space ++ right) :
    left = right := by
  have blank : ∀ character ∈ [' '], Text.isSpace character :=
    List.all_eq_true.mp rfl
  rw [← List.singleton_append] at cut
  exact (Pattern.eq_of_append_eq_append_of_stops cut blank spaces leftStops
    rightStops).2

theorem wrap_ne_space_append (shape : Shape) (label : Text) {space after : Text}
    (nonempty : space ≠ [])
    (spaces : ∀ character ∈ space, Text.isSpace character) :
    shape.wrap label ≠ space ++ after := by
  intro cut
  obtain ⟨opener, middle, closer, wrapEq, opens, _⟩ :=
    shape.exists_wrap_eq label
  obtain ⟨first, space, rfl⟩ := List.exists_cons_of_ne_nil nonempty
  rw [wrapEq] at cut
  have same : opener = first := (List.cons.inj cut).1
  have impossible := spaces first (by simp)
  rw [← same, not_isSpace_of_isBracket (isBracket_of_opensLabel opens)]
    at impossible
  cases impossible

theorem arrow_ne_space_append {id target space rest : Text}
    (identifies : isIdentifier id)
    (spaces : ∀ character ∈ space, Text.isSpace character) :
    " --> ".toList ++ target ≠ space ++ (id ++ rest) := by
  intro cut
  have arrow : ("--> ".toList ++ target).head?.all (!Text.isSpace ·) := by rfl
  have names :=
    blank_cut arrow spaces (head?_identifier_append identifies rest) cut
  obtain ⟨initial, tail, rfl, starts⟩ := exists_cons_of_isIdentifier identifies
  have dash : '-' = initial := (List.cons.inj names).1
  rw [← dash] at starts
  cases starts

/-- A statement that is read as a directive of an identifier is its style. -/
theorem eq_style_of_ofLine? {statement : Statement}
    (wellFormed : statement.WellFormed) {id : Text}
    (identifies : isIdentifier id) {found : StyleDirective}
    (read : StyleDirective.ofLine? id statement.line = some found) :
    ∃ properties, statement = style id properties := by
  obtain ⟨space, separator, body, textEq, nonempty, spaces, isSpace⟩ :=
    text_eq_of_ofLine? wellFormed identifies read
  have word : ∀ {name : Text}, isIdentifier name → ∀ character ∈ name,
      Text.isWordCharacter character := fun isName _ member =>
    isWordCharacter_of_mem_identifier isName member
  cases statement with
  | node other shape label =>
      obtain ⟨opener, middle, closer, wrapEq, opens, _⟩ :=
        shape.exists_wrap_eq label
      have stops : (shape.wrap label).head?.all (!Text.isWordCharacter ·) := by
        simpa [wrapEq]
          using not_isWordCharacter_of_isBracket (isBracket_of_opensLabel opens)
      rw [text_node] at textEq
      have rests := keyword_cut (word wellFormed.1) stops nonempty spaces textEq
      exact absurd rests (wrap_ne_space_append shape label nonempty spaces)
  | edge source target =>
      have stops :
          (" --> ".toList ++ target).head?.all (!Text.isWordCharacter ·) := by
        rfl
      rw [text_edge, List.append_assoc] at textEq
      have rests := keyword_cut (word wellFormed.1) stops nonempty spaces textEq
      exact absurd rests (arrow_ne_space_append identifies spaces)
  | style other properties =>
      have shape : (style other properties).text =
          "style".toList ++
            (' ' :: (other ++ ' ' :: styleBody properties)) := by
        rw [text_style, List.append_assoc, List.append_assoc]
        rfl
      rw [shape] at textEq
      have names := blank_cut (head?_identifier_append wellFormed.1 _) spaces
        (head?_identifier_append identifies _) (List.append_cancel_left textEq)
      have space : Text.isWordCharacter ' ' = false := by decide
      have same :=
        (Pattern.eq_of_append_eq_append_of_stops names (word wellFormed.1)
          (word identifies) (by simpa using space)
          (by simpa using Text.not_isWordCharacter_of_isSpace isSpace)).1
      exact ⟨properties, by rw [same]⟩

/-- The style of a node is read back. -/
theorem ofLine?_style {id : Text} {properties : List StyleProperty}
    (wellFormed : (style id properties).WellFormed) :
    StyleDirective.ofLine? id (style id properties).line =
      some (directive id properties) := by
  refine (ofLine?_eq_some_iff wellFormed.1).mpr ⟨"    ".toList, [' '], ' ',
    styleBody properties, ?_, isSpace_of_mem_indentation, List.cons_ne_nil _ _,
    List.all_eq_true.mp rfl, rfl,
    ofBody_styleBody wellFormed.2.1 wellFormed.2.2 id⟩
  rw [line, text_style]
  simp only [List.append_assoc]
  rfl

theorem ofLine?_eq_none_of_styledId? {statement : Statement}
    (wellFormed : statement.WellFormed) {id : Text}
    (identifies : isIdentifier id) (other : statement.styledId? ≠ some id) :
    StyleDirective.ofLine? id statement.line = none := by
  cases read : StyleDirective.ofLine? id statement.line with
  | none => rfl
  | some found =>
      obtain ⟨properties, rfl⟩ := eq_style_of_ofLine? wellFormed identifies read
      exact absurd rfl other

end Statement

end DiagramEdit
