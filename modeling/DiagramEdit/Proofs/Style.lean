import DiagramEdit.Proofs.Mention
import DiagramEdit.Proofs.Text.Trim
import DiagramEdit.Style

/-!
# Style directives of one node

A line is a directive of an identifier when it begins with `style`, the
identifier and one white space more.  An edit touches the first such line and
leaves the lines before and after it as they are.
-/

namespace DiagramEdit

namespace Pattern

variable {id : Text}

/-- The identifier of a directive, one white space and everything behind it. -/
def styleTarget (id : Text) : Pattern Text := do
  wholeWord id
  let _ ← one Text.isSpace
  remainder

theorem styleTarget_cut_iff (identifies : isIdentifier id)
    {before after body : Text} {stop : Place} :
    styleTarget id ⟨before.reverse, after⟩ = some (body, stop) ↔
      Text.endsInWord before = false ∧
        ∃ separator, after = id ++ separator :: body ∧ Text.isSpace separator ∧
          stop = ⟨(before ++ id ++ separator :: body).reverse, []⟩ := by
  simp only [styleTarget, bind_eq_some_iff, wholeWord_cut_iff identifies,
    one_eq_some_iff, remainder, run_eq_some_iff_split]
  constructor
  · intro parts
    obtain ⟨_, _, ⟨ends, rest, split, _, wordEq⟩, separator, _,
      ⟨space, behind, restEq, spaceEq⟩, last, behindEq, _, stops, stopEq⟩ :=
      parts
    subst wordEq spaceEq
    change rest = separator :: behind at restEq
    change behind = body ++ last at behindEq
    cases last with
    | cons character last => simp at stops
    | nil =>
        rw [List.append_nil] at behindEq
        subst behindEq restEq
        exact ⟨ends, separator, split, space, by simp [stopEq]⟩
  · intro parts
    obtain ⟨ends, separator, split, space, stopEq⟩ := parts
    have stops : Text.startsWithWord (separator :: body) = false := by
      simpa [Text.startsWithWord]
        using Text.not_isWordCharacter_of_isSpace space
    exact ⟨(), _, ⟨ends, separator :: body, split, stops, rfl⟩, separator, _,
      ⟨space, body, rfl, rfl⟩, [], by simp, by simp, by simp, by simp [stopEq]⟩

theorem styleTarget_eq_none_of_isSpace (identifies : isIdentifier id)
    (before : Text) (character : Char) (after : Text)
    (space : Text.isSpace character) :
    styleTarget id ⟨before, character :: after⟩ = none := by
  cases read : styleTarget id ⟨before, character :: after⟩ with
  | none => rfl
  | some found =>
      obtain ⟨body, stop⟩ := found
      rw [← List.reverse_reverse before] at read
      obtain ⟨_, separator, split, _⟩ :=
        (styleTarget_cut_iff identifies).mp read
      obtain ⟨initial, rest, rfl, _⟩ := exists_cons_of_isIdentifier identifies
      have same : character = initial := (List.cons.inj split).1
      have visible :=
        not_isSpace_of_mem_identifier identifies (List.mem_cons_self)
      rw [← same, space] at visible
      cases visible

theorem styleLine_eq (id : Text) :
    styleLine id = do
      let indent ← run Text.isSpace
      literal "style".toList
      let body ← afterSpace (styleTarget id)
      return (indent, body) := rfl

theorem styleLine_iff (identifies : isIdentifier id) {line indent body : Text} :
    (styleLine id).atStart? line = some (indent, body) ↔
      ∃ space separator,
        line = indent ++ "style".toList ++ space ++ id ++ separator :: body ∧
          (∀ character ∈ indent, Text.isSpace character) ∧ space ≠ [] ∧
          (∀ character ∈ space, Text.isSpace character) ∧
          Text.isSpace separator := by
  have noStart := styleTarget_eq_none_of_isSpace identifies
  simp only [atStart?, Option.map_eq_some_iff, Prod.exists, styleLine_eq,
    bind_eq_some_iff, run_eq_some_iff_split, literal_eq_some_iff,
    afterSpace_eq_some_iff noStart, nonemptyRun_eq_some_iff, pure_eq_some_iff]
  constructor
  · intro parts
    obtain ⟨_, _, _,
      ⟨found, _, ⟨behind, split, indents, _, indentEq⟩, _, _,
        ⟨named, behindEq, namedEq⟩, body', stop,
        ⟨space, _, ⟨nonempty, spaced, namedSplit, spaces, _, spaceEq⟩, target⟩,
        sameEq, _⟩, valueEq⟩ := parts
    subst indentEq namedEq spaceEq
    obtain ⟨rfl, rfl⟩ := Prod.mk.inj (sameEq.trans valueEq)
    change line = found ++ behind at split
    change behind = "style".toList ++ named at behindEq
    change named = space ++ spaced at namedSplit
    have place :
        space.reverse ++ ("style".toList.reverse ++ (found.reverse ++ [])) =
          (found ++ "style".toList ++ space).reverse := by
      simp
    rw [place] at target
    obtain ⟨_, separator, spacedEq, isSpace, _⟩ :=
      (styleTarget_cut_iff identifies).mp target
    refine ⟨space, separator, ?_, indents, nonempty, spaces, isSpace⟩
    simp [split, behindEq, namedSplit, spacedEq]
  · intro parts
    obtain ⟨space, separator, split, indents, nonempty, spaces, isSpace⟩ :=
      parts
    have ends :=
      Text.endsInWord_append_space (indent ++ "style".toList) nonempty spaces
    have visible : (id ++ separator :: body).head?.all (!Text.isSpace ·) := by
      obtain ⟨initial, rest, rfl, _⟩ := exists_cons_of_isIdentifier identifies
      simpa using not_isSpace_of_mem_identifier identifies (List.mem_cons_self)
    have target : ∃ stop,
        styleTarget id ⟨(indent ++ "style".toList ++ space).reverse,
            id ++ separator :: body⟩ = some (body, stop) :=
      ⟨_,
        (styleTarget_cut_iff identifies).mpr
          ⟨ends, separator, rfl, isSpace, rfl⟩⟩
    obtain ⟨stop, target⟩ := target
    refine ⟨indent, body, stop,
      ⟨indent, _,
        ⟨"style".toList ++ space ++ id ++ separator :: body, by simp [split],
          indents, by rfl, rfl⟩, (), _,
        ⟨space ++ id ++ separator :: body, by simp, rfl⟩, body, _,
        ⟨space, _,
          ⟨nonempty, id ++ separator :: body, by simp, spaces, visible, rfl⟩,
          ?_⟩, rfl, rfl⟩, rfl⟩
    simpa using target

end Pattern

/-- The directive of the white space in front, the identifier and the body. -/
def StyleDirective.ofBody (indent id body : Text) : StyleDirective :=
  let body := Text.trim body
  let terminated := body.getLast? == some ';'
  let items := if terminated then body.dropLast else body
  ⟨indent, id, StyleProperty.listOfText items, terminated⟩

theorem mem_intercalate {separator character : Char} {items : List Text}
    (member : character ∈ [separator].intercalate items) :
    character = separator ∨ ∃ item ∈ items, character ∈ item := by
  induction items with
  | nil => simp at member
  | cons item items induction =>
      cases items with
      | nil => exact Or.inr ⟨item, by simp, by simpa using member⟩
      | cons next items =>
          rw [List.intercalate_cons_cons, List.append_assoc] at member
          rcases List.mem_append.mp member with here | rest
          · exact Or.inr ⟨item, by simp, here⟩
          · rcases List.mem_append.mp rest with between | later
            · exact Or.inl (List.mem_singleton.mp between)
            · rcases induction later with same | ⟨other, among, inside⟩
              · exact Or.inl same
              · exact Or.inr ⟨other, by simp [List.mem_cons.mp among], inside⟩

namespace StyleProperty

theorem mem_of_mem_ofText {item : Text} {character : Char}
    (member : character ∈ (ofText item).name ∨
      character ∈ (ofText item).value) :
    character ∈ item := by
  have rest := (List.dropWhile_suffix (l := item) (· != ':')).subset
  cases cut : item.dropWhile (· != ':') with
  | nil => simpa [ofText, cut] using member
  | cons colon value =>
      rw [cut] at rest
      simp only [ofText, cut] at member
      rcases member with inName | inValue
      · exact (List.takeWhile_prefix _).subset (Text.mem_of_mem_trim inName)
      · exact rest (List.mem_cons_of_mem _ (Text.mem_of_mem_trim inValue))

theorem mem_of_mem_listOfText {body : Text} {property : StyleProperty}
    {character : Char} (listed : property ∈ listOfText body)
    (member : character ∈ property.name ∨ character ∈ property.value) :
    character ∈ body := by
  simp only [listOfText, List.mem_map, List.mem_filter] at listed
  obtain ⟨_, ⟨⟨piece, onList, rfl⟩, _⟩, rfl⟩ := listed
  have inPiece := Text.mem_of_mem_trim (mem_of_mem_ofText member)
  rw [List.splitOn_eq_splitOnP, Text.mem_splitOnP_iff] at onList
  obtain ⟨_, before, after, split, _⟩ := onList
  rw [split]
  simp [inPiece]

theorem assign_nil (name : Text) (value : Option Text) :
    assign name value [] = (value.map fun value => ⟨name, value⟩).toList := by
  cases value <;> rfl

theorem assign_cons (name : Text) (value : Option Text) (first : StyleProperty)
    (rest : List StyleProperty) :
    assign name value (first :: rest) =
      if Text.equalIgnoringCase first.name name then
        (value.map fun value => ⟨first.name, value⟩).toList ++ rest
      else
        first :: assign name value rest := by
  cases value <;> rfl

/-- An assigned list has the properties it had before and the one that is
assigned. -/
theorem mem_assign {name : Text} {value : Option Text}
    {properties : List StyleProperty} {property : StyleProperty}
    (member : property ∈ assign name value properties) :
    property ∈ properties ∨
      some property.value = value ∧
        (property.name = name ∨
          ∃ old ∈ properties, property.name = old.name) := by
  induction properties with
  | nil =>
      rw [assign_nil, Option.mem_toList, Option.map_eq_some_iff] at member
      obtain ⟨value, rfl, rfl⟩ := member
      exact Or.inr ⟨rfl, Or.inl rfl⟩
  | cons first rest induction =>
      rw [assign_cons] at member
      by_cases named : Text.equalIgnoringCase first.name name
      · rw [if_pos named, List.mem_append, Option.mem_toList,
          Option.map_eq_some_iff] at member
        rcases member with ⟨value, rfl, rfl⟩ | later
        · exact Or.inr ⟨rfl, Or.inr ⟨first, by simp, rfl⟩⟩
        · exact Or.inl (List.mem_cons_of_mem _ later)
      · rw [if_neg named] at member
        rcases List.mem_cons.mp member with here | later
        · exact Or.inl (by simp [here])
        · rcases induction later with
            kept | ⟨valued, isName | ⟨old, among, sameName⟩⟩
          · exact Or.inl (List.mem_cons_of_mem _ kept)
          · exact Or.inr ⟨valued, Or.inl isName⟩
          · exact Or.inr
              ⟨valued, Or.inr ⟨old, List.mem_cons_of_mem _ among, sameName⟩⟩

theorem mem_of_mem_render {property : StyleProperty} {character : Char}
    (member : character ∈ property.render) :
    character ∈ property.name ∨ character = ':' ∨
      character ∈ property.value := by
  by_cases empty : property.value.isEmpty
  · simp only [render, empty, if_true] at member
    exact Or.inl member
  · simp only [render, empty, Bool.false_eq_true, if_false, List.mem_append,
      List.mem_cons] at member
    exact member

end StyleProperty

namespace StyleDirective

theorem mem_of_mem_ofBody {indent id body : Text} {property : StyleProperty}
    {character : Char} (listed : property ∈ (ofBody indent id body).properties)
    (member : character ∈ property.name ∨ character ∈ property.value) :
    character ∈ body := by
  apply Text.mem_of_mem_trim
  have inItems := StyleProperty.mem_of_mem_listOfText listed member
  by_cases terminated : (Text.trim body).getLast? == some ';'
  · rw [if_pos terminated] at inItems
    exact List.dropLast_subset _ inItems
  · rw [if_neg terminated] at inItems
    exact inItems

theorem not_lineFeed_mem_render {directive : StyleDirective} {line : Text}
    (rendered : directive.render = some line) (indent : '\n' ∉ directive.indent)
    (id : '\n' ∉ directive.id)
    (properties : ∀ property ∈ directive.properties,
      '\n' ∉ property.name ∧ '\n' ∉ property.value) : '\n' ∉ line := by
  by_cases empty : directive.properties.isEmpty
  · simp [render, empty] at rendered
  · simp only [render, empty, Bool.false_eq_true, if_false, Option.some.injEq]
      at rendered
    intro member
    have body :
        '\n' ∉
          [','].intercalate
            (directive.properties.map StyleProperty.render) := by
      intro inside
      rcases mem_intercalate inside with comma | ⟨item, listed, inItem⟩
      · cases comma
      · obtain ⟨property, among, rfl⟩ := List.mem_map.mp listed
        rcases StyleProperty.mem_of_mem_render inItem with
          inName | colon | inValue
        · exact (properties property among).1 inName
        · cases colon
        · exact (properties property among).2 inValue
    have ending : '\n' ∉ (if directive.terminated then [';'] else []) := by
      cases directive.terminated <;> decide
    have keyword : '\n' ∉ "style ".toList := by decide
    rw [← rendered] at member
    simp only [List.mem_append, List.mem_cons, body, ending, keyword, indent,
      id] at member
    simp at member

theorem not_lineFeed_mem_render_assign {directive : StyleDirective}
    {name line : Text} {value : Option Text}
    (rendered : (directive.assign name value).render = some line)
    (indent : '\n' ∉ directive.indent) (id : '\n' ∉ directive.id)
    (properties : ∀ property ∈ directive.properties, '\n' ∉ property.name ∧
      '\n' ∉ property.value) (named : '\n' ∉ name)
    (valued : ∀ chosen ∈ value, '\n' ∉ chosen) :
    '\n' ∉ line := by
  apply not_lineFeed_mem_render rendered indent id
  intro property member
  rcases StyleProperty.mem_assign member with
    among | ⟨chosen, isName | ⟨other, among, isOld⟩⟩
  · exact properties property among
  · exact ⟨by rw [isName]; exact named, valued _ chosen.symm⟩
  · exact ⟨by rw [isOld]; exact (properties other among).1,
      valued _ chosen.symm⟩

theorem not_lineFeed_mem_ofBody {indent id body : Text}
    (oneLine : '\n' ∉ body) :
    ∀ property ∈ (ofBody indent id body).properties, '\n' ∉ property.name ∧
      '\n' ∉ property.value := by
  intro property among
  constructor
  · intro inside
    exact oneLine (mem_of_mem_ofBody among (Or.inl inside))
  · intro inside
    exact oneLine (mem_of_mem_ofBody among (Or.inr inside))

end StyleDirective

/-- What a directive of an identifier looks like. -/
theorem ofLine?_eq_some_iff {id line : Text} (identifies : isIdentifier id)
    {directive : StyleDirective} :
    StyleDirective.ofLine? id line = some directive ↔
      ∃ indent space separator body,
        line = indent ++ "style".toList ++ space ++ id ++ separator :: body ∧
        (∀ character ∈ indent, Text.isSpace character) ∧ space ≠ [] ∧
        (∀ character ∈ space, Text.isSpace character) ∧ Text.isSpace separator ∧
        StyleDirective.ofBody indent id body = directive := by
  change ((Pattern.styleLine id).atStart? line).map
    (fun found => StyleDirective.ofBody found.1 id found.2) = some directive ↔ _
  simp only [Option.map_eq_some_iff, Prod.exists,
    Pattern.styleLine_iff identifies]
  constructor
  · intro parts
    obtain ⟨indent, body,
      ⟨space, separator, split, indents, nonempty, spaces, isSpace⟩, same⟩ :=
      parts
    exact ⟨indent, space, separator, body, split, indents, nonempty, spaces,
      isSpace, same⟩
  · intro parts
    obtain ⟨indent, space, separator, body, split, indents, nonempty, spaces,
      isSpace, same⟩ :=
      parts
    exact ⟨indent, body,
      ⟨space, separator, split, indents, nonempty, spaces, isSpace⟩, same⟩

theorem mem_wordRuns_of_ofLine? {id line : Text} (identifies : isIdentifier id)
    {directive : StyleDirective}
    (read : StyleDirective.ofLine? id line = some directive) :
    id ∈ Text.wordRuns line := by
  obtain ⟨indent, space, separator, body, split, _, nonempty, spaces, isSpace,
    _⟩ :=
    (ofLine?_eq_some_iff identifies).mp read
  rw [Text.mem_wordRuns_iff]
  refine ⟨ne_nil_of_isIdentifier identifies, ?_,
    indent ++ "style".toList ++ space, separator :: body, by simp [split], ?_,
    ?_⟩
  · intro character member
    exact isWordCharacter_of_mem_identifier identifies member
  · exact Text.endsInWord_append_space _ nonempty spaces
  · simpa [Text.startsWithWord]
      using Text.not_isWordCharacter_of_isSpace isSpace

theorem ofLine?_eq_none {id line : Text} (identifies : isIdentifier id)
    (absent : id ∉ Text.wordRuns line) :
    StyleDirective.ofLine? id line = none := by
  cases read : StyleDirective.ofLine? id line with
  | none => rfl
  | some directive =>
      exact absurd (mem_wordRuns_of_ofLine? identifies read) absent

section Restyle

variable {id name : Text} {value : Option Text}

theorem restyle_eq_none_iff {lines : List Text} :
    restyle id name value lines = none ↔
      ∀ line ∈ lines, StyleDirective.ofLine? id line = none := by
  induction lines with
  | nil => simp [restyle]
  | cons line rest induction =>
      cases read : StyleDirective.ofLine? id line with
      | none => simp [restyle, read, induction]
      | some directive =>
          by_cases same :
            (directive.assign name value).render = directive.render
          · simp [restyle, read, same]
          · simp [restyle, read, same]

theorem restyle_append {before : List Text}
    (none : ∀ line ∈ before, StyleDirective.ofLine? id line = none)
    (rest : List Text) :
    restyle id name value (before ++ rest) =
      (restyle id name value rest).map (before ++ ·) := by
  induction before with
  | nil => simp
  | cons line before induction =>
      rw [List.cons_append, restyle, none line (by simp)]
      simp only [induction fun other member => none other (by simp [member]),
        Option.map_map]
      rfl

/-- The line of the first directive stays as it is, or it is written anew. -/
theorem restyle_append_cons {before after : List Text} {line : Text}
    {directive : StyleDirective}
    (none : ∀ other ∈ before, StyleDirective.ofLine? id other = none)
    (read : StyleDirective.ofLine? id line = some directive) :
    restyle id name value (before ++ line :: after) =
      some (if (directive.assign name value).render = directive.render then
        before ++ line :: after
      else
        before ++ (directive.assign name value).render.toList ++ after) := by
  rw [restyle_append none, restyle, read]
  by_cases same : (directive.assign name value).render = directive.render
  · simp [same]
  · simp [same]

theorem restyle_of_first {before after : List Text} {line : Text}
    {directive : StyleDirective}
    (none : ∀ other ∈ before, StyleDirective.ofLine? id other = none)
    (read : StyleDirective.ofLine? id line = some directive)
    (rendered : directive.render = some line) :
    restyle id name value (before ++ line :: after) =
      some
        (before ++ (directive.assign name value).render.toList ++ after) := by
  rw [restyle_append_cons none read]
  by_cases same : (directive.assign name value).render = directive.render
  · simp [same, rendered]
  · simp [same]

/-- The first directive is edited and every other line kept. -/
theorem restyle_eq_some {lines edited : List Text}
    (restyled : restyle id name value lines = some edited) :
    ∃ before line after directive, lines = before ++ line :: after ∧
      (∀ other ∈ before, StyleDirective.ofLine? id other = none) ∧
      StyleDirective.ofLine? id line = some directive ∧
      (edited = lines ∨
        edited =
          before ++ (directive.assign name value).render.toList ++ after) := by
  induction lines generalizing edited with
  | nil => cases restyled
  | cons line rest induction =>
      cases read : StyleDirective.ofLine? id line with
      | none =>
          rw [restyle, read] at restyled
          obtain ⟨later, restyledRest, rfl⟩ :=
            Option.map_eq_some_iff.mp restyled
          obtain ⟨before, found, after, directive, split, others, readFound,
            result⟩ :=
            induction restyledRest
          refine ⟨line :: before, found, after, directive, by simp [split], ?_,
            readFound, ?_⟩
          · intro other member
            rcases List.mem_cons.mp member with here | there
            · rw [here]
              exact read
            · exact others other there
          · rcases result with same | changed
            · exact Or.inl (by simp [same])
            · exact Or.inr (by simp [changed])
      | some directive =>
          refine ⟨[], line, rest, directive, rfl, by simp, read, ?_⟩
          by_cases same :
            (directive.assign name value).render = directive.render
          · left
            simpa [restyle, read, same] using restyled.symm
          · right
            simpa [restyle, read, same] using restyled.symm

end Restyle

theorem isColor_trim {color : Text} (colors : isColor color) :
    Text.trim color ≠ [] ∧
      ∀ character ∈ Text.trim color, character ≠ ',' ∧ character ≠ ';' ∧
        character ≠ '\n' ∧ character ≠ '\r' := by
  simp only [isColor, Bool.and_eq_true, Bool.not_eq_true', List.all_eq_true,
    bne_iff_ne] at colors
  refine ⟨Text.trim_ne_nil colors.1, ?_⟩
  intro character member
  have plain := colors.2 character (Text.mem_of_mem_trim member)
  exact ⟨plain.1.1.1, plain.1.1.2, plain.1.2, plain.2⟩

theorem not_comma_mem_trim {color : Text} (colors : isColor color) :
    ',' ∉ Text.trim color := by
  intro comma
  exact ((isColor_trim colors).2 ',' comma).1 rfl

theorem not_semicolon_mem_trim {color : Text} (colors : isColor color) :
    ';' ∉ Text.trim color := by
  intro semicolon
  exact ((isColor_trim colors).2 ';' semicolon).2.1 rfl

theorem not_lineFeed_mem_trim {color : Text} (colors : isColor color) :
    '\n' ∉ Text.trim color := by
  intro lineFeed
  exact ((isColor_trim colors).2 '\n' lineFeed).2.2.1 rfl

theorem ColorRole.not_lineFeed_mem_name (role : ColorRole) :
    '\n' ∉ role.name := by
  cases role <;> decide

section SetColor

variable {role : ColorRole} {text id header : Text} {statements : List Text}
  {color : Option Text}

theorem accepted_iff :
    (references text id && color.all isColor) =
      !(!references text id || color.any (!isColor ·)) := by
  cases color <;> simp

theorem setColor_of_refused
    (refused : (references text id && color.all isColor) = false) :
    setColor role text id color = text := by
  rw [accepted_iff, Bool.not_eq_false'] at refused
  rw [setColor, if_pos refused]

theorem setColor_of_restyled (cut : Text.lines text = header :: statements)
    (accepted : (references text id && color.all isColor) = true)
    {edited : List Text}
    (restyled :
      restyle id role.name (color.map Text.trim) statements = some edited) :
    setColor role text id color = Text.joinLines (header :: edited) := by
  rw [accepted_iff, Bool.not_eq_true'] at accepted
  simp only [setColor, accepted, cut, restyled, Bool.false_eq_true, if_false]

theorem setColor_of_not_restyled (cut : Text.lines text = header :: statements)
    (accepted : (references text id && color.all isColor) = true)
    (unstyled : restyle id role.name (color.map Text.trim) statements = none) :
    setColor role text id color =
      (color.map fun value =>
          Text.appendLine text ("    style ".toList ++ id ++ ' ' :: role.name ++
            ':' :: Text.trim value)).getD text := by
  rw [accepted_iff, Bool.not_eq_true'] at accepted
  cases color with
  | none =>
      rw [Option.map_none] at unstyled
      simp only [setColor, accepted, cut, unstyled, Option.map_none,
        Bool.false_eq_true, if_false]
      rfl
  | some value =>
      rw [Option.map_some] at unstyled
      simp only [setColor, accepted, cut, unstyled, Option.map_some,
        Bool.false_eq_true, if_false]
      rfl

/-- A colour either changes nothing, or the first directive, or is appended. -/
theorem setColor_cases (role : ColorRole) (text id : Text)
    (color : Option Text) :
    setColor role text id color = text ∨
      (color.all isColor ∧
        ∃ header statements, Text.lines text = header :: statements ∧
          ((∃ edited,
              restyle id role.name (color.map Text.trim) statements =
                  some edited ∧
                setColor role text id color =
                  Text.joinLines (header :: edited)) ∨
            ∃ value, color = some value ∧
              setColor role text id color =
                Text.appendLine text ("    style ".toList ++ id ++ ' ' ::
                  role.name ++ ':' :: Text.trim value))) := by
  cases accepted : references text id && color.all isColor with
  | false => exact Or.inl (setColor_of_refused accepted)
  | true =>
      obtain ⟨header, statements, cut⟩ :=
        List.exists_cons_of_ne_nil (Text.lines_ne_nil text)
      have valid := (Bool.and_eq_true_iff.mp accepted).2
      cases restyled :
        restyle id role.name (color.map Text.trim) statements with
      | some edited =>
          have result := setColor_of_restyled cut accepted restyled
          exact Or.inr
            ⟨valid, header, statements, cut, Or.inl ⟨edited, restyled, result⟩⟩
      | none =>
          have result := setColor_of_not_restyled cut accepted restyled
          cases color with
          | none => exact Or.inl result
          | some value =>
              exact Or.inr
                ⟨valid, header, statements, cut, Or.inr ⟨value, rfl, result⟩⟩

end SetColor

end DiagramEdit
