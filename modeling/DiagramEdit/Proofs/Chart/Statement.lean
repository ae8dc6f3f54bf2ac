import DiagramEdit.Proofs.Node.Fresh
import DiagramEdit.Proofs.Style

/-!
# Statements of a flowchart

A flowchart is written as a header and statements, each on a line of its own.
The words of such a line are those of the parts of the statement, and brackets
stand on it only around the label of a node.
-/

namespace DiagramEdit

/-- A character that separates neither properties nor lines and is no
bracket. -/
def isPlain (character : Char) : Bool :=
  !isBracket character && !isLineBreak character && character != ',' &&
    character != ';'

/-- A name or a value of a property as it can be written in a directive. -/
structure IsEntry (entry : Text) : Prop where
  nonempty : entry ≠ []
  trimmed : Text.trim entry = entry
  plain : ∀ character ∈ entry, isPlain character

instance (entry : Text) : Decidable (IsEntry entry) :=
  decidable_of_iff
    (entry ≠ [] ∧ Text.trim entry = entry ∧ entry.all isPlain)
    ⟨fun parts => ⟨parts.1, parts.2.1, List.all_eq_true.mp parts.2.2⟩,
      fun entry =>
        ⟨entry.nonempty, entry.trimmed, List.all_eq_true.mpr entry.plain⟩⟩

structure StyleProperty.WellFormed (property : StyleProperty) : Prop where
  name : IsEntry property.name
  noColon : ':' ∉ property.name
  value : IsEntry property.value

instance (property : StyleProperty) : Decidable property.WellFormed :=
  decidable_of_iff
    (IsEntry property.name ∧ ':' ∉ property.name ∧ IsEntry property.value)
    ⟨fun parts => ⟨parts.1, parts.2.1, parts.2.2⟩,
      fun written => ⟨written.name, written.noColon, written.value⟩⟩

/-- A statement: a node with its label, an edge, or the style of a node. -/
inductive Statement where
  | node (id : Text) (shape : Shape) (label : Text)
  | edge (source target : Text)
  | style (id : Text) (properties : List StyleProperty)
deriving DecidableEq, Repr

/-- The properties of a style, with a comma between any two of them. -/
def styleBody (properties : List StyleProperty) : Text :=
  [','].intercalate
    (properties.map fun property => property.name ++ ':' :: property.value)

namespace Statement

def text : Statement → Text
  | node id shape label => id ++ shape.opening ++ label ++ shape.closing
  | edge source target => source ++ " --> ".toList ++ target
  | style id properties =>
      "style ".toList ++ id ++ [' '] ++ styleBody properties

def line (statement : Statement) : Text :=
  "    ".toList ++ statement.text

def WellFormed : Statement → Prop
  | node id _ label => isIdentifier id ∧ labelFits label
  | edge source target => isIdentifier source ∧ isIdentifier target
  | style id properties =>
      isIdentifier id ∧ properties ≠ [] ∧
        ∀ property ∈ properties, property.WellFormed

instance (statement : Statement) : Decidable statement.WellFormed :=
  match statement with
  | node id _ label =>
      inferInstanceAs (Decidable (isIdentifier id ∧ labelFits label))
  | edge source target =>
      inferInstanceAs (Decidable (isIdentifier source ∧ isIdentifier target))
  | style id properties =>
      inferInstanceAs (Decidable (isIdentifier id ∧ properties ≠ [] ∧
        ∀ property ∈ properties, property.WellFormed))

/-- The words that a statement consists of. -/
def words : Statement → List Text
  | node id _ label => id :: Text.wordRuns label
  | edge source target => [source, target]
  | style id properties =>
      "style".toList :: id :: properties.flatMap fun property =>
        Text.wordRuns property.name ++ Text.wordRuns property.value

/-- The node that a statement defines. -/
def nodeId? : Statement → Option Text
  | node id _ _ => some id
  | _ => none

/-- The node that a statement styles. -/
def styledId? : Statement → Option Text
  | style id _ => some id
  | _ => none

end Statement

theorem IsEntry.head_visible {entry : Text} (isEntry : IsEntry entry) :
    entry.head?.all (!Text.isSpace ·) :=
  (Text.trim_eq_self_iff.mp isEntry.trimmed).1

theorem IsEntry.last_visible {entry : Text} (isEntry : IsEntry entry) :
    entry.getLast?.all (!Text.isSpace ·) :=
  (Text.trim_eq_self_iff.mp isEntry.trimmed).2

section Body

variable {properties : List StyleProperty}

theorem styleBody_cons (first next : StyleProperty)
    (rest : List StyleProperty) :
    styleBody (first :: next :: rest) =
      first.name ++ ':' :: first.value ++ [','] ++
        styleBody (next :: rest) := by
  simp [styleBody, List.intercalate_cons_cons]

theorem styleBody_singleton (property : StyleProperty) :
    styleBody [property] = property.name ++ ':' :: property.value := by
  simp [styleBody]

theorem mem_styleBody {character : Char}
    (member : character ∈ styleBody properties) :
    character = ',' ∨ character = ':' ∨
      ∃ property ∈ properties, character ∈ property.name ∨
        character ∈ property.value := by
  rcases mem_intercalate member with comma | ⟨item, listed, inItem⟩
  · exact Or.inl comma
  · obtain ⟨property, among, rfl⟩ := List.mem_map.mp listed
    rcases List.mem_append.mp inItem with inName | rest
    · exact Or.inr (Or.inr ⟨property, among, Or.inl inName⟩)
    · rcases List.mem_cons.mp rest with colon | inValue
      · exact Or.inr (Or.inl colon)
      · exact Or.inr (Or.inr ⟨property, among, Or.inr inValue⟩)

theorem wordRuns_styleBody (properties : List StyleProperty) :
    Text.wordRuns (styleBody properties) = properties.flatMap fun property =>
      Text.wordRuns property.name ++ Text.wordRuns property.value := by
  have colon : Text.isWordCharacter ':' = false := by decide
  have comma : Text.isWordCharacter ',' = false := by decide
  induction properties with
  | nil => rfl
  | cons first rest induction =>
      cases rest with
      | nil => simp [styleBody_singleton, Text.wordRuns_append_cons colon]
      | cons next rest =>
          rw [styleBody_cons, List.append_assoc, List.singleton_append,
            Text.wordRuns_append_cons comma, Text.wordRuns_append_cons colon,
            induction]
          rfl

theorem head?_styleBody (nonempty : properties ≠ [])
    (wellFormed : ∀ property ∈ properties, property.WellFormed) :
    (styleBody properties).head?.any (!Text.isSpace ·) := by
  cases properties with
  | nil => contradiction
  | cons first rest =>
      have entry := (wellFormed first (by simp)).name
      obtain ⟨initial, name, nameEq⟩ :=
        List.exists_cons_of_ne_nil entry.nonempty
      have visible := entry.head_visible
      rw [nameEq] at visible
      cases rest with
      | nil => simpa [styleBody_singleton, nameEq] using visible
      | cons next rest => simpa [styleBody_cons, nameEq] using visible

theorem getLast?_styleBody (nonempty : properties ≠ [])
    (wellFormed : ∀ property ∈ properties, property.WellFormed) :
    ∃ front last, styleBody properties = front ++ [last] ∧
      Text.isSpace last = false ∧ isPlain last := by
  induction properties with
  | nil => contradiction
  | cons first rest induction =>
      cases rest with
      | nil =>
          have entry := (wellFormed first (by simp)).value
          rcases List.eq_nil_or_concat first.value with
            empty | ⟨front, last, valueEq⟩
          · exact absurd empty entry.nonempty
          · rw [List.concat_eq_append] at valueEq
            have visible := entry.last_visible
            rw [valueEq, List.getLast?_concat] at visible
            refine ⟨first.name ++ ':' :: front, last, ?_,
              by simpa using visible, entry.plain last (by simp [valueEq])⟩
            simp [styleBody_singleton, valueEq]
      | cons next rest =>
          obtain ⟨front, last, bodyEq, visible⟩ :=
            induction (by simp) fun property member =>
              wellFormed property (by simp [member])
          refine ⟨first.name ++ ':' :: first.value ++ [','] ++ front, last, ?_,
            visible⟩
          rw [styleBody_cons, bodyEq]
          simp

end Body

theorem wordRuns_wrap (shape : Shape) (label : Text) :
    Text.wordRuns (shape.wrap label) = Text.wordRuns label := by
  have opening :
      ∀ character ∈ shape.opening, Text.isWordCharacter character = false :=
    fun character member =>
      not_isWordCharacter_of_isBracket
        (Shape.isBracket_of_mem_opening character member)
  have closing :
      ∀ character ∈ shape.closing, Text.isWordCharacter character = false :=
    fun character member =>
      not_isWordCharacter_of_isBracket
        (Shape.isBracket_of_mem_closing character member)
  rw [Shape.wrap,
    Text.wordRuns_append (Or.inr (Text.startsWithWord_of_none closing)),
    Text.wordRuns_append (Or.inl (Text.endsInWord_of_none opening)),
    Text.wordRuns_eq_nil opening, Text.wordRuns_eq_nil closing]
  simp

namespace Statement

variable {statement : Statement}

theorem text_node (id : Text) (shape : Shape) (label : Text) :
    (node id shape label).text = id ++ shape.wrap label := by
  change id ++ shape.opening ++ label ++ shape.closing = _
  simp [Shape.wrap]

theorem text_edge (source target : Text) :
    (edge source target).text = source ++ " --> ".toList ++ target := rfl

theorem text_style (id : Text) (properties : List StyleProperty) :
    (style id properties).text =
      "style ".toList ++ id ++ [' '] ++ styleBody properties :=
  rfl

/-- A statement begins with a word and ends in something visible. -/
theorem exists_text_eq_cons (wellFormed : statement.WellFormed) :
    ∃ initial rest, statement.text = initial :: rest ∧
      startsIdentifier initial := by
  cases statement with
  | node id shape label =>
      obtain ⟨initial, tail, rfl, starts⟩ :=
        exists_cons_of_isIdentifier wellFormed.1
      exact ⟨initial, tail ++ shape.wrap label, by simp [text_node], starts⟩
  | edge source target =>
      obtain ⟨initial, tail, rfl, starts⟩ :=
        exists_cons_of_isIdentifier wellFormed.1
      exact ⟨initial, tail ++ " --> ".toList ++ target, rfl, starts⟩
  | style id properties => exact ⟨'s', _, rfl, by decide⟩

theorem exists_text_eq_concat (wellFormed : statement.WellFormed) :
    ∃ front last, statement.text = front ++ [last] ∧
      Text.isSpace last = false := by
  cases statement with
  | node id shape label =>
      obtain ⟨opener, middle, closer, wrapEq, _, closes⟩ :=
        shape.exists_wrap_eq label
      refine ⟨id ++ opener :: middle, closer, ?_,
        not_isSpace_of_isBracket closes⟩
      simp [text_node, wrapEq]
  | edge source target =>
      rcases List.eq_nil_or_concat target with empty | ⟨front, last, targetEq⟩
      · exact absurd empty (ne_nil_of_isIdentifier wellFormed.2)
      · rw [List.concat_eq_append] at targetEq
        refine ⟨source ++ " --> ".toList ++ front, last,
          by simp [text_edge, targetEq], ?_⟩
        exact not_isSpace_of_mem_identifier wellFormed.2 (by simp [targetEq])
  | style id properties =>
      obtain ⟨front, last, bodyEq, visible, _⟩ :=
        getLast?_styleBody wellFormed.2.1 wellFormed.2.2
      exact ⟨"style ".toList ++ id ++ [' '] ++ front, last,
        by simp [text_style, bodyEq], visible⟩

theorem wordRuns_line (wellFormed : statement.WellFormed) :
    Text.wordRuns statement.line = statement.words := by
  have indented :
      Text.wordRuns statement.line = Text.wordRuns statement.text := by
    rw [line, Text.wordRuns_append (Or.inl (by decide))]
    rfl
  rw [indented]
  cases statement with
  | node id shape label =>
      have starts : Text.startsWithWord (shape.wrap label) = false := by
        simpa using startsWithWord_wrap shape label []
      rw [text_node, Text.wordRuns_append (Or.inr starts), wordRuns_wrap,
        wordRuns_identifier wellFormed.1]
      rfl
  | edge source target =>
      have arrow : Text.wordRuns " --> ".toList = [] := by decide
      have ends : Text.endsInWord (source ++ " --> ".toList) = false :=
        Text.endsInWord_append_cons (by decide)
      rw [text_edge, Text.wordRuns_append (Or.inl ends),
        Text.wordRuns_append (Or.inr (by decide)),
        wordRuns_identifier wellFormed.1, wordRuns_identifier wellFormed.2,
        arrow]
      rfl
  | style id properties =>
      have keyword : Text.wordRuns "style ".toList = ["style".toList] := by
        decide
      have space : Text.isWordCharacter ' ' = false := by decide
      rw [text_style, List.append_assoc, List.singleton_append,
        Text.wordRuns_append_cons space,
        Text.wordRuns_append (Or.inl (by decide)), keyword,
        wordRuns_identifier wellFormed.1, wordRuns_styleBody]
      rfl

theorem not_lineFeed_mem_line (wellFormed : statement.WellFormed) :
    '\n' ∉ statement.line := by
  have indent : '\n' ∉ "    ".toList := by decide
  have kept : '\n' ∉ statement.text := by
    cases statement with
    | node id shape label =>
        rw [text_node, List.mem_append, not_or]
        exact ⟨not_lineFeed_mem_identifier wellFormed.1,
          not_lineFeed_mem_wrap shape wellFormed.2⟩
    | edge source target =>
        have arrow : '\n' ∉ " --> ".toList := by decide
        simp only [text_edge, List.mem_append, arrow,
          not_lineFeed_mem_identifier wellFormed.1,
          not_lineFeed_mem_identifier wellFormed.2, or_self, not_false_eq_true]
    | style id properties =>
        have keyword : '\n' ∉ "style ".toList := by decide
        have space : '\n' ∉ [' '] := by decide
        have body : '\n' ∉ styleBody properties := by
          intro member
          rcases mem_styleBody member with
            comma | colon | ⟨property, among, inName | inValue⟩
          · cases comma
          · cases colon
          · have impossible :=
              (wellFormed.2.2 property among).name.plain '\n' inName
            cases impossible
          · have impossible :=
              (wellFormed.2.2 property among).value.plain '\n' inValue
            cases impossible
        simp only [text_style, List.mem_append, keyword, space, body,
          not_lineFeed_mem_identifier wellFormed.1, or_self, not_false_eq_true]
  rw [line, List.mem_append, not_or]
  exact ⟨indent, kept⟩

end Statement

end DiagramEdit
