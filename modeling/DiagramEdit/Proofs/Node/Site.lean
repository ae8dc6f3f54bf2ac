import DiagramEdit.Proofs.Mention

/-!
# Where nodes are defined

A site of an identifier is a place where it can be read and where white space
and an opening bracket follow.  Definitions stand at sites only.  If a text has
a single site and a label that fits stands there, then that label is what is
found.
-/

namespace DiagramEdit

/-- A character that can begin the brackets of a shape. -/
def opensLabel (character : Char) : Bool :=
  ['[', '(', '{'].contains character

theorem mem_of_opensLabel {character : Char} (opens : opensLabel character) :
    character ∈ ['[', '(', '{'] := by
  simpa [opensLabel] using opens

theorem isBracket_of_opensLabel {character : Char}
    (opens : opensLabel character) :
    isBracket character := by
  have table : ['[', '(', '{'].all isBracket := by decide
  exact List.all_eq_true.mp table character (mem_of_opensLabel opens)

theorem opensNode_of_opensLabel {character : Char}
    (opens : opensLabel character) :
    opensNode character := by
  have table : ['[', '(', '{'].all opensNode := by decide
  exact List.all_eq_true.mp table character (mem_of_opensLabel opens)

theorem eq_false_of_isBracket {property : Char → Bool}
    (table : ['[', ']', '(', ')', '{', '}'].all (!property ·))
    {character : Char} (bracket : isBracket character) :
    property character = false := by
  have member : character ∈ ['[', ']', '(', ')', '{', '}'] :=
    List.contains_iff_mem.mp bracket
  simpa using List.all_eq_true.mp table character member

theorem not_isSpace_of_isBracket {character : Char}
    (bracket : isBracket character) :
    Text.isSpace character = false :=
  eq_false_of_isBracket (by decide) bracket

theorem not_isBracket_of_isSpace {character : Char}
    (space : Text.isSpace character) :
    isBracket character = false := by
  rw [Bool.eq_false_iff]
  intro bracket
  rw [not_isSpace_of_isBracket bracket] at space
  cases space

theorem ne_lineFeed_of_isBracket {character : Char}
    (bracket : isBracket character) :
    character ≠ '\n' := by
  intro lineFeed
  rw [lineFeed] at bracket
  cases bracket

theorem not_startsIdentifier_of_isBracket {character : Char}
    (bracket : isBracket character) :
    startsIdentifier character = false :=
  eq_false_of_isBracket (by decide) bracket

theorem not_isWordCharacter_of_isBracket {character : Char}
    (bracket : isBracket character) :
    Text.isWordCharacter character = false :=
  eq_false_of_isBracket (by decide) bracket

theorem not_isBracket_of_isWordCharacter {character : Char}
    (word : Text.isWordCharacter character) : isBracket character = false := by
  rw [Bool.eq_false_iff]
  intro bracket
  rw [not_isWordCharacter_of_isBracket bracket] at word
  cases word

theorem not_isBracket_of_mem_identifier {id : Text}
    (identifies : isIdentifier id) {character : Char}
    (member : character ∈ id) :
    isBracket character = false :=
  not_isBracket_of_isWordCharacter
    (isWordCharacter_of_mem_identifier identifies member)

theorem isSpace_of_mem_indentation :
    ∀ character ∈ indentation, Text.isSpace character := by
  have table : indentation.all Text.isSpace := by decide
  exact List.all_eq_true.mp table

theorem not_isBracket_of_mem_indentation {character : Char}
    (member : character ∈ indentation) :
    isBracket character = false :=
  not_isBracket_of_isSpace (isSpace_of_mem_indentation character member)

namespace Shape

theorem exists_opening_eq_cons (shape : Shape) :
    ∃ bracket more, shape.opening = bracket :: more ∧ opensLabel bracket := by
  cases shape <;> exact ⟨_, _, rfl, by decide⟩

theorem exists_closing_eq_cons (shape : Shape) :
    ∃ bracket more, shape.closing = bracket :: more ∧ isBracket bracket := by
  cases shape <;> exact ⟨_, _, rfl, by decide⟩

theorem exists_closing_eq_concat (shape : Shape) :
    ∃ more bracket, shape.closing = more ++ [bracket] ∧ isBracket bracket := by
  cases shape <;>
    exact ⟨_, _, (List.dropLast_append_getLast (List.cons_ne_nil _ _)).symm,
      by decide⟩

theorem exists_wrap_eq (shape : Shape) (label : Text) :
    ∃ opener middle closer, shape.wrap label = opener :: middle ++ [closer] ∧
      opensLabel opener ∧ isBracket closer := by
  obtain ⟨opener, openers, openingEq, opens⟩ := shape.exists_opening_eq_cons
  obtain ⟨closers, closer, closingEq, closes⟩ := shape.exists_closing_eq_concat
  refine ⟨opener, openers ++ label ++ closers, closer, ?_, opens, closes⟩
  simp [wrap, openingEq, closingEq]

theorem isBracket_of_mem_opening {shape : Shape} :
    ∀ character ∈ shape.opening, isBracket character := by
  have table : shape.opening.all isBracket := by cases shape <;> rfl
  exact List.all_eq_true.mp table

theorem isBracket_of_mem_closing {shape : Shape} :
    ∀ character ∈ shape.closing, isBracket character := by
  have table : shape.closing.all isBracket := by cases shape <;> rfl
  exact List.all_eq_true.mp table

theorem not_mem_of_not_isBracket {shape : Shape} {character : Char}
    (plain : isBracket character = false) :
    character ∉ shape.opening ∧ character ∉ shape.closing := by
  constructor
  · intro inOpening
    rw [isBracket_of_mem_opening character inOpening] at plain
    cases plain
  · intro inClosing
    rw [isBracket_of_mem_closing character inClosing] at plain
    cases plain

theorem not_opensLabel_of_mem_closing {shape : Shape} {character : Char}
    (member : character ∈ shape.closing) : opensLabel character = false := by
  have table : shape.closing.all (!opensLabel ·) := by cases shape <;> rfl
  simpa using List.all_eq_true.mp table character member

/-- The shapes tried before a shape differ from it, and all of them have double
brackets if the shape has. -/
theorem bySpecificity_eq_append (shape : Shape) :
    ∃ earlier later, bySpecificity = earlier ++ shape :: later ∧
      ∀ other ∈ earlier, other ≠ shape ∧ (shape.isDouble → other.isDouble) := by
  refine ⟨bySpecificity.takeWhile (· ≠ shape),
    (bySpecificity.dropWhile (· ≠ shape)).tail, ?_⟩
  cases shape <;> decide

end Shape

theorem not_isBracket_of_labelFits {label : Text} (fits : labelFits label)
    {character : Char} (member : character ∈ label) :
    isBracket character = false := by
  simp only [labelFits, Bool.and_eq_true, List.all_eq_true] at fits
  simpa using (fits.2 character member).2

theorem not_isLineBreak_of_labelFits {label : Text} (fits : labelFits label)
    {character : Char} (member : character ∈ label) :
    isLineBreak character = false := by
  simp only [labelFits, Bool.and_eq_true, List.all_eq_true] at fits
  simpa using (fits.2 character member).1

theorem not_isBlank_of_labelFits {label : Text} (fits : labelFits label) :
    Text.isBlank label = false := by
  simp only [labelFits, Bool.and_eq_true] at fits
  simpa using fits.1

theorem ne_nil_of_labelFits {label : Text} (fits : labelFits label) :
    label ≠ [] := by
  intro empty
  have visible := not_isBlank_of_labelFits fits
  rw [empty] at visible
  cases visible

theorem labelFits_newNodeLabel : labelFits newNodeLabel := by
  decide

theorem head?_wrap_all (shape : Shape) (label rest : Text) :
    (shape.wrap label ++ rest).head?.all (!Text.isSpace ·) := by
  obtain ⟨bracket, more, openingEq, opens⟩ := shape.exists_opening_eq_cons
  have visible := not_isSpace_of_isBracket (isBracket_of_opensLabel opens)
  simp [Shape.wrap, openingEq, visible]

theorem startsWithWord_wrap (shape : Shape) (label rest : Text) :
    Text.startsWithWord (shape.wrap label ++ rest) = false := by
  obtain ⟨bracket, more, openingEq, opens⟩ := shape.exists_opening_eq_cons
  simpa [Shape.wrap, openingEq, Text.startsWithWord] using
    not_isWordCharacter_of_isBracket (isBracket_of_opensLabel opens)

theorem not_lineFeed_mem_wrap (shape : Shape) {label : Text}
    (fits : labelFits label) :
    '\n' ∉ shape.wrap label := by
  have kept : '\n' ∉ label := by
    intro member
    have impossible := not_isLineBreak_of_labelFits fits member
    cases impossible
  have openingKept : '\n' ∉ shape.opening := fun member =>
    ne_lineFeed_of_isBracket (Shape.isBracket_of_mem_opening _ member) rfl
  have closingKept : '\n' ∉ shape.closing := fun member =>
    ne_lineFeed_of_isBracket (Shape.isBracket_of_mem_closing _ member) rfl
  simp only [Shape.wrap, List.mem_append, kept, openingKept, closingKept,
    or_self, not_false_eq_true]

/-- In front of an opening bracket of a wrapped label stands nothing or the
other half of its brackets. -/
theorem eq_of_wrap_eq_append_opener {shape : Shape} {label front rest : Text}
    {bracket : Char} (bare : ∀ character ∈ label, isBracket character = false)
    (opens : opensLabel bracket)
    (split : shape.wrap label = front ++ bracket :: rest) :
    front = [] ∨ ∃ half, front = [half] ∧ isBracket half := by
  have inOpening : front.length < shape.opening.length := by
    by_contra beyond
    have rest_label :
        ∃ more, label ++ shape.closing = more ++ bracket :: rest := by
      rw [Shape.wrap, List.append_assoc] at split
      rcases List.append_eq_append_iff.mp split with
        ⟨more, frontEq, restEq⟩ | ⟨more, openingEq, _⟩
      · exact ⟨more, restEq⟩
      · have lengths := congrArg List.length openingEq
        rw [List.length_append] at lengths
        exact ⟨[], by
          have empty : more = [] := List.eq_nil_of_length_eq_zero (by omega)
          simp_all⟩
    obtain ⟨more, labelEq⟩ := rest_label
    have member : bracket ∈ label ++ shape.closing := by simp [labelEq]
    rcases List.mem_append.mp member with inLabel | inClosing
    · have plain := bare bracket inLabel
      rw [isBracket_of_opensLabel opens] at plain
      cases plain
    · have closes := Shape.not_opensLabel_of_mem_closing inClosing
      rw [opens] at closes
      cases closes
  have opener : ∀ character ∈ front, isBracket character := by
    intro character member
    have isPrefix : front <+: shape.opening := by
      rw [Shape.wrap, List.append_assoc] at split
      exact List.prefix_of_prefix_length_le ⟨_, split.symm⟩ ⟨_, rfl⟩
        (Nat.le_of_lt inOpening)
    exact Shape.isBracket_of_mem_opening character (isPrefix.subset member)
  have short : shape.opening.length ≤ 2 := by cases shape <;> decide
  cases front with
  | nil => exact Or.inl rfl
  | cons half front =>
      have empty : front = [] := by
        apply List.eq_nil_of_length_eq_zero
        rw [List.length_cons] at inOpening
        omega
      exact Or.inr ⟨half, by rw [empty], opener half (by simp)⟩

theorem opening_isPrefix_wrap {shape other : Shape} {label rest : Text}
    (fits : labelFits label)
    (begins : other.opening <+: shape.wrap label ++ rest) :
    other = shape ∨ shape.isDouble ∧ other.isDouble = false := by
  obtain ⟨initial, label, rfl⟩ :=
    List.exists_cons_of_ne_nil (ne_nil_of_labelFits fits)
  have plain := not_isBracket_of_labelFits fits (List.mem_cons_self)
  simp only [isBracket, List.contains_cons, List.contains_nil,
    Bool.or_eq_false_iff, beq_eq_false_iff_ne, ne_eq, @eq_comm _ initial]
    at plain
  cases shape <;> cases other <;>
    simp_all [Shape.opening, Shape.wrap, Shape.isDouble, List.prefix_cons_iff]

namespace Pattern

variable {id : Text}

/-- Whether a label is the one that is read in front of `after`. -/
def IsReadable (shape : Shape) (label after : Text) : Prop :=
  if shape.isDouble then
    label ≠ [] ∧ '\n' ∉ label ∧
      ∀ shorter character more, label = shorter ++ character :: more →
        shorter ≠ [] →
        ¬shape.closing <+: character :: more ++ shape.closing ++ after
  else
    ∀ character ∈ label, character ∉ shape.opening ∧ character ∉ shape.closing

theorem literal_eq_none_iff {word : Text} {place : Place} :
    literal word place = none ↔ ¬word <+: place.after := by
  constructor
  · intro fails isPrefix
    obtain ⟨rest, split⟩ := isPrefix
    have read :
        literal word place = some ((), ⟨word.reverse ++ place.before, rest⟩) :=
      literal_eq_some_iff.mpr ⟨rest, split.symm, rfl⟩
    rw [fails] at read
    cases read
  · intro absent
    cases read : literal word place with
    | none => rfl
    | some found =>
        obtain ⟨rest, split, _⟩ := literal_eq_some_iff.mp read
        exact absurd ⟨rest, split.symm⟩ absent

theorem labelAndClosing_eq_some_iff {shape : Shape} {place stop : Place}
    {label : Text} :
    labelAndClosing shape place = some (label, stop) ↔
      ∃ after, place.after = label ++ shape.closing ++ after ∧
        IsReadable shape label after ∧
        stop = ⟨(label ++ shape.closing).reverse ++ place.before, after⟩ := by
  by_cases double : shape.isDouble
  · have lazily : labelAndClosing shape =
        shortestBefore (· != '\n') (literal shape.closing) := by
      rw [labelAndClosing, if_pos double]
      rfl
    rw [lazily, shortestBefore_eq_some_iff]
    simp only [IsReadable, if_pos double, literal_eq_none_iff]
    constructor
    · intro parts
      obtain ⟨rest, split, nonempty, within, ⟨_, closes⟩, minimal⟩ := parts
      obtain ⟨after, restEq, stopEq⟩ := literal_eq_some_iff.mp closes
      change rest = shape.closing ++ after at restEq
      subst restEq
      refine ⟨after, by simp [split], ⟨nonempty, ?_, ?_⟩, by simp [stopEq]⟩
      · intro lineFeed
        simpa using within '\n' lineFeed
      · intro shorter character more cut inside
        simpa using minimal shorter character more cut inside
    · intro parts
      obtain ⟨after, split, ⟨nonempty, within, minimal⟩, stopEq⟩ := parts
      refine ⟨shape.closing ++ after, by simp [split], nonempty,
        bne_of_not_mem within, ⟨(), ?_⟩, ?_⟩
      · exact literal_eq_some_iff.mpr ⟨after, rfl, by simp [stopEq]⟩
      · intro shorter character more cut inside
        simpa using minimal shorter character more cut inside
  · rw [labelAndClosing, if_neg double]
    simp only [IsReadable, if_neg double, bind_eq_some_iff,
      run_eq_some_iff_split, literal_eq_some_iff, pure_eq_some_iff]
    constructor
    · intro parts
      obtain ⟨passed, middle, ⟨rest, split, within, _, middleEq⟩, _, _,
        ⟨after, restEq, lastEq⟩, same, stopEq⟩ := parts
      subst same middleEq
      change rest = shape.closing ++ after at restEq
      refine ⟨after, by simp [split, restEq], ?_, by simp [← stopEq, lastEq]⟩
      intro character member
      simpa using within character member
    · intro parts
      obtain ⟨after, split, within, stopEq⟩ := parts
      refine ⟨label, _, ⟨shape.closing ++ after, by simp [split], ?_, ?_, rfl⟩,
        (), stop, ⟨after, rfl, by simp [stopEq]⟩, rfl, rfl⟩
      · intro character member
        simpa using within character member
      · obtain ⟨bracket, more, closingEq, _⟩ := shape.exists_closing_eq_cons
        simp [closingEq]

/-- A label that fits is read back between the brackets of any shape. -/
theorem isReadable_of_labelFits {shape : Shape} {label : Text}
    (fits : labelFits label) (after : Text) :
    IsReadable shape label after := by
  by_cases double : shape.isDouble
  · rw [IsReadable, if_pos double]
    refine ⟨ne_nil_of_labelFits fits, ?_, ?_⟩
    · intro lineFeed
      have impossible := not_isLineBreak_of_labelFits fits lineFeed
      cases impossible
    · intro shorter character more cut _ parts
      obtain ⟨rest, begins⟩ := parts
      obtain ⟨bracket, closers, closingEq, closes⟩ :=
        shape.exists_closing_eq_cons
      have member : character ∈ label := by simp [cut]
      have plain := not_isBracket_of_labelFits fits member
      rw [closingEq] at begins
      have same : bracket = character := (List.cons.inj begins).1
      rw [← same, closes] at plain
      cases plain
  · rw [IsReadable, if_neg double]
    intro character member
    exact Shape.not_mem_of_not_isBracket
      (not_isBracket_of_labelFits fits member)

theorem definition_cut_iff {shape : Shape} {before after label : Text}
    {stop : Place} :
    definition id shape ⟨before.reverse, after⟩ = some (label, stop) ↔
      standsApart before id ∧
        ∃ space rest, after = id ++ space ++ shape.wrap label ++ rest ∧
          (∀ character ∈ space, Text.isSpace character) ∧
          IsReadable shape label rest ∧
          stop = ⟨(before ++ id ++ space ++ shape.wrap label).reverse,
            rest⟩ := by
  obtain ⟨bracket, more, openingEq, opens⟩ := shape.exists_opening_eq_cons
  have visible := not_isSpace_of_isBracket (isBracket_of_opensLabel opens)
  simp only [definition, bind_eq_some_iff, identifier_cut_iff,
    run_eq_some_iff_split, literal_eq_some_iff, labelAndClosing_eq_some_iff]
  constructor
  · intro parts
    obtain ⟨_, _, ⟨apart, behind, split, middleEq⟩, space, _,
      ⟨spaced, behindEq, spaces, _, spacedEq⟩, _, _, ⟨inner, innerEq, openedEq⟩,
      rest, restEq, readable, stopEq⟩ := parts
    subst middleEq
    subst spacedEq
    subst openedEq
    change behind = space ++ spaced at behindEq
    change spaced = shape.opening ++ inner at innerEq
    change inner = label ++ shape.closing ++ rest at restEq
    refine ⟨apart, space, rest, ?_, spaces, readable, ?_⟩
    · simp [split, behindEq, innerEq, restEq, Shape.wrap]
    · simp [stopEq, Shape.wrap]
  · intro parts
    obtain ⟨apart, space, rest, split, spaces, readable, stopEq⟩ := parts
    refine ⟨(), _,
      ⟨apart, space ++ shape.wrap label ++ rest, by simp [split], rfl⟩, space,
      _, ⟨shape.wrap label ++ rest, by simp, spaces, ?_, rfl⟩, (), _,
      ⟨label ++ shape.closing ++ rest, by simp [Shape.wrap], rfl⟩, rest, rfl,
      readable, ?_⟩
    · simp [Shape.wrap, openingEq, visible]
    · simp [stopEq, Shape.wrap]

theorem directlyAfter_cut_iff {written before after : Text} {found : Region}
    {stop : Place} :
    directlyAfter id written ⟨before.reverse, after⟩ = some (found, stop) ↔
      standsApart before id ∧
        ∃ rest, after = id ++ written ++ rest ∧
          stop = ⟨(before ++ id ++ written).reverse, rest⟩ ∧
          found = ⟨⟨(before ++ id).reverse, written ++ rest⟩, stop⟩ := by
  simp only [directlyAfter, bind_eq_some_iff, identifier_cut_iff,
    region_eq_some_iff, literal_eq_some_iff]
  constructor
  · intro parts
    obtain ⟨_, _, ⟨apart, behind, split, middleEq⟩, ⟨rest, behindEq, stopEq⟩,
      foundEq⟩ := parts
    subst middleEq
    change behind = written ++ rest at behindEq
    exact ⟨apart, rest, by simp [split, behindEq], by simp [stopEq],
      by simp [foundEq, behindEq]⟩
  · intro parts
    obtain ⟨apart, rest, split, stopEq, foundEq⟩ := parts
    exact ⟨(), _, ⟨apart, written ++ rest, by simp [split], rfl⟩,
      ⟨rest, rfl, by simp [stopEq]⟩, foundEq⟩

theorem spacedAfter_cut_iff {written before after : Text} {found : Region}
    {stop : Place}
    (visible : ∀ rest, (written ++ rest).head?.all (!Text.isSpace ·)) :
    spacedAfter id written ⟨before.reverse, after⟩ = some (found, stop) ↔
      standsApart before id ∧
        ∃ space rest, after = id ++ space ++ written ++ rest ∧
          (∀ character ∈ space, Text.isSpace character) ∧
          stop = ⟨(before ++ id ++ space ++ written).reverse, rest⟩ ∧
          found =
            ⟨⟨(before ++ id ++ space).reverse, written ++ rest⟩, stop⟩ := by
  simp only [spacedAfter, bind_eq_some_iff, identifier_cut_iff,
    region_eq_some_iff, literal_eq_some_iff, run_eq_some_iff_split]
  constructor
  · intro parts
    obtain ⟨_, _, ⟨apart, behind, split, middleEq⟩, space, _,
      ⟨spaced, behindEq, spaces, _, spacedEq⟩, ⟨rest, restEq, stopEq⟩,
      foundEq⟩ := parts
    subst middleEq
    subst spacedEq
    change behind = space ++ spaced at behindEq
    change spaced = written ++ rest at restEq
    exact ⟨apart, space, rest, by simp [split, behindEq, restEq], spaces,
      by simp [stopEq], by simp [foundEq, restEq]⟩
  · intro parts
    obtain ⟨apart, space, rest, split, spaces, stopEq, foundEq⟩ := parts
    exact ⟨(), _, ⟨apart, space ++ written ++ rest, by simp [split], rfl⟩,
      space, _, ⟨written ++ rest, by simp, spaces, visible rest, rfl⟩,
      ⟨rest, rfl, by simp [stopEq]⟩, by simp [foundEq]⟩

end Pattern

/-- The identifier can be read between two parts of a text, in front of white
space and an opening bracket. -/
structure IsSite (id before after : Text) : Prop where
  apart : standsApart before id
  opens : ∃ space bracket rest, after = id ++ space ++ bracket :: rest ∧
    (∀ character ∈ space, Text.isSpace character) ∧ opensLabel bracket

theorem isSite_of_wrap {id before space : Text} (apart : standsApart before id)
    (spaces : ∀ character ∈ space, Text.isSpace character) (shape : Shape)
    (label rest : Text) :
    IsSite id before (id ++ space ++ shape.wrap label ++ rest) := by
  obtain ⟨bracket, more, openingEq, opens⟩ := shape.exists_opening_eq_cons
  refine ⟨apart, space, bracket, more ++ label ++ shape.closing ++ rest, ?_,
    spaces, opens⟩
  simp [Shape.wrap, openingEq]

theorem Pattern.definition_eq_none_of_not_isSite {id before after : Text}
    (absent : ¬IsSite id before after) (shape : Shape) :
    definition id shape ⟨before.reverse, after⟩ = none := by
  cases read : definition id shape ⟨before.reverse, after⟩ with
  | none => rfl
  | some found =>
      obtain ⟨label, stop⟩ := found
      obtain ⟨apart, space, rest, split, spaces, _, _⟩ :=
        definition_cut_iff.mp read
      rw [split] at absent
      exact absurd (isSite_of_wrap apart spaces shape label rest) absent

section Definition

variable {id : Text}

theorem findDefinition_eq (nonempty : id ≠ []) (text : Text) :
    findDefinition text id = Shape.bySpecificity.findSome? fun shape =>
      ((Pattern.definition id shape).first? text).map fun label =>
        ⟨id, label, shape⟩ := by
  rw [findDefinition, if_neg (by simpa using nonempty)]

/-- What is found is written at a site. -/
theorem exists_of_findDefinition_eq_some {text : Text} {node : NodeDefinition}
    (found : findDefinition text id = some node) :
    id ≠ [] ∧ node.id = id ∧
      ∃ before space rest,
        text = before ++ id ++ space ++ node.shape.wrap node.label ++ rest ∧
          standsApart before id ∧
          ∀ character ∈ space, Text.isSpace character := by
  have nonempty : id ≠ [] := by
    intro empty
    rw [empty] at found
    cases found
  rw [findDefinition_eq nonempty] at found
  obtain ⟨shape, _, mapped⟩ := List.exists_of_findSome?_eq_some found
  obtain ⟨label, searched, nodeEq⟩ := Option.map_eq_some_iff.mp mapped
  obtain ⟨before, after, stop, split, read, _⟩ :=
    Pattern.first?_eq_some_iff.mp searched
  obtain ⟨apart, space, rest, afterEq, spaces, _, _⟩ :=
    Pattern.definition_cut_iff.mp read
  subst nodeEq
  exact ⟨nonempty, rfl, before, space, rest, by simp [split, afterEq], apart,
    spaces⟩

theorem findDefinition_eq_none_of_no_site {text : Text}
    (absent : ∀ before after, text = before ++ after →
      ¬IsSite id before after) :
    findDefinition text id = none := by
  cases found : findDefinition text id with
  | none => rfl
  | some node =>
      obtain ⟨_, _, before, space, rest, split, apart, spaces⟩ :=
        exists_of_findDefinition_eq_some found
      have site := isSite_of_wrap apart spaces node.shape node.label rest
      exact absurd site (absent before _ (by simp [split]))

/-- No other site of the identifier in the text. -/
def OnlySite (id before after : Text) : Prop :=
  ∀ left right, before ++ after = left ++ right → IsSite id left right →
    left = before

/-- A shape that has double brackets where the written one has reads only what
it wrote. -/
theorem Pattern.definition_eq_none_of_ne {before space label rest : Text}
    {shape other : Shape} (spaces : ∀ character ∈ space, Text.isSpace character)
    (fits : labelFits label) (different : other ≠ shape)
    (double : shape.isDouble → other.isDouble) :
    Pattern.definition id other
        ⟨before.reverse, id ++ space ++ shape.wrap label ++ rest⟩ = none := by
  cases read : Pattern.definition id other
      ⟨before.reverse, id ++ space ++ shape.wrap label ++ rest⟩ with
  | none => rfl
  | some found =>
      obtain ⟨otherLabel, stop⟩ := found
      obtain ⟨_, otherSpace, otherRest, split, otherSpaces, _, _⟩ :=
        Pattern.definition_cut_iff.mp read
      simp only [List.append_assoc, List.append_cancel_left_eq] at split
      have wraps :=
        (Pattern.eq_of_append_eq_append_of_stops split spaces otherSpaces
          (head?_wrap_all shape label rest)
          (head?_wrap_all other otherLabel otherRest)).2
      have begins : other.opening <+: shape.wrap label ++ rest := by
        rw [wraps]
        exact ⟨otherLabel ++ other.closing ++ otherRest, by simp [Shape.wrap]⟩
      rcases opening_isPrefix_wrap fits begins with same | ⟨isDouble, single⟩
      · exact absurd same different
      · rw [double isDouble] at single
        cases single

/-- A label that fits, at the only site of its identifier, is the one that is
found. -/
theorem findDefinition_eq_of_only {before space label rest : Text}
    {shape : Shape} (nonempty : id ≠ []) (apart : standsApart before id)
    (spaces : ∀ character ∈ space, Text.isSpace character)
    (fits : labelFits label)
    (only : OnlySite id before (id ++ space ++ shape.wrap label ++ rest)) :
    findDefinition (before ++ (id ++ space ++ shape.wrap label ++ rest)) id =
      some ⟨id, label, shape⟩ := by
  -- Every search can only end at the site, and the shapes tried before do not
  -- fit there.
  have searches : ∀ other : Shape,
      (Pattern.definition id other).first?
          (before ++ (id ++ space ++ shape.wrap label ++ rest)) =
        (Pattern.definition id other
            ⟨before.reverse, id ++ space ++ shape.wrap label ++ rest⟩).map
          Prod.fst := by
    intro other
    apply Pattern.first?_eq_of_only
    intro left right split different
    apply Pattern.definition_eq_none_of_not_isSite
    intro site
    exact different (only left right split site)
  obtain ⟨earlier, later, order, before_shape⟩ := shape.bySpecificity_eq_append
  have fails : ∀ other ∈ earlier, Pattern.definition id other
      ⟨before.reverse, id ++ space ++ shape.wrap label ++ rest⟩ = none := by
    intro other member
    obtain ⟨different, double⟩ := before_shape other member
    exact Pattern.definition_eq_none_of_ne spaces fits different double
  have reads :
      Pattern.definition id shape
          ⟨before.reverse, id ++ space ++ shape.wrap label ++ rest⟩ =
        some (label,
          ⟨(before ++ id ++ space ++ shape.wrap label).reverse, rest⟩) :=
    Pattern.definition_cut_iff.mpr ⟨apart, space, rest, rfl, spaces,
      Pattern.isReadable_of_labelFits fits rest, rfl⟩
  have none_earlier : earlier.findSome? (fun other =>
      ((Pattern.definition id other).first?
        (before ++ (id ++ space ++ shape.wrap label ++ rest))).map
          fun found => (⟨id, found, other⟩ : NodeDefinition)) = none := by
    rw [List.findSome?_eq_none_iff]
    intro other member
    rw [searches, fails other member]
    rfl
  rw [findDefinition_eq nonempty, order, List.findSome?_append, none_earlier,
    Option.none_or, List.findSome?_cons, searches, reads]
  rfl

end Definition

end DiagramEdit
