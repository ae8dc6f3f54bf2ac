import DiagramEdit.Proofs.Node.Replacement

/-!
# What stands beside a written label

Where an identifier and a label without brackets are written, the identifier's
other places lie in front of it or behind it.  Behind it they are what they are
in the text that follows; in front of it a place is closed before it, or it
reaches over it.
-/

namespace DiagramEdit

/-- An identifier that is neither blank nor holds a bracket. -/
structure IsBare (id : Text) : Prop where
  visible : Text.isBlank id = false
  noBracket : ∀ character ∈ id, isBracket character = false

/-- A letter or an underscore in ASCII, then word characters of any script. -/
def isWordIdentifier (id : Text) : Bool :=
  id.head?.any startsIdentifier && id.all Text.isWordCharacter

theorem isWordIdentifier_iff {id : Text} :
    isWordIdentifier id ↔
      id.head?.any startsIdentifier ∧
        ∀ character ∈ id, Text.isWordCharacter character := by
  simp only [isWordIdentifier, Bool.and_eq_true, List.all_eq_true]

theorem isWordIdentifier_of_isIdentifier {id : Text}
    (identifies : isIdentifier id) :
    isWordIdentifier id :=
  isWordIdentifier_iff.mpr ⟨head?_identifier identifies,
    fun _ member => isWordCharacter_of_mem_identifier identifies member⟩

theorem isBare_of_isWordIdentifier {id : Text}
    (identifies : isWordIdentifier id) :
    IsBare id := by
  obtain ⟨starts, word⟩ := isWordIdentifier_iff.mp identifies
  constructor
  · cases id with
    | nil => cases starts
    | cons initial rest =>
        have visible :=
          Text.not_isSpace_of_isWordCharacter (word initial (by simp))
        simp [Text.isBlank, visible]
  · intro character member
    exact not_isBracket_of_isWordCharacter (word character member)

section Cuts

variable {left word front rest : Text} {character : Char}

/-- What holds a character apart from a word at its end holds it in front of the
word. -/
theorem exists_eq_append_cons_of_not_mem (absent : character ∉ word)
    (split : left ++ word = front ++ character :: rest) :
    ∃ more, left = front ++ character :: more ∧ rest = more ++ word := by
  rcases List.append_eq_append_iff.mp split with
    ⟨more, _, wordEq⟩ | ⟨more, leftEq, restEq⟩
  · exact absurd (by simp [wordEq]) absent
  · cases more with
    | nil =>
        exact absurd (by simp [← show character :: rest = word from restEq])
          absent
    | cons first more =>
        obtain ⟨rfl, tailEq⟩ := List.cons.inj restEq
        exact ⟨more, leftEq, tailEq⟩

theorem exists_eq_append_of_not_mem (absent : character ∉ word)
    (split : word ++ left = front ++ character :: rest) :
    ∃ more, front = word ++ more ∧ left = more ++ character :: rest := by
  rcases List.append_eq_append_iff.mp split with
    ⟨more, frontEq, leftEq⟩ | ⟨more, wordEq, restEq⟩
  · exact ⟨more, frontEq, leftEq⟩
  · cases more with
    | nil => exact ⟨[], by simpa using wordEq.symm, by simpa using restEq.symm⟩
    | cons first more =>
        obtain ⟨rfl, _⟩ := List.cons.inj restEq
        exact absurd (by simp [wordEq]) absent

theorem exists_eq_append_of_isBracket {brackets after : Text}
    (closed : ∀ character ∈ brackets, isBracket character)
    (plain : isBracket character = false)
    (split : brackets ++ after = front ++ character :: rest) :
    ∃ more, front = brackets ++ more ∧ after = more ++ character :: rest := by
  apply exists_eq_append_of_not_mem ?_ split
  intro member
  rw [closed character member] at plain
  cases plain

end Cuts

namespace IsBare

variable {id : Text}

theorem ne_nil (bare : IsBare id) : id ≠ [] := by
  intro empty
  have visible := bare.visible
  rw [empty] at visible
  cases visible

theorem not_mem_lead (bare : IsBare id) {space : Text}
    (spaces : ∀ character ∈ space, Text.isSpace character) {bracket : Char}
    (brackets : isBracket bracket) : bracket ∉ id ++ space := by
  intro member
  rcases List.mem_append.mp member with inId | inSpace
  · have plain := bare.noBracket bracket inId
    rw [brackets] at plain
    cases plain
  · have plain := not_isBracket_of_isSpace (spaces bracket inSpace)
    rw [brackets] at plain
    cases plain

theorem before_unique (bare : IsBare id) {before before' space space' : Text}
    (spaces : ∀ character ∈ space, Text.isSpace character)
    (spaces' : ∀ character ∈ space', Text.isSpace character)
    (equality : before ++ id ++ space = before' ++ id ++ space') :
    before = before' := by
  have trimmed := congrArg Text.trimEnd equality
  rw [Text.trimEnd_append_of_isSpace spaces,
    Text.trimEnd_append_of_isSpace spaces',
    Text.trimEnd_append_of_not_isBlank bare.visible,
    Text.trimEnd_append_of_not_isBlank bare.visible] at trimmed
  exact List.append_cancel_right trimmed

theorem exists_left_eq (bare : IsBare id) {left space front rest : Text}
    (spaces : ∀ character ∈ space, Text.isSpace character) {bracket : Char}
    (brackets : isBracket bracket)
    (split : left ++ id ++ space = front ++ bracket :: rest) :
    ∃ more, left = front ++ bracket :: more ∧ rest = more ++ id ++ space := by
  rw [List.append_assoc] at split
  obtain ⟨more, leftEq, restEq⟩ :=
    exists_eq_append_cons_of_not_mem (bare.not_mem_lead spaces brackets) split
  exact ⟨more, leftEq, by rw [restEq, List.append_assoc]⟩

theorem ne_append_bracket (bare : IsBare id) {left space front : Text}
    (spaces : ∀ character ∈ space, Text.isSpace character) {bracket : Char}
    (brackets : isBracket bracket) :
    left ++ id ++ space ≠ front ++ [bracket] := by
  intro split
  obtain ⟨between, _, empty⟩ := bare.exists_left_eq spaces brackets split
  have nothing : between ++ id = [] := (List.append_eq_nil_iff.mp empty.symm).1
  exact bare.ne_nil (List.append_eq_nil_iff.mp nothing).2

/-- The sites of an identifier in a text where a label is written for it. -/
theorem site_cases (bare : IsBare id)
    {before space label rest left right : Text} {shape : Shape}
    (spaces : ∀ character ∈ space, Text.isSpace character)
    (plain : ∀ character ∈ label, isBracket character = false)
    (split : before ++ id ++ space ++ shape.wrap label ++ rest = left ++ right)
    (site : IsSite id left right) :
    (∃ otherSpace bracket more,
        (∀ character ∈ otherSpace, Text.isSpace character) ∧
          opensLabel bracket ∧
          before = left ++ id ++ otherSpace ++ bracket :: more) ∨
      left = before ∨
      ∃ more, left = before ++ id ++ space ++ shape.wrap label ++ more ∧
        rest = more ++ right := by
  obtain ⟨otherSpace, bracket, tail, rightEq, otherSpaces, opens⟩ := site.opens
  have brackets := isBracket_of_opensLabel opens
  obtain ⟨opener, middle, closer, wrapEq, _, closes⟩ :=
    shape.exists_wrap_eq label
  have cut : before ++ id ++ space ++ (shape.wrap label ++ rest) =
      left ++ id ++ otherSpace ++ bracket :: tail := by
    rw [← List.append_assoc, split, rightEq]
    simp
  -- The bracket of the site stands behind the beginning of the written ones, or
  -- not.
  rcases List.append_eq_append_iff.mp cut with
    ⟨further, leftEq, wrapsEq⟩ | ⟨further, leadEq, tailEq⟩
  · rcases List.append_eq_append_iff.mp wrapsEq with
      ⟨more, furtherEq, restEq⟩ | ⟨more, wrapSplit, moreEq⟩
    · have position : left ++ id ++ otherSpace =
          (before ++ id ++ space ++ opener :: middle) ++ closer :: more := by
        rw [leftEq, furtherEq, wrapEq]
        simp
      obtain ⟨between, leftEq', moreEq⟩ :=
        bare.exists_left_eq otherSpaces closes position
      right; right
      refine ⟨between, by rw [leftEq', wrapEq]; simp, ?_⟩
      rw [restEq, moreEq, rightEq]
      simp
    · cases more with
      | nil =>
          have position : left ++ id ++ otherSpace =
              (before ++ id ++ space ++ opener :: middle) ++ [closer] := by
            rw [leftEq, ← List.append_nil further, ← wrapSplit, wrapEq]
            simp
          exact absurd position (bare.ne_append_bracket otherSpaces closes)
      | cons first more =>
          obtain ⟨rfl, _⟩ := List.cons.inj moreEq
          rcases eq_of_wrap_eq_append_opener plain opens wrapSplit with
            empty | ⟨half, halfEq, isHalf⟩
          · rw [empty, List.append_nil] at leftEq
            exact Or.inr (Or.inl (bare.before_unique otherSpaces spaces leftEq))
          · rw [halfEq] at leftEq
            exact absurd leftEq (bare.ne_append_bracket otherSpaces isHalf)
  · cases further with
    | nil =>
        rw [List.append_nil] at leadEq
        exact Or.inr
          (Or.inl (bare.before_unique otherSpaces spaces leadEq.symm))
    | cons first further =>
        obtain ⟨rfl, _⟩ := List.cons.inj tailEq
        obtain ⟨more, beforeEq, _⟩ := bare.exists_left_eq spaces brackets leadEq
        exact Or.inl ⟨otherSpace, bracket, more, otherSpaces, opens, beforeEq⟩

end IsBare

theorem Shape.opensLabel_of_mem_opening {shape : Shape} :
    ∀ character ∈ shape.opening, opensLabel character := by
  have table : shape.opening.all opensLabel := by cases shape <;> rfl
  exact List.all_eq_true.mp table

section Places

variable {id : Text}

theorem standsApart_append_cons {front before : Text} {bracket : Char}
    (brackets : isBracket bracket) :
    standsApart (front ++ bracket :: before) id = standsApart before id := by
  rw [standsApart,
    Text.endsInWord_append_cons (not_isWordCharacter_of_isBracket brackets)]
  rfl

/-- Behind written brackets an identifier is read as at the beginning of a
text. -/
theorem standsApart_wrap_append (lead written before : Text) (shape : Shape) :
    standsApart (lead ++ shape.wrap written ++ before) id =
      standsApart before id := by
  obtain ⟨opener, middle, closer, wrapEq, _, closes⟩ :=
    shape.exists_wrap_eq written
  have position : lead ++ shape.wrap written ++ before =
      (lead ++ opener :: middle) ++ closer :: before := by
    simp [wrapEq]
  rw [position, standsApart_append_cons closes]

theorem Defines.of_front {before elsewhere label : Text} {shape : Shape}
    (defines : Defines before id shape elsewhere label)
    (space written rest : Text) :
    Defines (before ++ id ++ space ++ written ++ rest) id shape elsewhere
      label := by
  obtain ⟨otherSpace, otherRest, split, otherSpaces⟩ := defines.written
  refine ⟨defines.apart, defines.admitted, otherSpace,
    otherRest ++ id ++ space ++ written ++ rest, ?_, otherSpaces⟩
  rw [split]
  simp only [List.append_assoc]

/-- Behind written brackets a place is one of the text that follows them. -/
theorem defines_behind_iff {lead written rest before label : Text}
    {shape other : Shape} :
    Defines (lead ++ shape.wrap written ++ rest) id other
        (lead ++ shape.wrap written ++ before) label ↔
      Defines rest id other before label := by
  constructor
  · intro defines
    obtain ⟨space, after, split, spaces⟩ := defines.written
    have apart := defines.apart
    rw [standsApart_wrap_append] at apart
    refine ⟨apart, defines.admitted, space, after, ?_, spaces⟩
    simpa only [List.append_assoc, List.append_cancel_left_eq] using split
  · intro defines
    obtain ⟨space, after, split, spaces⟩ := defines.written
    refine ⟨?_, defines.admitted, space, after, by simp [split], spaces⟩
    rw [standsApart_wrap_append]
    exact defines.apart

theorem definesShortest_of_wrap {before space label : Text} {shape : Shape}
    (apart : standsApart before id)
    (spaces : ∀ character ∈ space, Text.isSpace character)
    (fits : labelFits label) (rest : Text) :
    DefinesShortest (before ++ id ++ space ++ shape.wrap label ++ rest) id shape
      before label := by
  obtain ⟨admitted, shortest⟩ :=
    (isReadable_iff apart rfl spaces).mp
      (Pattern.isReadable_of_labelFits fits rest)
  exact ⟨⟨apart, admitted, space, rest, rfl, spaces⟩, shortest⟩

/-- Where a label that fits is written only its shape and half of it can be
read. -/
theorem Defines.shape_cases {before space label rest otherLabel : Text}
    {shape other : Shape} (spaces : ∀ character ∈ space, Text.isSpace character)
    (fits : labelFits label)
    (defines : Defines (before ++ id ++ space ++ shape.wrap label ++ rest) id
      other before otherLabel) :
    other = shape ∨ shape.isDouble ∧ other.isDouble = false := by
  obtain ⟨otherSpace, otherRest, split, otherSpaces⟩ := defines.written
  have cut : space ++ (shape.wrap label ++ rest) =
      otherSpace ++ (other.wrap otherLabel ++ otherRest) := by
    simpa only [List.append_assoc, List.append_cancel_left_eq] using split
  have wraps :=
    (Pattern.eq_of_append_eq_append_of_stops cut spaces otherSpaces
      (head?_wrap_all shape label rest)
      (head?_wrap_all other otherLabel otherRest)).2
  have begins : other.opening <+: shape.wrap label ++ rest := by
    rw [wraps]
    exact ⟨otherLabel ++ other.closing ++ otherRest, by simp [Shape.wrap]⟩
  exact opening_isPrefix_wrap fits begins

/-- Where a bracket behind the identifier opens in front of a word, all opening
brackets of what is read there do. -/
theorem IsBare.exists_opened (bare : IsBare id)
    {before behind elsewhere space more label : Text} {bracket : Char}
    {shape : Shape} (spaces : ∀ character ∈ space, Text.isSpace character)
    (opens : opensLabel bracket)
    (front : before = elsewhere ++ id ++ space ++ bracket :: more)
    (defines : Defines (before ++ (id ++ behind)) id shape elsewhere label) :
    ∃ inner after, before = elsewhere ++ id ++ space ++ shape.opening ++ inner ∧
      inner ++ (id ++ behind) = label ++ (shape.closing ++ after) := by
  obtain ⟨space', after, split, spaces'⟩ := defines.written
  obtain ⟨initial, word, idEq⟩ := List.exists_cons_of_ne_nil bare.ne_nil
  have noBracket : isBracket initial = false :=
    bare.noBracket initial (by simp [idEq])
  have visible := not_isSpace_of_isBracket (isBracket_of_opensLabel opens)
  have cut : space ++ bracket :: (more ++ (id ++ behind)) =
      space' ++ (shape.wrap label ++ after) := by
    rw [front] at split
    simpa only [List.append_assoc, List.append_cancel_left_eq, List.cons_append]
      using split
  have wraps := (Pattern.eq_of_append_eq_append_of_stops cut spaces spaces'
    (by simpa using visible) (head?_wrap_all shape label after)).2
  -- The identifier begins with no bracket, so the opening ones end in front of
  -- it.
  have begun : shape.opening ++ (label ++ (shape.closing ++ after)) =
      (bracket :: more) ++ initial :: (word ++ behind) := by
    simpa [Shape.wrap, idEq] using wraps.symm
  obtain ⟨inner, opened, innerEq⟩ :=
    exists_eq_append_of_isBracket Shape.isBracket_of_mem_opening noBracket begun
  refine ⟨inner, after, ?_, ?_⟩
  · rw [front, opened, List.append_assoc _ shape.opening]
  · rw [innerEq, idEq]
    rfl

/-- A label that begins in front of a written one ends in front of it or behind
it. -/
theorem IsBare.label_cases (bare : IsBare id)
    {inner space label rest otherLabel after : Text} {shape other : Shape}
    (spaces : ∀ character ∈ space, Text.isSpace character)
    (plain : ∀ character ∈ label, isBracket character = false)
    (cut : inner ++ (id ++ (space ++ shape.wrap label ++ rest)) =
      otherLabel ++ (other.closing ++ after)) :
    (∃ tail, inner = otherLabel ++ other.closing ++ tail) ∨
      ∃ tail,
        otherLabel = inner ++ id ++ space ++ shape.opening ++ label ++ tail ∧
          shape.closing ++ rest = tail ++ other.closing ++ after := by
  obtain ⟨closer, closers, closingEq, closes⟩ := other.exists_closing_eq_cons
  have inClosing : closer ∈ other.closing := by simp [closingEq]
  have absent : closer ∉ id ++ space ++ shape.opening ++ label := by
    intro member
    rcases List.mem_append.mp member with inFront | inLabel
    · rcases List.mem_append.mp inFront with inLead | inOpening
      · exact bare.not_mem_lead spaces closes inLead
      · have impossible := Shape.not_opensLabel_of_mem_closing inClosing
        rw [Shape.opensLabel_of_mem_opening closer inOpening] at impossible
        cases impossible
    · rw [plain closer inLabel] at closes
      cases closes
  rcases List.append_eq_append_iff.mp cut with ⟨reach, labelEq, writtenEq⟩ |
      ⟨reach, innerEq, closingSplit⟩
  · right
    have position :
        (id ++ space ++ shape.opening ++ label) ++ (shape.closing ++ rest) =
          reach ++ closer :: (closers ++ after) := by
      rw [closingEq] at writtenEq
      simpa [Shape.wrap] using writtenEq
    obtain ⟨tail, reachEq, tailEq⟩ :=
      exists_eq_append_of_not_mem absent position
    refine ⟨tail, ?_, ?_⟩
    · rw [labelEq, reachEq]
      simp
    · rw [tailEq, closingEq]
      simp
  · left
    obtain ⟨initial, word, idEq⟩ := List.exists_cons_of_ne_nil bare.ne_nil
    have noBracket : isBracket initial = false :=
      bare.noBracket initial (by simp [idEq])
    rw [idEq] at closingSplit
    obtain ⟨tail, reachEq, _⟩ := exists_eq_append_of_isBracket
      Shape.isBracket_of_mem_closing noBracket closingSplit
    exact ⟨tail, by rw [innerEq, reachEq, List.append_assoc]⟩

/-- A label that is opened in front of a written one, where the text is
`before`, and closed behind it, where the text is `rest`. -/
def ReachesOver (id before space : Text) (shape : Shape) (label rest : Text)
    (other : Shape) (elsewhere otherLabel : Text) : Prop :=
  ∃ otherSpace inner tail after,
    (∀ character ∈ otherSpace, Text.isSpace character) ∧
      before = elsewhere ++ id ++ otherSpace ++ other.opening ++ inner ∧
      otherLabel = inner ++ id ++ space ++ shape.opening ++ label ++ tail ∧
      shape.closing ++ rest = tail ++ other.closing ++ after

/-- A place in a text where a label is written is in front of it and closed
there, in front of it and reaches over it, the same, or behind it. -/
theorem IsBare.place_cases (bare : IsBare id)
    {before space label rest elsewhere otherLabel : Text} {shape other : Shape}
    (spaces : ∀ character ∈ space, Text.isSpace character)
    (plain : ∀ character ∈ label, isBracket character = false)
    (defines : Defines (before ++ id ++ space ++ shape.wrap label ++ rest) id
      other elsewhere otherLabel) :
    (elsewhere.length < before.length ∧
        (Defines before id other elsewhere otherLabel ∨
          ReachesOver id before space shape label rest other elsewhere
            otherLabel)) ∨ elsewhere = before ∨
      ∃ more, elsewhere = before ++ id ++ space ++ shape.wrap label ++ more ∧
        Defines rest id other more otherLabel := by
  obtain ⟨otherSpace, otherRest, split, otherSpaces⟩ := defines.written
  have site :=
    isSite_of_wrap defines.apart otherSpaces other otherLabel otherRest
  have cut : before ++ id ++ space ++ shape.wrap label ++ rest =
      elsewhere ++
        (id ++ otherSpace ++ other.wrap otherLabel ++ otherRest) := by
    rw [split]
    simp
  rcases bare.site_cases spaces plain cut site with
    ⟨frontSpace, bracket, more, frontSpaces, opens, front⟩ | here |
      ⟨more, leftEq, _⟩
  · have whole : before ++ id ++ space ++ shape.wrap label ++ rest =
        before ++ (id ++ (space ++ shape.wrap label ++ rest)) := by simp
    rw [whole] at defines
    obtain ⟨inner, after, beforeEq, innerEq⟩ :=
      bare.exists_opened frontSpaces opens front defines
    have shorter : elsewhere.length < before.length := by
      rw [front]
      simp only [List.length_append, List.length_cons]
      omega
    refine Or.inl ⟨shorter, ?_⟩
    rcases bare.label_cases spaces plain innerEq with
      ⟨tail, closed⟩ | ⟨tail, labelEq, restEq⟩
    · left
      refine ⟨defines.apart, defines.admitted, frontSpace, tail, ?_,
        frontSpaces⟩
      rw [beforeEq, closed]
      simp [Shape.wrap]
    · exact Or.inr
        ⟨frontSpace, inner, tail, after, frontSpaces, beforeEq, labelEq, restEq⟩
  · exact Or.inr (Or.inl here)
  · subst leftEq
    exact Or.inr (Or.inr ⟨more, rfl, defines_behind_iff.mp defines⟩)

theorem IsBare.front_cases (bare : IsBare id)
    {before space label rest elsewhere otherLabel : Text} {shape other : Shape}
    (spaces : ∀ character ∈ space, Text.isSpace character)
    (plain : ∀ character ∈ label, isBracket character = false)
    (defines : Defines (before ++ id ++ space ++ shape.wrap label ++ rest) id
      other elsewhere otherLabel) (front : elsewhere.length < before.length) :
    Defines before id other elsewhere otherLabel ∨
      ReachesOver id before space shape label rest other elsewhere
        otherLabel := by
  rcases bare.place_cases spaces plain defines with
    ⟨_, inFront⟩ | here | ⟨more, elsewhereEq, _⟩
  · exact inFront
  · rw [here] at front
    exact absurd front (Nat.lt_irrefl _)
  · rw [elsewhereEq] at front
    simp only [List.length_append] at front
    omega

end Places

end DiagramEdit
