import DiagramEdit.Proofs.Style.Property
import DiagramEdit.Proofs.Text.Passage

/-!
# The line of a directive

Whatever characters an identifier is made of: if a line is read as a directive
of it, then the indentation, `style`, the identifier and a body that begins with
something visible, each behind one blank, are read as a directive of it again,
and its line mentions it.
-/

namespace DiagramEdit

namespace Pattern

variable {id : Text}

theorem styleTarget_apart_iff {before after body : Text} {stop : Place}
    (apart : Text.endsInWord before = false) :
    styleTarget id ⟨before.reverse, after⟩ = some (body, stop) ↔
      fitsApart id ∧
        ∃ separator, after = id ++ separator :: body ∧ Text.isSpace separator ∧
          stop = ⟨(before ++ id ++ separator :: body).reverse, []⟩ := by
  simp only [styleTarget, bind_eq_some_iff, one_eq_some_iff, remainder,
    run_eq_some_iff_split]
  constructor
  · intro parts
    obtain ⟨_, middle, word, separator, _, ⟨space, behind, middleEq, rfl⟩, last,
      behindEq, _, stops, stopEq⟩ := parts
    obtain ⟨_, rest, split, rfl⟩ :=
      identifier_cut_iff.mp (wholeWord_eq_some_iff.mp word).1
    change rest = separator :: behind at middleEq
    change behind = body ++ last at behindEq
    cases last with
    | cons character last => simp at stops
    | nil =>
        rw [List.append_nil] at behindEq
        subst behindEq middleEq
        have fits := ((wholeWord_apart_iff apart space split).mp word).1
        exact ⟨fits, separator, split, space, by simp [stopEq]⟩
  · intro parts
    obtain ⟨fits, separator, split, space, stopEq⟩ := parts
    refine ⟨(), _, (wholeWord_apart_iff apart space split).mpr ⟨fits, rfl⟩,
      separator, _, ⟨space, body, rfl, rfl⟩, [], by simp, by simp, by simp,
      by simp [stopEq]⟩

/-- White space in front of an identifier cannot be longer than it is, if
something visible follows the one white space behind the identifier. -/
theorem eq_nil_of_space_append {more body rest : Text} {separator : Char}
    (spaces : ∀ character ∈ more, Text.isSpace character)
    (space : Text.isSpace separator)
    (visible : rest.head?.all (!Text.isSpace ·))
    (cut : more ++ (id ++ separator :: body) = id ++ ' ' :: rest) :
    more = [] := by
  have margin :
      ∀ character ∈ id.takeWhile Text.isSpace, Text.isSpace character :=
    fun _ member => List.mem_takeWhile_imp member
  have whole := List.takeWhile_append_dropWhile (p := Text.isSpace) (l := id)
  have stops := List.head?_dropWhile_not Text.isSpace id
  generalize id.takeWhile Text.isSpace = front at margin whole
  generalize id.dropWhile Text.isSpace = back at stops whole
  have longer : ∀ character ∈ more ++ front, Text.isSpace character := by
    intro character member
    rcases List.mem_append.mp member with inMore | inFront
    · exact spaces character inMore
    · exact margin character inFront
  rw [← whole] at cut
  cases back with
  | nil =>
      -- The identifier is blank: the runs of white space go on up to the two
      -- bodies.
      have bodySpaces :
          ∀ character ∈ body.takeWhile Text.isSpace, Text.isSpace character :=
        fun _ member => List.mem_takeWhile_imp member
      have bodyWhole :=
        List.takeWhile_append_dropWhile (p := Text.isSpace) (l := body)
      have bodyStops := Text.head?_trimStart body
      rw [Text.trimStart] at bodyStops
      rw [← bodyWhole] at cut
      have runs : (more ++ front ++ separator :: body.takeWhile Text.isSpace) ++
          body.dropWhile Text.isSpace = (front ++ [' ']) ++ rest := by
        simpa using cut
      have leftSpaces : ∀ character ∈
          more ++ front ++ separator :: body.takeWhile Text.isSpace,
          Text.isSpace character := by
        intro character member
        rcases List.mem_append.mp member with inLonger | inBody
        · exact longer character inLonger
        · rcases List.mem_cons.mp inBody with rfl | later
          · exact space
          · exact bodySpaces character later
      have rightSpaces :
          ∀ character ∈ front ++ [' '], Text.isSpace character := by
        intro character member
        rcases List.mem_append.mp member with inFront | blank
        · exact margin character inFront
        · rw [List.mem_singleton.mp blank]
          rfl
      have lengths := congrArg List.length
        (eq_of_append_eq_append_of_stops runs leftSpaces rightSpaces bodyStops
          visible).1
      simp only [List.length_append, List.length_cons, List.length_nil]
        at lengths
      exact List.length_eq_zero_iff.mp (by omega)
  | cons initial back =>
      have runs : (more ++ front) ++ (initial :: back ++ separator :: body) =
          front ++ (initial :: back ++ ' ' :: rest) := by
        simpa using cut
      have lengths :=
        congrArg List.length
          (eq_of_append_eq_append_of_stops runs longer margin
            (by simpa using stops) (by simpa using stops)).1
      rw [List.length_append] at lengths
      exact List.length_eq_zero_iff.mp (by omega)

/-- What a directive's line is made of. -/
theorem styleLine_cut {line indent body : Text}
    (read : (styleLine id).atStart? line = some (indent, body)) :
    fitsApart id ∧ (∀ character ∈ indent, Text.isSpace character) ∧
      ∃ space separator,
        line = indent ++ "style".toList ++ space ++ id ++ separator :: body ∧
          space ≠ [] ∧ (∀ character ∈ space, Text.isSpace character) ∧
          Text.isSpace separator := by
  simp only [atStart?, Option.map_eq_some_iff, Prod.exists, styleLine_eq,
    bind_eq_some_iff, pure_eq_some_iff, Prod.mk.injEq] at read
  obtain ⟨_, _, _,
    ⟨found, _, margin, _, _, word, _, _, target, ⟨rfl, rfl⟩, rfl⟩, rfl, rfl⟩ :=
    read
  obtain ⟨passesMargin, indents⟩ := passes_run margin
  obtain ⟨space, middle, nonempty, passesSpace, spaces, target⟩ :=
    passes_afterSpace target
  have front := (passesMargin.append (passes_literal word)).append passesSpace
  have split : line = _ := front.after
  have apart :=
    Text.endsInWord_append_space (found ++ "style".toList) nonempty spaces
  rw [front.stop_eq] at target
  obtain ⟨fits, separator, middleEq, isSpace, _⟩ :=
    (styleTarget_apart_iff apart).mp target
  refine ⟨fits, indents, space, separator, ?_, nonempty, spaces, isSpace⟩
  simp only [split, middleEq, List.append_assoc]

theorem exists_styleLine (fits : fitsApart id) {indent space body : Text}
    {separator : Char} (indents : ∀ character ∈ indent, Text.isSpace character)
    (nonempty : space ≠ [])
    (spaces : ∀ character ∈ space, Text.isSpace character)
    (isSpace : Text.isSpace separator) :
    ∃ found,
      (styleLine id).atStart?
          (indent ++ "style".toList ++ space ++ id ++ separator :: body) =
        some (indent, found) := by
  obtain ⟨first, more, rfl⟩ := List.exists_cons_of_ne_nil nonempty
  have apart :=
    Text.endsInWord_append_space (indent ++ "style".toList) nonempty spaces
  have target :
      (styleTarget id ⟨more.reverse ++
          (indent ++ "style".toList ++ [first]).reverse,
        id ++ separator :: body⟩).isSome := by
    have place : more.reverse ++ (indent ++ "style".toList ++ [first]).reverse =
        (indent ++ "style".toList ++ first :: more).reverse := by
      simp
    rw [place,
      (styleTarget_apart_iff apart).mpr ⟨fits, separator, rfl, isSpace, rfl⟩]
    rfl
  have longest :=
    exists_longestThen
      (fun character member => spaces character (List.mem_cons_of_mem _ member))
      target
  obtain ⟨⟨⟨passed, found⟩, stop⟩, longest⟩ :=
    Option.isSome_iff_exists.mp longest
  refine ⟨found, ?_⟩
  simp only [atStart?, Option.map_eq_some_iff, Prod.exists, styleLine_eq,
    bind_eq_some_iff, run_eq_some_iff_split, literal_eq_some_iff, afterSpace,
    one_eq_some_iff, pure_eq_some_iff]
  refine ⟨indent, found, stop,
    ⟨indent, _,
      ⟨"style".toList ++ first :: more ++ id ++ separator :: body, by simp,
        indents, by rfl, rfl⟩, (), _,
      ⟨first :: more ++ id ++ separator :: body, by simp, rfl⟩, found, stop,
      ⟨first, _,
        ⟨spaces first (by simp), more ++ id ++ separator :: body, by simp, rfl⟩,
        passed, found, stop, ?_, rfl, rfl⟩, rfl, rfl⟩, rfl⟩
  simpa using longest

theorem styleLine_written (fits : fitsApart id) {indent rest : Text}
    (indents : ∀ character ∈ indent, Text.isSpace character)
    (visible : rest.head?.all (!Text.isSpace ·)) :
    (styleLine id).atStart? (indent ++ "style ".toList ++ id ++ ' ' :: rest) =
      some (indent, rest) := by
  have keyword : "style ".toList = "style".toList ++ [' '] := rfl
  have apart : Text.endsInWord (indent ++ "style ".toList) = false := by
    rw [keyword, ← List.append_assoc]
    exact Text.endsInWord_append_space _ (List.cons_ne_nil _ _)
      (List.all_eq_true.mp rfl)
  have target : ∃ stop,
      styleTarget id ⟨(indent ++ "style ".toList).reverse, id ++ ' ' :: rest⟩ =
        some (rest, stop) :=
    ⟨_, (styleTarget_apart_iff apart).mpr ⟨fits, ' ', rfl, rfl, rfl⟩⟩
  obtain ⟨stop, target⟩ := target
  have stops : ∀ more behind, id ++ ' ' :: rest = more ++ behind → more ≠ [] →
      (∀ character ∈ more, Text.isSpace character) →
      styleTarget id
        ⟨more.reverse ++ (indent ++ "style ".toList).reverse, behind⟩ =
          none := by
    intro more behind cut nonempty spaces
    cases read : styleTarget id
      ⟨more.reverse ++ (indent ++ "style ".toList).reverse, behind⟩ with
    | none => rfl
    | some found =>
        obtain ⟨body, last⟩ := found
        have moreApart :=
          Text.endsInWord_append_space (indent ++ "style ".toList) nonempty
            spaces
        rw [← List.reverse_append] at read
        obtain ⟨_, separator, behindEq, isSpace, _⟩ :=
          (styleTarget_apart_iff moreApart).mp read
        rw [behindEq] at cut
        have empty := eq_nil_of_space_append spaces isSpace visible cut.symm
        exact absurd empty nonempty
  have longest : longestThen Text.isSpace (styleTarget id) _ = _ :=
    longestThen_of_stops target stops
  simp only [atStart?, Option.map_eq_some_iff, Prod.exists, styleLine_eq,
    bind_eq_some_iff, run_eq_some_iff_split, literal_eq_some_iff, afterSpace,
    one_eq_some_iff, pure_eq_some_iff]
  refine ⟨indent, rest, stop,
    ⟨indent, _,
      ⟨"style ".toList ++ id ++ ' ' :: rest, by simp, indents, by rfl, rfl⟩, (),
      _, ⟨' ' :: (id ++ ' ' :: rest), by rw [keyword]; simp, rfl⟩, rest, stop,
      ⟨' ', _, ⟨rfl, id ++ ' ' :: rest, rfl, rfl⟩, [], rest, stop, ?_, rfl,
        rfl⟩, rfl, rfl⟩, rfl⟩
  simpa [keyword] using longest

end Pattern

end DiagramEdit
