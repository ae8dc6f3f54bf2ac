import DiagramEdit.Proofs.Header
import DiagramEdit.Proofs.Mention

/-!
# When a deletion takes the header along

The header is the first line that is not blank, and a deletion spares the first
line of all.  They are the same line unless the text begins with a blank one:
then a header that mentions the deleted node goes like every other line that
does.
-/

namespace DiagramEdit

namespace Text

theorem trim_space_append {space : Text}
    (spaces : ∀ character ∈ space, isSpace character) (text : Text) :
    trim (space ++ text) = trim text := by
  rw [trim, trimStart_append_of_isSpace spaces, trim]

end Text

section HeaderLine

variable {line space rest : Text} {pieces : List Text}

theorem headerLine_space_append
    (spaces : ∀ character ∈ space, Text.isSpace character) (text : Text) :
    headerLine (space ++ text) = headerLine text := by
  rw [headerLine, Text.trim_space_append spaces, headerLine]

/-- A visible line that nothing but a line feed follows is the header. -/
theorem headerLine_append_of_visible (visible : Text.isBlank line = false)
    (oneLine : '\n' ∉ line) (breaks : rest.head?.all (· == '\n')) :
    headerLine (line ++ rest) = Text.trim line := by
  obtain ⟨space, split, spaces⟩ := Text.exists_append_trimStart line
  have starts := Text.head?_trimStart line
  have within :
      ∀ character ∈ Text.trimStart line, (character != '\n') = true := by
    rw [split] at oneLine
    exact Pattern.bne_of_not_mem fun member =>
      oneLine (List.mem_append_right _ member)
  have nonempty : Text.trimStart line ≠ [] := by
    intro empty
    have blank : Text.isBlank line := by
      rw [split, empty, List.append_nil]
      exact Text.isBlank_of_spaces spaces
    rw [visible] at blank
    cases blank
  have begins :
      Text.trimStart (line ++ rest) = Text.trimStart line ++ rest := by
    conv => lhs; rw
      [split, List.append_assoc, Text.trimStart_append_of_isSpace spaces]
    apply Text.trimStart_eq_self
    rw [List.head?_append_of_ne_nil _ nonempty]
    exact starts
  cases blank : Text.isBlank rest with
  | true =>
      have trimmed : Text.trim (line ++ rest) = Text.trim line := by
        rw [Text.trim, begins,
          Text.trimEnd_append_of_isSpace (List.all_eq_true.mp blank), Text.trim]
      have whole : (Text.trim line).takeWhile (· != '\n') = Text.trim line := by
        apply List.takeWhile_eq_self_iff.mpr
        intro character member
        exact within character ((Text.trimEnd_isPrefix _).subset member)
      rw [headerLine, trimmed, whole, Text.trim_trim]
  | false =>
      have stops :
          (Text.trimEnd rest).head?.all
            (fun character => !(character != '\n')) := by
        obtain ⟨first, more, ending⟩ :=
          List.exists_cons_of_ne_nil (Text.trimEnd_ne_nil blank)
        obtain ⟨tail, restEq⟩ := Text.trimEnd_isPrefix rest
        rw [ending] at restEq
        rw [← restEq] at breaks
        simpa [ending] using breaks
      have trimmed : Text.trim (line ++ rest) =
          Text.trimStart line ++ Text.trimEnd rest := by
        rw [Text.trim, begins, Text.trimEnd_append_of_not_isBlank blank]
      rw [headerLine, trimmed,
        (Pattern.takeWhile_append_of_stops within stops).1, Text.trim,
        Text.trimStart_eq_self starts, Text.trim]

/-- The header is the first line that is not blank. -/
theorem headerLine_joinLines (oneLine : ∀ line ∈ pieces, '\n' ∉ line) :
    headerLine (Text.joinLines pieces) =
      Text.trim ((pieces.find? (!Text.isBlank ·)).getD []) := by
  induction pieces with
  | nil => rfl
  | cons line pieces induction =>
      rw [Text.joinLines_cons]
      cases blank : Text.isBlank line with
      | false =>
          have breaks : (pieces.flatMap ('\n' :: ·)).head?.all (· == '\n') := by
            cases pieces <;> simp
          rw [headerLine_append_of_visible blank (oneLine line (by simp))
              breaks, List.find?_cons_of_pos (by simp [blank]),
            Option.getD_some]
      | true =>
          rw [headerLine_space_append (List.all_eq_true.mp blank),
            List.find?_cons_of_neg (by simp [blank]),
            ← induction fun other member => oneLine other (by simp [member])]
          cases pieces with
          | nil => rfl
          | cons next pieces =>
              have lineFeed : ∀ character ∈ ['\n'], Text.isSpace character :=
                List.all_eq_true.mp rfl
              rw [Text.joinLines_cons, List.flatMap_cons, List.cons_append,
                ← List.singleton_append, headerLine_space_append lineFeed]

theorem headerLine_eq (text : Text) :
    headerLine text =
      Text.trim (((Text.lines text).find? (!Text.isBlank ·)).getD []) := by
  have joined :=
    headerLine_joinLines fun line (member : line ∈ Text.lines text) =>
      Text.not_mem_of_mem_lines member
  rwa [Text.joinLines_lines] at joined

theorem detect_eq_of_headerLine {text other : Text}
    (same : headerLine text = headerLine other) :
    detect text = detect other := by
  rw [detect, declaredDialect?, same, detect, declaredDialect?]

end HeaderLine

/-- The header stands below a blank first line and mentions the node.  An
identifier with white space at one of its ends may be mentioned on one line and
not on another that reads the same; then the next line that stays must read
differently. -/
def LosesHeader (text id : Text) : Prop :=
  Text.isBlank id = false ∧ (Text.lines text).head?.any Text.isBlank ∧
    ∃ header rest, (Text.lines text).dropWhile Text.isBlank = header :: rest ∧
      mentions id header ∧
      (Text.trim id ≠ id →
        ∀ next ∈ rest.find?
          (fun line => !mentions id line && !Text.isBlank line),
          Text.trim next ≠ Text.trim header)

section DeleteNode

variable {text id first header : Text} {statements rest : List Text}

theorem lines_deleteNode (visible : Text.isBlank id = false)
    (cut : Text.lines text = first :: statements) :
    Text.lines (deleteNode text id) =
      first :: statements.filter (!mentions id ·) := by
  rw [deleteNode, if_neg (by simp [visible]), cut]
  apply Text.lines_joinLines (List.cons_ne_nil _ _)
  intro line member
  have inText : line ∈ Text.lines text := by
    rw [cut]
    exact (List.filter_sublist.cons_cons first).subset member
  exact Text.not_mem_of_mem_lines inText

theorem find?_of_dropWhile_isBlank (kept : Text → Bool)
    (dropped : statements.dropWhile Text.isBlank = header :: rest) :
    statements.find? (fun line => kept line && !Text.isBlank line) =
      if kept header then some header
      else rest.find? fun line => kept line && !Text.isBlank line := by
  have above : ∀ line ∈ statements.takeWhile Text.isBlank,
      ¬(kept line && !Text.isBlank line) = true := by
    intro line member
    simp [List.mem_takeWhile_imp member]
  have visible : Text.isBlank header = false := by
    have stops := List.head?_dropWhile_not Text.isBlank statements
    rw [dropped] at stops
    simpa using stops
  conv => lhs; rw
    [← List.takeWhile_append_dropWhile (p := Text.isBlank) (l := statements)]
  rw [dropped, List.find?_append, List.find?_eq_none.mpr above, Option.none_or,
    List.find?_cons]
  cases kept header <;> simp [visible]

theorem headerLine_of_isBlank (cut : Text.lines text = first :: statements)
    (blank : Text.isBlank first)
    (dropped : statements.dropWhile Text.isBlank = header :: rest) :
    headerLine text = Text.trim header := by
  have found := find?_of_dropWhile_isBlank (fun _ => true) dropped
  simp only [Bool.true_and, if_true] at found
  rw [headerLine_eq, cut, List.find?_cons_of_neg (by simp [blank]), found,
    Option.getD_some]

/-- Below a blank first line the header is the first visible line that stays. -/
theorem headerLine_deleteNode_of_isBlank (visible : Text.isBlank id = false)
    (cut : Text.lines text = first :: statements) (blank : Text.isBlank first)
    (dropped : statements.dropWhile Text.isBlank = header :: rest) :
    headerLine (deleteNode text id) =
      if mentions id header then
        Text.trim ((rest.find? fun line =>
            !mentions id line && !Text.isBlank line).getD [])
      else
        Text.trim header := by
  have filtered : (statements.filter (!mentions id ·)).find? (!Text.isBlank ·) =
      statements.find? fun line => !mentions id line && !Text.isBlank line := by
    rw [List.find?_filter]
    simp only [Bool.decide_and, Bool.decide_eq_true]
  rw [headerLine_eq, lines_deleteNode visible cut,
    List.find?_cons_of_neg (by simp [blank]), filtered,
    find?_of_dropWhile_isBlank (!mentions id ·) dropped]
  cases mentions id header <;> rfl

theorem trim_ne_of_mentions {next : Text} (visible : Text.isBlank id = false)
    (trimmed : Text.trim id = id) (mentioned : mentions id header)
    (kept : mentions id next = false) : Text.trim next ≠ Text.trim header := by
  intro same
  rw [← mentions_trim_iff visible trimmed, ← same,
    mentions_trim_iff visible trimmed, kept] at mentioned
  cases mentioned

theorem losesHeader_iff_of_mentions (visible : Text.isBlank id = false)
    (cut : Text.lines text = first :: statements) (blank : Text.isBlank first)
    (dropped : statements.dropWhile Text.isBlank = header :: rest)
    (mentioned : mentions id header) :
    LosesHeader text id ↔
      headerLine (deleteNode text id) ≠ headerLine text := by
  have headerVisible : Text.isBlank header = false := by
    have stops := List.head?_dropWhile_not Text.isBlank statements
    rw [dropped] at stops
    simpa using stops
  have below : (Text.lines text).dropWhile Text.isBlank = header :: rest := by
    rw [cut, List.dropWhile_cons_of_pos blank, dropped]
  rw [headerLine_of_isBlank cut blank dropped,
    headerLine_deleteNode_of_isBlank visible cut blank dropped,
    if_pos mentioned]
  constructor
  · intro loses
    obtain ⟨_, _, header', rest', below', _, differs⟩ := loses
    obtain ⟨rfl, rfl⟩ := List.cons.inj (below'.symm.trans below)
    cases found :
      rest'.find? fun line => !mentions id line && !Text.isBlank line with
    | none => exact (Text.trim_ne_nil headerVisible).symm
    | some next =>
        have kept : mentions id next = false := by
          have stays := List.find?_some found
          simp_all
        rw [Option.getD_some]
        by_cases trimmed : Text.trim id = id
        · exact trim_ne_of_mentions visible trimmed mentioned kept
        · exact differs trimmed next found
  · intro differs
    refine ⟨visible, by simp [cut, blank], header, rest, below, mentioned, ?_⟩
    intro _ next found
    rwa [Option.mem_def.mp found] at differs

end DeleteNode

/-- A deletion leaves the header as it is, and with it the dialect, unless the
header stands below a blank first line and mentions the node. -/
theorem headerLine_deleteNode_iff (text id : Text) :
    (headerLine (deleteNode text id) = headerLine text ↔ ¬LosesHeader text id) ∧
      (¬LosesHeader text id → detect (deleteNode text id) = detect text) := by
  have kept : headerLine (deleteNode text id) = headerLine text ↔
      ¬LosesHeader text id := by
    obtain ⟨first, statements, cut⟩ :=
      List.exists_cons_of_ne_nil (Text.lines_ne_nil text)
    cases visible : Text.isBlank id with
    | true =>
        rw [deleteNode, if_pos visible]
        exact iff_of_true rfl (by simp [LosesHeader, visible])
    | false =>
        cases blank : Text.isBlank first with
        | false =>
            rw [headerLine_eq, headerLine_eq, lines_deleteNode visible cut, cut]
            exact iff_of_true (by simp [blank])
              (by simp [LosesHeader, cut, blank])
        | true =>
            cases dropped : statements.dropWhile Text.isBlank with
            | nil =>
                have blanks := List.dropWhile_eq_nil_iff.mp dropped
                rw [headerLine_eq, headerLine_eq, lines_deleteNode visible cut,
                  cut]
                refine iff_of_true ?_
                  (by simp [LosesHeader, cut, blank, dropped])
                rw [List.find?_eq_none.mpr, List.find?_eq_none.mpr]
                · simpa [blank] using blanks
                · simpa [blank] using fun line member _ => blanks line member
            | cons header rest =>
                by_cases mentioned : mentions id header
                · rw [losesHeader_iff_of_mentions visible cut blank dropped
                      mentioned, not_not]
                · rw [headerLine_of_isBlank cut blank dropped,
                    headerLine_deleteNode_of_isBlank visible cut blank dropped,
                    if_neg mentioned]
                  exact iff_of_true rfl
                    (by simp [LosesHeader, cut, blank, dropped, mentioned])
  exact ⟨kept, fun stays => detect_eq_of_headerLine (kept.mpr stays)⟩

/-- The header is read below a blank line, and the deletion takes it for a
statement. -/
theorem not_headerLine_deleteNode_eq :
    ¬∀ text id : Text, headerLine (deleteNode text id) = headerLine text := by
  intro kept
  have same :=
    kept "\ngraph TD\n    TD[Top] --> X\n    X --> Y\n".toList "TD".toList
  revert same
  decide +kernel

end DiagramEdit
