import DiagramEdit.Proofs.Label
import DiagramEdit.Proofs.Style
import DiagramEdit.Proofs.Text.LineBreaks

/-!
# The end of a directive's line

A directive is read without the white space at its ends, so what is written back
does not end in a carriage return, whether the line that was read did or not.
Setting a colour keeps the line breaks if the line is the last one, if it goes
or stays as it is, and if none is appended that a line feed would set off.
-/

namespace DiagramEdit

theorem getLast?_intercalate {separator last : Char} {items : List Text}
    (ends : ([separator].intercalate items).getLast? = some last)
    (different : separator ≠ last) :
    ∃ item ∈ items, item.getLast? = some last := by
  induction items with
  | nil => cases ends
  | cons item items induction =>
      cases items with
      | nil => exact ⟨item, by simp, by simpa using ends⟩
      | cons next items =>
          rw [List.intercalate_cons_cons, List.append_assoc,
            List.singleton_append] at ends
          obtain ⟨other, listed, last⟩ :=
            induction (Text.getLast?_of_append_cons ends different)
          exact ⟨other, List.mem_cons_of_mem _ listed, last⟩

namespace StyleProperty

theorem getLast?_render {property : StyleProperty}
    (ends : property.render.getLast? = some '\r') :
    property.name.getLast? = some '\r' ∨
      property.value.getLast? = some '\r' := by
  by_cases empty : property.value.isEmpty
  · left
    simpa only [render, empty, if_true] using ends
  · right
    simp only [render, empty, Bool.false_eq_true, if_false] at ends
    exact Text.getLast?_of_append_cons ends (by decide)

theorem getLast?_listOfText {body : Text} {property : StyleProperty}
    (listed : property ∈ listOfText body) :
    property.name.getLast? ≠ some '\r' ∧
      property.value.getLast? ≠ some '\r' := by
  simp only [listOfText, List.mem_map, List.mem_filter] at listed
  obtain ⟨_, ⟨⟨piece, _, rfl⟩, _⟩, rfl⟩ := listed
  rw [ofText]
  split
  · exact ⟨Text.getLast?_trimEnd_ne _, by simp⟩
  · exact ⟨Text.getLast?_trimEnd_ne _, Text.getLast?_trimEnd_ne _⟩

end StyleProperty

namespace StyleDirective

variable {id line : Text} {directive : StyleDirective}

theorem exists_of_ofLine?_eq_some (read : ofLine? id line = some directive) :
    ∃ indent body, directive = ofBody indent id body ∧
      (∀ character ∈ indent, character ∈ line) ∧
      ∀ character ∈ body, character ∈ line := by
  obtain ⟨⟨indent, body⟩, styled, rfl⟩ := Option.map_eq_some_iff.mp read
  refine ⟨indent, body, rfl, ?_⟩
  simp only [Pattern.atStart?, Option.map_eq_some_iff, Prod.exists,
    Pattern.styleLine, Pattern.bind_eq_some_iff, Pattern.pure_eq_some_iff,
    Prod.mk.injEq] at styled
  obtain ⟨_, _, _, ⟨_, _, margin, _, _, word, _, _, target, ⟨rfl, rfl⟩, rfl⟩,
    rfl, rfl⟩ := styled
  obtain ⟨space, _, _, passesSpace, _, target⟩ :=
    Pattern.passes_afterSpace target
  simp only [Pattern.bind_eq_some_iff] at target
  obtain ⟨_, _, name, _, _, separator, rest⟩ := target
  have front :=
    ((Pattern.passes_run margin).1.append (Pattern.passes_literal word)).append
      (passesSpace.append (Pattern.passes_wholeWord name))
  have whole :=
    front.append
      ((Pattern.passes_one separator).1.append (Pattern.passes_run rest).1)
  have split : line = _ := whole.after
  constructor
  · intro character member
    rw [split]
    simp [member]
  · intro character member
    rw [split]
    simp [member]

/-- A directive that has been read and edited does not end in a carriage
return. -/
theorem getLast?_render_assign {name rendered : Text} {value : Option Text}
    (read : ofLine? id line = some directive)
    (result : (directive.assign name value).render = some rendered)
    (named : name.getLast? ≠ some '\r')
    (valued : ∀ chosen ∈ value, chosen.getLast? ≠ some '\r') :
    rendered.getLast? ≠ some '\r' := by
  obtain ⟨indent, body, rfl, _⟩ := exists_of_ofLine?_eq_some read
  have parts :
      ∀ property ∈ ((ofBody indent id body).assign name value).properties,
        property.name.getLast? ≠ some '\r' ∧
          property.value.getLast? ≠ some '\r' := by
    have old : ∀ property ∈ (ofBody indent id body).properties,
        property.name.getLast? ≠ some '\r' ∧
          property.value.getLast? ≠ some '\r' :=
      fun _ => StyleProperty.getLast?_listOfText
    intro property member
    rcases StyleProperty.mem_assign member with
      among | ⟨chosen, isName | ⟨other, among, isOld⟩⟩
    · exact old property among
    · exact ⟨by rwa [isName], valued _ chosen.symm⟩
    · exact ⟨by rw [isOld]; exact (old other among).1, valued _ chosen.symm⟩
  by_cases empty :
    ((ofBody indent id body).assign name value).properties.isEmpty
  · simp [render, empty] at result
  · simp only [render, empty, Bool.false_eq_true, if_false, Option.some.injEq]
      at result
    intro ends
    rw [← result] at ends
    by_cases terminated : ((ofBody indent id body).assign name value).terminated
    · rw [if_pos terminated, List.getLast?_concat] at ends
      cases ends
    · rw [if_neg terminated, List.append_nil] at ends
      obtain ⟨_, listed, last⟩ :=
        getLast?_intercalate (Text.getLast?_of_append_cons ends (by decide))
          (by decide)
      obtain ⟨property, among, rfl⟩ := List.mem_map.mp listed
      rcases StyleProperty.getLast?_render last with inName | inValue
      · exact (parts property among).1 inName
      · exact (parts property among).2 inValue

end StyleDirective

theorem not_mem_of_not_any {text : Text}
    (oneLine : text.any isLineBreak = false) :
    '\n' ∉ text ∧ '\r' ∉ text := by
  rw [List.any_eq_false] at oneLine
  exact ⟨fun member => oneLine _ member rfl, fun member => oneLine _ member rfl⟩

theorem getLast?_append_cons_trim_ne (front : Text) {separator : Char}
    (other : separator ≠ '\r') (text : Text) :
    (front ++ separator :: Text.trim text).getLast? ≠ some '\r' :=
  fun ends =>
  Text.getLast?_trimEnd_ne _ (Text.getLast?_of_append_cons ends other)

/-- The first directive of the node is written anew, and another line follows
it. -/
def RestylesInside (role : ColorRole) (text id : Text) (color : Option Text) :
    Prop :=
  ∃ before line after directive rendered,
    (Text.lines text).tail = before ++ line :: after ∧ after ≠ [] ∧
    (∀ other ∈ before, StyleDirective.ofLine? id other = none) ∧
    StyleDirective.ofLine? id line = some directive ∧
    (directive.assign role.name (color.map Text.trim)).render = some rendered ∧
    directive.render ≠ some rendered

/-- A colour is given to a node without a directive. -/
def StylesFirst (text id : Text) (color : Option Text) : Prop :=
  color.isSome ∧
    ∀ statement ∈ (Text.lines text).tail,
      StyleDirective.ofLine? id statement = none

section SetColor

variable {role : ColorRole} {text id header line rendered : Text}
  {directive : StyleDirective} {before after statements edited : List Text}
  {color : Option Text}

theorem not_lineFeed_mem_restyled
    (read : StyleDirective.ofLine? id line = some directive)
    (result :
      (directive.assign role.name (color.map Text.trim)).render = some rendered)
    (oneLine : '\n' ∉ line) (idLine : '\n' ∉ id) (valid : color.all isColor) :
    '\n' ∉ rendered := by
  obtain ⟨indent, body, rfl, inIndent, inBody⟩ :=
    StyleDirective.exists_of_ofLine?_eq_some read
  apply StyleDirective.not_lineFeed_mem_render_assign result
  · exact fun member => oneLine (inIndent _ member)
  · exact idLine
  · exact StyleDirective.not_lineFeed_mem_ofBody fun member =>
      oneLine (inBody _ member)
  · exact role.not_lineFeed_mem_name
  · intro chosen isChosen
    obtain ⟨value, rfl, rfl⟩ := Option.map_eq_some_iff.mp isChosen
    exact not_lineFeed_mem_trim valid

/-- A directive that is written anew does not end in a carriage return, so only
the last line of a text can be written anew. -/
theorem breaksReturned_restyled_iff (returned : Text.BreaksReturned text)
    (cut : Text.lines text = header :: (before ++ line :: after))
    (read : StyleDirective.ofLine? id line = some directive)
    (result :
      (directive.assign role.name (color.map Text.trim)).render = some rendered)
    (idLine : '\n' ∉ id) (valid : color.all isColor) :
    Text.BreaksReturned
        (Text.joinLines (header :: (before ++ rendered :: after))) ↔
      after = [] := by
  have within : ∀ other ∈ header :: (before ++ line :: after), '\n' ∉ other :=
    fun other member => Text.not_mem_of_mem_lines (cut ▸ member)
  have oneLine :
      ∀ other ∈ header :: (before ++ rendered :: after), '\n' ∉ other := by
    intro other member
    have known :
        other = rendered ∨ other ∈ header :: (before ++ line :: after) := by
      simp only [List.mem_cons, List.mem_append] at member ⊢
      tauto
    rcases known with rfl | kept
    · exact not_lineFeed_mem_restyled read result (within line (by simp)) idLine
        valid
    · exact within other kept
  have ends : rendered.getLast? ≠ some '\r' := by
    apply StyleDirective.getLast?_render_assign read result
    · cases role <;> decide
    · intro chosen isChosen
      obtain ⟨value, rfl, rfl⟩ := Option.map_eq_some_iff.mp isChosen
      exact Text.getLast?_trimEnd_ne _
  rw [Text.breaksReturned_joinLines_iff oneLine]
  constructor
  · intro returns
    by_contra nonempty
    have inner :
        rendered ∈ (header :: (before ++ rendered :: after)).dropLast := by
      rw [← List.cons_append, List.dropLast_append_of_ne_nil (by simp),
        List.dropLast_cons_of_ne_nil nonempty]
      simp
    exact ends (returns rendered inner)
  · intro empty
    subst empty
    rw [Text.breaksReturned_iff_lines, cut, ← List.cons_append,
      List.dropLast_concat] at returned
    rw [← List.cons_append, List.dropLast_concat]
    exact returned

theorem not_breaksReturned_of_restylesInside
    (returned : Text.BreaksReturned text)
    (cut : Text.lines text = header :: statements) (idLine : '\n' ∉ id)
    (valid : color.all isColor)
    (restyled :
      restyle id role.name (color.map Text.trim) statements = some edited)
    (restyles : RestylesInside role text id color) :
    ¬Text.BreaksReturned (Text.joinLines (header :: edited)) := by
  obtain ⟨before, line, after, directive, rendered, split, nonempty, none, read,
    result, differs⟩ :=
    restyles
  rw [cut, List.tail_cons] at split
  rw [split] at cut
  rw [split, restyle_append_cons none read, result, if_neg (Ne.symm differs)]
    at restyled
  have editedEq : before ++ [rendered] ++ after = edited :=
    Option.some.inj restyled
  rw [← editedEq, List.append_assoc, List.singleton_append,
    breaksReturned_restyled_iff returned cut read result idLine valid]
  exact nonempty

/-- A directive that goes, stays or ends the text leaves the other lines as they
are. -/
theorem breaksReturned_of_not_restylesInside
    (returned : Text.BreaksReturned text)
    (cut : Text.lines text = header :: statements) (idLine : '\n' ∉ id)
    (valid : color.all isColor)
    (restyled :
      restyle id role.name (color.map Text.trim) statements = some edited)
    (spared : ¬RestylesInside role text id color) :
    Text.BreaksReturned (Text.joinLines (header :: edited)) := by
  obtain ⟨before, line, after, directive, split, none, read, _⟩ :=
    restyle_eq_some restyled
  rw [split] at cut
  rw [split, restyle_append_cons none read] at restyled
  have whole := returned
  rw [← Text.joinLines_lines text, cut] at whole
  by_cases same :
    (directive.assign role.name (color.map Text.trim)).render = directive.render
  · rw [if_pos same] at restyled
    rwa [← Option.some.inj restyled]
  · rw [if_neg same] at restyled
    have editedEq := Option.some.inj restyled
    cases result :
      (directive.assign role.name (color.map Text.trim)).render with
    | none =>
        rw [result, Option.toList_none, List.append_nil] at editedEq
        rw [← editedEq]
        apply whole.of_sublist
        · exact fun other member => Text.not_mem_of_mem_lines (cut ▸ member)
        · exact ((List.sublist_cons_self line after).append_left
              before).cons_cons header
    | some rendered =>
        rw [result, Option.toList_some, List.append_assoc,
          List.singleton_append] at editedEq
        rw [← editedEq,
          breaksReturned_restyled_iff returned cut read result idLine valid]
        by_contra nonempty
        exact spared ⟨before, line, after, directive, rendered,
          by rw [cut, List.tail_cons], nonempty, none, read, result,
          fun equality => same (result.trans equality.symm)⟩

theorem breaksReturned_setColor_iff (returned : Text.BreaksReturned text)
    (role : ColorRole) (color : Option Text)
    (idLine : id.any isLineBreak = false) :
    Text.BreaksReturned (setColor role text id color) ↔
      ¬((references text id && color.all isColor) = true ∧
        (RestylesInside role text id color ∨
          StylesFirst text id color ∧ Text.setsOff text)) := by
  obtain ⟨oneLine, _⟩ := not_mem_of_not_any idLine
  cases accepted : references text id && color.all isColor with
  | false =>
      rw [setColor_of_refused accepted]
      exact iff_of_true returned (by simp)
  | true =>
      obtain ⟨header, statements, cut⟩ :=
        List.exists_cons_of_ne_nil (Text.lines_ne_nil text)
      have valid := (Bool.and_eq_true_iff.mp accepted).2
      -- The first directive of the node is edited; where it has none, one is
      -- appended.
      cases restyled :
        restyle id role.name (color.map Text.trim) statements with
      | some edited =>
          have styled : ¬StylesFirst text id color := by
            intro first
            obtain ⟨before, line, after, directive, split, _, read, _⟩ :=
              restyle_eq_some restyled
            rw [first.2 line (by simp [cut, split])] at read
            cases read
          rw [setColor_of_restyled cut accepted restyled]
          by_cases restyles : RestylesInside role text id color
          · refine iff_of_false ?_ (by simp [restyles])
            exact not_breaksReturned_of_restylesInside returned cut oneLine
              valid restyled restyles
          · refine iff_of_true ?_ (by simp [restyles, styled])
            exact breaksReturned_of_not_restylesInside returned cut oneLine
              valid restyled restyles
      | none =>
          have unstyled := restyle_eq_none_iff.mp restyled
          have inside : ¬RestylesInside role text id color := by
            intro restyles
            obtain ⟨before, line, after, directive, rendered, split, _, _, read,
              _⟩ := restyles
            rw [cut, List.tail_cons] at split
            rw [unstyled line (by simp [split])] at read
            cases read
          rw [setColor_of_not_restyled cut accepted restyled]
          cases color with
          | none => exact iff_of_true returned (by simp [inside, StylesFirst])
          | some value =>
              have first : StylesFirst text id (some value) :=
                ⟨rfl, by simpa [cut] using unstyled⟩
              have styleLine :
                  '\n' ∉ "    style ".toList ++ id ++ ' ' :: role.name ++
                    ':' :: Text.trim value := by
                simp [oneLine, role.not_lineFeed_mem_name,
                  not_lineFeed_mem_trim valid]
              rw [Option.map_some, Option.getD_some,
                Text.breaksReturned_appendLine_iff styleLine
                  (getLast?_append_cons_trim_ne _ (by decide) value)]
              simp [inside, first]

end SetColor

end DiagramEdit
