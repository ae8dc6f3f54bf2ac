import DiagramEdit.Proofs.LineBreaks.Directive
import DiagramEdit.Proofs.Style.Assignment
import DiagramEdit.Proofs.Style.Line

/-!
# What has been written is read again

The line that is written for an edited directive is a directive of the same
identifier, in the same indentation.  Its body is read as the list that was
written, but for two things: a property with neither name nor value is gone, and
a semicolon that has come to the end of the body is read as the end of the
directive.
-/

namespace DiagramEdit

namespace StyleDirective

variable {id line : Text} {directive edited : StyleDirective}

theorem ofLine?_eq_some_iff_styleLine :
    ofLine? id line = some directive ↔
      ∃ indent body,
        (Pattern.styleLine id).atStart? line = some (indent, body) ∧
          ofBody indent id body = directive := by
  change ((Pattern.styleLine id).atStart? line).map
    (fun found => ofBody found.1 id found.2) = some directive ↔ _
  rw [Option.map_eq_some_iff]
  simp only [Prod.exists]

theorem isRead_of_ofLine? (read : ofLine? id line = some directive) :
    ∀ property ∈ directive.properties, property.IsRead := by
  obtain ⟨indent, body, _, rfl⟩ := ofLine?_eq_some_iff_styleLine.mp read
  intro property member
  exact StyleProperty.isRead_of_mem_listOfText member

theorem id_of_ofLine? (read : ofLine? id line = some directive) :
    directive.id = id := by
  obtain ⟨indent, body, _, rfl⟩ := ofLine?_eq_some_iff_styleLine.mp read
  rfl

theorem mentions_of_ofLine? (read : ofLine? id line = some directive) :
    mentions id line := by
  obtain ⟨indent, body, styled, _⟩ := ofLine?_eq_some_iff_styleLine.mp read
  obtain ⟨fits, _, space, separator, split, nonempty, spaces, isSpace⟩ :=
    Pattern.styleLine_cut styled
  have apart :=
    Text.endsInWord_append_space (indent ++ "style".toList) nonempty spaces
  refine mentions_iff_cut.mpr
    ⟨_, _, split, (Pattern.standsApart_iff_of_apart apart).mpr fits.1, ?_⟩
  intro asked
  rw [Pattern.endsInWord_append_of_apart apart, fits.2 asked,
    Text.startsWithWord, List.head?_cons, Option.any_some,
    Text.not_isWordCharacter_of_isSpace isSpace]
  decide

theorem not_lineFeed_mem_id (read : ofLine? id line = some directive)
    (oneLine : '\n' ∉ line) :
    '\n' ∉ id := by
  obtain ⟨indent, body, styled, _⟩ := ofLine?_eq_some_iff_styleLine.mp read
  obtain ⟨_, _, space, separator, split, _⟩ := Pattern.styleLine_cut styled
  rw [split] at oneLine
  simp only [List.mem_append, not_or] at oneLine
  exact oneLine.1.2

/-- The text of a directive behind its identifier. -/
def body (directive : StyleDirective) : Text :=
  StyleProperty.textOfList directive.properties ++
    (if directive.terminated then [';'] else [])

theorem render_of_ne_nil (nonempty : directive.properties ≠ []) :
    directive.render =
      some (directive.indent ++ "style ".toList ++ directive.id ++ ' ' ::
        directive.body) := by
  rw [render, if_neg (by simpa using nonempty), body, StyleProperty.textOfList]
  simp

theorem render_eq_none_iff :
    directive.render = none ↔ directive.properties = [] := by
  constructor
  · intro none
    by_contra nonempty
    rw [render_of_ne_nil nonempty] at none
    cases none
  · intro empty
    simp [render, empty]

theorem trim_body
    (isRead : ∀ property ∈ directive.properties, property.IsRead) :
    Text.trim directive.body = directive.body := by
  have trimmed := StyleProperty.trim_textOfList isRead
  rw [body]
  cases directive.terminated with
  | false => simpa using trimmed
  | true => exact Text.trim_append_cons (by decide) trimmed rfl

/-- A directive with the indentation and the identifier of one that has been
read is read from its own line. -/
theorem ofLine?_written (read : ofLine? id line = some directive)
    (isRead : ∀ property ∈ edited.properties, property.IsRead) :
    ofLine? id
        (directive.indent ++ "style ".toList ++ id ++ ' ' :: edited.body) =
      some (ofBody directive.indent id edited.body) := by
  obtain ⟨indent, body, styled, rfl⟩ := ofLine?_eq_some_iff_styleLine.mp read
  obtain ⟨fits, indents, _⟩ := Pattern.styleLine_cut styled
  have visible := (Text.trim_eq_self_iff.mp (trim_body isRead)).1
  exact ofLine?_eq_some_iff_styleLine.mpr
    ⟨indent, edited.body, Pattern.styleLine_written fits indents visible, rfl⟩

section OfBody

variable (isRead : ∀ property ∈ edited.properties, property.IsRead)
  (indent : Text)

include isRead

theorem ofBody_of_terminated (terminated : edited.terminated = true) :
    ofBody indent id edited.body =
      ⟨indent, id, edited.properties.filter (!·.render.isEmpty), true⟩ := by
  have bodyEq :
      edited.body = StyleProperty.textOfList edited.properties ++ [';'] := by
    rw [body, if_pos terminated]
  have last : (edited.body.getLast? == some ';') = true := by
    rw [bodyEq, List.getLast?_concat]
    rfl
  rw [ofBody, trim_body isRead]
  simp only [last, if_true]
  rw [bodyEq, List.dropLast_concat, StyleProperty.listOfText_textOfList isRead]

theorem ofBody_of_open (unterminated : edited.terminated = false)
    (ends : (StyleProperty.textOfList edited.properties).getLast? ≠ some ';') :
    ofBody indent id edited.body =
      ⟨indent, id, edited.properties.filter (!·.render.isEmpty), false⟩ := by
  have bodyEq : edited.body = StyleProperty.textOfList edited.properties := by
    rw [body, unterminated]
    simp
  have last : (edited.body.getLast? == some ';') = false := by
    rw [bodyEq, beq_eq_false_iff_ne]
    exact ends
  rw [ofBody, trim_body isRead]
  simp only [last, Bool.false_eq_true, if_false]
  rw [bodyEq, StyleProperty.listOfText_textOfList isRead]

/-- Properties with names and without semicolons are read as they were
written. -/
theorem ofBody_of_plain
    (named : ∀ property ∈ edited.properties, property.name ≠ [])
    (plain : ∀ property ∈ edited.properties, ';' ∉ property.render) :
    ofBody indent id edited.body =
      ⟨indent, id, edited.properties, edited.terminated⟩ := by
  have whole :
      edited.properties.filter (!·.render.isEmpty) = edited.properties := by
    apply List.filter_eq_self.mpr
    intro property member
    simpa using StyleProperty.render_ne_nil (named property member)
  cases terminated : edited.terminated with
  | true => rw [ofBody_of_terminated isRead indent terminated, whole]
  | false =>
      have ends :
          (StyleProperty.textOfList edited.properties).getLast? ≠ some ';' := by
        intro semicolon
        rcases mem_intercalate (List.mem_of_getLast? semicolon) with
          comma | ⟨item, listed, inItem⟩
        · cases comma
        · obtain ⟨property, member, rfl⟩ := List.mem_map.mp listed
          exact plain property member inItem
      rw [ofBody_of_open isRead indent terminated ends, whole]

end OfBody

section Assign

variable {role : ColorRole} {color : Option Text}

theorem isRead_of_mem_assign {properties : List StyleProperty}
    (isRead : ∀ property ∈ properties, property.IsRead)
    (valid : color.all isColor) {property : StyleProperty}
    (member : property ∈
      StyleProperty.assign role.name (color.map Text.trim) properties) :
    property.IsRead := by
  rcases StyleProperty.mem_assign member with among | ⟨valued, named⟩
  · exact isRead property among
  · obtain ⟨chosen, rfl, valueEq⟩ := Option.map_eq_some_iff.mp valued.symm
    have noComma : ',' ∉ property.value := valueEq ▸ not_comma_mem_trim valid
    have trimmed : Text.trim property.value = property.value := by
      rw [← valueEq, Text.trim_trim]
    rcases named with isName | ⟨old, among, sameName⟩
    · have written := role.isRead trimmed noComma
      rwa [← isName] at written
    · have renamed := (isRead old among).withValue trimmed noComma
      rwa [← sameName] at renamed

theorem filter_eq_of_render_eq (directive edited : StyleDirective)
    (sameIndent : edited.indent = directive.indent)
    (sameId : edited.id = directive.id)
    (sameEnd : edited.terminated = directive.terminated)
    (isRead : ∀ property ∈ directive.properties, property.IsRead)
    (editedRead : ∀ property ∈ edited.properties, property.IsRead)
    (same : edited.render = directive.render) :
    edited.properties.filter (!·.render.isEmpty) =
      directive.properties.filter (!·.render.isEmpty) := by
  by_cases empty : directive.properties = []
  · rw [empty,
      render_eq_none_iff.mp (same.trans (render_eq_none_iff.mpr empty))]
  · have nonempty : edited.properties ≠ [] := by
      intro editedEmpty
      exact empty (render_eq_none_iff.mp
        (same.symm.trans (render_eq_none_iff.mpr editedEmpty)))
    rw [render_of_ne_nil nonempty, render_of_ne_nil empty, sameIndent, sameId,
      body, body, sameEnd] at same
    have texts := List.append_cancel_right
      (List.cons.inj (List.append_cancel_left (Option.some.inj same))).2
    rw [← StyleProperty.listOfText_textOfList editedRead, texts,
      StyleProperty.listOfText_textOfList isRead]

/-- The line of a directive stays as it is written only if its properties
stay. -/
theorem render_assign_eq_iff
    (isRead : ∀ property ∈ directive.properties, property.IsRead)
    (valid : color.all isColor) :
    (directive.assign role.name (color.map Text.trim)).render =
        directive.render ↔
      StyleProperty.assign role.name (color.map Text.trim)
          directive.properties = directive.properties := by
  have editedRead :
      ∀ property ∈ (directive.assign role.name
        (color.map Text.trim)).properties,
        property.IsRead :=
    fun _ member => isRead_of_mem_assign isRead valid member
  constructor
  · intro same
    have filters :=
      filter_eq_of_render_eq directive
        (directive.assign role.name (color.map Text.trim)) rfl rfl rfl isRead
        editedRead same
    exact (StyleProperty.assigned_iff.mpr rfl).eq_of_filter_eq role.name_ne_nil
      filters
  · intro same
    rw [assign, same]

end Assign

end StyleDirective

end DiagramEdit
