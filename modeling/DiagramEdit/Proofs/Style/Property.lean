import DiagramEdit.Proofs.Style

/-!
# Properties as they are read

A property is read without the white space around its name and its value, its
name has no colon and neither of them a comma.  A list of such properties is
read again from the text it is written as; a property with neither name nor
value leaves nothing to read.
-/

namespace DiagramEdit

namespace Text

theorem trim_append_cons {left right : Text} {separator : Char}
    (visible : isSpace separator = false) (leftTrimmed : trim left = left)
    (rightTrimmed : trim right = right) :
    trim (left ++ separator :: right) = left ++ separator :: right := by
  have starts := (trim_eq_self_iff.mp leftTrimmed).1
  have ends := (trim_eq_self_iff.mp rightTrimmed).2
  apply trim_eq_self_iff.mpr
  constructor
  · cases left with
    | nil => simpa using visible
    | cons first left => exact starts
  · rcases List.eq_nil_or_concat right with rfl | ⟨front, last, rfl⟩
    · simpa using visible
    · rw [List.concat_eq_append, List.getLast?_concat] at ends
      rw [List.concat_eq_append, ← List.cons_append, ← List.append_assoc,
        List.getLast?_concat]
      exact ends

theorem exists_trim_append_cons {left : Text} {separator : Char}
    (visible : isSpace separator = false) (leftTrimmed : trim left = left)
    (right : Text) :
    ∃ rest, trim (left ++ separator :: right) = left ++ separator :: rest := by
  have starts := (trim_eq_self_iff.mp leftTrimmed).1
  have whole : (left ++ separator :: right).head?.all (!isSpace ·) := by
    cases left with
    | nil => simpa using visible
    | cons first left => exact starts
  obtain ⟨space, split, spaces⟩ :=
    exists_trimEnd_append (left ++ separator :: right)
  rw [trim, trimStart_eq_self whole]
  rcases append_eq_append_cons_cases split.symm with
    ⟨rest, kept, _⟩ | ⟨front, _, spaceEq⟩
  · exact ⟨rest, kept⟩
  · have inSpace := spaces separator (by simp [spaceEq])
    rw [visible] at inSpace
    cases inSpace

theorem trim_intercalate {separator : Char} {items : List Text}
    (visible : isSpace separator = false)
    (trimmed : ∀ item ∈ items, trim item = item) :
    trim ([separator].intercalate items) = [separator].intercalate items := by
  induction items with
  | nil => rfl
  | cons item items induction =>
      have induction :=
        induction fun other member => trimmed other (by simp [member])
      cases items with
      | nil => simpa using trimmed item (by simp)
      | cons next items =>
          rw [List.intercalate_cons_cons, List.append_assoc,
            List.singleton_append]
          exact trim_append_cons visible (trimmed item (by simp)) induction

end Text

namespace StyleProperty

/-- A property as it is read from a text. -/
structure IsRead (property : StyleProperty) : Prop where
  name_trimmed : Text.trim property.name = property.name
  value_trimmed : Text.trim property.value = property.value
  name_noColon : ':' ∉ property.name
  name_noComma : ',' ∉ property.name
  value_noComma : ',' ∉ property.value

theorem ofText_of_noColon {item : Text} (noColon : ':' ∉ item) :
    ofText item = ⟨item, []⟩ := by
  rw [ofText, List.dropWhile_eq_nil_iff.mpr (Pattern.bne_of_not_mem noColon)]

theorem ofText_append_colon {front : Text} (noColon : ':' ∉ front)
    (value : Text) :
    ofText (front ++ ':' :: value) = ⟨Text.trim front, Text.trim value⟩ := by
  have stops :
      (':' :: value).head?.all (fun character => !(character != ':')) := by
    simp
  obtain ⟨taken, dropped⟩ :=
    Pattern.takeWhile_append_of_stops (Pattern.bne_of_not_mem noColon) stops
  rw [ofText, dropped, taken]

theorem isRead_ofText {item : Text} (trimmed : Text.trim item = item)
    (noComma : ',' ∉ item) :
    (ofText item).IsRead := by
  by_cases colon : ':' ∈ item
  · obtain ⟨front, value, rfl, noColon⟩ := List.eq_append_cons_of_mem colon
    simp only [List.mem_append, List.mem_cons, not_or] at noComma
    rw [ofText_append_colon noColon]
    exact ⟨Text.trim_trim _, Text.trim_trim _,
      fun member => noColon (Text.mem_of_mem_trim member),
      fun member => noComma.1 (Text.mem_of_mem_trim member),
      fun member => noComma.2.2 (Text.mem_of_mem_trim member)⟩
  · rw [ofText_of_noColon colon]
    exact ⟨trimmed, rfl, colon, noComma, List.not_mem_nil⟩

theorem isRead_of_mem_listOfText {body : Text} {property : StyleProperty}
    (listed : property ∈ listOfText body) : property.IsRead := by
  simp only [listOfText, List.mem_map, List.mem_filter] at listed
  obtain ⟨_, ⟨⟨piece, onList, rfl⟩, _⟩, rfl⟩ := listed
  apply isRead_ofText (Text.trim_trim piece)
  intro comma
  rw [List.splitOn_eq_splitOnP, Text.mem_splitOnP_iff] at onList
  have inside := onList.1 ',' (Text.mem_of_mem_trim comma)
  cases inside

theorem render_ne_nil {property : StyleProperty} (named : property.name ≠ []) :
    property.render ≠ [] := by
  rw [render]
  split
  · exact named
  · simp [named]

theorem filter_render_cons {property : StyleProperty}
    (named : property.name ≠ []) (rest : List StyleProperty) :
    (property :: rest).filter (!·.render.isEmpty) =
      property :: rest.filter (!·.render.isEmpty) := by
  apply List.filter_cons_of_pos
  simpa using render_ne_nil named

theorem not_mem_render {property : StyleProperty} {character : Char}
    (different : character ≠ ':') (named : character ∉ property.name)
    (valued : character ∉ property.value) :
    character ∉ property.render := by
  intro member
  rcases mem_of_mem_render member with inName | colon | inValue
  · exact named inName
  · exact different colon
  · exact valued inValue

namespace IsRead

variable {property : StyleProperty}

theorem withValue (isRead : property.IsRead) {value : Text}
    (trimmed : Text.trim value = value) (noComma : ',' ∉ value) :
    (⟨property.name, value⟩ : StyleProperty).IsRead :=
  ⟨isRead.name_trimmed, trimmed, isRead.name_noColon, isRead.name_noComma,
    noComma⟩

theorem trim_render (isRead : property.IsRead) :
    Text.trim property.render = property.render := by
  by_cases empty : property.value.isEmpty
  · rw [render, if_pos empty]
    exact isRead.name_trimmed
  · rw [render, if_neg empty]
    exact Text.trim_append_cons (by decide) isRead.name_trimmed
      isRead.value_trimmed

theorem noComma_render (isRead : property.IsRead) : ',' ∉ property.render :=
  not_mem_render (by decide) isRead.name_noComma isRead.value_noComma

/-- A property is read again from what it is written as. -/
theorem ofText_render (isRead : property.IsRead) :
    ofText property.render = property := by
  by_cases empty : property.value.isEmpty
  · obtain ⟨name, value⟩ := property
    obtain rfl : value = [] := List.isEmpty_iff.mp empty
    rw [render, if_pos empty, ofText_of_noColon isRead.name_noColon]
  · rw [render, if_neg empty, ofText_append_colon isRead.name_noColon,
      isRead.name_trimmed, isRead.value_trimmed]

end IsRead

/-- The text of a list of properties. -/
def textOfList (properties : List StyleProperty) : Text :=
  [','].intercalate (properties.map render)

theorem textOfList_append_cons (earlier : List StyleProperty)
    (property : StyleProperty) (later : List StyleProperty) :
    textOfList (earlier ++ property :: later) =
      earlier.flatMap (·.render ++ [',']) ++ property.render ++
        later.flatMap (',' :: ·.render) := by
  rw [textOfList, List.map_append, List.map_cons, Text.intercalate_append_cons,
    List.flatMap_map, List.flatMap_map]

theorem textOfList_concat {properties : List StyleProperty}
    (nonempty : properties ≠ []) (last : StyleProperty) :
    textOfList (properties ++ [last]) =
      textOfList properties ++ ',' :: last.render := by
  have written : properties.map render ≠ [] := by simpa using nonempty
  rw [textOfList, List.map_append, Text.intercalate_append ',' written,
    textOfList]
  simp

theorem getLast?_flatMap_render (earlier : List StyleProperty) :
    (earlier.flatMap (·.render ++ [','])).getLast?.all (· == ',') := by
  rcases List.eq_nil_or_concat earlier with rfl | ⟨front, last, rfl⟩
  · rfl
  · rw [List.concat_eq_append, List.flatMap_append, List.flatMap_singleton,
      ← List.append_assoc, List.getLast?_concat]
    rfl

theorem listOfText_intercalate {items : List Text}
    (noComma : ∀ item ∈ items, ',' ∉ item) :
    listOfText ([','].intercalate items) =
      ((items.map Text.trim).filter (!·.isEmpty)).map ofText := by
  cases items with
  | nil => rfl
  | cons item items =>
      rw [listOfText,
        List.splitOn_intercalate ',' noComma (List.cons_ne_nil _ _)]

section TextOfList

variable {properties : List StyleProperty}
  (isRead : ∀ property ∈ properties, property.IsRead)

include isRead

theorem trimmed_render :
    (properties.map render).map Text.trim = properties.map render := by
  rw [List.map_map]
  apply List.map_congr_left
  intro property member
  exact (isRead property member).trim_render

theorem noComma_of_mem_render : ∀ item ∈ properties.map render, ',' ∉ item := by
  intro item member
  obtain ⟨property, among, rfl⟩ := List.mem_map.mp member
  exact (isRead property among).noComma_render

theorem map_ofText_render :
    ((properties.map render).filter (!·.isEmpty)).map ofText =
      properties.filter (!·.render.isEmpty) := by
  rw [List.filter_map, List.map_map]
  apply (List.map_congr_left _).trans (List.map_id _)
  intro property member
  exact (isRead property (List.mem_of_mem_filter member)).ofText_render

theorem trim_textOfList :
    Text.trim (textOfList properties) = textOfList properties := by
  apply Text.trim_intercalate (by decide)
  intro item member
  obtain ⟨property, among, rfl⟩ := List.mem_map.mp member
  exact (isRead property among).trim_render

/-- Properties are read again from the text of their list. -/
theorem listOfText_textOfList :
    listOfText (textOfList properties) =
      properties.filter (!·.render.isEmpty) := by
  rw [textOfList, listOfText_intercalate (noComma_of_mem_render isRead),
    trimmed_render isRead, map_ofText_render isRead]

end TextOfList

end StyleProperty

end DiagramEdit
