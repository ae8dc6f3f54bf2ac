import DiagramEdit.Proofs.Style.Property

/-!
# Setting one property of a list

The first property of a name, in any letter case, gets another value or goes;
where there is none, one is added at the end.  All others keep their value and
their order.
-/

namespace DiagramEdit

namespace StyleProperty

/-- Whether a property is of the name, in any letter case. -/
def isNamed (name : Text) (property : StyleProperty) : Bool :=
  Text.equalIgnoringCase property.name name

theorem name_ne_nil_of_isNamed {name : Text} {property : StyleProperty}
    (nonempty : name ≠ []) (named : property.isNamed name) :
    property.name ≠ [] := by
  intro empty
  rw [isNamed, Text.equalIgnoringCase, empty, beq_iff_eq] at named
  exact nonempty (List.map_eq_nil_iff.mp named.symm)

/-- A list of properties and what becomes of it when one property is set or
removed. -/
inductive Assigned (name : Text) :
    Option Text → List StyleProperty → List StyleProperty → Prop where
  /-- The property keeps its own spelling of the name. -/
  | set {value : Text} {earlier later : List StyleProperty}
      {old : StyleProperty} :
      (∀ other ∈ earlier, other.isNamed name = false) → old.isNamed name →
        Assigned name (some value) (earlier ++ old :: later)
          (earlier ++ ⟨old.name, value⟩ :: later)
  | add {value : Text} {properties : List StyleProperty} :
      (∀ other ∈ properties, other.isNamed name = false) →
      Assigned name (some value) properties (properties ++ [⟨name, value⟩])
  | remove {earlier later : List StyleProperty} {old : StyleProperty} :
      (∀ other ∈ earlier, other.isNamed name = false) → old.isNamed name →
      Assigned name none (earlier ++ old :: later) (earlier ++ later)
  | lack {properties : List StyleProperty} :
      (∀ other ∈ properties, other.isNamed name = false) →
      Assigned name none properties properties

section Assign

variable {name : Text} {value : Option Text}
  {earlier later properties edited : List StyleProperty} {old : StyleProperty}

/-- A list has no property of the name, or there is a first one. -/
theorem cases_isNamed (name : Text) (properties : List StyleProperty) :
    (∀ other ∈ properties, other.isNamed name = false) ∨
      ∃ earlier old later, properties = earlier ++ old :: later ∧
        (∀ other ∈ earlier, other.isNamed name = false) ∧ old.isNamed name := by
  induction properties with
  | nil => exact Or.inl (by simp)
  | cons first rest induction =>
      cases named : first.isNamed name with
      | true => exact Or.inr ⟨[], first, rest, rfl, by simp, named⟩
      | false =>
          rcases induction with
            unnamed | ⟨earlier, old, later, rfl, unnamed, isNamed⟩
          · exact Or.inl (by simpa [named] using unnamed)
          · exact Or.inr ⟨first :: earlier, old, later, rfl,
              by simpa [named] using unnamed, isNamed⟩

theorem assign_some_cons_of_isNamed (named : old.isNamed name) (value : Text) :
    assign name (some value) (old :: later) = ⟨old.name, value⟩ :: later :=
  if_pos named

theorem assign_cons_of_not_isNamed (unnamed : old.isNamed name = false) :
    assign name value (old :: later) = old :: assign name value later :=
  if_neg (Bool.eq_false_iff.mp unnamed)

theorem assign_append
    (unnamed : ∀ other ∈ earlier, other.isNamed name = false) :
    assign name value (earlier ++ later) =
      earlier ++ assign name value later := by
  induction earlier with
  | nil => rfl
  | cons first earlier induction =>
      rw [List.cons_append,
        assign_cons_of_not_isNamed (unnamed first (by simp)),
        induction fun other member => unnamed other (by simp [member]),
        List.cons_append]

theorem assign_of_first
    (unnamed : ∀ other ∈ earlier, other.isNamed name = false)
    (named : old.isNamed name) :
    assign name value (earlier ++ old :: later) =
      earlier ++ (value.map fun value => ⟨old.name, value⟩).toList ++
        later := by
  have first : Text.equalIgnoringCase old.name name := named
  rw [assign_append unnamed, assign_cons, if_pos first, List.append_assoc]

theorem assign_of_unnamed
    (unnamed : ∀ other ∈ properties, other.isNamed name = false) :
    assign name value properties =
      properties ++ (value.map fun value => ⟨name, value⟩).toList := by
  rw [← List.append_nil properties, assign_append unnamed, assign_nil,
    List.append_nil]

theorem assign_some_of_first
    (unnamed : ∀ other ∈ earlier, other.isNamed name = false)
    (named : old.isNamed name) (value : Text) :
    assign name (some value) (earlier ++ old :: later) =
      earlier ++ ⟨old.name, value⟩ :: later := by
  rw [assign_of_first unnamed named, Option.map_some, Option.toList_some,
    List.append_assoc, List.singleton_append]

theorem assign_some_of_unnamed
    (unnamed : ∀ other ∈ properties, other.isNamed name = false)
    (value : Text) :
    assign name (some value) properties = properties ++ [⟨name, value⟩] :=
  assign_of_unnamed unnamed

theorem assign_none_of_first
    (unnamed : ∀ other ∈ earlier, other.isNamed name = false)
    (named : old.isNamed name) :
    assign name none (earlier ++ old :: later) = earlier ++ later := by
  rw [assign_of_first unnamed named, Option.map_none, Option.toList_none,
    List.append_nil]

theorem assign_none_of_unnamed
    (unnamed : ∀ other ∈ properties, other.isNamed name = false) :
    assign name none properties = properties := by
  rw [assign_of_unnamed unnamed, Option.map_none, Option.toList_none,
    List.append_nil]

theorem assign_some_ne_nil (name value : Text)
    (properties : List StyleProperty) :
    assign name (some value) properties ≠ [] := by
  rcases cases_isNamed name properties with
    unnamed | ⟨earlier, old, later, rfl, unnamed, named⟩
  · simp [assign_some_of_unnamed unnamed]
  · simp [assign_some_of_first unnamed named]

/-- The first property of the name keeps its value only if that is the one it is
given. -/
theorem assign_some_eq_self_iff
    (unnamed : ∀ other ∈ earlier, other.isNamed name = false)
    (named : old.isNamed name) {value : Text} :
    assign name (some value) (earlier ++ old :: later) =
        earlier ++ old :: later ↔ old.value = value := by
  rw [assign_some_of_first unnamed named]
  constructor
  · intro same
    exact (congrArg StyleProperty.value
      (List.cons.inj (List.append_cancel_left same)).1).symm
  · intro same
    rw [← same]

theorem assigned_iff : Assigned name value properties edited ↔
    edited = assign name value properties := by
  constructor
  · intro assigned
    cases assigned with
    | set unnamed named => exact (assign_some_of_first unnamed named _).symm
    | add unnamed => exact (assign_some_of_unnamed unnamed _).symm
    | remove unnamed named => exact (assign_none_of_first unnamed named).symm
    | lack unnamed => exact (assign_none_of_unnamed unnamed).symm
  · intro same
    subst same
    rcases cases_isNamed name properties with
      unnamed | ⟨earlier, old, later, rfl, unnamed, named⟩
    · cases value with
      | none =>
          rw [assign_none_of_unnamed unnamed]
          exact .lack unnamed
      | some value =>
          rw [assign_some_of_unnamed unnamed]
          exact .add unnamed
    · cases value with
      | none =>
          rw [assign_none_of_first unnamed named]
          exact .remove unnamed named
      | some value =>
          rw [assign_some_of_first unnamed named]
          exact .set unnamed named

/-- A change is seen among the properties that leave something to read. -/
theorem Assigned.eq_of_filter_eq (nonempty : name ≠ [])
    (assigned : Assigned name value properties edited)
    (same : edited.filter (!·.render.isEmpty) =
      properties.filter (!·.render.isEmpty)) :
    edited = properties := by
  cases assigned with
  | @set value earlier later old unnamed named =>
      have oldNamed := name_ne_nil_of_isNamed nonempty named
      have newNamed : (⟨old.name, value⟩ : StyleProperty).name ≠ [] := oldNamed
      rw [List.filter_append, List.filter_append, filter_render_cons oldNamed,
        filter_render_cons newNamed] at same
      rw [(List.cons.inj (List.append_cancel_left same)).1]
  | add unnamed =>
      rw [List.filter_append, filter_render_cons nonempty] at same
      simp at same
  | remove unnamed named =>
      have oldNamed := name_ne_nil_of_isNamed nonempty named
      rw [List.filter_append, List.filter_append, filter_render_cons oldNamed]
        at same
      simp at same
  | lack unnamed => rfl

end Assign

end StyleProperty

theorem ColorRole.name_ne_nil (role : ColorRole) : role.name ≠ [] := by
  cases role <;> decide

theorem ColorRole.isRead (role : ColorRole) {value : Text}
    (trimmed : Text.trim value = value) (noComma : ',' ∉ value) :
    (⟨role.name, value⟩ : StyleProperty).IsRead := by
  have plain :
      Text.trim role.name = role.name ∧ ':' ∉ role.name ∧ ',' ∉ role.name := by
    cases role <;> decide
  exact ⟨plain.1, trimmed, plain.2.1, plain.2.2, noComma⟩

theorem StyleProperty.noSemicolon_of_isNamed {role : ColorRole}
    {property : StyleProperty} (named : property.isNamed role.name) :
    ';' ∉ property.name := by
  intro semicolon
  have same : property.name.map Char.toLower = role.name.map Char.toLower := by
    simpa [isNamed, Text.equalIgnoringCase] using named
  have inName := same ▸ List.mem_map_of_mem (f := Char.toLower) semicolon
  revert inName
  cases role <;> decide

end DiagramEdit
