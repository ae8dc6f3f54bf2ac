import DiagramEdit.Proofs.Style.Clearing
import DiagramEdit.Proofs.Style.Placement

/-!
# Fill and stroke

The two colours of a node are properties of different names, so one of them does
not take the place of the other.  Which of them is set first makes no difference
where the first directive of the node has one of them already.  Where it has
none, both are added at its end, and the order in which they stand there is the
only difference.
-/

namespace DiagramEdit

namespace StyleProperty

variable {name other value value' : Text} {properties : List StyleProperty}

/-- Properties of different names are set in either order, if one of them is
there. -/
theorem assign_assign_comm
    (apart : ∀ property : StyleProperty, property.isNamed name →
      property.isNamed other = false)
    (present : properties.any fun property =>
      property.isNamed name || property.isNamed other) :
    assign name (some value) (assign other (some value') properties) =
      assign other (some value') (assign name (some value) properties) := by
  induction properties with
  | nil => cases present
  | cons first rest induction =>
      cases named : first.isNamed name with
      | true =>
          have otherFails := apart first named
          have stillFails :
              (⟨first.name, value⟩ : StyleProperty).isNamed other = false :=
            otherFails
          rw [assign_cons_of_not_isNamed otherFails,
            assign_some_cons_of_isNamed named,
            assign_some_cons_of_isNamed named,
            assign_cons_of_not_isNamed stillFails]
      | false =>
          cases otherNamed : first.isNamed other with
          | true =>
              have stillFails :
                  (⟨first.name, value'⟩ : StyleProperty).isNamed name = false :=
                named
              rw [assign_cons_of_not_isNamed named,
                assign_some_cons_of_isNamed otherNamed,
                assign_some_cons_of_isNamed otherNamed,
                assign_cons_of_not_isNamed stillFails]
          | false =>
              rw [List.any_cons, named, otherNamed, Bool.or_self, Bool.false_or]
                at present
              rw [assign_cons_of_not_isNamed otherNamed,
                assign_cons_of_not_isNamed named, induction present,
                assign_cons_of_not_isNamed named,
                assign_cons_of_not_isNamed otherNamed]

theorem assign_assign_of_unnamed
    (apart : ∀ property : StyleProperty, property.isNamed name →
      property.isNamed other = false)
    (unnamed : ∀ property ∈ properties, property.isNamed name = false)
    (otherUnnamed : ∀ property ∈ properties, property.isNamed other = false) :
    assign other (some value') (assign name (some value) properties) =
      properties ++ [⟨name, value⟩, ⟨other, value'⟩] := by
  rw [assign_some_of_unnamed unnamed, assign_some_of_unnamed, List.append_assoc]
  · rfl
  · intro property member
    rcases List.mem_append.mp member with among | added
    · exact otherUnnamed property among
    · rw [List.mem_singleton.mp added]
      exact apart _ (beq_self_eq_true _)

end StyleProperty

theorem ColorRole.isNamed_apart {role other : ColorRole}
    (different : role ≠ other) {property : StyleProperty}
    (named : property.isNamed role.name) :
    property.isNamed other.name = false := by
  rw [Bool.eq_false_iff]
  intro otherNamed
  have same : role.name.map Char.toLower = other.name.map Char.toLower := by
    simp only [StyleProperty.isNamed, Text.equalIgnoringCase, beq_iff_eq]
      at named otherNamed
    exact named.symm.trans otherNamed
  revert same different
  cases role <;> cases other <;> decide

/-- The body of that directive, as it stands on its line. -/
def firstBody? (text id : Text) : Option Text :=
  (Text.lines text).tail.findSome? fun line =>
    ((Pattern.styleLine id).atStart? line).map Prod.snd

/-- No semicolon stands inside the body of the first directive, and all its
properties have names. -/
structure HasPlainDirective (text id : Text) : Prop where
  closed : ∀ body ∈ firstBody? text id, ';' ∉ (Text.trim body).dropLast
  named : ∀ directive ∈ firstDirective? text id,
    ∀ property ∈ directive.properties, property.name ≠ []

/-- Whether the first directive of a node sets one of the two colours. -/
def setsColor (text id : Text) : Bool :=
  (firstDirective? text id).any fun directive =>
    directive.properties.any fun property =>
      property.isNamed ColorRole.fill.name ||
        property.isNamed ColorRole.stroke.name

section FirstDirective

variable {text id header line : Text} {before after : List Text}
  {directive : StyleDirective}

namespace IsFirstDirective

theorem firstBody?_eq
    (first : IsFirstDirective text id header before line after directive)
    {indent body : Text}
    (styled : (Pattern.styleLine id).atStart? line = some (indent, body)) :
    firstBody? text id = some body := by
  have unread : ∀ other ∈ before,
      ((Pattern.styleLine id).atStart? other).map Prod.snd = none := by
    intro other member
    rw [Option.map_eq_none_iff]
    exact Option.map_eq_none_iff.mp (first.unstyled other member)
  rw [firstBody?, first.cut, List.tail_cons, List.findSome?_append,
    List.findSome?_eq_none_iff.mpr unread, Option.none_or, List.findSome?_cons,
    styled]
  rfl

theorem isPlain
    (first : IsFirstDirective text id header before line after directive)
    (plain : HasPlainDirective text id) :
    directive.IsPlain := by
  obtain ⟨indent, body, styled, rfl⟩ :=
    StyleDirective.ofLine?_eq_some_iff_styleLine.mp first.read
  have closed := plain.closed body (first.firstBody?_eq styled)
  refine ⟨(Pattern.styleLine_cut styled).2.1,
    StyleDirective.isRead_of_ofLine? first.read, ?_⟩
  intro property among
  have absent := StyleDirective.noSemicolon_of_ofBody closed property among
  exact ⟨plain.named _ first.firstDirective?_eq property among, absent.1,
    absent.2⟩

end IsFirstDirective

theorem StylePlace.isPlain
    (place : StylePlace text id header before directive after)
    (plain : HasPlainDirective text id) :
    directive.IsPlain := by
  cases place with
  | first found => exact found.isPlain plain
  | behind _ _ => exact StyleDirective.isPlain_bare id

theorem StylePlace.not_isNamed
    (place : StylePlace text id header before directive after)
    (colorless : setsColor text id = false) (role : ColorRole) :
    ∀ property ∈ directive.properties, property.isNamed role.name = false := by
  cases place with
  | first found =>
      rw [setsColor, found.firstDirective?_eq, Option.any_some,
        List.any_eq_false] at colorless
      intro property member
      have neither := colorless property member
      rw [Bool.not_eq_true, Bool.or_eq_false_iff] at neither
      cases role with
      | fill => exact neither.1
      | stroke => exact neither.2
  | behind _ _ =>
      intro property member
      cases member

end FirstDirective

section SetColor

variable {text id header line color color' : Text} {before after : List Text}
  {directive : StyleDirective} {role other : ColorRole}

theorem setColor_of_not_isColor (refused : isColor color = false)
    (role : ColorRole) (text id : Text) :
    setColor role text id (some color) = text :=
  setColor_of_refused (by
    rw [Option.all_some, refused, Bool.and_false])

/-- A colour that is refused makes no difference to the other one. -/
theorem setColor_setColor_comm_of_not_isColor (refused : isColor color = false)
    (role other : ColorRole) (text id : Text) (color' : Option Text) :
    setColor role (setColor other text id color') id (some color) =
      setColor other (setColor role text id (some color)) id color' := by
  rw [setColor_of_not_isColor refused, setColor_of_not_isColor refused]

theorem setColor_of_not_references (unmentioned : references text id = false)
    (role : ColorRole) (color : Option Text) :
    setColor role text id color = text :=
  setColor_of_refused (by
    rw [unmentioned, Bool.false_and])

/-- A colour that the directive has already stays when the other one is set. -/
theorem setColor_setColor_of_same
    (first : IsFirstDirective text id header before line after directive)
    (identifies : isWordIdentifier id) (plain : directive.IsPlain)
    (different : role ≠ other)
    (valid : isColor color) (otherValid : isColor color')
    (present : directive.properties.any fun property =>
      property.isNamed role.name || property.isNamed other.name)
    (same : StyleProperty.assign other.name (some (Text.trim color'))
          directive.properties = directive.properties) :
    setColor other (setColor role text id (some color)) id (some color') =
      setColor role text id (some color) := by
  have nonempty := ne_nil_of_isWordIdentifier identifies
  have accepted : (some color').all isColor := otherValid
  by_cases unchanged : StyleProperty.assign role.name (some (Text.trim color))
      directive.properties = directive.properties
  · rw [first.setColor_eq_self nonempty
        (show (some color).all isColor from valid) unchanged,
      first.setColor_eq_self nonempty accepted same]
  · obtain ⟨written, _, again⟩ :=
      first.isWritten_setColor identifies plain role valid unchanged
    apply again.setColor_eq_self nonempty accepted
    have commuted :
        StyleProperty.assign role.name (some (Text.trim color))
            (StyleProperty.assign other.name (some (Text.trim color'))
              directive.properties) =
          StyleProperty.assign other.name (some (Text.trim color'))
            (StyleProperty.assign role.name (some (Text.trim color))
              directive.properties) :=
      StyleProperty.assign_assign_comm
        (fun _ => ColorRole.isNamed_apart different) present
    rw [same] at commuted
    exact commuted.symm

/-- Where the first directive has one of two colours already, they are set in
either order. -/
theorem setColor_setColor_comm_of_present
    (first : IsFirstDirective text id header before line after directive)
    (identifies : isWordIdentifier id) (plain : directive.IsPlain)
    (different : role ≠ other)
    (valid : isColor color) (otherValid : isColor color')
    (present : directive.properties.any fun property =>
      property.isNamed role.name || property.isNamed other.name) :
    setColor other (setColor role text id (some color)) id (some color') =
      setColor role (setColor other text id (some color')) id (some color) := by
  have nonempty := ne_nil_of_isWordIdentifier identifies
  by_cases otherSame : StyleProperty.assign other.name (some (Text.trim color'))
      directive.properties = directive.properties
  · rw [setColor_setColor_of_same first identifies plain different valid
        otherValid present otherSame,
      first.setColor_eq_self nonempty
        (show (some color').all isColor from otherValid) otherSame]
  by_cases same : StyleProperty.assign role.name (some (Text.trim color))
      directive.properties = directive.properties
  · rw [setColor_setColor_of_same first identifies plain different.symm
        otherValid valid (by simpa only [Bool.or_comm] using present) same,
      first.setColor_eq_self nonempty (show (some color).all isColor from valid)
        same]
  · have written :=
      (first.isWritten_setColor identifies plain role valid same).setColor
        identifies (plain.assign role valid) other otherValid
    have otherWritten :=
      (first.isWritten_setColor identifies plain other otherValid
          otherSame).setColor identifies (plain.assign other otherValid) role
        valid
    have commuted :
        (directive.assign role.name (some (Text.trim color))).assign other.name
            (some (Text.trim color')) =
          (directive.assign other.name (some (Text.trim color'))).assign
            role.name (some (Text.trim color)) := by
      simp only [StyleDirective.assign,
        StyleProperty.assign_assign_comm
          (fun _ => ColorRole.isNamed_apart different) present]
    rw [commuted] at written
    exact written.unique otherWritten

/-- Where neither colour is set, the one that is set last stands last. -/
theorem StylePlace.isWritten_setColor_setColor
    (place : StylePlace text id header before directive after)
    (identifies : isWordIdentifier id) (mentioned : references text id)
    (plain : directive.IsPlain) (different : role ≠ other)
    (valid : isColor color) (otherValid : isColor color')
    (colorless : setsColor text id = false) :
    IsWritten
      (setColor other (setColor role text id (some color)) id (some color')) id
      header before
      { directive with
        properties :=
          directive.properties ++
            [⟨role.name, Text.trim color⟩, ⟨other.name, Text.trim color'⟩] }
      after := by
  have unnamed := place.not_isNamed colorless
  have changed :
      StyleProperty.assign role.name (some (Text.trim color))
          directive.properties ≠ directive.properties := by
    simp [StyleProperty.assign_some_of_unnamed (unnamed role)]
  have added :
      StyleProperty.assign other.name (some (Text.trim color'))
          (StyleProperty.assign role.name (some (Text.trim color))
            directive.properties) =
        directive.properties ++
          [⟨role.name, Text.trim color⟩, ⟨other.name, Text.trim color'⟩] :=
    StyleProperty.assign_assign_of_unnamed
      (fun _ => ColorRole.isNamed_apart different) (unnamed role)
      (unnamed other)
  have written :=
    (place.isWritten_setColor identifies mentioned plain role valid
        changed).setColor identifies (plain.assign role valid) other otherValid
  rw [StyleDirective.assign, StyleDirective.assign, added] at written
  exact written

/-- Fill and stroke are set in either order where one of them is there, refused
or not. -/
theorem setColor_setColor_comm_of_setsColor (identifies : isWordIdentifier id)
    (plain : HasPlainDirective text id) (sets : setsColor text id)
    (fill stroke : Text) :
    setColor .fill (setColor .stroke text id (some stroke)) id (some fill) =
      setColor .stroke (setColor .fill text id (some fill)) id
        (some stroke) := by
  cases validFill : isColor fill with
  | false =>
      exact setColor_setColor_comm_of_not_isColor validFill .fill .stroke text
        id _
  | true =>
      cases validStroke : isColor stroke with
      | false =>
          exact (setColor_setColor_comm_of_not_isColor validStroke .stroke .fill
            text id _).symm
      | true =>
          cases found : firstDirective? text id with
          | none =>
              rw [setsColor, found] at sets
              cases sets
          | some directive =>
              obtain ⟨header, before, line, after, first⟩ :=
                exists_isFirstDirective found
              rw [setsColor, found, Option.any_some] at sets
              exact (setColor_setColor_comm_of_present first identifies
                (first.isPlain plain) (show ColorRole.fill ≠ .stroke by decide)
                validFill validStroke sets).symm

end SetColor

/-- Fill and stroke are set in either order where a colour is refused, where
nothing mentions the node, and where its first directive has one of them.
Otherwise the two texts differ in one directive, and in it only by the order of
the two properties at its end. -/
theorem setColor_fill_stroke {text id : Text} (identifies : isWordIdentifier id)
    (plain : HasPlainDirective text id) (fill stroke : Text) :
    let fillLast :=
      setColor .fill (setColor .stroke text id (some stroke)) id (some fill)
    let strokeLast :=
      setColor .stroke (setColor .fill text id (some fill)) id (some stroke)
    (setsColor text id ∨ isColor fill = false ∨ isColor stroke = false ∨
          references text id = false → fillLast = strokeLast) ∧
      (setsColor text id = false → isColor fill → isColor stroke →
        references text id →
        fillLast ≠ strokeLast ∧
          ∃ header before directive after,
            StylePlace text id header before directive after ∧
              IsWritten fillLast id header before
                { directive with
                  properties :=
                    directive.properties ++
                      [⟨ColorRole.stroke.name, Text.trim stroke⟩,
                        ⟨ColorRole.fill.name, Text.trim fill⟩] } after ∧
              IsWritten strokeLast id header before
                { directive with
                  properties :=
                    directive.properties ++
                      [⟨ColorRole.fill.name, Text.trim fill⟩,
                        ⟨ColorRole.stroke.name, Text.trim stroke⟩] }
                after) := by
  intro fillLast strokeLast
  constructor
  · intro excluded
    rcases excluded with sets | refusesFill | refusesStroke | unmentioned
    · exact setColor_setColor_comm_of_setsColor identifies plain sets fill
        stroke
    · exact setColor_setColor_comm_of_not_isColor refusesFill .fill .stroke text
        id _
    · exact (setColor_setColor_comm_of_not_isColor refusesStroke .stroke .fill
        text id _).symm
    · simp only [fillLast, strokeLast, setColor_of_not_references unmentioned]
  · intro colorless validFill validStroke mentioned
    obtain ⟨header, before, directive, after, place⟩ :=
      exists_stylePlace text id
    have plainDirective := place.isPlain plain
    have fillWritten :=
      place.isWritten_setColor_setColor identifies mentioned plainDirective
        (show ColorRole.stroke ≠ .fill by decide) validStroke validFill
        colorless
    have strokeWritten :=
      place.isWritten_setColor_setColor identifies mentioned plainDirective
        (show ColorRole.fill ≠ .stroke by decide) validFill validStroke
        colorless
    refine ⟨?_, header, before, directive, after, place, fillWritten,
      strokeWritten⟩
    intro same
    simp only [fillLast] at same
    rw [same] at fillWritten
    have properties := congrArg StyleDirective.properties
      (fillWritten.directive_unique strokeWritten)
    have names : ColorRole.stroke.name = ColorRole.fill.name :=
      congrArg StyleProperty.name
        (List.cons.inj (List.append_cancel_left properties)).1
    revert names
    decide

/-- The order tells only in the text where the directive of the node has neither
colour. -/
theorem setColor_fill_stroke_loose :
    let colored :=
      "flowchart TD\n  style  A\tFILL : #000 ,, color:a:b ;\r\n".toList
    let colorless := "flowchart TD\n  style  A\tcolor:a:b ;\r\n".toList
    let fillLast :=
      fun text =>
        setColor .fill (setColor .stroke text ['A'] (some "blue".toList)) ['A']
          (some " red".toList)
    let strokeLast :=
      fun text =>
        setColor .stroke (setColor .fill text ['A'] (some " red".toList)) ['A']
          (some "blue".toList)
    fillLast colored = strokeLast colored ∧
      fillLast colorless ≠ strokeLast colorless := by
  intro colored colorless fillLast strokeLast
  have plainColored : HasPlainDirective colored ['A'] :=
    ⟨by decide +kernel, by decide +kernel⟩
  have plainColorless : HasPlainDirective colorless ['A'] :=
    ⟨by decide +kernel, by decide +kernel⟩
  constructor
  · exact (setColor_fill_stroke (by decide) plainColored " red".toList
        "blue".toList).1 (Or.inl (by decide +kernel))
  · exact ((setColor_fill_stroke (by decide) plainColorless " red".toList
        "blue".toList).2 (by decide +kernel) (by decide +kernel)
      (by decide +kernel) (by decide +kernel)).1

end DiagramEdit
