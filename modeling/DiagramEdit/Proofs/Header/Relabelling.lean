import DiagramEdit.Proofs.Header.Survival
import DiagramEdit.Proofs.Text.Replacement

/-!
# When a label edit keeps the dialect

A label that is written where it is declared stands behind the header, so
changing it there leaves the dialect of the text.  Where no declaration carries
the label, it is replaced wherever it stands, and that may be in the header
itself: the dialect is kept if every occurrence stands behind the opening of the
text.
-/

namespace DiagramEdit

namespace IsOpening

variable {dialect : Dialect} {opening text before rest : Text}

theorem isPrefix_of_state (opens : IsOpening .states opening) {space : Text}
    (begins : opening <+: before ++ ("state".toList ++ (space ++ rest)))
    (ends : Text.endsInWord before = false) (nonempty : space ≠ [])
    (spaces : ∀ character ∈ space, Text.isSpace character) :
    opening <+: before := by
  refine opens.isPrefix_of_boundary begins ends rfl ?_
  intro word entry isPrefix
  have long : word.length = "statediagram".length := by
    have table :
        ∀ entry ∈ headerKeywords, entry.2 = .states → entry.1.length = 12 := by
      decide
    have lowered := table _ entry rfl
    rwa [Text.lower, List.length_map] at lowered
  rcases Text.isPrefix_append_cases isPrefix with inside | ⟨more, rfl, beyond⟩
  · have short := inside.length_le
    rw [long] at short
    exact absurd short (by decide)
  · obtain ⟨blank, space, rfl⟩ := List.exists_cons_of_ne_nil nonempty
    cases more with
    | nil => exact absurd long (by decide)
    | cons letter more =>
        obtain ⟨rfl, _⟩ := List.cons_prefix_cons.mp beyond
        have isWord : Text.isWordCharacter letter :=
          isWordCharacter_of_mem_keyword entry (by simp)
        rw [Text.not_isWordCharacter_of_isSpace (spaces letter (by simp))]
          at isWord
        cases isWord

/-- A word that declares a participant begins no keyword of a sequence
diagram. -/
theorem isPrefix_of_participant (opens : IsOpening .sequence opening)
    {word before rest : Text} (begins : opening <+: before ++ (word ++ rest))
    (ends : Text.endsInWord before = false)
    (isKeyword : IsParticipantWord word) :
    opening <+: before := by
  have table :
      ∀ word ∈ ["participant".toList, "actor".toList], ∀ entry ∈ headerKeywords,
        entry.2 = .sequence → entry.1.head? ≠ (Text.lower word).head? := by
    decide
  refine opens.isPrefix_of_other_word begins ends ?_ fun keyword entry =>
    table word (by simpa [IsParticipantWord] using isKeyword)
      (keyword, .sequence) entry rfl
  rcases isKeyword with rfl | rfl <;> decide

/-- A label that is changed in its declaration stands behind the opening. -/
theorem isPrefix_relabelDeclaration (opens : IsOpening dialect opening)
    (begins : opening <+: text) {id old new edited : Text}
    (changed : relabelDeclaration? text dialect id old new = some edited) :
    opening <+: edited := by
  cases dialect with
  | sequence =>
      obtain ⟨found, searched, rfl⟩ := Option.map_eq_some_iff.mp changed
      obtain ⟨before, keyword, gap, rest, cuts, ends, isKeyword⟩ :=
        Pattern.exists_of_aliasOfParticipant searched
      have kept : opening <+: before := by
        rw [cuts.text_eq] at begins
        simp only [List.append_assoc] at begins
        exact opens.isPrefix_of_participant begins ends isKeyword
      rw [cuts.replace_eq, List.append_assoc, List.append_assoc]
      exact kept.trans (List.prefix_append _ _)
  | states =>
      rcases (Option.orElse_eq_some _ _ _).mp changed with
        described | ⟨_, afterColon⟩
      · obtain ⟨found, searched, rfl⟩ := Option.map_eq_some_iff.mp described
        obtain ⟨before, space, rest, cuts, ends, ⟨nonempty, spaces⟩, _⟩ :=
          Pattern.exists_of_labelOfState searched
        have kept : opening <+: before := by
          rw [cuts.text_eq] at begins
          simp only [List.append_assoc] at begins
          exact opens.isPrefix_of_state begins ends nonempty spaces
        rw [cuts.replace_eq, List.append_assoc, List.append_assoc]
        exact kept.trans (List.prefix_append _ _)
      · obtain ⟨found, searched, rfl⟩ := Option.map_eq_some_iff.mp afterColon
        obtain ⟨before, blanks, rest, cuts, _⟩ :=
          Pattern.exists_of_labelAfterColon searched
        have absent : ':' ∉ opening :=
          opens.not_mem_of_separates (by decide) (by decide +kernel)
        rw [cuts.text_eq, List.append_assoc, List.append_assoc,
          List.cons_append, Text.isPrefix_append_cons_iff absent] at begins
        rw [cuts.replace_eq, List.append_assoc, List.append_assoc]
        exact begins.trans (List.prefix_append _ _)
  | _ => cases changed

end IsOpening

theorem declaredDialect?_updateLabel (text id label : Text) :
    declaredDialect? (updateLabel text id label) = declaredDialect? text := by
  apply Option.ext
  intro dialect
  simp only [declaredDialect?_eq_some_iff]
  constructor
  · intro parts
    obtain ⟨opening, opens, begins⟩ := parts
    exact ⟨opening, opens,
      (opens.isPrefix_updateLabel_iff text id label).mp begins⟩
  · intro parts
    obtain ⟨opening, opens, begins⟩ := parts
    exact ⟨opening, opens,
      (opens.isPrefix_updateLabel_iff text id label).mpr begins⟩

/-- Wherever the label stands in the text, it is behind the opening. -/
def StandsBehindHeader (label text : Text) : Prop :=
  ∀ opening, IsOpening (detect text) opening → opening <+: text →
    ∀ before after, text = before ++ label ++ after → opening <+: before

theorem standsBehindHeader_iff {label text opening : Text}
    (opens : IsOpening (detect text) opening) (begins : opening <+: text) :
    StandsBehindHeader label text ↔
      ∀ start < opening.length, ¬label <+: text.drop start := by
  constructor
  · intro behind start inside occurs
    obtain ⟨after, split⟩ := occurs
    have cut : text = text.take start ++ label ++ after := by
      rw [List.append_assoc, split, List.take_append_drop]
    have long := (behind opening opens begins _ after cut).length_le
    rw [List.length_take] at long
    omega
  · intro apart another otherOpens otherBegins before after cut
    obtain rfl := opens.eq_of_isPrefix otherOpens begins otherBegins
    have inText : before <+: text := by
      rw [cut, List.append_assoc]
      exact List.prefix_append _ _
    rcases Nat.lt_or_ge before.length opening.length with inside | behind
    · have occurs : label <+: text.drop before.length := by
        rw [cut, List.append_assoc, List.drop_left]
        exact List.prefix_append _ _
      exact absurd occurs (apart before.length inside)
    · exact List.prefix_of_prefix_length_le begins inText behind

theorem StandsBehindHeader.isPrefix_replaceAll {old new text opening : Text}
    (behind : StandsBehindHeader old text)
    (opens : IsOpening (detect text) opening) (begins : opening <+: text) :
    opening <+: Text.replaceAll old new text := by
  obtain ⟨rest, split⟩ := begins
  have spared : ∀ before after, opening ++ rest = before ++ old ++ after →
      opening <+: before := by
    intro before after cut
    exact behind opening opens ⟨rest, split⟩ before after (split ▸ cut)
  rw [← split, Text.replaceAll_append_of_behind spared]
  exact List.prefix_append _ _

/-- A label edit keeps the dialect of the text, unless no declaration carries
the label and the label reaches into the header. -/
theorem detect_relabel {text id old new : Text}
    (spared : detect text = .flowchart ∨
      (relabelDeclaration? text (detect text) id old new).isSome ∨
      StandsBehindHeader old text) :
    detect (relabel text (detect text) id old new) = detect text := by
  cases accepted : old == new || new.any isLineBreak with
  | true => rw [relabel_of_refused accepted]
  | false =>
      by_cases flowchart : detect text = .flowchart
      · rw [flowchart, relabel_flowchart accepted, detect,
          declaredDialect?_updateLabel, ← detect, flowchart]
      · obtain ⟨opening, opens, begins⟩ := exists_opening_of_detect_ne flowchart
        apply detect_eq_of_isPrefix opens
        cases changed : relabelDeclaration? text (detect text) id old new with
        | some edited =>
            rw [relabel_of_declared accepted changed]
            exact opens.isPrefix_relabelDeclaration begins changed
        | none =>
            have behind : StandsBehindHeader old text := by
              rcases spared with isFlowchart | declared | behind
              · exact absurd isFlowchart flowchart
              · rw [changed] at declared
                cases declared
              · exact behind
            rw [relabel_of_undeclared accepted flowchart changed]
            by_cases empty : old = []
            · rwa [if_pos empty]
            · rw [if_neg empty]
              exact behind.isPrefix_replaceAll opens begins

/-- The new label of a class is itself the keyword of another dialect. -/
theorem detect_relabel_class :
    let text := "classDiagram\n    class Animal\n    Animal <|-- Dog\n".toList
    StandsBehindHeader "Animal".toList text ∧
      relabel text (detect text) "Animal".toList "Animal".toList "pie".toList =
        "classDiagram\n    class pie\n    pie <|-- Dog\n".toList ∧
      detect (relabel text (detect text) "Animal".toList "Animal".toList
          "pie".toList) = detect text := by
  intro text
  have dialect : detect text = .classes := by decide +kernel
  have opens : IsOpening (detect text) "classDiagram".toList := by
    rw [dialect]
    exact ⟨[], _, rfl, by simp, by decide⟩
  have behind : StandsBehindHeader "Animal".toList text :=
    (standsBehindHeader_iff opens (by decide)).mpr (by decide)
  exact ⟨behind, by decide +kernel, detect_relabel (Or.inr (Or.inr behind))⟩

/-- An alias that is also a part of the header's word is changed where it is
declared. -/
example :
    let text := "sequenceDiagram\n    participant D as Diagram\n".toList
    relabel text (detect text) "D".toList "Diagram".toList "Chart".toList =
      "sequenceDiagram\n    participant D as Chart\n".toList := by
  decide +kernel

/-- A node of a mind map whose label is the beginning of the header: replacing
it everywhere turns the text into a flowchart. -/
theorem detect_relabel_ne_of_header :
    ¬∀ text id old new : Text, Text.isBlank old = false →
      Text.isBlank new = false → old.any isLineBreak = false →
      new.any isLineBreak = false →
      detect (relabel text (detect text) id old new) = detect text := by
  intro kept
  have broken :=
    kept "mindmap\n  root((map))\n".toList "map".toList "map".toList
      "plan".toList (by decide) (by decide) (by decide) (by decide)
  revert broken
  decide +kernel

end DiagramEdit
