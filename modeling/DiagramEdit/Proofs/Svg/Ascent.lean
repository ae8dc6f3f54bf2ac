import DiagramEdit.Svg.Click
import Mathlib.Data.List.TakeWhile
import Mathlib.Data.Option.Basic

/-!
# Clicks on the way to the selected element

A click selects an element that encloses it.  Each node on the way from the
click to that element selects the same element: what encloses it also encloses
the click, so no other selector and no other group can come first.
-/

namespace DiagramEdit.Svg

theorem Node.isElement_of_attribute? {node : Node} {name value : Text}
    (carried : node.attribute? name = some value) : node.isElement := by
  cases content : node.content with
  | element tag attributes => simp [isElement, content]
  | document | text _ | comment | instruction =>
      simp [attribute?, content] at carried

theorem Node.isElement_of_isLabelledGroup {node : Node}
    (labelled : node.isLabelledGroup) :
    node.isElement := by
  simp only [isLabelledGroup, hasTag, Bool.and_eq_true] at labelled
  exact labelled.1.1.1

theorem Selector.isElement_of_accepts {selector : Selector} {node : Node}
    (accepted : selector.accepts node) : node.isElement := by
  cases selector with
  | hasClass name =>
      obtain ⟨classes, carried, _⟩ := (Option.any_eq_true _ _).mp accepted
      exact Node.isElement_of_attribute? carried
  | idBegins start =>
      obtain ⟨id, carried, _⟩ := (Option.any_eq_true _ _).mp accepted
      exact Node.isElement_of_attribute? carried

namespace Path

variable {inner outer target selected : Path}

theorem upward_of_chain_eq {nodes : List Node} {between further : List Path}
    (cut : chain nodes = between ++ outer :: further) :
    outer.upward = outer :: further := by
  induction nodes generalizing between with
  | nil => simp [chain] at cut
  | cons node above induction =>
      cases between with
      | nil =>
          obtain ⟨rfl, rest⟩ := List.cons.inj cut
          rw [← rest]
          rfl
      | cons first between => exact induction (List.cons.inj cut).2

theorem upward_of_eq_append_cons {between further : List Path}
    (cut : inner.upward = between ++ outer :: further) :
    outer.upward = outer :: further :=
  upward_of_chain_eq cut

theorem mem_upward_iff :
    outer ∈ inner.upward ↔ outer.upward <:+ inner.upward := by
  constructor
  · intro encloses
    obtain ⟨between, further, cut⟩ := List.append_of_mem encloses
    rw [upward_of_eq_append_cons cut, cut]
    exact List.suffix_append _ _
  · intro encloses
    exact encloses.subset (List.mem_cons_self)

section Search

variable {reaches property : Path → Bool}

/-- A search outwards that goes on as long as one property holds ends at the
first path that has the other. -/
theorem find?_takeWhile_eq_some_iff {paths : List Path} :
    (paths.takeWhile reaches).find? property = some outer ↔
      reaches outer ∧ property outer ∧
        ∃ between further, paths = between ++ outer :: further ∧
          ∀ other ∈ between, reaches other ∧ property other = false := by
  rw [List.find?_eq_some_iff_append]
  constructor
  · intro parts
    obtain ⟨has, between, further, cut, others⟩ := parts
    have reached : ∀ other ∈ between ++ outer :: further, reaches other := by
      rw [← cut]
      intro other member
      exact List.mem_takeWhile_imp member
    refine ⟨reached outer (by simp), has, between,
      further ++ paths.dropWhile reaches, ?_, ?_⟩
    · rw [← List.cons_append, ← List.append_assoc, ← cut,
        List.takeWhile_append_dropWhile]
    · intro other member
      exact ⟨reached other (by simp [member]),
        by simpa using others other member⟩
  · intro parts
    obtain ⟨reached, has, between, further, rfl, others⟩ := parts
    refine ⟨has, between, further.takeWhile reaches, ?_, ?_⟩
    · rw [List.takeWhile_append_of_pos fun other member =>
          (others other member).1, List.takeWhile_cons_of_pos reached]
    · intro other member
      simpa using (others other member).2

theorem find?_takeWhile_of_mem_upward
    (found : (target.upward.takeWhile reaches).find? property = some selected)
    (onWay : inner ∈ target.upward) (encloses : selected ∈ inner.upward) :
    (inner.upward.takeWhile reaches).find? property = some selected := by
  obtain ⟨reached, has, between, further, cut, others⟩ :=
    find?_takeWhile_eq_some_iff.mp found
  obtain ⟨before, onward⟩ := mem_upward_iff.mp onWay
  obtain ⟨middle, outward⟩ := mem_upward_iff.mp encloses
  have rest := upward_of_eq_append_cons cut
  have skipped : before ++ middle = between := by
    have same :
        before ++ middle ++ selected.upward = between ++ selected.upward := by
      rw [List.append_assoc, outward, onward, cut, rest]
    exact List.append_cancel_right same
  rw [find?_takeWhile_eq_some_iff]
  refine ⟨reached, has, middle, further, by rw [← outward, rest], ?_⟩
  intro other member
  exact others other (by simp [← skipped, member])

end Search

theorem closest?_eq (selector : Selector) (path : Path) :
    selector.closest? path =
      (path.upward.takeWhile fun _ => true).find? fun outer =>
        selector.accepts outer.node := by
  rw [List.takeWhile_eq_self_iff.mpr (by simp)]
  rfl

theorem closest?_of_mem_upward {selector : Selector}
    (found : selector.closest? target = some selected)
    (onWay : inner ∈ target.upward) (encloses : selected ∈ inner.upward) :
    selector.closest? inner = some selected := by
  rw [closest?_eq] at found ⊢
  exact find?_takeWhile_of_mem_upward found onWay encloses

theorem closest?_eq_none_of_mem_upward {selector : Selector}
    (absent : selector.closest? target = none) (onWay : inner ∈ target.upward) :
    selector.closest? inner = none := by
  rw [Selector.closest?, List.find?_eq_none] at absent ⊢
  intro outer member
  exact absent outer ((mem_upward_iff.mp onWay).subset member)

/-- The selected element is the first one that a selector accepts or, where no
selector accepts one, a labelled group. -/
theorem selected?_eq_some_iff {dialect : Dialect} :
    target.selected? dialect = some selected ↔
      (∃ earlier selector later,
          dialect.selectors = earlier ++ selector :: later ∧
            (∀ other ∈ earlier, other.closest? target = none) ∧
            selector.closest? target = some selected) ∨
        (∀ selector ∈ dialect.selectors, selector.closest? target = none) ∧
          target.labelledGroup? = some selected := by
  rw [selected?, Option.orElse_eq_some, List.findSome?_eq_some_iff,
    List.findSome?_eq_none_iff]
  constructor
  · intro parts
    rcases parts with ⟨earlier, selector, later, order, closest, others⟩ | parts
    · exact Or.inl ⟨earlier, selector, later, order, others, closest⟩
    · exact Or.inr parts
  · intro parts
    rcases parts with ⟨earlier, selector, later, order, others, closest⟩ | parts
    · exact Or.inl ⟨earlier, selector, later, order, closest, others⟩
    · exact Or.inr parts

/-- Whatever a click selects is an element that encloses it, and every node on
the way there selects the same element. -/
theorem selected?_of_mem_upward {dialect : Dialect}
    (found : target.selected? dialect = some selected) :
    selected.node.isElement ∧ selected ∈ target.upward ∧
      ∀ inner ∈ target.upward, selected ∈ inner.upward →
        inner.selected? dialect = some selected := by
  rcases selected?_eq_some_iff.mp found with
    ⟨earlier, selector, later, order, others, closest⟩ | ⟨unselected, group⟩
  · obtain ⟨_, accepted, _⟩ :=
      find?_takeWhile_eq_some_iff.mp
        ((closest?_eq selector target).symm.trans closest)
    refine ⟨Selector.isElement_of_accepts accepted,
      List.mem_of_find?_eq_some closest, ?_⟩
    intro inner onWay encloses
    refine selected?_eq_some_iff.mpr
      (Or.inl ⟨earlier, selector, later, order, ?_, ?_⟩)
    · intro other member
      exact closest?_eq_none_of_mem_upward (others other member) onWay
    · exact closest?_of_mem_upward closest onWay encloses
  · have inReach := List.mem_of_find?_eq_some group
    obtain ⟨_, labelled, _⟩ := find?_takeWhile_eq_some_iff.mp group
    refine ⟨Node.isElement_of_isLabelledGroup labelled,
      (List.takeWhile_prefix _).subset inReach, ?_⟩
    intro inner onWay encloses
    refine selected?_eq_some_iff.mpr (Or.inr ⟨?_, ?_⟩)
    · intro selector member
      exact closest?_eq_none_of_mem_upward (unselected selector member) onWay
    · exact find?_takeWhile_of_mem_upward group onWay encloses

/-- The shape of a sketched node, which a later selector accepts, around its
label. -/
def sketchedGroup : Node :=
  .mk 3 (.element "g".toList [⟨none, "class".toList, "rough-node".toList⟩])
    [.mk 4 (.text "Go".toList) []]

/-- A node that is drawn with a sketched shape. -/
def sketchedElement : Node :=
  .mk 2 (.element "g".toList [⟨none, "class".toList, "default node".toList⟩])
    [sketchedGroup]

def sketchedSvg : Node :=
  .mk 1 (.element "svg".toList []) [sketchedElement]

def sketchedDocument : Node :=
  .mk 0 .document [sketchedSvg]

def sketchedNode : Path :=
  ⟨sketchedElement, [sketchedSvg, sketchedDocument]⟩

def sketchedShape : Path :=
  ⟨sketchedGroup, sketchedElement :: sketchedNode.above⟩

/-- The label of the sketched node. -/
def sketchedLabel : Path :=
  ⟨.mk 4 (.text "Go".toList) [], sketchedGroup :: sketchedShape.above⟩

theorem selected?_of_mem_upward_sketched :
    sketchedLabel ∈ within [] sketchedDocument ∧
      sketchedLabel.selected? .flowchart = some sketchedNode ∧
      sketchedShape ∈ sketchedLabel.upward ∧
      sketchedShape.selected? .flowchart = some sketchedNode := by
  have found : sketchedLabel.selected? .flowchart = some sketchedNode := rfl
  have onWay : sketchedShape ∈ sketchedLabel.upward :=
    List.mem_cons_of_mem _ (List.mem_cons_self)
  have encloses : sketchedNode ∈ sketchedShape.upward :=
    List.mem_cons_of_mem _ (List.mem_cons_self)
  have inDocument : sketchedLabel ∈ within [] sketchedDocument := by
    simp [sketchedLabel, sketchedShape, sketchedNode, sketchedDocument,
      sketchedSvg, sketchedElement, sketchedGroup, within, withinAll]
  exact ⟨inDocument, found, onWay,
    (selected?_of_mem_upward found).2.2 sketchedShape onWay encloses⟩

end Path

end DiagramEdit.Svg
