import DiagramEdit.Text.WhiteSpace

/-!
# Nodes of a drawing

A drawing is a tree of elements, texts, comments and processing instructions
below one document node.  A click is a path in that tree: the node and the nodes
that enclose it, innermost first.
-/

namespace DiagramEdit.Svg

/-- An attribute, with the namespace of its name if that has one. -/
structure Attribute where
  space : Option Text
  name : Text
  value : Text
deriving DecidableEq, Repr

/-- What a node is, apart from its place in the tree. -/
inductive Content where
  | document
  | element (tag : Text) (attributes : List Attribute)
  | text (content : Text)
  | comment
  | instruction
deriving DecidableEq, Repr

/-- A node: its position in document order, its content and its children. -/
inductive Node where
  | mk (position : Nat) (content : Content) (children : List Node)

namespace Node

def position : Node → Nat
  | .mk position _ _ => position

def content : Node → Content
  | .mk _ content _ => content

def children : Node → List Node
  | .mk _ _ children => children

def isElement (node : Node) : Bool :=
  match node.content with
  | .element _ _ => true
  | _ => false

/-- The local name of an element; other nodes have the empty one. -/
def tag (node : Node) : Text :=
  match node.content with
  | .element tag _ => tag
  | _ => []

def hasTag (node : Node) (tag : Text) : Bool :=
  node.isElement && node.tag == tag

/-- The value of an attribute without a namespace. -/
def attribute? (node : Node) (name : Text) : Option Text :=
  match node.content with
  | .element _ attributes =>
      (attributes.find? fun candidate =>
        candidate.space.isNone && candidate.name == name).map Attribute.value
  | _ => none

def id? (node : Node) : Option Text :=
  node.attribute? "id".toList

/-- Whether the name is one of the words of the `class` attribute. -/
def hasClass (node : Node) (name : Text) : Bool :=
  (node.attribute? "class".toList).any fun classes =>
    (Text.words classes).contains name

mutual

/-- The node and everything below it, in document order. -/
def subtree : Node → List Node
  | .mk position content children =>
      .mk position content children :: forest children

/-- The nodes and everything below them, in document order. -/
def forest : List Node → List Node
  | [] => []
  | node :: rest => subtree node ++ forest rest

end

/-- Everything below the node, in document order. -/
def descendants (node : Node) : List Node :=
  forest node.children

mutual

/-- The first accepted node of a subtree, in document order. -/
def search? (accepts : Node → Bool) : Node → Option Node
  | .mk position content children =>
      if accepts (.mk position content children) then
        some (.mk position content children)
      else
        searchForest? accepts children

/-- The first accepted node of several subtrees, in document order. -/
def searchForest? (accepts : Node → Bool) : List Node → Option Node
  | [] => none
  | node :: rest => search? accepts node <|> searchForest? accepts rest

end

mutual

/-- A search looks at the nodes of the subtree in order. -/
theorem search?_eq_find? (accepts : Node → Bool) (node : Node) :
    search? accepts node = (subtree node).find? accepts := by
  cases node with
  | mk position content children =>
      by_cases accepted : accepts (.mk position content children)
      · simp [search?, subtree, accepted]
      · simp [search?, subtree, accepted,
          searchForest?_eq_find? accepts children]

/-- A search looks at the nodes of the subtrees in order. -/
theorem searchForest?_eq_find? (accepts : Node → Bool) (nodes : List Node) :
    searchForest? accepts nodes = (forest nodes).find? accepts := by
  cases nodes with
  | nil => rfl
  | cons node rest =>
      simp [searchForest?, forest, search?_eq_find? accepts node,
        searchForest?_eq_find? accepts rest, Option.orElse_eq_or,
        List.find?_append]

end

/-- The first element of that tag below the node. -/
def firstBelow? (node : Node) (tag : Text) : Option Node :=
  searchForest? (·.hasTag tag) node.children

theorem firstBelow?_eq_find? (node : Node) (tag : Text) :
    node.firstBelow? tag = node.descendants.find? (·.hasTag tag) :=
  searchForest?_eq_find? _ _

/-- The texts of the node and of everything below it, joined. -/
def textContent (node : Node) : Text :=
  node.subtree.flatMap fun inner =>
    match inner.content with
    | .text content => content
    | _ => []

end Node

/-- A node and the nodes that enclose it, innermost first. -/
structure Path where
  node : Node
  above : List Node

namespace Path

/-- The paths of a chain of enclosing nodes, innermost first. -/
def chain : List Node → List Path
  | [] => []
  | node :: above => ⟨node, above⟩ :: chain above

/-- The path itself and the paths of all enclosing nodes, innermost first. -/
def upward (path : Path) : List Path :=
  chain (path.node :: path.above)

/-- The innermost enclosing element, the node itself left out. -/
def parentElement? (path : Path) : Option Node :=
  path.above.find? Node.isElement

mutual

/-- The paths of a node and of everything below it, in document order. -/
def within (above : List Node) : Node → List Path
  | .mk position content children =>
      let node := Node.mk position content children
      ⟨node, above⟩ :: withinAll (node :: above) children

/-- The paths of the nodes and of everything below them, in document order. -/
def withinAll (above : List Node) : List Node → List Path
  | [] => []
  | node :: rest => within above node ++ withinAll above rest

end

end Path

/-- A document is its topmost node. -/
structure Document where
  top : Node

namespace Document

/-- The paths of all nodes, in document order. -/
def paths (document : Document) : List Path :=
  Path.within [] document.top

/-- The first element with that `id`. -/
def findById? (document : Document) (id : Text) : Option Path :=
  document.paths.find? fun path => path.node.id? == some id

end Document

end DiagramEdit.Svg
