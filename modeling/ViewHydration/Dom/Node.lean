/-!
# Document nodes

A document is an arena of nodes addressed by `NodeId`. A node is an element, a text node or a
comment; it carries its tree links (parent, first and last child, previous and next sibling), its
tag name, its character data and its attributes in the order they were first set.
-/

namespace ViewHydration

/-- Index of a node in its document's arena. Ids count up from zero and are never reused. -/
structure NodeId where
  idx : Nat
  deriving DecidableEq, Repr, Hashable, Ord, Inhabited

instance : ToString NodeId := ⟨fun n => s!"node#{n.idx}"⟩

/-- The three kinds of node a document holds. -/
inductive NodeKind where
  | element
  | text
  | comment
  deriving DecidableEq, Repr, Inhabited

namespace NodeKind

/-- Lower-case name of the kind, as used in messages and dumps. -/
def name : NodeKind → String
  | .element => "element"
  | .text => "text"
  | .comment => "comment"

end NodeKind

/-- One node of the arena with its tree links. -/
structure Node where
  kind : NodeKind
  parent : Option NodeId := none
  firstChild : Option NodeId := none
  lastChild : Option NodeId := none
  prevSibling : Option NodeId := none
  nextSibling : Option NodeId := none
  /-- Tag name of an element, empty for other kinds. -/
  name : String := ""
  /-- Character data of a text or comment node, empty for elements. -/
  data : String := ""
  attrs : List (String × String) := []
  deriving Repr, Inhabited

namespace Node

/-- A fresh, detached element. -/
def element (tag : String) : Node := { kind := .element, name := tag }

/-- A fresh, detached text node. -/
def text (data : String) : Node := { kind := .text, data := data }

/-- A fresh, detached comment. -/
def comment (data : String) : Node := { kind := .comment, data := data }

/-- Whether the node is an element. -/
def isElement (n : Node) : Bool := n.kind == .element

/-- Value of the first attribute with the given name. -/
def attr? (n : Node) (key : String) : Option String :=
  (n.attrs.find? (·.1 == key)).map (·.2)

end Node

end ViewHydration
