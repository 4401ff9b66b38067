/-!
# Kinds and flags of template nodes

A template node (`TNode`) is a text node, an element, a `<ng-template>` container anchor, an
`<ng-container>`, a projection slot or an ICU container. Its static flags are written only while
the template's first creation pass registers it; they are kept as the raw bit set that dumps
show.
-/

namespace ViewHydration

/-- Kind of a template node. -/
inductive TNodeType where
  | text
  | element
  | container
  | elementContainer
  | projection
  | icuContainer
  deriving DecidableEq, Repr, Inhabited

namespace TNodeType

/-- The kind's name in messages and dumps. -/
def name : TNodeType → String
  | .text => "Text"
  | .element => "Element"
  | .container => "Container"
  | .elementContainer => "ElementContainer"
  | .projection => "Projection"
  | .icuContainer => "IcuContainer"

end TNodeType

instance : ToString TNodeType := ⟨TNodeType.name⟩

/-- Kind of a compiled template. -/
inductive TViewKind where
  | root
  | component
  | embedded
  deriving DecidableEq, Repr, Inhabited

namespace TViewKind

/-- The kind's name in dumps. -/
def name : TViewKind → String
  | .root => "Root"
  | .component => "Component"
  | .embedded => "Embedded"

end TViewKind

/-- Static flags of a template node, as a bit set. -/
structure TNodeFlags where
  bits : Nat := 0
  deriving DecidableEq, Repr, Inhabited

namespace TNodeFlags

/-- A directive matched the node. -/
def directiveHost : TNodeFlags := ⟨1⟩
/-- A matched directive queries the node's content. -/
def contentQuery : TNodeFlags := ⟨2⟩
/-- The node is not attached to the document (a translation dropped it). -/
def detached : TNodeFlags := ⟨4⟩
/-- The node is projected content. -/
def projected : TNodeFlags := ⟨8⟩
/-- The node was produced inside an i18n block. -/
def inI18n : TNodeFlags := ⟨16⟩
/-- An `<ng-container>` that also anchors a view container. -/
def viewContainerAnchor : TNodeFlags := ⟨32⟩
/-- The element opts its subtree out of hydration. -/
def skipHydration : TNodeFlags := ⟨64⟩

/-- Union of two flag sets. -/
def union (a b : TNodeFlags) : TNodeFlags := ⟨a.bits ||| b.bits⟩

/-- Whether every flag of `f` is set in `a`. -/
def has (a f : TNodeFlags) : Bool := a.bits &&& f.bits == f.bits

end TNodeFlags

end ViewHydration
