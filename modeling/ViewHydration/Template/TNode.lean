import ViewHydration.Handle
import ViewHydration.Template.Kind
import ViewHydration.I18n.Plan

/-!
# Template nodes and compiled blocks

A `TNode` is the static description of one node of a template, shared by every view of the
template. Its `parent`, `child` and `next` links form the template's tree: `child` is the first
node created while the node was open, `next` the node created after it at the same level. Nodes
of translated blocks also carry a `parent` but stay out of the `child`/`next` chain.

A translated block compiles to its nodes in message order and the update operations that
recompute its text nodes; a translated attribute list compiles to the attributes without
expressions and the operations for the others.
-/

namespace ViewHydration

/-- Static description of one node of a template. -/
structure TNode where
  type : TNodeType
  index : Nat
  parent : Option Nat
  child : Option Nat := none
  next : Option Nat := none
  flags : TNodeFlags := {}
  /-- Tag name of an element, `ng-container` or `ng-template`. -/
  tag : Option String := none
  /-- Static text of a text node. -/
  value : Option String := none
  attrs : List (String × String) := []
  localNames : List String := []
  /-- Template declared by a container anchor. -/
  tview : Option TViewId := none
  deriving DecidableEq, Repr, Inhabited

namespace TNode

/-- Value of a static attribute. -/
def attr? (t : TNode) (key : String) : Option String := (t.attrs.find? (·.1 == key)).map (·.2)

/-- Whether every flag of `f` is set on the node. -/
def has (t : TNode) (f : TNodeFlags) : Bool := t.flags.has f

end TNode

/-- Kind of a node of a translated block. -/
inductive I18nNodeKind where
  | text
  | element
  | template
  deriving DecidableEq, Repr, Inhabited

/-- Name of a block node kind, as dumps show it. -/
def I18nNodeKind.name : I18nNodeKind → String
  | .text => "Text"
  | .element => "Element"
  | .template => "Template"

/-- A node of a translated block, in message order. -/
structure I18nNode where
  kind : I18nNodeKind
  index : Nat
  parent : Option Nat
  deriving DecidableEq, Repr, Inhabited

/-- What an update operation rewrites: a text node, or an attribute of an element. -/
inductive I18nTarget where
  | text (slot : Nat)
  | attribute (element : Nat) (name : String)
  deriving DecidableEq, Repr, Inhabited

/-- Recomputes one target when an expression of `mask` changed. -/
structure I18nUpdateOp where
  target : I18nTarget
  parts : List I18nPart
  mask : UInt32
  deriving DecidableEq, Repr, Inhabited

/-- A compiled translated block. -/
structure I18nBlock where
  nodes : List I18nNode := []
  update : List I18nUpdateOp := []
  deriving DecidableEq, Repr, Inhabited

/-- A compiled translated attribute list of one element. -/
structure I18nAttributesBlock where
  element : Nat
  statics : List (String × String) := []
  update : List I18nUpdateOp := []
  deriving DecidableEq, Repr, Inhabited

/-- One entry of a template's data: nothing yet (or a binding slot), a node, or a block. -/
inductive TData where
  | empty
  | node (t : TNode)
  | i18n (b : I18nBlock)
  | i18nAttributes (b : I18nAttributesBlock)
  deriving DecidableEq, Repr, Inhabited

end ViewHydration
