import ViewHydration.Dom.Node

/-!
# Arena documents

A `Document` is an array of `Node`s indexed by `NodeId`. Creation appends to the array, so ids
are handed out in creation order and never reused; every other operation edits the links of
existing nodes. The tree operations keep the usual doubly linked child lists: a parent's first
and last child, and each child's previous and next sibling.

Inserting a node first detaches it, so a node that is already attached is moved. A reference
node that is not a child of the new parent (or is the inserted node itself) is ignored and the
node is appended; inserting a node into itself does nothing.
-/

namespace ViewHydration

/-- An arena of nodes; a node's id is its position in `nodes`. -/
structure Document where
  nodes : Array Node := #[]
  deriving Inhabited

namespace Document

/-- Number of nodes ever created in the document. -/
def size (d : Document) : Nat := d.nodes.size

/-- The node with the given id, if the document has one. -/
def get? (d : Document) (id : NodeId) : Option Node := d.nodes[id.idx]?

/-- Whether the id names a node of the document. -/
def contains (d : Document) (id : NodeId) : Bool := id.idx < d.nodes.size

/-- Appends a node to the arena and returns its id. -/
def push (d : Document) (n : Node) : Document × NodeId :=
  ({ nodes := d.nodes.push n }, ⟨d.nodes.size⟩)

/-- Creates a detached element. -/
def createElement (d : Document) (tag : String) : Document × NodeId := d.push (.element tag)

/-- Creates a detached text node. -/
def createText (d : Document) (data : String) : Document × NodeId := d.push (.text data)

/-- Creates a detached comment. -/
def createComment (d : Document) (data : String) : Document × NodeId := d.push (.comment data)

/-- Applies `f` to one node; ids outside the arena are left alone. -/
def modify (d : Document) (id : NodeId) (f : Node → Node) : Document :=
  { nodes := d.nodes.modify id.idx f }

/-- Kind of a node. -/
def kind? (d : Document) (id : NodeId) : Option NodeKind := (d.get? id).map (·.kind)

/-- Tag name of an element; other kinds have none. -/
def tagName? (d : Document) (id : NodeId) : Option String :=
  match d.get? id with
  | some n => if n.isElement then some n.name else none
  | none => none

/-- Character data of a text node or comment; elements have none. -/
def data? (d : Document) (id : NodeId) : Option String :=
  match d.get? id with
  | some n => if n.isElement then none else some n.data
  | none => none

/-- Value of a node's attribute. -/
def attribute? (d : Document) (id : NodeId) (key : String) : Option String :=
  (d.get? id).bind (·.attr? key)

/-- All attributes of a node, in order. -/
def attributes (d : Document) (id : NodeId) : List (String × String) :=
  match d.get? id with
  | some n => n.attrs
  | none => []

/-- Parent of a node. -/
def parent? (d : Document) (id : NodeId) : Option NodeId := (d.get? id).bind (·.parent)

/-- First child of a node. -/
def firstChild? (d : Document) (id : NodeId) : Option NodeId := (d.get? id).bind (·.firstChild)

/-- Last child of a node. -/
def lastChild? (d : Document) (id : NodeId) : Option NodeId := (d.get? id).bind (·.lastChild)

/-- Next sibling of a node. -/
def nextSibling? (d : Document) (id : NodeId) : Option NodeId :=
  (d.get? id).bind (·.nextSibling)

/-- Previous sibling of a node. -/
def prevSibling? (d : Document) (id : NodeId) : Option NodeId :=
  (d.get? id).bind (·.prevSibling)

/-- The chain of next siblings starting at `start`, at most `fuel` long. -/
def siblingChain (d : Document) : Nat → Option NodeId → List NodeId
  | 0, _ => []
  | _, none => []
  | fuel + 1, some c => c :: d.siblingChain fuel (d.nextSibling? c)

/-- Children of a node in order. A child list never holds more nodes than the arena, so the
arena size bounds the walk. -/
def children (d : Document) (id : NodeId) : List NodeId :=
  d.siblingChain d.size (d.firstChild? id)

/-- Position of a node among its parent's children. -/
def childPosition? (d : Document) (id : NodeId) : Option Nat :=
  match d.parent? id with
  | some p => (d.children p).idxOf? id
  | none => none

/-- Unlinks a node from its parent; a detached node is left as it is. -/
def detach (d : Document) (id : NodeId) : Document :=
  match d.get? id with
  | none => d
  | some n =>
    match n.parent with
    | none => d
    | some p =>
      let prev := n.prevSibling
      let next := n.nextSibling
      let d := match prev with
        | some q => d.modify q fun m => { m with nextSibling := next }
        | none => d.modify p fun m => { m with firstChild := next }
      let d := match next with
        | some q => d.modify q fun m => { m with prevSibling := prev }
        | none => d.modify p fun m => { m with lastChild := prev }
      d.modify id fun m => { m with parent := none, prevSibling := none, nextSibling := none }

/-- Inserts `child` under `parent` before `ref`, or last when `ref` is absent. The child is
detached first. A reference that is the child itself or not a child of `parent` counts as
absent. Missing nodes, and a node inserted into itself, leave the document unchanged. -/
def insertBefore (d : Document) (parent child : NodeId) (ref : Option NodeId) : Document :=
  if !d.contains parent || !d.contains child || parent == child then d
  else
    let ref := ref.filter fun r => r != child && d.parent? r == some parent
    let d := d.detach child
    match ref with
    | some r =>
      let prev := d.prevSibling? r
      let d := d.modify child fun m =>
        { m with parent := some parent, prevSibling := prev, nextSibling := some r }
      let d := d.modify r fun m => { m with prevSibling := some child }
      match prev with
      | some q => d.modify q fun m => { m with nextSibling := some child }
      | none => d.modify parent fun m => { m with firstChild := some child }
    | none =>
      let last := d.lastChild? parent
      let d := d.modify child fun m =>
        { m with parent := some parent, prevSibling := last, nextSibling := none }
      let d := match last with
        | some q => d.modify q fun m => { m with nextSibling := some child }
        | none => d.modify parent fun m => { m with firstChild := some child }
      d.modify parent fun m => { m with lastChild := some child }

/-- Appends `child` as the last child of `parent`, moving it if it is attached elsewhere. -/
def appendChild (d : Document) (parent child : NodeId) : Document :=
  d.insertBefore parent child none

/-- Detaches every child of a node. -/
def clearChildren (d : Document) (id : NodeId) : Document :=
  (d.children id).foldl detach d

/-- Replaces the character data of a text node or comment; elements are left alone. -/
def setData (d : Document) (id : NodeId) (value : String) : Document :=
  d.modify id fun n => if n.isElement then n else { n with data := value }

/-- Sets an attribute of an element in place, or appends it when new; other kinds are left
alone. -/
def setAttribute (d : Document) (id : NodeId) (key value : String) : Document :=
  d.modify id fun n =>
    if !n.isElement then n
    else { n with attrs := setAttr n.attrs }
where
  /-- Replaces the first entry named `key`, or appends one. -/
  setAttr : List (String × String) → List (String × String)
    | [] => [(key, value)]
    | kv :: rest => if kv.1 == key then (key, value) :: rest else kv :: setAttr rest

/-- Removes every attribute with the given name. -/
def removeAttribute (d : Document) (id : NodeId) (key : String) : Document :=
  d.modify id fun n => { n with attrs := n.attrs.filter (·.1 != key) }

end Document

end ViewHydration
