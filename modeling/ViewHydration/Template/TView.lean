import ViewHydration.Template.TNode
import ViewHydration.Template.Program
import ViewHydration.I18n.Localize
import ViewHydration.Error

/-!
# Templates

A `TView` is the shared, static half of a template. Its data has one entry per slot: the
template's `decls` node slots, then `vars` binding slots, then expando slots that translated
blocks add for their text nodes. The first creation pass registers the nodes; once it succeeds
the template is frozen and later passes only read it.

Registering a node links it after the current position: under the current node when that node
is open (only if the current node has no child yet), otherwise as the current node's `next`.
The first node registered with no current position is the template's first child.
-/

namespace ViewHydration

/-- An entry of a template's constant pool. -/
inductive Const where
  | attrs (attrs : List (String × String))
  | localRefs (names : List String)
  | message (text : String)
  | localized (m : LocalizedMessage)
  | i18nAttrs (pairs : List (String × String))
  deriving DecidableEq, Repr, Inhabited

/-- Everything that is declared for one template before it first runs. -/
structure TemplateDef where
  kind : TViewKind := .root
  ssrId : Option String := none
  decls : Nat
  vars : Nat := 0
  consts : List Const := []
  program : Program := {}
  deriving Repr, Inhabited

/-- The static, shared data of a template. -/
structure TView where
  id : TViewId
  kind : TViewKind
  ssrId : Option String
  data : Array TData
  consts : List Const
  decls : Nat
  vars : Nat
  firstCreatePass : Bool := true
  firstChild : Option Nat := none
  program : Program
  deriving Repr, Inhabited

/-- The number of node and binding slots together, counted in a 64-bit word: a sum of `2 ^ 64`
or more wraps around. -/
def slotSpan (decls vars : Nat) : Nat := (decls + vars) % Nat.pow 2 64

namespace TView

/-- A fresh template from its declaration: one empty entry for each slot of its span. -/
def ofDef (id : TViewId) (d : TemplateDef) : TView :=
  { id := id, kind := d.kind, ssrId := d.ssrId, data := Array.replicate (slotSpan d.decls d.vars) .empty,
    consts := d.consts, decls := d.decls, vars := d.vars, program := d.program }

/-- First binding slot. -/
def bindingStartIndex (t : TView) : Nat := t.decls

/-- First slot after the binding slots. -/
def expandoStart (t : TView) : Nat := slotSpan t.decls t.vars

/-- The node at a slot. -/
def tnode? (t : TView) (i : Nat) : Option TNode :=
  match t.data[i]? with
  | some (.node n) => some n
  | _ => none

/-- The node at a slot, or an empty-slot error. -/
def expectTNode (t : TView) (i : Nat) : Except StructuralError TNode :=
  match t.tnode? i with
  | some n => .ok n
  | none => .error (.emptySlot i)

/-- All nodes in slot order. -/
def tnodes (t : TView) : List TNode :=
  t.data.toList.filterMap fun
    | .node n => some n
    | _ => none

/-- Nodes whose parent is `parent` (`none` for the view root), in slot order; nodes of
translated blocks are included. -/
def childrenOf (t : TView) (parent : Option Nat) : List TNode :=
  t.tnodes.filter (·.parent == parent)

/-- Grows the data with empty entries to at least `len` entries. -/
def ensureLen (t : TView) (len : Nat) : TView :=
  if t.data.size < len then { t with data := t.data ++ Array.replicate (len - t.data.size) .empty }
  else t

/-- Replaces the entry at a slot, growing the data when needed. -/
def setData (t : TView) (i : Nat) (d : TData) : TView :=
  let t := t.ensureLen (i + 1)
  { t with data := t.data.setIfInBounds i d }

/-- Applies `f` to the node at a slot, if there is one. -/
def modifyTNode (t : TView) (i : Nat) (f : TNode → TNode) : TView :=
  match t.tnode? i with
  | some n => { t with data := t.data.setIfInBounds i (.node (f n)) }
  | none => t

/-- Adds an expando slot at the end of the data and returns its index. -/
def allocateExpando (t : TView) : TView × Nat :=
  ({ t with data := t.data.push .empty }, t.data.size)

/-- The constant at an index. -/
def constAt (t : TView) (i : Nat) : Except StructuralError Const :=
  match t.consts[i]? with
  | some c => .ok c
  | none => .error (.constMismatch i .present)

/-- The attribute list at a constant index; no index means no attributes. -/
def attrsConst (t : TView) : Option Nat → Except StructuralError (List (String × String))
  | none => .ok []
  | some i => do
    match ← t.constAt i with
    | .attrs a => pure a
    | _ => throw (.constMismatch i .attributeList)

/-- The local reference names at a constant index; no index means none. -/
def localRefsConst (t : TView) : Option Nat → Except StructuralError (List String)
  | none => .ok []
  | some i => do
    match ← t.constAt i with
    | .localRefs names => pure names
    | _ => throw (.constMismatch i .localRefList)

/-- Registers a node during the first creation pass, linking it after the current position. -/
def registerTNode (t : TView) (n : TNode) (current : Option Nat) (isParent : Bool) :
    Except StructuralError TView :=
  if !t.firstCreatePass then .error (.frozenTView t.id)
  else
    let t := t.ensureLen (n.index + 1)
    let t := match current with
      | some c =>
        t.modifyTNode c fun p =>
          if isParent then (if p.child.isNone then { p with child := some n.index } else p)
          else { p with next := some n.index }
      | none => if t.firstChild.isNone then { t with firstChild := some n.index } else t
    .ok { t with data := t.data.setIfInBounds n.index (.node n) }

end TView

end ViewHydration
