import ViewHydration.Render.Container

/-!
# Writing hydration records

A record of a view created without hydration tells a later hydrating render where each slot's
node is. It stays small: a slot gets an explicit path only when the node the locator would infer
from the node processed before it is not the slot's node. Nodes of translated blocks always get a
path, since a translation may reorder them.

The footprint of a template node is the number of document nodes it contributes at its position:
nothing when it has no attached node, one for an element or text node, and for an
`<ng-container>` or container anchor its comment plus its content and the root nodes of its
container's views. A container's region starts that many nodes, less one, before its comment.

A path starts at the closest ancestor of the target that is the view's host or an element of the
view outside translated blocks and skip-hydration subtrees.
-/

namespace ViewHydration

namespace TView

/-- Whether an ancestor of the node, through parent links, skips hydration. -/
def inSkippedSubtree (t : TView) (n : TNode) : Bool :=
  go (t.data.size + 1) n.parent
where
  /-- Climbs at most `fuel` parent links. -/
  go : Nat → Option Nat → Bool
    | 0, _ => false
    | _, none => false
    | fuel + 1, some i =>
      match t.tnode? i with
      | none => false
      | some a => if a.has .skipHydration then true else go fuel a.parent

end TView

namespace Serializer

/-- The anchor elements of a view: its elements outside translated blocks and skip-hydration
subtrees, with their nodes. -/
def anchorElements (t : TView) (v : LView) : List (NodeId × Nat) :=
  t.tnodes.filterMap fun n =>
    if n.type == .element && !n.has .inI18n && !t.inSkippedSubtree n then
      (v.native? n.index).map fun native => (native, n.index)
    else none

/-- The path from the closest anchor above `target` to `target`. -/
def pathTo (doc : Document) (v : LView) (anchors : List (NodeId × Nat)) (target : NodeId) :
    Except HydrationError NodePath :=
  go (doc.size + 1) (doc.parent? target)
where
  /-- Tries the ancestors from `node` up, at most `fuel` of them. -/
  go : Nat → Option NodeId → Except HydrationError NodePath
    | 0, _ => .error (.unreachable target)
    | _, none => .error (.unreachable target)
    | fuel + 1, some node =>
      let anchor : Option PathAnchor :=
        if v.host == some node then some .host
        else (anchors.reverse.lookup node).map PathAnchor.slot
      match anchor with
      | some a =>
        match NodePath.between doc a node target with
        | some p => .ok p
        | none => .error (.unreachable target)
      | none => go fuel (doc.parent? node)

/-- Sums a function that may fail over a list. -/
def sumM {α : Type} (f : α → Except RenderError Nat) (xs : List α) : Except RenderError Nat :=
  xs.foldlM (fun acc x => do pure (acc + (← f x))) 0

/-- Lifts a structural failure. -/
def structural {α : Type} : Except StructuralError α → Except RenderError α
  | .ok a => .ok a
  | .error e => .error (.structural e)

mutual

/-- Number of document nodes a template node contributes at its position. -/
def footprint (c : Context) : Nat → TView → LView → TNode → Except RenderError Nat
  | 0, _, _, _ => .ok 0
  | fuel + 1, t, v, n =>
    match v.native? n.index with
    | none => .ok 0
    | some native =>
      if (c.doc.parent? native).isNone then .ok 0
      else do
        let views ← match v.slot n.index with
          | .container cid _ => do
            let rec_ ← structural (c.registry.container cid)
            viewsFootprint c fuel rec_.views
          | _ => pure 0
        match n.type with
        | .elementContainer => pure (1 + (← content c fuel t v n.index) + views)
        | .container => pure (1 + views)
        | _ => pure 1

/-- Number of document nodes of the content of an `<ng-container>`. -/
def content (c : Context) : Nat → TView → LView → Nat → Except RenderError Nat
  | 0, _, _, _ => .ok 0
  | fuel + 1, t, v, index => sumM (footprint c fuel t v) (t.childrenOf (some index))

/-- Number of root nodes of a view. -/
def rootFootprint (c : Context) : Nat → LViewId → Except RenderError Nat
  | 0, _ => .ok 0
  | fuel + 1, view => do
    let (t, v) ← structural (c.registry.viewPair view)
    sumM (footprint c fuel t v) (t.childrenOf none)

/-- Number of root nodes of a list of views. -/
def viewsFootprint (c : Context) : Nat → List LViewId → Except RenderError Nat
  | 0, _ => .ok 0
  | fuel + 1, views => sumM (rootFootprint c fuel) views

end

/-- The first node of the region of an `<ng-container>` or container anchor. -/
def regionStart (c : Context) (fuel : Nat) (t : TView) (v : LView) (n : TNode) :
    Except RenderError NodeId := do
  let some anchor := v.native? n.index | throw (.hydration (.missingNode n.index))
  let inner := (← footprint c fuel t v n) - 1
  match c.doc.siblingBefore? inner anchor with
  | some s => pure s
  | none => throw (.hydration (.unreachable anchor))

/-- The node the locator would infer for a template node from the node before it. -/
def inferred (c : Context) (fuel : Nat) (t : TView) (v : LView) (n : TNode)
    (firstChild : Option NodeId) : Except RenderError (Option NodeId) := do
  if t.firstChild == some n.index then return firstChild
  match n.parent.bind t.tnode? with
  | some p =>
    if p.child == some n.index then
      if p.type == .elementContainer then
        if (← content c fuel t v p.index) > 0 then return some (← regionStart c fuel t v p)
        else return none
      else return (v.native? p.index).bind c.doc.firstChild?
  | none => pure ()
  pure (((t.tnodes.find? (·.next == some n.index)).bind fun s => v.native? s.index).bind
    c.doc.nextSibling?)

/-- Steps `k` next siblings from `current`, falling back to `anchor` past the end. -/
def advance (doc : Document) (anchor : NodeId) : Nat → NodeId → NodeId
  | 0, current => current
  | k + 1, current => advance doc anchor k ((doc.nextSibling? current).getD anchor)

mutual

/-- The record of a view whose first document node is `firstChild`. -/
def view (c : Context) : Nat → LViewId → Option NodeId → Except RenderError ViewRecord
  | 0, _, _ => .ok {}
  | fuel + 1, id, firstChild => do
    let (t, v) ← structural (c.registry.viewPair id)
    let anchors := anchorElements t v
    t.tnodes.foldlM (fun (out : ViewRecord) n => do
      if t.inSkippedSubtree n then return out
      let some native := v.native? n.index | return out
      if n.has .detached || (c.doc.parent? native).isNone then
        return { out with disconnected := out.disconnected ++ [n.index] }
      let (out, expected) ← if n.type == .elementContainer || n.type == .container then do
          let rec_ ← container c fuel t v n
          let start ← regionStart c fuel t v n
          pure ({ out with containers := Json.insertSorted n.index rec_ out.containers }, start)
        else pure (out, native)
      let guess ← inferred c fuel t v n firstChild
      if n.has .inI18n || guess != some expected then
        let p ← match pathTo c.doc v anchors expected with
          | .ok p => pure p
          | .error e => throw (.hydration e)
        return { out with nodes := Json.insertSorted n.index p.render out.nodes }
      return out) {}

/-- The record of a container slot: its own content size and the records of its views. -/
def container (c : Context) : Nat → TView → LView → TNode →
    Except RenderError (ContainerRecord ViewRecord)
  | 0, _, _, _ => .ok {}
  | fuel + 1, t, v, n => do
    let numRootNodes ← if n.type == .elementContainer then content c fuel t v n.index else pure 0
    match v.slot n.index with
    | .container cid anchor =>
      let rec_ ← structural (c.registry.container cid)
      let total ← viewsFootprint c fuel rec_.views
      let some start := c.doc.siblingBefore? total anchor | throw (.hydration (.unreachable anchor))
      let (views, _) ← rec_.views.foldlM (fun (acc : List ViewRecord × NodeId) child => do
        let (records, current) := acc
        let size ← rootFootprint c fuel child
        let record ← view c fuel child (if size > 0 then some current else none)
        let (ct, _) ← structural (c.registry.viewPair child)
        let record := { record with template := ct.ssrId, numRootNodes := some size }
        pure (records ++ [record], advance c.doc anchor size current)) ([], start)
      pure { numRootNodes := numRootNodes, views := views }
    | _ => pure { numRootNodes := numRootNodes }

end

end Serializer

namespace Context

/-- Fuel for writing a record. Along any chain of the serializer's calls, a new pair of a live
view and a template node is entered at least every fourth call (a view record passes through a
container record, a footprint through the views of a container and their roots), and an acyclic
descent enters each of the at most `walkBound` pairs once. -/
def serializeBound (c : Context) : Nat := 4 * (c.walkBound + 1)

/-- The hydration record of a live view. -/
def serializeView (c : Context) (id : LViewId) : Except RenderError ViewRecord := do
  let v ← Serializer.structural (c.registry.lview id)
  Serializer.view c c.serializeBound id (v.host.bind c.doc.firstChild?)

/-- Writes the record of a view onto its host, in the attribute the configuration names. -/
def annotate (c : Context) (id : LViewId) : Except RenderError (Context × ViewRecord) := do
  let record ← c.serializeView id
  let v ← Serializer.structural (c.registry.lview id)
  let some host := v.host | throw (.hydration .missingHost)
  pure ({ c with doc := c.doc.setAttribute host c.config.nghAttribute record.render }, record)

end Context

end ViewHydration
