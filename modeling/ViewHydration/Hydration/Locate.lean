import ViewHydration.Hydration.Path
import ViewHydration.Hydration.Pool
import ViewHydration.View.LView
import ViewHydration.Template.TView

/-!
# Locating server nodes

While hydrating, the node for the next instruction is found in this order:

1. the slot's recorded path, followed from the view's host or from the element of its anchor
   slot;
2. the view's first node, for the template's first child;
3. from the node processed before it: its first child when it is still open (for an open
   `<ng-container>`, the first node of its content located so far), else its next sibling.

A container's dehydrated views lie one after the other before its anchor: each takes its
`numRootNodes` nodes, and the node after the last view is the anchor.
-/

namespace ViewHydration

/-- Resolves a recorded path inside a view. -/
def findExistingNode (doc : Document) (v : LView) (path : String) : Except HydrationError NodeId := do
  let p ← NodePath.parse path
  let start ← match p.anchor with
    | .host =>
      match v.host with
      | some h => pure h
      | none => throw .missingHost
    | .slot i =>
      match v.native? i with
      | some n => pure n
      | none => throw (.missingAnchor i)
  p.walk doc start

/-- The server node for `tnode`, given the node processed before it. -/
def locateNextNode (doc : Document) (info : HydrationInfo) (t : TView) (v : LView) (tnode : TNode)
    (previous : Option TNode) (previousIsParent : Bool) : Except HydrationError NodeId :=
  match info.record.path? tnode.index with
  | some path => findExistingNode doc v path
  | none =>
    let located : Option NodeId :=
      if t.firstChild == some tnode.index then info.firstChild
      else match previous with
        | none => none
        | some p =>
          if previousIsParent then
            if p.type == .elementContainer then info.containerStart? p.index
            else (v.native? p.index).bind doc.firstChild?
          else (v.native? p.index).bind doc.nextSibling?
    match located with
    | some n => .ok n
    | none => .error (.missingNode tnode.index)

/-- Steps over `count` nodes from `current`; running out of nodes is an overrun of the
container at `slot`. -/
def skipNodes (doc : Document) (slot : Nat) : Nat → Option NodeId → Except HydrationError (Option NodeId)
  | 0, current => .ok current
  | k + 1, current =>
    match current with
    | some n => skipNodes doc slot k (doc.nextSibling? n)
    | none => .error (.viewsOverrun slot)

/-- Splits the nodes from `current` on into the dehydrated views of a container, and answers the
container's anchor, the node after the last view. -/
def locateDehydratedViews (doc : Document) (slot : Nat) (current : Option NodeId) :
    List ViewRecord → Except HydrationError (NodeId × List DehydratedView)
  | [] =>
    match current with
    | some anchor => .ok (anchor, [])
    | none => .error (.viewsOverrun slot)
  | r :: rest => do
    let size := r.numRootNodes.getD 0
    let firstChild := if size > 0 then current else none
    let after ← skipNodes doc slot size current
    let (anchor, views) ← locateDehydratedViews doc slot after rest
    pure (anchor, ⟨firstChild, r⟩ :: views)

end ViewHydration
