import ViewHydration.Render.Node
import ViewHydration.Hydration.Locate

/-!
# Materialising nodes

A context either always creates nodes or, when it hydrates, locates them in the server markup,
chosen once by its configuration. A hydrating context still creates a node when the slot lies in
a subtree that skips hydration, when the view has no hydration record, or when the record lists
the slot as disconnected.

A located node must have the expected kind (and, for an element, the expected tag up to ASCII
case) and is claimed. A located element that skips hydration loses its server content. A located
`<ng-container>` or container anchor splits the server nodes before its comment into the
dehydrated views of its record, which go into the pool.
-/

namespace ViewHydration

/-- The node an instruction asks for. -/
inductive NodeRequest where
  | element (tag : String)
  | text (value : String)
  | elementContainer
  | containerAnchor
  deriving DecidableEq, Repr, Inhabited

/-- Comment data of a created `<ng-container>`. -/
def elementContainerComment : String := "ng-container"

/-- Comment data of a created container anchor. -/
def containerComment : String := "container"

/-- Equality up to ASCII case. -/
def eqIgnoreAsciiCase (a b : String) : Bool := a.toList.map Char.toLower == b.toList.map Char.toLower

namespace RenderM

/-- Creates the requested node. -/
def createNode (req : NodeRequest) : RenderM NodeId := do
  let c ← get
  let (doc, n) := match req with
    | .element tag => c.doc.createElement tag
    | .text value => c.doc.createText value
    | .elementContainer => c.doc.createComment elementContainerComment
    | .containerAnchor => c.doc.createComment containerComment
  set { c with doc := doc }
  pure n

/-- Checks that a located node has the expected kind. -/
def expectKind (index : Nat) (node : NodeId) (kind : NodeKind) : RenderM Unit := do
  let found := (← get).doc.kind? node
  if found != some kind then hydration (.nodeTypeMismatch index kind found)

/-- Claims a located node. -/
def claim (node : NodeId) : RenderM Unit := do
  let c ← get
  let claims ← ofExcept (c.claims.claim node)
  set { c with claims := claims }

/-- The document node for a slot, and whether it was created. -/
def materialize (index : Nat) (req : NodeRequest) : RenderM (NodeId × Bool) := do
  let f ← frame
  let (t, v) ← viewPair f.lview
  let tnode ← ofStructural (t.expectTNode index)
  let previous := f.current.bind t.tnode?
  let info? := if f.skipHydrationRoot.isSome then none
    else v.hydration.filter fun h => !h.record.isDisconnected tnode.index
  match info?, (← get).isHydrating with
  | some info, true =>
    let current ← ofHydration (locateNextNode (← get).doc info t v tnode previous f.isParent)
    match req with
    | .element tag =>
      expectKind tnode.index current .element
      let found := ((← get).doc.tagName? current).getD ""
      if !eqIgnoreAsciiCase found tag then hydration (.tagMismatch tnode.index tag found)
      claim current
      if tnode.has .skipHydration then modifyDoc (·.clearChildren current)
      pure (current, false)
    | .text _ =>
      expectKind tnode.index current .text
      claim current
      pure (current, false)
    | .elementContainer =>
      let some record := info.record.container? tnode.index
        | hydration (.missingContainerInfo tnode.index)
      let doc := (← get).doc
      let comment ← if record.views.isEmpty then
          match doc.siblingAfter? record.numRootNodes current with
          | some n => pure n
          | none => hydration (.missingNode tnode.index)
        else do
          let some viewsStart := doc.siblingAfter? record.numRootNodes current
            | hydration (.viewsOverrun tnode.index)
          let (anchor, dehydrated) ←
            ofHydration (locateDehydratedViews doc tnode.index (some viewsStart) record.views)
          modify fun c => { c with pool := c.pool.insert ⟨f.lview, tnode.index⟩ dehydrated }
          pure anchor
      let start := if record.numRootNodes > 0 then some current else none
      modifyLView f.lview fun v =>
        { v with hydration := v.hydration.map (·.setContainerStart tnode.index start) }
      expectKind tnode.index comment .comment
      claim comment
      pure (comment, false)
    | .containerAnchor =>
      let some record := info.record.container? tnode.index
        | hydration (.missingContainerInfo tnode.index)
      let (anchor, dehydrated) ←
        ofHydration (locateDehydratedViews (← get).doc tnode.index (some current) record.views)
      modify fun c => { c with pool := c.pool.insert ⟨f.lview, tnode.index⟩ dehydrated }
      expectKind tnode.index anchor .comment
      claim anchor
      pure (anchor, false)
  | _, _ => pure (← createNode req, true)

end RenderM

end ViewHydration
