import ViewHydration.Render.Element

/-!
# View containers and view teardown

A `template` instruction declares a view container anchored at a comment; `createContainerRef`
turns the comment of an `<ng-container>` into the anchor of a container without a default
template.

The root nodes of a view are the attached document nodes it contributes at its root, in template
order: for each root template node, the content of an `<ng-container>`, then the root nodes of
the views of a container at that slot, then the node itself.

Destroying a view detaches its root nodes and releases its tree depth first: each container of
the view, in slot order, releases its views and then itself; the view's dehydrated views are
dropped, the claims on its slots' nodes released, and the view itself released last.

Walks over the view tree are bounded by `Context.walkBound`: an acyclic walk enters each pair of
a live view and a template node at most once.
-/

namespace ViewHydration

namespace Context

/-- A bound on the length of any acyclic walk through live views and their template nodes. -/
def walkBound (c : Context) : Nat :=
  (c.registry.lviews.size + 1) * (c.registry.tviews.foldl (fun n t => n + t.data.size) 0 + 1)

/-- The attached nodes a view contributes under the template node `parent` (`none` for its
root), descending at most `fuel` levels. -/
def collectNodes (c : Context) : Nat → LViewId → Option Nat → Except StructuralError (List NodeId)
  | 0, _, _ => .ok []
  | fuel + 1, view, parent => do
    let (t, v) ← c.registry.viewPair view
    (t.childrenOf parent).foldlM (fun out n => do
      let slot := v.slot n.index
      let out ← if n.type == .elementContainer then
          pure (out ++ (← c.collectNodes fuel view (some n.index)))
        else pure out
      let out ← match slot with
        | .container cid _ => do
          let rec_ ← c.registry.container cid
          rec_.views.foldlM (fun out child => do pure (out ++ (← c.collectNodes fuel child none))) out
        | _ => pure out
      match slot.native? with
      | some native => pure (if (c.doc.parent? native).isSome then out ++ [native] else out)
      | none => pure out) []

/-- The attached root nodes of a view, in template order; the document may hold them in another
order, since each node was placed when it was created. -/
def rootNodes (c : Context) (view : LViewId) : Except StructuralError (List NodeId) :=
  c.collectNodes c.walkBound view none

/-- The first root node of the first view in `views` that has one: a root node whose previous
sibling is not a root node of the same view. -/
def firstRootNode (c : Context) : List LViewId → Except StructuralError (Option NodeId)
  | [] => .ok none
  | v :: rest => do
    let nodes ← c.rootNodes v
    let first := nodes.find? fun n =>
      match c.doc.prevSibling? n with
      | some p => !nodes.contains p
      | none => true
    match first with
    | some n => .ok (some n)
    | none => c.firstRootNode rest

end Context

namespace RenderM

/-- Releases a view and everything below it, descending at most `fuel` levels. -/
def releaseViewTree : Nat → LViewId → RenderM Unit
  | 0, _ => pure ()
  | fuel + 1, view => do
    let v ← lview view
    for cid in v.containers do
      let rec_ ← container cid
      for child in rec_.views do
        releaseViewTree fuel child
      modify fun c => { c with registry := (c.registry.releaseContainer cid).1 }
    modify fun c =>
      let (pool, doc) := c.pool.removeForView c.doc view
      { c with pool := pool, doc := doc }
    modify fun c => { c with claims := v.natives.foldl Claims.release c.claims }
    modify fun c => { c with registry := (c.registry.releaseLView view).1 }

/-- Detaches a view's root nodes and releases its tree. -/
def destroyView (view : LViewId) : RenderM Unit := do
  let nodes ← ofStructural ((← get).rootNodes view)
  modifyDoc fun d => nodes.foldl Document.detach d
  releaseViewTree (← get).walkBound view

/-- The container at a slot of a view. -/
def containerIn (view : LViewId) (index : Nat) : RenderM ContainerId := do
  match ((← lview view).slot index).container? with
  | some c => pure c
  | none => structural (.notAContainer index)

/-- Declares a view container whose views instantiate `tv`. -/
def template (index : Nat) (tv : TViewId) (attrs refs : Option Nat) : RenderM ContainerId := do
  let (view, declaring) ← active
  checkCreationSlot index
  discard (tview tv)
  resolveTNode index { type := .container, tag := some "ng-template", attrs := attrs, refs := refs,
                       tview := some tv }
  let (anchor, created) ← materialize index .containerAnchor
  if created then insertCreated view index anchor
  let c ← get
  let (registry, cid) := c.registry.allocateContainer
    { anchor := anchor, hostView := view, index := index, tview := some tv }
  set { c with registry := registry }
  modifyLView view (·.set index (.container cid anchor))
  setCurrent index false
  let n ← ofStructural ((← tview declaring).expectTNode index)
  runDirectives view index "ng-template" anchor n.flags
  pure cid

/-- Makes the `<ng-container>` at a slot of a view the anchor of a view container, or answers the
container already there. -/
def createContainerRefIn (view : LViewId) (index : Nat) : RenderM ContainerId := do
  let (t, v) ← viewPair view
  let anchor ← match v.slot index with
    | .container cid _ => return cid
    | .node n => pure n
    | _ => structural (.emptySlot index)
  let some n := t.tnode? index | structural (.emptySlot index)
  if n.type != .elementContainer then structural (.notAContainer index)
  if t.firstCreatePass then
    setTView (t.modifyTNode index fun n => { n with flags := n.flags.union .viewContainerAnchor })
  let c ← get
  let (registry, cid) := c.registry.allocateContainer
    { anchor := anchor, hostView := view, index := index }
  set { c with registry := registry }
  modifyLView view (·.set index (.container cid anchor))
  pure cid

/-- Removes the view at a position of a container and destroys it. -/
def removeEmbeddedView (cid : ContainerId) (position : Nat) : RenderM Unit := do
  let rec_ ← container cid
  match rec_.views[position]? with
  | none => structural (.viewIndexOutOfRange position rec_.views.length)
  | some view =>
    modifyContainer cid fun r => { r with views := r.views.eraseIdx position }
    destroyView view

/-- Removes the views of a container, last first. -/
def clearContainer (cid : ContainerId) : RenderM Unit := do
  let n := (← container cid).views.length
  for _ in List.range n do
    let len := (← container cid).views.length
    if len > 0 then removeEmbeddedView cid (len - 1)

end RenderM

end ViewHydration
