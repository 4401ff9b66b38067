import ViewHydration.Render.Position

/-!
# Steps shared by node instructions

Every start instruction runs the same steps: check that its slot is a declared node slot and
that no binding instruction ran before it; register its template node on the first pass, or
check the registered one on later passes; obtain its document node; insert the node if it was
created; and move the position.

A node with no parent in the template goes into the view's host, before the view's insertion
anchor; a child of an `<ng-container>` goes before the container's comment in the comment's
parent; any other child is appended to its parent's node.
-/

namespace ViewHydration

/-- What a start instruction declares about its node. -/
structure NodeSpec where
  type : TNodeType
  tag : Option String := none
  value : Option String := none
  attrs : Option Nat := none
  refs : Option Nat := none
  tview : Option TViewId := none
  deriving Repr, Inhabited

namespace RenderM

/-- The slot must be a declared node slot, and no binding may have been read yet. -/
def checkCreationSlot (index : Nat) : RenderM Unit := do
  let f ← frame
  let t ← tview f.tview
  if f.bindingIndex != t.bindingStartIndex then structural (.bindingBeforeElement index)
  if index ≥ t.decls then structural (.slotOutOfRange index t.decls)

/-- Registers the template node of a slot on the first pass; on later passes checks that the
registered node has the declared kind. -/
def resolveTNode (index : Nat) (spec : NodeSpec) : RenderM Unit := do
  let f ← frame
  let t ← tview f.tview
  if !t.firstCreatePass then
    let n ← ofStructural (t.expectTNode index)
    if n.type != spec.type then structural (.nodeKindMismatch n.index spec.type n.type)
  else
    let parentOfCurrent := (f.current.bind t.tnode?).bind (·.parent)
    let parent := f.parentForNext parentOfCurrent
    let attrs ← ofStructural (t.attrsConst spec.attrs)
    let localNames ← ofStructural (t.localRefsConst spec.refs)
    let c ← get
    let flags : TNodeFlags := if f.i18n.isSome then TNodeFlags.inI18n else {}
    let flags := if spec.type == .element && (attrs.find? (·.1 == c.config.skipHydrationAttribute)).isSome
      then flags.union .skipHydration else flags
    let flags := match spec.tag with
      | some tag => flags.union (c.directiveFlags tag attrs)
      | none => flags
    let n : TNode := { type := spec.type, index := index, parent := parent, flags := flags,
                       tag := spec.tag, value := spec.value, attrs := attrs, localNames := localNames,
                       tview := spec.tview }
    setTView (← ofStructural (t.registerTNode n f.current f.isParent))

/-- Where a child of `parent` goes in the document: its parent node and the node it goes
before. -/
def insertionPoint (doc : Document) (t : TView) (v : LView) (parent : Option Nat) (index : Nat) :
    Except StructuralError (NodeId × Option NodeId) :=
  match parent with
  | none =>
    match v.host with
    | some host => .ok (host, v.insertBefore)
    | none => .error (.noRenderParent index)
  | some p => do
    let pn ← t.expectTNode p
    let native ← match v.native? p with
      | some n => pure n
      | none => throw (.noRenderParent index)
    if pn.type == .elementContainer then
      match doc.parent? native with
      | some rp => pure (rp, some native)
      | none => throw (.noRenderParent index)
    else pure (native, none)

/-- Inserts a created node at the place of its template node. -/
def insertCreated (view : LViewId) (index : Nat) (node : NodeId) : RenderM Unit := do
  let (t, v) ← viewPair view
  let n ← ofStructural (t.expectTNode index)
  let (parent, before) ← ofStructural (insertionPoint (← get).doc t v n.parent n.index)
  modifyDoc (·.insertBefore parent node before)

/-- Stores a node in its slot, inserting it when it was created. -/
def storeNode (view : LViewId) (index : Nat) (node : NodeId) (created : Bool) : RenderM Unit := do
  modifyLView view (·.set index (.node node))
  if created then insertCreated view index node

/-- Compares a value with the next binding slot and stores it when it changed. -/
def bindingUpdated (value : String) : RenderM Bool := do
  let index ← nextBindingIndex
  let (view, _) ← active
  let v ← lview view
  match v.slot index with
  | .binding old => if old == value then return false
  | _ => pure ()
  setLView view (v.set index (.binding value))
  pure true

end RenderM

end ViewHydration
