import ViewHydration.Render.Materialize

/-!
# Element, container and text instructions

`elementStart` opens an element and `elementEnd` closes it; `elementContainerStart` and
`elementContainerEnd` do the same for an `<ng-container>`, which renders as one comment placed
after its content. `text` creates a text node and leaves it current but not open.

Closing moves the position to the node being closed: the current node when it is still open,
else the current node's parent. The closed node must have the kind of the end instruction.

A node whose template node is a directive host runs the directive hooks after it is opened:
instantiation, then the content queries when the node has them.
-/

namespace ViewHydration

namespace RenderM

/-- Opens a node: it becomes current and open, and counts as an open element. The first node
that skips hydration becomes the frame's skip root; inside a translated block the node is
remembered as opened in the block. -/
def openNode (index : Nat) (flags : TNodeFlags) : RenderM Unit := do
  setCurrent index true
  modifyFrame fun f =>
    { f with elementDepth := f.elementDepth + 1,
             skipHydrationRoot :=
               if flags.has .skipHydration && f.skipHydrationRoot.isNone then some index
               else f.skipHydrationRoot,
             i18n := f.i18n.map fun b => { b with elements := b.elements ++ [index] } }

/-- Closes the innermost open node, which must be of kind `expected`. -/
def closeNode (expected : TNodeType) (instr : EndInstruction) : RenderM Nat := do
  let f ← frame
  if f.elementDepth == 0 then structural (.unbalancedEnd instr)
  let some current := f.current | structural (.unbalancedEnd instr)
  let t ← tview f.tview
  let closing ← if f.isParent then pure current
    else do
      let n ← ofStructural (t.expectTNode current)
      match n.parent with
      | some p => pure p
      | none => structural (.unbalancedEnd instr)
  let n ← ofStructural (t.expectTNode closing)
  if n.type != expected then structural (.nodeKindMismatch n.index expected n.type)
  setCurrent closing false
  modifyFrame fun f =>
    { f with elementDepth := f.elementDepth - 1,
             skipHydrationRoot := if f.skipHydrationRoot == some closing then none else f.skipHydrationRoot }
  pure closing

/-- Runs the directive hooks of a directive host: instantiation, then the content queries when a
directive queries the node's content. Each call to the resolver is recorded as it is made. -/
def runDirectives (view : LViewId) (index : Nat) (tag : String) (node : NodeId) (flags : TNodeFlags) :
    RenderM Unit := do
  if flags.has .directiveHost then
    let c ← get
    let some r := c.directives | pure ()
    let site : DirectiveSite := { doc := c.doc, view := view, index := index, tag := tag, node := node }
    emit (.instantiate view index tag node)
    ofExcept (r.instantiate site)
    if flags.has .contentQuery then
      emit (.contentQueries view index)
      ofExcept (r.contentQueries site)

/-- Opens an element. -/
def elementStart (index : Nat) (tag : String) (attrs refs : Option Nat) : RenderM Unit := do
  let (view, tv) ← active
  checkCreationSlot index
  resolveTNode index { type := .element, tag := some tag, attrs := attrs, refs := refs }
  let (node, created) ← materialize index (.element tag)
  let n ← ofStructural ((← tview tv).expectTNode index)
  if created then
    modifyDoc fun d => n.attrs.foldl (fun d kv => d.setAttribute node kv.1 kv.2) d
  storeNode view index node created
  openNode index n.flags
  runDirectives view index tag node n.flags

/-- Closes an element. -/
def elementEnd : RenderM Unit := do
  discard (closeNode .element .elementEnd)

/-- Opens an `<ng-container>`. -/
def elementContainerStart (index : Nat) (attrs refs : Option Nat) : RenderM Unit := do
  let (view, tv) ← active
  checkCreationSlot index
  resolveTNode index
    { type := .elementContainer, tag := some elementContainerComment, attrs := attrs, refs := refs }
  let (node, created) ← materialize index .elementContainer
  storeNode view index node created
  let n ← ofStructural ((← tview tv).expectTNode index)
  openNode index n.flags
  runDirectives view index elementContainerComment node n.flags

/-- Closes an `<ng-container>`. -/
def elementContainerEnd : RenderM Unit := do
  discard (closeNode .elementContainer .elementContainerEnd)

/-- Creates a text node. -/
def text (index : Nat) (value : Option String) : RenderM Unit := do
  let (view, _) ← active
  checkCreationSlot index
  resolveTNode index { type := .text, value := value }
  let (node, created) ← materialize index (.text (value.getD ""))
  storeNode view index node created
  setCurrent index false

/-- Writes a binding into a text node when its value changed. -/
def textInterpolate (index : Nat) (value : String) : RenderM Unit := do
  if ← bindingUpdated value then
    let (view, _) ← active
    let some node := (← lview view).native? index | hydration (.missingNode index)
    modifyDoc (·.setData node value)

/-- The node of the first template node, in slot order, that declares a local name. -/
def localRef (name : String) : RenderM (Option NodeId) := do
  let (view, _) ← active
  let (t, v) ← viewPair view
  pure ((t.tnodes.find? (·.localNames.contains name)).bind fun n => v.native? n.index)

end RenderM

end ViewHydration
