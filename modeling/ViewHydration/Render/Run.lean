import ViewHydration.Render.I18n
import ViewHydration.Render.Container
import ViewHydration.Render.Scope

/-!
# Running template programs

A view pass enters the view's frame, runs the template's creation list (first render) or update
list (refresh), and leaves the frame; a failing pass abandons its frame and passes the error on.
The first successful creation pass freezes the template and ends the view's creation mode. A
refresh then refreshes the views of every container of the view, in slot order.

Creating an embedded view inserts a new view into a container at a position: its root nodes go
before the first root node of the views that follow it, or before the container's anchor. A
hydrating context first takes a matching dehydrated view of the container and reconciles the new
view against it. When the new view's passes fail, it is taken out of the container again and
destroyed.

The interpreter runs program instructions in order and stops at the first failure. Nested
passes are bounded by a fuel argument, which `Context.renderBound` supplies.
-/

namespace ViewHydration

namespace Context

/-- Fuel for the nested passes of one operation: a refresh descends the view tree, which
`walkBound` bounds, and template passes nest at most 49 deep below it, since embedded views are
not created once the position stack is 48 deep. -/
def renderBound (c : Context) : Nat := c.walkBound + 100

end Context

namespace RenderM

/-- Depth of the position stack at which programs stop creating embedded views. -/
def viewDepthLimit : Nat := 48

/-- The container at a slot of the view being rendered. -/
def containerAt (index : Nat) : RenderM ContainerId := do
  let (view, _) ← active
  containerIn view index

/-- Runs an instruction that runs no template pass. -/
def simpleInstr (scope : Scope) : Instr → RenderM Unit
  | .elementStart index tag attrs refs =>
    elementStart (scope.count index) (scope.text tag) (attrs.map scope.count) (refs.map scope.count)
  | .element index tag attrs refs => do
    elementStart (scope.count index) (scope.text tag) (attrs.map scope.count) (refs.map scope.count)
    elementEnd
  | .elementEnd => elementEnd
  | .elementContainerStart index attrs refs =>
    elementContainerStart (scope.count index) (attrs.map scope.count) (refs.map scope.count)
  | .elementContainer index attrs refs => do
    elementContainerStart (scope.count index) (attrs.map scope.count) (refs.map scope.count)
    elementContainerEnd
  | .elementContainerEnd => elementContainerEnd
  | .text index value => text (scope.count index) (value.map scope.text)
  | .textInterpolate index value => textInterpolate (scope.count index) (scope.text value)
  | .template index tv attrs refs => do
    let cid ← template (scope.count index) tv (attrs.map scope.count) (refs.map scope.count)
    emit (.template cid)
  | .removeEmbeddedView slot position => do
    let cid ← containerAt (scope.count slot)
    removeEmbeddedView cid (scope.count position)
  | .clearContainer slot => do clearContainer (← containerAt (scope.count slot))
  | .containerLength slot => do
    let cid ← containerAt (scope.count slot)
    emit (.length (← container cid).views.length)
  | .createContainerRef index => do
    let (view, _) ← active
    emit (.containerRef (← createContainerRefIn view (scope.count index)))
  | .i18nStart index message sub => i18nStart (scope.count index) (scope.count message) (sub.map scope.count)
  | .i18n index message sub => do
    i18nStart (scope.count index) (scope.count message) (sub.map scope.count)
    i18nEnd
  | .i18nEnd => i18nEnd
  | .i18nAttributes index attrs => i18nAttributes (scope.count index) (scope.count attrs)
  | .i18nExp value => i18nExp (scope.text value)
  | .i18nApply index => i18nApply (scope.count index)
  | .localRef name => do emit (.localRef (← localRef name))
  | .removeLocalRef name => do
    if let some n ← localRef name then modifyDoc (·.detach n)
  | .removeSlotNode index => do
    let (view, _) ← active
    if let some n := (← lview view).native? (scope.count index) then modifyDoc (·.detach n)
  | .probe => do
    let f ← frame
    emit (.probe f (← get).frames.length)
  | _ => pure ()

mutual

/-- Runs instructions in order, stopping at the first failure. -/
def runBlock (fuel : Nat) (scope : Scope) : List Instr → RenderM Unit
  | [] => pure ()
  | i :: rest => do
    runInstr fuel scope i
    runBlock fuel scope rest
termination_by instrs => (fuel, 3, sizeOf instrs)

/-- Runs one instruction. -/
def runInstr (fuel : Nat) (scope : Scope) : Instr → RenderM Unit
  | .cond var thenBranch elseBranch =>
    if (scope.lookup var).isEmpty then runBlock fuel scope elseBranch
    else runBlock fuel scope thenBranch
  | .loop count var body => do
    for k in List.range (min (scope.count count) 1000) do
      runBlock fuel (scope.bind var (toString k)) body
  | .createEmbeddedView slot position tmpl => do
    if (← get).frames.length ≥ viewDepthLimit then emit .depthLimit
    else
      let cid ← containerAt (scope.count slot)
      let tv ← match tmpl with
        | some tv => pure tv
        | none => do
          let rec_ ← container cid
          match rec_.tview with
          | some tv => pure tv
          | none => structural (.missingTemplate rec_.index)
      emit (.view (← createViewWith fuel scope cid tv (scope.count position)))
  | i => simpleInstr scope i
termination_by i => (fuel, 3, sizeOf i)

/-- Runs one pass of a view's template inside the view's frame. -/
def execute (fuel : Nat) (scope : Scope) (view : LViewId) (create : Bool) : RenderM Unit := do
  match fuel with
  | 0 => structural .noActiveView
  | fuel + 1 =>
    let (t, _) ← viewPair view
    enterView view t.id t.bindingStartIndex
    try
      runBlock fuel scope.forPass (if create then t.program.create else t.program.update)
    catch e =>
      abandonView
      throw e
    leaveView
termination_by (fuel, 0, 0)

/-- Runs a view's creation pass; its first success freezes the template. -/
def renderView (fuel : Nat) (scope : Scope) (view : LViewId) : RenderM Unit := do
  execute fuel scope view true
  let (t, _) ← viewPair view
  if t.firstCreatePass then setTView { t with firstCreatePass := false }
  modifyLView view fun v => { v with flags := v.flags.remove .creationMode }
termination_by (fuel, 1, 0)

/-- Runs a view's update pass, then refreshes the views of its containers. -/
def refreshView (fuel : Nat) (scope : Scope) (view : LViewId) : RenderM Unit := do
  execute fuel scope view false
  match fuel with
  | 0 => pure ()
  | fuel + 1 =>
    for cid in (← lview view).containers do
      for child in (← container cid).views do
        refreshView fuel scope child
termination_by (fuel, 1, 0)

/-- Creates a view of template `tv` at a position of a container, renders and refreshes it. -/
def createViewWith (fuel : Nat) (scope : Scope) (cid : ContainerId) (tv : TViewId) (position : Nat) :
    RenderM LViewId := do
  let rec_ ← container cid
  if position > rec_.views.length then
    structural (.viewIndexOutOfRange position rec_.views.length)
  let following := rec_.views.drop position
  let c ← get
  let before := (← ofStructural (c.firstRootNode following)).getD rec_.anchor
  let some host := c.doc.parent? rec_.anchor | structural (.noRenderParent rec_.index)
  let t ← tview tv
  let v : LView := { LView.create tv t.data.size with
                     parent := some cid, host := some host, insertBefore := some before }
  let v ← if c.isHydrating then do
      let c ← get
      let (pool, doc, taken) := c.pool.takeMatching c.doc ⟨rec_.hostView, rec_.index⟩ t.ssrId
      set { c with pool := pool, doc := doc }
      match taken with
      | some d => pure { v with hydration := some { record := d.record, firstChild := d.firstChild },
                                flags := v.flags.union .hydrated }
      | none => pure v
    else pure v
  let c ← get
  let (registry, view) := c.registry.allocateLView v
  set { c with registry := registry }
  modifyContainer cid fun r => { r with views := r.views.insertIdx position view }
  try
    renderView fuel scope view
    refreshView fuel scope view
  catch e =>
    try modifyContainer cid fun r => { r with views := r.views.filter (· != view) } catch _ => pure ()
    try destroyView view catch _ => pure ()
    throw e
  pure view
termination_by (fuel, 2, 0)

end

/-- Creates a view of the container's declared template. -/
def createEmbeddedView (scope : Scope) (cid : ContainerId) (position : Nat) : RenderM LViewId := do
  let rec_ ← container cid
  let some tv := rec_.tview | structural (.missingTemplate rec_.index)
  createViewWith (← get).renderBound scope cid tv position

/-- Creates a view of template `tv` in a container. -/
def createEmbeddedViewWith (scope : Scope) (cid : ContainerId) (tv : TViewId) (position : Nat) :
    RenderM LViewId := do
  createViewWith (← get).renderBound scope cid tv position

/-- Runs a program outside any view. -/
def runDetached (scope : Scope) (instrs : List Instr) : RenderM Unit := do
  runBlock (← get).renderBound scope instrs

end RenderM

end ViewHydration
