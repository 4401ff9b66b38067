import ViewHydration.Render.Context

/-!
# Moving the render position

Entering a view pushes a fresh frame whose binding index starts at the template's first binding
slot; leaving pops it and checks that every start instruction got its end and no translated block
is left open. A failed pass abandons its frame without checks.
-/

namespace ViewHydration

namespace RenderM

/-- Pushes a fresh frame for a view. -/
def enterView (view : LViewId) (tview : TViewId) (bindingStart : Nat) : RenderM Unit :=
  modify fun c => { c with frames := { lview := view, tview := tview, bindingIndex := bindingStart } :: c.frames }

/-- Pops the top frame; a frame with open nodes or an open translated block is an error after
it is popped. -/
def leaveView : RenderM Unit := do
  match (← get).frames with
  | [] => structural .noActiveView
  | f :: rest =>
    modify fun c => { c with frames := rest }
    if f.elementDepth != 0 || f.i18n.isSome then
      structural (.unclosedNodes f.lview (f.elementDepth + if f.i18n.isSome then 1 else 0))

/-- Pops the top frame without checks. -/
def abandonView : RenderM Unit :=
  modify fun c => { c with frames := c.frames.drop 1 }

/-- Makes a node current, open or not. -/
def setCurrent (index : Nat) (isParent : Bool) : RenderM Unit :=
  modifyFrame fun f => { f with current := some index, isParent := isParent }

/-- Claims the next binding slot of the top frame. -/
def nextBindingIndex : RenderM Nat := do
  let f ← frame
  modifyFrame fun f => { f with bindingIndex := f.bindingIndex + 1 }
  pure f.bindingIndex

/-- The view and template of the top frame. -/
def active : RenderM (LViewId × TViewId) := do
  let f ← frame
  pure (f.lview, f.tview)

end RenderM

end ViewHydration
