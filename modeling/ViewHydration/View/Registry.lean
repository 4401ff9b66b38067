import ViewHydration.View.LView
import ViewHydration.Template.TView

/-!
# View registry

The registry owns the arenas of a render context. Templates are only ever appended. Live views
and containers are released when destroyed; a released index goes on a free list, and the next
allocation reuses the index freed last before it appends a new one.
-/

namespace ViewHydration

/-- The arenas of templates, live views and view containers. -/
structure Registry where
  tviews : Array TView := #[]
  lviews : Array (Option LView) := #[]
  containers : Array (Option LContainer) := #[]
  /-- Released view indices, the last released first. -/
  freeLViews : List Nat := []
  /-- Released container indices, the last released first. -/
  freeContainers : List Nat := []
  deriving Inhabited

namespace Registry

/-- Appends a template. -/
def createTView (r : Registry) (d : TemplateDef) : Registry × TViewId :=
  let id : TViewId := ⟨r.tviews.size⟩
  ({ r with tviews := r.tviews.push (TView.ofDef id d) }, id)

/-- The template with a handle. -/
def tview (r : Registry) (id : TViewId) : Except StructuralError TView :=
  match r.tviews[id.idx]? with
  | some t => .ok t
  | none => .error (.unknownTView id)

/-- Replaces a template. -/
def setTView (r : Registry) (t : TView) : Registry :=
  { r with tviews := r.tviews.setIfInBounds t.id.idx t }

/-- Allocates a live view, reusing the index freed last. -/
def allocateLView (r : Registry) (v : LView) : Registry × LViewId :=
  match r.freeLViews with
  | i :: rest => ({ r with lviews := r.lviews.setIfInBounds i (some v), freeLViews := rest }, ⟨i⟩)
  | [] => ({ r with lviews := r.lviews.push (some v) }, ⟨r.lviews.size⟩)

/-- Releases a live view; `none` when it was not live. -/
def releaseLView (r : Registry) (id : LViewId) : Registry × Option LView :=
  match r.lviews[id.idx]? with
  | some (some v) =>
    ({ r with lviews := r.lviews.setIfInBounds id.idx none, freeLViews := id.idx :: r.freeLViews },
      some v)
  | _ => (r, none)

/-- The live view with a handle. -/
def lview (r : Registry) (id : LViewId) : Except StructuralError LView :=
  match r.lviews[id.idx]? with
  | some (some v) => .ok v
  | _ => .error (.unknownView id)

/-- Replaces a live view. -/
def setLView (r : Registry) (id : LViewId) (v : LView) : Registry :=
  { r with lviews := r.lviews.setIfInBounds id.idx (some v) }

/-- A live view together with its template. -/
def viewPair (r : Registry) (id : LViewId) : Except StructuralError (TView × LView) := do
  let v ← r.lview id
  let t ← r.tview v.tview
  pure (t, v)

/-- Allocates a container, reusing the index freed last. -/
def allocateContainer (r : Registry) (c : LContainer) : Registry × ContainerId :=
  match r.freeContainers with
  | i :: rest =>
    ({ r with containers := r.containers.setIfInBounds i (some c), freeContainers := rest }, ⟨i⟩)
  | [] => ({ r with containers := r.containers.push (some c) }, ⟨r.containers.size⟩)

/-- Releases a container; `none` when it was not live. -/
def releaseContainer (r : Registry) (id : ContainerId) : Registry × Option LContainer :=
  match r.containers[id.idx]? with
  | some (some c) =>
    ({ r with containers := r.containers.setIfInBounds id.idx none,
              freeContainers := id.idx :: r.freeContainers }, some c)
  | _ => (r, none)

/-- The container with a handle. -/
def container (r : Registry) (id : ContainerId) : Except StructuralError LContainer :=
  match r.containers[id.idx]? with
  | some (some c) => .ok c
  | _ => .error (.unknownContainer id)

/-- Replaces a container. -/
def setContainer (r : Registry) (id : ContainerId) (c : LContainer) : Registry :=
  { r with containers := r.containers.setIfInBounds id.idx (some c) }

/-- Number of live views. -/
def lviewCount (r : Registry) : Nat := (r.lviews.toList.filter Option.isSome).length

end Registry

end ViewHydration
