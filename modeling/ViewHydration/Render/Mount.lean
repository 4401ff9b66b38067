import ViewHydration.Render.Run

/-!
# Mounting root views

`mount` renders a template into a host element as a root view. A hydrating context whose host
carries a hydration record in the configured attribute reads the record, removes the attribute
and reconciles the render against the host's server content; otherwise the host is emptied and
the view is created from scratch. A failed first render tears the root view down again.

A mounted root starts out not stable. When it was hydrated and the configuration asks for it,
marking it stable the first time removes every dehydrated view that was never claimed. Dropping
the mount (unmounting it, or mounting another root under its name) cancels that cleanup.
-/

namespace ViewHydration

/-- A mounted root view. -/
structure Mount where
  root : LViewId
  host : NodeId
  stable : Bool := false
  /-- Whether marking the root stable removes the unclaimed dehydrated views. -/
  cleanupOnStable : Bool
  deriving DecidableEq, Repr, Inhabited

namespace RenderM

/-- Mounts template `tv` on `host`. -/
def mount (scope : Scope) (host : NodeId) (tv : TViewId) : RenderM Mount := do
  let t ← tview tv
  let c ← get
  let v : LView := { LView.create tv t.data.size with
                     host := some host, flags := (LView.create tv 0).flags.union .isRoot }
  let v ← match c.doc.attribute? host c.config.nghAttribute with
    | some text =>
      if c.isHydrating then do
        let some record := ViewRecord.read? text | hydration .malformed
        modifyDoc (·.removeAttribute host c.config.nghAttribute)
        let first := (← get).doc.firstChild? host
        pure { v with hydration := some { record := record, firstChild := first },
                      flags := v.flags.union .hydrated }
      else do
        modifyDoc (·.clearChildren host)
        pure v
    | none =>
      modifyDoc (·.clearChildren host)
      pure v
  let hydrated := v.hydration.isSome
  let c ← get
  let (registry, root) := c.registry.allocateLView v
  set { c with registry := registry }
  let fuel := (← get).renderBound
  try
    renderView fuel scope root
    refreshView fuel scope root
  catch e =>
    try destroyView root catch _ => pure ()
    throw e
  pure { root := root, host := host, cleanupOnStable := hydrated && (← get).config.cleanupOnStable }

/-- Reruns the update passes of a mounted root and its embedded views. -/
def refresh (scope : Scope) (m : Mount) : RenderM Unit := do
  refreshView (← get).renderBound scope m.root

/-- Destroys a mounted root. -/
def unmount (m : Mount) : RenderM Unit := destroyView m.root

end RenderM

namespace Context

/-- Marks a mounted root stable; the first time, a root that cleans up on stable removes every
dehydrated view left in the pool. -/
def markStable (c : Context) (m : Mount) : Context × Mount :=
  if m.cleanupOnStable && !m.stable then
    let (pool, doc) := c.pool.cleanup c.doc
    ({ c with pool := pool, doc := doc }, { m with stable := true })
  else (c, { m with stable := true })

end Context

end ViewHydration
