/-!
# Handles

Templates, live views and view containers live in arenas of a render context and are named by
their position there. A handle prints with its arena's prefix, as `tview#3`, `lview#0` or
`lcontainer#2`; a slot index of a view is a plain number.
-/

namespace ViewHydration

/-- Handle of a compiled template, shared by every view that instantiates it. -/
structure TViewId where
  idx : Nat
  deriving DecidableEq, Repr, Hashable, Ord, Inhabited

/-- Handle of a live view. -/
structure LViewId where
  idx : Nat
  deriving DecidableEq, Repr, Hashable, Ord, Inhabited

/-- Handle of a live view container. -/
structure ContainerId where
  idx : Nat
  deriving DecidableEq, Repr, Hashable, Ord, Inhabited

instance : ToString TViewId := ⟨fun t => s!"tview#{t.idx}"⟩
instance : ToString LViewId := ⟨fun v => s!"lview#{v.idx}"⟩
instance : ToString ContainerId := ⟨fun c => s!"lcontainer#{c.idx}"⟩

end ViewHydration
