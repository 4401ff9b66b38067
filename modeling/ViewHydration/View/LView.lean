import ViewHydration.Dom.Node
import ViewHydration.Handle
import ViewHydration.Hydration.Record

/-!
# Live views and view containers

An `LView` is one instance of a template. Its data is aligned with the template's: each slot
holds nothing, the document node materialised for it, a view container with its anchor node, or
the last value of a binding. The header records the template, the state flags, the container the
view lives in, the host element its root nodes go into and the node they go before, and, for a
hydrated view, its hydration record.

A view container (`LContainer`) belongs to the slot of a host view and keeps its embedded views
in order; their root nodes lie in the document just before the container's anchor.
-/

namespace ViewHydration

/-- What a live view holds at one slot. -/
inductive Slot where
  | empty
  | node (n : NodeId)
  | container (c : ContainerId) (anchor : NodeId)
  | binding (value : String)
  deriving DecidableEq, Repr, Inhabited

namespace Slot

/-- The document node of a slot: the node itself, or a container's anchor. -/
def native? : Slot → Option NodeId
  | .node n => some n
  | .container _ anchor => some anchor
  | _ => none

/-- The container of a slot. -/
def container? : Slot → Option ContainerId
  | .container c _ => some c
  | _ => none

end Slot

/-- Runtime hydration state of one view: its record, its first document node, and the first
content node of each `<ng-container>` located so far. -/
structure HydrationInfo where
  record : ViewRecord
  firstChild : Option NodeId
  containerStarts : List (Nat × Option NodeId) := []
  deriving Repr, Inhabited

namespace HydrationInfo

/-- The first content node located for an `<ng-container>`. -/
def containerStart? (h : HydrationInfo) (slot : Nat) : Option NodeId :=
  (h.containerStarts.lookup slot).bind id

/-- Records the first content node of an `<ng-container>`, replacing an earlier one. -/
def setContainerStart (h : HydrationInfo) (slot : Nat) (start : Option NodeId) : HydrationInfo :=
  { h with containerStarts := (slot, start) :: h.containerStarts.filter (·.1 != slot) }

end HydrationInfo

/-- State flags of a live view, as a bit set. -/
structure LViewFlags where
  bits : Nat := 0
  deriving DecidableEq, Repr, Inhabited

namespace LViewFlags

/-- The creation pass has not completed yet. -/
def creationMode : LViewFlags := ⟨1⟩
/-- The view is attached. -/
def attached : LViewFlags := ⟨2⟩
/-- The view is a mounted root. -/
def isRoot : LViewFlags := ⟨4⟩
/-- The view was reconciled against server markup. -/
def hydrated : LViewFlags := ⟨8⟩

/-- Union of two flag sets. -/
def union (a b : LViewFlags) : LViewFlags := ⟨a.bits ||| b.bits⟩

/-- The flags of `a` without those of `b`. -/
def remove (a b : LViewFlags) : LViewFlags := ⟨a.bits &&& (b.bits ^^^ 0xFFFF)⟩

end LViewFlags

/-- One live instance of a template. -/
structure LView where
  tview : TViewId
  flags : LViewFlags := LViewFlags.union .creationMode .attached
  parent : Option ContainerId := none
  host : Option NodeId := none
  insertBefore : Option NodeId := none
  hydration : Option HydrationInfo := none
  data : Array Slot
  deriving Repr, Inhabited

namespace LView

/-- A fresh view of a template with `len` empty slots. -/
def create (tview : TViewId) (len : Nat) : LView := { tview := tview, data := Array.replicate len .empty }

/-- The slot at an index; beyond the data every slot is empty. -/
def slot (v : LView) (i : Nat) : Slot := v.data[i]?.getD .empty

/-- The document node of a slot. -/
def native? (v : LView) (i : Nat) : Option NodeId := (v.slot i).native?

/-- Stores a slot, growing the data when needed. -/
def set (v : LView) (i : Nat) (s : Slot) : LView :=
  let data := if v.data.size ≤ i then v.data ++ Array.replicate (i + 1 - v.data.size) .empty else v.data
  { v with data := data.setIfInBounds i s }

/-- The view containers of the view, in slot order. -/
def containers (v : LView) : List ContainerId := v.data.toList.filterMap Slot.container?

/-- The document nodes of all slots, in slot order. -/
def natives (v : LView) : List NodeId := v.data.toList.filterMap Slot.native?

end LView

/-- A view container: its anchor, the slot of the view that owns it, its views in order, and
the template its views instantiate by default. -/
structure LContainer where
  anchor : NodeId
  hostView : LViewId
  index : Nat
  views : List LViewId := []
  tview : Option TViewId := none
  deriving DecidableEq, Repr, Inhabited

end ViewHydration
