import ViewHydration.Handle

/-!
# Render position

Each view being rendered has a frame on the position stack. Two cells of the frame encode the
nesting of the instruction stream: the current node, the node most recently opened or closed,
and whether it is still open. A start instruction makes its node current and open; the matching
end closes it when it is still open, or else moves to the current node's static parent. Nested
renders push frames of their own, so the caller's position is never disturbed.

A frame also counts the open elements, remembers the element whose subtree skips hydration, the
open translated block, the next binding slot, and the change mask of the expressions of the
block being updated.
-/

namespace ViewHydration

/-- The open translated block of a frame. -/
structure I18nFrame where
  /-- Slot holding the compiled block. -/
  index : Nat
  /-- Parent of the message's top-level nodes. -/
  parent : Option Nat
  /-- Text nodes found in the server markup. -/
  located : Nat := 0
  /-- Element slots opened inside the block, in instruction order. -/
  elements : List Nat := []
  deriving DecidableEq, Repr, Inhabited

/-- The render position within one view. -/
structure Frame where
  lview : LViewId
  tview : TViewId
  current : Option Nat := none
  isParent : Bool := false
  bindingIndex : Nat
  elementDepth : Nat := 0
  skipHydrationRoot : Option Nat := none
  i18n : Option I18nFrame := none
  expMask : UInt32 := 0
  expShift : Nat := 0
  deriving DecidableEq, Repr, Inhabited

namespace Frame

/-- The parent of the next node created at this position, given the parent of the current
node. -/
def parentForNext (f : Frame) (parentOfCurrent : Option Nat) : Option Nat :=
  if f.isParent then f.current else parentOfCurrent

end Frame

end ViewHydration
