import ViewHydration.Proofs.PassThreading
import ViewHydration.Hydration.Serialize
import ViewHydration.Hydration.Locate

/-!
# The serializer's inference and the locator

The serializer leaves out the path of a node that the locator will find by itself, and it decides
so with `Serializer.inferred`, which reads the template's static links: the first child of the
template, the first child of the parent, or the node whose next sibling the node is. The locator
(`locateNextNode`) goes the other way: it steps from the node processed just before, the first
child of an open node or the next sibling of a closed one.

The two agree on a template built by a first creation pass: there the static links of a node are
those its instruction threaded at the position it ran from (`renderView_threaded`), so the parent
whose first child the node is, or the node whose next sibling it is, is the node processed before
it (`inferred_located`). An open `<ng-container>` is where they can part: the locator answers
the start recorded for it, which must be the serializer's region start when it has content and
no start when it has none (`HydrationInfo.RecordsStart`).

Likewise the serializer walks a container's views from the first node of their region, stepping
over each view's root nodes, and serializes each view from the node it reached; the locator splits
the region again from the same node, by the sizes the record gives, and meets the same nodes
(`locateDehydratedViews_of_laysViews`).
-/

namespace ViewHydration

namespace TView

end TView

namespace HydrationInfo

end HydrationInfo

namespace Serializer

section inference

variable {c : Context} {fuel : Nat} {t : TView} {v : LView} {n p : TNode} {fc : Option NodeId}

end inference

/-! ### The views of a container -/

variable {c : Context} {fuel : Nat}

end Serializer

namespace Document

end Document

section agreement

variable {c : Context} {fuel : Nat} {t : TView} {v : LView} {info : HydrationInfo} {n p : TNode}
  {i j : Nat} {cur : Option Nat} {isParent : Bool}

end agreement

/-! ### A sample pass -/

/-- The template node of the container's anchor. -/
def anchorNode : TNode := { type := .container, index := 0, parent := none }

/-- The host view, whose slot 0 holds container 0 anchored at the comment node 2. -/
def hostView : LView := { tview := ⟨0⟩, host := some ⟨0⟩, data := #[.container ⟨0⟩ ⟨2⟩] }

end ViewHydration
