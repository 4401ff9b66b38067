import ViewHydration.Dom.Node
import ViewHydration.Error

/-!
# Claimed nodes

While hydrating, every server node that a slot locates is claimed, and a node may be claimed
once only: a second claim means two slots resolved to the same node. Destroying a view releases
the claims on the nodes of its slots.
-/

namespace ViewHydration

/-- The set of claimed nodes. -/
structure Claims where
  nodes : List NodeId := []
  deriving DecidableEq, Repr, Inhabited

namespace Claims

/-- Whether a node is claimed. -/
def isClaimed (c : Claims) (n : NodeId) : Bool := c.nodes.contains n

/-- Claims a node; claiming it a second time is an error. -/
def claim (c : Claims) (n : NodeId) : Except RenderError Claims :=
  if c.isClaimed n then .error (.alreadyClaimed n) else .ok { nodes := c.nodes ++ [n] }

/-- Releases the claim on a node, if any. -/
def release (c : Claims) (n : NodeId) : Claims := { nodes := c.nodes.erase n }

/-- Number of claimed nodes. -/
def size (c : Claims) : Nat := c.nodes.length

end Claims

end ViewHydration
