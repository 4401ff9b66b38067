import ViewHydration.Dom.Document
import ViewHydration.Error

/-!
# Node paths

A node path names a node of the server markup relative to an anchor: `host` (the view's host
element) or the slot index of an element of the same view, followed by `.firstChild` and
`.nextSibling` steps. Following a path uses only those two links.

A path is read by splitting it at every `.`: the first segment is the anchor, every later
segment a step. A slot index is ASCII digits with an optional leading `+`, below `2 ^ 64`; it is
printed back without sign or leading zeros, so printing a read path normalises it.
-/

namespace ViewHydration

/-- Where a node path starts. -/
inductive PathAnchor where
  | host
  | slot (index : Nat)
  deriving DecidableEq, Repr, Inhabited

/-- One step of a node path. -/
inductive PathStep where
  | firstChild
  | nextSibling
  deriving DecidableEq, Repr, Inhabited

/-- A node path: an anchor and the steps that lead from it to the node. -/
structure NodePath where
  anchor : PathAnchor
  steps : List PathStep
  deriving DecidableEq, Repr, Inhabited

namespace PathStep

/-- The step's name in a path. -/
def name : PathStep → String
  | .firstChild => "firstChild"
  | .nextSibling => "nextSibling"

end PathStep

namespace NodePath

/-- Reads an unsigned count: an optional `+`, then at least one ASCII digit; the value must be
below `2 ^ 64`. -/
def readCount? (s : String) : Option Nat :=
  let cs := match s.toList with
    | '+' :: r => r
    | r => r
  if cs.isEmpty || !cs.all (fun c => '0' ≤ c && c ≤ '9') then none
  else
    let n := cs.foldl (fun n c => n * 10 + (c.toNat - 48)) 0
    if n < Nat.pow 2 64 then some n else none

/-- Splits a string at every `.`. -/
def segments (s : String) : List String :=
  (s.toList.splitOn '.').map String.ofList

/-- Reads a later segment as a step. -/
def readStep (path segment : String) : Except HydrationError PathStep :=
  if segment == "firstChild" then .ok .firstChild
  else if segment == "nextSibling" then .ok .nextSibling
  else .error (.invalidPath path (.unknownStep segment))

/-- Reads a path. -/
def parse (path : String) : Except HydrationError NodePath :=
  match segments path with
  | [] => .error (.invalidPath path .empty)
  | first :: rest => do
    let anchor ← if first == "host" then pure PathAnchor.host
      else match readCount? first with
        | some n => pure (PathAnchor.slot n)
        | none => throw (.invalidPath path (.badAnchor first))
    let steps ← rest.mapM (readStep path)
    pure { anchor := anchor, steps := steps }

/-- Prints a path. -/
def render (p : NodePath) : String :=
  let anchor := match p.anchor with
    | .host => "host"
    | .slot n => toString n
  p.steps.foldl (fun acc s => acc ++ "." ++ s.name) anchor

instance : ToString NodePath := ⟨render⟩

/-- Follows the steps from `start`, counting steps from 1; the first step that finds no node is
the error. -/
def walkFrom (d : Document) (p : NodePath) : Nat → NodeId → List PathStep → Except HydrationError NodeId
  | _, node, [] => .ok node
  | k, node, s :: rest =>
    let next := match s with
      | .firstChild => d.firstChild? node
      | .nextSibling => d.nextSibling? node
    match next with
    | some n => walkFrom d p (k + 1) n rest
    | none => .error (.pathWalkFailed p.render k)

/-- Follows a path from `start`. -/
def walk (d : Document) (p : NodePath) (start : NodeId) : Except HydrationError NodeId :=
  walkFrom d p 1 start p.steps

/-- The ancestors of `node` up to `top`, starting with `node` itself and ending with `top`, when
`top` is reached through parent links. -/
def ancestorChain (d : Document) (top : NodeId) : Nat → NodeId → Option (List NodeId)
  | 0, _ => none
  | fuel + 1, node =>
    if node == top then some [node]
    else match d.parent? node with
      | some p => (ancestorChain d top fuel p).map (node :: ·)
      | none => none

/-- The steps that reach each node of a top-down chain from the one before it. -/
def chainSteps (d : Document) : List NodeId → Option (List PathStep)
  | [] => some []
  | c :: rest => do
    let pos ← d.childPosition? c
    let tail ← chainSteps d rest
    pure (.firstChild :: List.replicate pos .nextSibling ++ tail)

/-- The path from `anchorNode` down to `target`, when `target` lies at or below it. -/
def between (d : Document) (anchor : PathAnchor) (anchorNode target : NodeId) : Option NodePath := do
  let chain ← ancestorChain d anchorNode (d.size + 1) target
  let steps ← chainSteps d (chain.reverse.drop 1)
  pure { anchor := anchor, steps := steps }

end NodePath

namespace Document

/-- The node `count` next-sibling steps after `start`. -/
def siblingAfter? (d : Document) : Nat → NodeId → Option NodeId
  | 0, n => some n
  | k + 1, n => (d.nextSibling? n).bind (d.siblingAfter? k)

/-- The node `count` previous-sibling steps before `start`. -/
def siblingBefore? (d : Document) : Nat → NodeId → Option NodeId
  | 0, n => some n
  | k + 1, n => (d.prevSibling? n).bind (d.siblingBefore? k)

end Document

end ViewHydration
