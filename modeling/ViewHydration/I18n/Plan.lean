import ViewHydration.I18n.Message

/-!
# Planning translated blocks

A translated block turns the parts of its message into nodes. Runs of text and expressions
become text nodes; element placeholders name elements that the template declares, and template
placeholders name container anchors. `planBlock` keeps a stack of the open element placeholders:
the parent of every planned node is the innermost open element, or the block's root when none is
open. Each element close must match the innermost open element, and none may be left open.

An attribute message may hold only text and expressions. Expression `n` owns bit `min n 31` of a
32-bit change mask, so expressions past the 31st share the top bit.
-/

namespace ViewHydration

/-- One piece of a text run: literal text, or the value of the `n`-th expression of the block. -/
inductive I18nPart where
  | literal (s : String)
  | binding (n : Nat)
  deriving DecidableEq, Repr, Inhabited

/-- A node of a block before its text runs are given slots. -/
inductive PlannedNode where
  | text (parent : Option Nat) (parts : List I18nPart)
  | element (index : Nat) (parent : Option Nat)
  | template (index : Nat) (parent : Option Nat)
  deriving DecidableEq, Repr, Inhabited

namespace I18nPlan

/-- State of the planner: the planned nodes, the open elements (innermost first) and the text
run being collected. -/
structure Planner where
  planned : List PlannedNode := []
  stack : List Nat := []
  run : List I18nPart := []
  deriving Repr, Inhabited

/-- The parent of the next node: the innermost open element, else the root. -/
def Planner.parent (p : Planner) (root : Option Nat) : Option Nat :=
  match p.stack with
  | s :: _ => some s
  | [] => root

/-- Ends the current text run, planning a text node if it is not empty. -/
def Planner.flush (p : Planner) (root : Option Nat) : Planner :=
  if p.run.isEmpty then p
  else { p with planned := p.planned ++ [.text (p.parent root) p.run], run := [] }

/-- Plans one message part. -/
def Planner.step (root : Option Nat) (p : Planner) : MessagePart → Except I18nError Planner
  | .text s => .ok { p with run := p.run ++ [.literal s] }
  | .expression n => .ok { p with run := p.run ++ [.binding n] }
  | .elementStart slot =>
    let p := p.flush root
    .ok { p with planned := p.planned ++ [.element slot (p.parent root)], stack := slot :: p.stack }
  | .elementEnd slot =>
    let p := p.flush root
    match p.stack with
    | top :: rest => if top == slot then .ok { p with stack := rest } else .error (.unbalancedElement slot)
    | [] => .error (.unbalancedElement slot)
  | .voidElement slot =>
    let p := p.flush root
    .ok { p with planned := p.planned ++ [.element slot (p.parent root)] }
  | .templateStart slot =>
    let p := p.flush root
    .ok { p with planned := p.planned ++ [.template slot (p.parent root)] }
  | .templateEnd _ => .ok (p.flush root)

end I18nPlan

/-- Turns message parts into block nodes under `root`. -/
def planBlock (parts : List MessagePart) (root : Option Nat) :
    Except I18nError (List PlannedNode) := do
  let p ← parts.foldlM (I18nPlan.Planner.step root) {}
  let p := p.flush root
  match p.stack with
  | top :: _ => .error (.unclosedElement top)
  | [] => .ok p.planned

/-- The parts of an attribute message; element and template placeholders are refused. -/
def planAttribute (message : String) : Except I18nError (List I18nPart) := do
  let parts ← parseMessage message
  parts.mapM fun
    | .text s => .ok (.literal s)
    | .expression n => .ok (.binding n)
    | _ => .error .structureInAttribute

/-- Mask bit of the `n`-th expression of a block. -/
def expressionBit (n : Nat) : UInt32 := (1 : UInt32) <<< (min n 31).toUInt32

/-- Change mask covering every expression that a part list reads. -/
def bindingMask (parts : List I18nPart) : UInt32 :=
  parts.foldl (fun mask part =>
    match part with
    | .binding n => mask ||| expressionBit n
    | .literal _ => mask) 0

/-- The concatenated literal text, when the parts read no expression. -/
def staticText (parts : List I18nPart) : Option String :=
  parts.foldlM (fun acc part =>
    match part with
    | .literal s => some (acc ++ s)
    | .binding _ => none) ""

/-- Renders a part list with the current expression values; a missing value renders empty. -/
def renderParts (parts : List I18nPart) (bindings : List String) : String :=
  parts.foldl (fun acc part =>
    match part with
    | .literal s => acc ++ s
    | .binding n => acc ++ (bindings[n]?.getD "")) ""

end ViewHydration
