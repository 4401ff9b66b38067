import ViewHydration.Render.Run
import ViewHydration.Proofs.ViewEdits

/-!
# Nesting of a creation pass

The start and end instructions of a creation pass nest like brackets. This module states that
nesting on its own: the starts still open form a stack, every start pushes its node and every end
pops one, and a pass fails at the first end that finds no start or a start of another kind, or at
its close when starts are left open. A render frame keeps no such stack; `CreationPass` shows that
its two cells and the parent links of the template rebuild it.

## Main definitions

- `OpenNode` — a start still waiting for its end
- `Nesting.step`, `Nesting.run` — one instruction, and a list of them, on the open starts
- `Nesting.outcome` — how a creation pass made of these instructions ends
- `Frame.Tracks` — a frame's position cells describe the open starts
- `Instr.isNode` — the instructions the account covers
-/

namespace ViewHydration

/-- A start instruction still waiting for its end: the slot it opened, the kind of its node, and
whether the node is an element that carries the skip-hydration attribute. -/
structure OpenNode where
  index : Nat
  kind : TNodeType
  skip : Bool := false
  deriving DecidableEq, Repr

namespace Instr

/-- The node instructions of a creation pass: starts and ends of elements and `<ng-container>`s,
their one-instruction forms, text nodes and container anchors. -/
def isNode : Instr → Bool
  | .elementStart .. | .element .. | .elementEnd => true
  | .elementContainerStart .. | .elementContainer .. | .elementContainerEnd => true
  | .text .. | .template .. => true
  | _ => false

/-- The attribute and local-name constants a node instruction names exist in template `t`. -/
def resolvesConsts (t : TView) (scope : Scope) : Instr → Bool
  | .elementStart _ _ attrs refs | .element _ _ attrs refs | .template _ _ attrs refs
  | .elementContainerStart _ attrs refs | .elementContainer _ attrs refs =>
    (t.attrsConst (attrs.map scope.count)).isOk && (t.localRefsConst (refs.map scope.count)).isOk
  | _ => true

/-- The template a container anchor declares is registered. -/
def templateKnown (r : Registry) : Instr → Bool
  | .template _ tv _ _ => decide (tv.idx < r.tviews.size)
  | _ => true

/-- The slot a node instruction declares, read in a scope. -/
def slot? (scope : Scope) : Instr → Option Nat
  | .elementStart index .. | .element index .. => some (scope.count index)
  | .elementContainerStart index .. | .elementContainer index .. => some (scope.count index)
  | .text index .. | .template index .. => some (scope.count index)
  | _ => none

end Instr

namespace Nesting

/-- Whether the attribute list at a constant index of the template carries the attribute `key`. -/
def carries (t : TView) (key : String) (attrs : Option Nat) : Bool :=
  match t.attrsConst attrs with
  | .ok a => (a.find? (·.1 == key)).isSome
  | .error _ => false

theorem carries_congr {t t' : TView} (h : t.consts = t'.consts) (key : String) (attrs : Option Nat) :
    carries t key attrs = carries t' key attrs := by
  simp only [carries, TView.attrsConst_congr h]

/-- Closes the innermost open start, which must be of kind `kind`. -/
def close (kind : TNodeType) (instr : EndInstruction) :
    List OpenNode → Except StructuralError (List OpenNode)
  | [] => .error (.unbalancedEnd instr)
  | o :: rest => if o.kind = kind then .ok rest else .error (.nodeKindMismatch o.index kind o.kind)

/-- What one instruction does to the open starts, innermost first. An element start records
whether its attributes carry `key`; text nodes and container anchors open nothing. -/
def step (scope : Scope) (t : TView) (key : String) (stack : List OpenNode) :
    Instr → Except StructuralError (List OpenNode)
  | .elementStart index _ attrs _ =>
    .ok (⟨scope.count index, .element, carries t key (attrs.map scope.count)⟩ :: stack)
  | .elementEnd => close .element .elementEnd stack
  | .elementContainerStart index _ _ => .ok (⟨scope.count index, .elementContainer, false⟩ :: stack)
  | .elementContainerEnd => close .elementContainer .elementContainerEnd stack
  | _ => .ok stack

/-- Runs instructions on the open starts, stopping at the first bad end. -/
def run (scope : Scope) (t : TView) (key : String) :
    List OpenNode → List Instr → Except StructuralError (List OpenNode)
  | stack, [] => .ok stack
  | stack, i :: rest => (step scope t key stack i).bind fun stack => run scope t key stack rest

/-- How a creation pass of view `view` made of `instrs` ends: the first bad end, else the starts
left open, else success. -/
def outcome (scope : Scope) (t : TView) (key : String) (view : LViewId) (instrs : List Instr) :
    Except StructuralError Unit :=
  match run scope t key [] instrs with
  | .error e => .error e
  | .ok [] => .ok ()
  | .ok stack => .error (.unclosedNodes view stack.length)

/-- The slot of the innermost open start; `none` at top level. -/
def innermost (stack : List OpenNode) : Option Nat := stack.head?.map (·.index)

/-- The slot of the outermost open start that skips hydration. -/
def outermostSkip (stack : List OpenNode) : Option Nat := (stack.reverse.find? (·.skip)).map (·.index)

theorem outermostSkip_cons (o : OpenNode) (stack : List OpenNode) :
    outermostSkip (o :: stack) = (outermostSkip stack).or (if o.skip then some o.index else none) := by
  simp only [outermostSkip, List.reverse_cons, List.find?_append, List.find?_singleton]
  cases stack.reverse.find? (·.skip) <;> cases o.skip <;> rfl

theorem mem_of_outermostSkip {stack : List OpenNode} {k : Nat} (h : outermostSkip stack = some k) :
    k ∈ stack.map (·.index) := by
  simp only [outermostSkip, Option.map_eq_some_iff] at h
  obtain ⟨o, ho, rfl⟩ := h
  exact List.mem_map_of_mem (List.mem_reverse.mp (List.mem_of_find?_eq_some ho))

end Nesting

namespace Frame

/-- The two position cells of a frame, read with the parent links of template `t`, describe the
open starts: the element count is their number; an open current node is the innermost one; a
closed current node has the innermost one as parent; and the skip root is the outermost one that
skips hydration. -/
structure Tracks (f : Frame) (t : TView) (stack : List OpenNode) : Prop where
  depth : f.elementDepth = stack.length
  open_current : f.isParent = true → f.current = Nesting.innermost stack
  closed_current : f.isParent = false → (f.current.bind t.tnode?).bind (·.parent) = Nesting.innermost stack
  skip_root : f.skipHydrationRoot = Nesting.outermostSkip stack

/-- The next node goes under the innermost open start. -/
theorem Tracks.parentForNext_eq {f : Frame} {t : TView} {stack : List OpenNode} (h : f.Tracks t stack) :
    f.parentForNext ((f.current.bind t.tnode?).bind (·.parent)) = Nesting.innermost stack := by
  unfold parentForNext
  cases hp : f.isParent
  · exact h.closed_current hp
  · exact h.open_current hp

end Frame

end ViewHydration
