import ViewHydration.Proofs.Monad
import ViewHydration.Proofs.Nesting
import ViewHydration.Proofs.ViewEdits

/-!
# Spec lemmas of render operations

One lemma for each operation a creation pass runs: under the facts the operation reads, it
succeeds with the value and final context given here, or fails with the error given here. The
proofs about whole instructions chain these lemmas along `bind` and never unfold the operations.

Nodes are created, not located: `materialize` is stated for a context whose configuration does
not hydrate.
-/

namespace ViewHydration

theorem TNodeFlags.has_skipHydration_union (x : TNodeFlags) (b : Nat) :
    (x.union ⟨b &&& 3⟩).has .skipHydration = x.has .skipHydration := by
  simp only [TNodeFlags.has, TNodeFlags.union, TNodeFlags.skipHydration, Nat.and_or_distrib_right,
    Nat.and_assoc]
  rw [show (3 &&& 64 : Nat) = 0 by decide, Nat.and_zero, Nat.or_zero]

namespace Frame

/-- The frame after the node at `index`, with flags `flags`, is opened. -/
def opened (f : Frame) (index : Nat) (flags : TNodeFlags) : Frame :=
  { f with current := some index, isParent := true, elementDepth := f.elementDepth + 1,
           skipHydrationRoot :=
             if flags.has .skipHydration && f.skipHydrationRoot.isNone then some index
             else f.skipHydrationRoot,
           i18n := f.i18n.map fun b => { b with elements := b.elements ++ [index] } }

/-- The frame after the node at `k` is closed. -/
def closed (f : Frame) (k : Nat) : Frame :=
  { f with current := some k, isParent := false, elementDepth := f.elementDepth - 1,
           skipHydrationRoot := if f.skipHydrationRoot == some k then none else f.skipHydrationRoot }

end Frame

/-- Both hooks of a resolver succeed at every site. -/
def DirectiveResolver.Succeeds (r : DirectiveResolver) : Prop :=
  ∀ site, r.instantiate site = .ok () ∧ r.contentQueries site = .ok ()

/-- The directive hooks of a context succeed: it has no resolver, or one whose hooks succeed. -/
def Context.HooksSucceed (c : Context) : Prop :=
  ∀ r, c.directives = some r → r.Succeeds

theorem Context.hooksSucceed_of_none {c : Context} (h : c.directives = none) : c.HooksSucceed :=
  fun _ hr => absurd (h.symm.trans hr) (Option.some_ne_none _).symm

namespace RenderM

variable {α : Type} {c : Context} {f : Frame} {rest : List Frame}

theorem frame_ok (h : c.frames = f :: rest) : Ok frame c fun a c' => f = a ∧ c = c' :=
  Ok.of_run (by simp only [frame, run_bind, run_get, h, run_pure]) ⟨rfl, rfl⟩

theorem modifyFrame_ok (h : c.frames = f :: rest) (g : Frame → Frame) :
    Ok (modifyFrame g) c fun _ c' => c' = { c with frames := g f :: rest } :=
  Ok.of_run (by simp only [modifyFrame, run_bind, run_get, h, run_modify]; rfl) rfl

theorem active_ok (h : c.frames = f :: rest) :
    Ok active c fun a c' => (f.lview, f.tview) = a ∧ c = c' :=
  Ok.of_run (by simp only [active, frame, run_bind, run_get, h, run_pure]) ⟨rfl, rfl⟩

theorem setCurrent_ok (h : c.frames = f :: rest) (index : Nat) (isParent : Bool) :
    Ok (setCurrent index isParent) c fun _ c' =>
      c' = { c with frames := { f with current := some index, isParent := isParent } :: rest } :=
  modifyFrame_ok h _

theorem tview_ok {id : TViewId} {t : TView} (h : c.registry.tview id = .ok t) :
    Ok (tview id) c fun a c' => t = a ∧ c = c' :=
  Ok.of_run (by simp only [tview, ofStructural, run_bind, run_get, h, run_pure]) ⟨rfl, rfl⟩

theorem lview_ok {id : LViewId} {v : LView} (h : c.registry.lview id = .ok v) :
    Ok (lview id) c fun a c' => v = a ∧ c = c' :=
  Ok.of_run (by simp only [lview, ofStructural, run_bind, run_get, h, run_pure]) ⟨rfl, rfl⟩

theorem viewPair_ok {id : LViewId} {p : TView × LView} (h : c.registry.viewPair id = .ok p) :
    Ok (viewPair id) c fun a c' => p = a ∧ c = c' :=
  Ok.of_run (by simp only [viewPair, ofStructural, run_bind, run_get, h, run_pure]) ⟨rfl, rfl⟩

theorem modifyLView_ok {id : LViewId} {v : LView} (h : c.registry.lview id = .ok v)
    (g : LView → LView) :
    Ok (modifyLView id g) c fun _ c' => c' = { c with registry := c.registry.setLView id (g v) } :=
  Ok.of_run (by
    simp only [modifyLView, lview, setLView, ofStructural, run_bind, run_get, h, run_pure, run_modify]
    rfl) rfl

theorem ofStructural_ok {e : Except StructuralError α} {a : α} (h : e = .ok a) :
    Ok (ofStructural e) c fun b c' => a = b ∧ c = c' :=
  Ok.of_run (by simp only [ofStructural, h, run_pure]) ⟨rfl, rfl⟩

theorem emit_ok (e : Event) : Ok (emit e) c fun _ c' => c' = { c with events := c.events.push e } :=
  Ok.modify rfl

theorem modifyDoc_ok (g : Document → Document) :
    Ok (modifyDoc g) c fun _ c' => c' = { c with doc := g c.doc } :=
  Ok.modify rfl

theorem expectTNode_ok {t : TView} {i : Nat} {n : TNode} (h : t.tnode? i = some n) :
    t.expectTNode i = .ok n := by
  simp [TView.expectTNode, h]

/-- A declared slot passes the creation checks while no binding has been read. -/
theorem checkCreationSlot_ok {index : Nat} {t : TView} (h : c.frames = f :: rest)
    (ht : c.registry.tview f.tview = .ok t) (hb : f.bindingIndex = t.decls) (hi : index < t.decls) :
    Ok (checkCreationSlot index) c fun _ c' => c = c' := by
  unfold checkCreationSlot
  refine Ok.bind ((frame_ok h).mono ?_)
  rintro _ _ ⟨rfl, rfl⟩
  refine Ok.bind ((tview_ok ht).mono ?_)
  rintro _ _ ⟨rfl, rfl⟩
  simp only [TView.bindingStartIndex, hb, bne_self_eq_false, Bool.false_eq_true, if_false, ge_iff_le,
    Nat.not_le.mpr hi]
  exact Ok.pure rfl

theorem registerTNode_run_ok {t : TView} {n : TNode} {cur : Option Nat} {ip : Bool}
    (hfirst : t.firstCreatePass = true) :
    Ok (ofStructural (t.registerTNode n cur ip)) c fun t' c' =>
      t.registerTNode n cur ip = .ok t' ∧ c = c' := by
  obtain ⟨t', h⟩ := TView.registerTNode_ok n cur ip hfirst
  exact (ofStructural_ok h).mono fun a c' ⟨ha, hc⟩ => ⟨ha ▸ h, hc⟩

/-- On the first creation pass, outside a translated block, a node is registered under the
position's parent for the next node; it skips hydration when it is an element carrying the
configured attribute. -/
theorem resolveTNode_ok {index : Nat} {spec : NodeSpec} {t : TView} {a : List (String × String)}
    {l : List String} (h : c.frames = f :: rest) (ht : c.registry.tview f.tview = .ok t)
    (hfirst : t.firstCreatePass = true) (hi18n : f.i18n = none)
    (ha : t.attrsConst spec.attrs = .ok a) (hl : t.localRefsConst spec.refs = .ok l) :
    Ok (resolveTNode index spec) c fun _ c' => ∃ n t', t.registerTNode n f.current f.isParent = .ok t' ∧
      c' = { c with registry := c.registry.setTView t' } ∧ n.index = index ∧ n.type = spec.type ∧
      n.parent = f.parentForNext ((f.current.bind t.tnode?).bind (·.parent)) ∧
      n.has .skipHydration =
        (spec.type == .element && Nesting.carries t c.config.skipHydrationAttribute spec.attrs) := by
  unfold resolveTNode
  refine Ok.bind ((frame_ok h).mono ?_)
  rintro _ _ ⟨rfl, rfl⟩
  refine Ok.bind ((tview_ok ht).mono ?_)
  rintro _ _ ⟨rfl, rfl⟩
  rw [hfirst, Bool.not_true, if_neg Bool.false_ne_true]
  refine Ok.bind ((ofStructural_ok ha).mono ?_)
  rintro _ _ ⟨rfl, rfl⟩
  refine Ok.bind ((ofStructural_ok hl).mono ?_)
  rintro _ _ ⟨rfl, rfl⟩
  refine Ok.bind (Ok.get ?_)
  refine Ok.bind ((registerTNode_run_ok hfirst).mono ?_)
  rintro t' _ ⟨hreg, rfl⟩
  refine Ok.modify ⟨_, t', hreg, rfl, rfl, rfl, rfl, ?_⟩
  simp only [TNode.has, hi18n, Option.isSome_none, Bool.false_eq_true, if_false, Nesting.carries, ha]
  have hskip : ∀ b : Bool,
      (if b = true then ({} : TNodeFlags).union .skipHydration else {}).has .skipHydration = b := by
    decide
  split
  · rw [Context.directiveFlags, TNodeFlags.has_skipHydration_union, hskip]
  · exact hskip _

theorem createNode_ok (req : NodeRequest) :
    Ok (createNode req) c fun a c' =>
      ∃ nd, a = (c.doc.push nd).2 ∧ c' = { c with doc := (c.doc.push nd).1 } := by
  cases req <;> exact Ok.of_run rfl ⟨_, rfl, rfl⟩

/-- A context that does not hydrate creates every node it is asked for. -/
theorem materialize_ok {index : Nat} {req : NodeRequest} {t : TView} {v : LView} {m : TNode}
    (h : c.frames = f :: rest) (hp : c.registry.viewPair f.lview = .ok (t, v))
    (hm : t.tnode? index = some m) (hcreating : c.config.hydration = false) :
    Ok (materialize index req) c fun a c' =>
      ∃ nd, a = ((c.doc.push nd).2, true) ∧ c' = { c with doc := (c.doc.push nd).1 } := by
  unfold materialize
  refine Ok.bind ((frame_ok h).mono ?_)
  rintro _ _ ⟨rfl, rfl⟩
  refine Ok.bind ((viewPair_ok hp).mono ?_)
  rintro _ _ ⟨rfl, rfl⟩
  refine Ok.bind ((ofStructural_ok (expectTNode_ok hm)).mono ?_)
  rintro _ _ ⟨rfl, rfl⟩
  refine Ok.bind (Ok.get ?_)
  split
  · rename_i hh
    simp [Context.isHydrating, hcreating] at hh
  · refine Ok.bind ((createNode_ok req).mono ?_)
    rintro _ _ ⟨nd, rfl, rfl⟩
    exact Ok.pure ⟨nd, rfl, rfl⟩

theorem insertCreated_ok {view : LViewId} {index : Nat} {node : NodeId} {t : TView} {v : LView}
    {n : TNode} {parent : NodeId} {before : Option NodeId}
    (hp : c.registry.viewPair view = .ok (t, v)) (hn : t.tnode? index = some n)
    (hip : insertionPoint c.doc t v n.parent n.index = .ok (parent, before)) :
    Ok (insertCreated view index node) c fun _ c' =>
      c' = { c with doc := c.doc.insertBefore parent node before } := by
  unfold insertCreated
  refine Ok.bind ((viewPair_ok hp).mono ?_)
  rintro _ _ ⟨rfl, rfl⟩
  refine Ok.bind ((ofStructural_ok (expectTNode_ok hn)).mono ?_)
  rintro _ _ ⟨rfl, rfl⟩
  refine Ok.bind (Ok.get ?_)
  refine Ok.bind ((ofStructural_ok hip).mono ?_)
  rintro _ _ ⟨rfl, rfl⟩
  exact modifyDoc_ok _

/-- Storing a created node fills its slot and inserts the node at the place of its template
node. -/
theorem storeNode_ok {view : LViewId} {index : Nat} {node : NodeId} {t : TView} {v : LView}
    {n : TNode} {parent : NodeId} {before : Option NodeId}
    (hp : c.registry.viewPair view = .ok (t, v)) (hn : t.tnode? index = some n)
    (hip : insertionPoint c.doc t (v.set index (.node node)) n.parent n.index = .ok (parent, before)) :
    Ok (storeNode view index node true) c fun _ c' =>
      c' = { c with registry := c.registry.setLView view (v.set index (.node node)),
                    doc := c.doc.insertBefore parent node before } := by
  obtain ⟨hv, ht⟩ := Registry.viewPair_eq_ok.mp hp
  unfold storeNode
  refine Ok.bind ((modifyLView_ok hv _).mono ?_)
  rintro _ _ rfl
  rw [if_pos rfl]
  exact insertCreated_ok (Registry.viewPair_eq_ok.mpr ⟨Registry.lview_setLView_self hv, ht⟩) hn hip

/-- Opening a node makes it current and open and counts it; the first node that skips hydration
becomes the skip root. -/
theorem openNode_ok (h : c.frames = f :: rest) (index : Nat) (flags : TNodeFlags) :
    Ok (openNode index flags) c fun _ c' => c' = { c with frames := f.opened index flags :: rest } := by
  unfold openNode
  refine Ok.bind ((setCurrent_ok h index true).mono ?_)
  rintro _ _ rfl
  exact modifyFrame_ok (show _ = { f with current := some index, isParent := true } :: rest from rfl) _

theorem ofExcept_ok {e : Except RenderError α} {a : α} (h : e = .ok a) :
    Ok (ofExcept e) c fun b c' => a = b ∧ c = c' :=
  Ok.of_run (by simp only [ofExcept, h, run_pure]) ⟨rfl, rfl⟩

/-- With hooks that succeed, the directive step of a node only records the calls it makes. -/
theorem runDirectives_ok (hhooks : c.HooksSucceed) (view : LViewId) (index : Nat) (tag : String)
    (node : NodeId) (flags : TNodeFlags) :
    Ok (runDirectives view index tag node flags) c fun _ c' => ∃ evs, c' = { c with events := evs } := by
  unfold runDirectives
  refine Ok.ite (fun _ => Ok.bind (Ok.get ?_)) (fun _ => Ok.pure ⟨_, rfl⟩)
  split
  · next r hr =>
    obtain ⟨hi, hq⟩ := hhooks r hr ⟨c.doc, view, index, tag, node⟩
    refine Ok.bind ((emit_ok _).mono ?_)
    rintro _ _ rfl
    refine Ok.bind ((ofExcept_ok hi).mono ?_)
    rintro _ _ ⟨-, rfl⟩
    refine Ok.ite (fun _ => Ok.bind ((emit_ok _).mono ?_)) (fun _ => Ok.pure ⟨_, rfl⟩)
    rintro _ _ rfl
    exact (ofExcept_ok hq).mono fun _ _ h => ⟨_, h.2.symm⟩
  · exact Ok.pure ⟨_, rfl⟩

theorem enterView_ok (view : LViewId) (tv : TViewId) (bindingStart : Nat) :
    Ok (enterView view tv bindingStart) c fun _ c' =>
      c' = { c with frames := { lview := view, tview := tv, bindingIndex := bindingStart } :: c.frames } :=
  Ok.modify rfl

/-- Leaving a frame with no open node and no open translated block pops it. -/
theorem leaveView_ok (h : c.frames = f :: rest) (hd : f.elementDepth = 0) (hi : f.i18n = none) :
    Ok leaveView c fun _ c' => c' = { c with frames := rest } := by
  unfold leaveView
  refine Ok.bind (Ok.get ?_)
  rw [h]
  refine Ok.bind (Ok.modify ?_)
  simp only [hd, hi, bne_self_eq_false, Option.isSome_none, Bool.or_false, Bool.false_eq_true, if_false]
  exact Ok.pure rfl

/-- Leaving a frame with open nodes fails after popping it, and counts them. -/
theorem leaveView_fails (h : c.frames = f :: rest) (hd : f.elementDepth ≠ 0) (hi : f.i18n = none) :
    Fails leaveView c (.structural (.unclosedNodes f.lview f.elementDepth)) := by
  unfold leaveView
  refine Fails.bind_right (Ok.get ?_)
  rw [h]
  refine Fails.bind_right (Ok.modify ?_)
  rw [if_pos (by simp [hd])]
  simp only [hi, Option.isSome_none, Bool.false_eq_true, if_false, Nat.add_zero]
  exact Fails.throw

section closeNode

variable {t : TView} {expected : TNodeType} {instr : EndInstruction}

/-- An end with no open element count fails at once. -/
theorem closeNode_fails_unbalanced (h : c.frames = f :: rest) (hd : f.elementDepth = 0) :
    Fails (closeNode expected instr) c (.structural (.unbalancedEnd instr)) := by
  unfold closeNode
  refine Fails.bind_right ((frame_ok h).mono ?_)
  rintro _ _ ⟨rfl, rfl⟩
  rw [hd]
  exact Fails.bind_left Fails.throw

/-- The node an end closes is the one the next node would be registered under: the current node
while it is open, else the current node's parent. -/
theorem closing_cases {k : Nat}
    (hk : f.parentForNext ((f.current.bind t.tnode?).bind (·.parent)) = some k) :
    (f.isParent = true ∧ f.current = some k) ∨
      (f.isParent = false ∧ ∃ cur m, f.current = some cur ∧ t.tnode? cur = some m ∧ m.parent = some k) := by
  unfold Frame.parentForNext at hk
  cases hp : f.isParent
  · rw [hp] at hk
    simp only [Bool.false_eq_true, if_false, Option.bind_eq_some_iff] at hk
    obtain ⟨m, ⟨cur, hcur, hm⟩, hmk⟩ := hk
    exact .inr ⟨rfl, cur, m, hcur, hm, hmk⟩
  · rw [hp, if_pos rfl] at hk
    exact .inl ⟨rfl, hk⟩

/-- An end closes the node the next node would be registered under, when it has the end's
kind. -/
theorem closeNode_ok {k : Nat} {n : TNode} (h : c.frames = f :: rest)
    (ht : c.registry.tview f.tview = .ok t) (hd : f.elementDepth ≠ 0)
    (hk : f.parentForNext ((f.current.bind t.tnode?).bind (·.parent)) = some k)
    (hn : t.tnode? k = some n) (hty : n.type = expected) :
    Ok (closeNode expected instr) c fun a c' => a = k ∧ c' = { c with frames := f.closed k :: rest } := by
  unfold closeNode
  refine Ok.bind ((frame_ok h).mono ?_)
  rintro _ _ ⟨rfl, rfl⟩
  rw [if_neg (by simpa using hd)]
  rcases closing_cases hk with ⟨hp, hcur⟩ | ⟨hp, cur, m, hcur, hm, hmk⟩
  all_goals
    simp only [hcur, hp, if_true, Bool.false_eq_true, if_false]
    refine Ok.bind ((tview_ok ht).mono ?_)
    rintro _ _ ⟨rfl, rfl⟩
  -- a closed current node leads to its parent, which is then closed as an open one is
  rotate_left
  refine Ok.bind ((ofStructural_ok (expectTNode_ok hm)).mono ?_)
  rintro _ _ ⟨rfl, rfl⟩
  simp only [hmk]
  all_goals
    refine Ok.bind (Ok.pure ?_)
    refine Ok.bind ((ofStructural_ok (expectTNode_ok hn)).mono ?_)
    rintro _ _ ⟨rfl, rfl⟩
    simp only [hty, bne_self_eq_false, Bool.false_eq_true, if_false]
    refine Ok.bind ((setCurrent_ok h k false).mono ?_)
    rintro _ _ rfl
    refine Ok.bind ((modifyFrame_ok (by rfl) _).mono ?_)
    rintro _ _ rfl
    exact Ok.pure ⟨rfl, rfl⟩

/-- An end whose innermost open node has another kind fails, naming that node. -/
theorem closeNode_fails_mismatch {k : Nat} {n : TNode} (h : c.frames = f :: rest)
    (ht : c.registry.tview f.tview = .ok t) (hd : f.elementDepth ≠ 0)
    (hk : f.parentForNext ((f.current.bind t.tnode?).bind (·.parent)) = some k)
    (hn : t.tnode? k = some n) (hty : n.type ≠ expected) :
    Fails (closeNode expected instr) c (.structural (.nodeKindMismatch n.index expected n.type)) := by
  unfold closeNode
  refine Fails.bind_right ((frame_ok h).mono ?_)
  rintro _ _ ⟨rfl, rfl⟩
  rw [if_neg (by simpa using hd)]
  rcases closing_cases hk with ⟨hp, hcur⟩ | ⟨hp, cur, m, hcur, hm, hmk⟩
  all_goals
    simp only [hcur, hp, if_true, Bool.false_eq_true, if_false]
    refine Fails.bind_right ((tview_ok ht).mono ?_)
    rintro _ _ ⟨rfl, rfl⟩
  rotate_left
  refine Fails.bind_right ((ofStructural_ok (expectTNode_ok hm)).mono ?_)
  rintro _ _ ⟨rfl, rfl⟩
  simp only [hmk]
  all_goals
    refine Fails.bind_right (Ok.pure ?_)
    refine Fails.bind_right ((ofStructural_ok (expectTNode_ok hn)).mono ?_)
    rintro _ _ ⟨rfl, rfl⟩
    rw [if_pos (by simpa using hty)]
    exact Fails.bind_left Fails.throw

end closeNode

end RenderM

end ViewHydration
