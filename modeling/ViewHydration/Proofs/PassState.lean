import ViewHydration.Proofs.RenderSteps
import ViewHydration.Proofs.DocumentEdits

/-!
# The state of a creation pass between instructions

A creation pass keeps no stack of the starts still open. `PassInv` says how the context stands in
for one between two instructions: the frame's cells track the stack, every open start has its
template node, registered under the next start out, and its document node in its slot, and the
slots the rest of the pass declares are still fresh. The template's parent links stay acyclic
when they were as the pass began, since every open start's ancestors are the starts further out.
The lemmas here carry `PassInv` across each kind of edit an instruction makes: registering a
template node, filling a slot, growing the document, and moving the position into, past or out
of a node.

## Main definitions

- `Registered` — every open start has its template node, under the next start out
- `Placed` — every open start has its document node in its slot
- `PassInv` — the state of a first creation pass between two instructions
-/

namespace ViewHydration

open Nesting

/-- Every open start has its template node: of its slot and kind, under the next start out, and
skipping hydration exactly when the start does. -/
def Registered (t : TView) : List OpenNode → Prop
  | [] => True
  | o :: rest => (∃ n, t.tnode? o.index = some n ∧ n.index = o.index ∧ n.type = o.kind ∧
      n.parent = innermost rest ∧ n.has .skipHydration = o.skip) ∧ Registered t rest

theorem Registered.keeps {t t' : TView} {i : Nat} (hk : t.Keeps t' i) {stack : List OpenNode}
    (h : Registered t stack) (hi : i ∉ stack.map (·.index)) : Registered t' stack := by
  induction stack with
  | nil => trivial
  | cons o rest ih =>
    obtain ⟨⟨n, hn, hidx, hty, hpar, hskip⟩, hrest⟩ := h
    simp only [List.map_cons, List.mem_cons, not_or] at hi
    obtain ⟨n', hn', hshape⟩ := hk.tnode? (Ne.symm hi.1) hn
    simp only [TNode.shape, Prod.mk.injEq] at hshape
    obtain ⟨hidx', hty', hpar', hflags'⟩ := hshape
    refine ⟨⟨n', hn', hidx'.trans hidx, hty'.trans hty, hpar'.trans hpar, ?_⟩, ih hrest hi.2⟩
    rw [TNode.has, hflags']
    exact hskip

/-- The open starts, innermost first, are a chain of parent links of the template. -/
theorem Registered.isChain {t : TView} {stack : List OpenNode} (h : Registered t stack) :
    ParentLinks.IsChain t.parentOf (stack.map (·.index)) := by
  induction stack with
  | nil => trivial
  | cons o rest ih =>
    obtain ⟨⟨n, hn, -, -, hpar, -⟩, hrest⟩ := h
    refine ⟨?_, ih hrest⟩
    simp only [TView.parentOf, hn, Option.bind_some, hpar, innermost, List.head?_map]

/-- Every open start has its document node in its slot; the node of an `<ng-container>` sits under
a node of the document, since its children go before it. -/
def Placed (d : Document) (v : LView) (stack : List OpenNode) : Prop :=
  ∀ o ∈ stack, ∃ x, v.slot o.index = .node x ∧ d.contains x = true ∧
    (o.kind = .elementContainer → ∃ p, d.parent? x = some p ∧ d.contains p = true)

namespace Placed

variable {d d' : Document} {v : LView} {stack : List OpenNode}

theorem extend (h : Placed d v stack) (hd : d.Extends d') : Placed d' v stack := by
  intro o ho
  obtain ⟨x, hx, hxc, hcont⟩ := h o ho
  refine ⟨x, hx, (hd x hxc).1, fun hk => ?_⟩
  obtain ⟨p, hp, hpc⟩ := hcont hk
  exact ⟨p, (hd x hxc).2.trans hp, (hd p hpc).1⟩

theorem set {i : Nat} (h : Placed d v stack) (hi : i ∉ stack.map (·.index)) (s : Slot) :
    Placed d (v.set i s) stack := by
  intro o ho
  have hne : o.index ≠ i := fun he => hi (he ▸ List.mem_map_of_mem ho)
  rw [LView.slot_set_of_ne hne]
  exact h o ho

end Placed

/-- A node created under the innermost open start has a place in the document: the view's host
at top level, before an `<ng-container>`'s comment in the comment's parent, or at the end of an
element. The place is a node of any earlier document the open starts were placed in. -/
theorem insertionPoint_ok {d₀ d : Document} {t : TView} {v : LView} {stack : List OpenNode}
    {h : NodeId} (hreg : Registered t stack) (hpl : Placed d₀ v stack) (hd : d₀.Extends d)
    (hhost : v.host = some h) (hh : d₀.contains h = true) (index : Nat) :
    ∃ parent before, RenderM.insertionPoint d t v (innermost stack) index = .ok (parent, before) ∧
      d₀.contains parent = true := by
  cases stack with
  | nil => exact ⟨h, v.insertBefore, by simp [RenderM.insertionPoint, innermost, hhost], hh⟩
  | cons o rest =>
    obtain ⟨⟨n, hn, -, hty, -⟩, -⟩ := hreg
    obtain ⟨x, hx, hxc, hcont⟩ := hpl o List.mem_cons_self
    have hnative : v.native? o.index = some x := by simp [LView.native?, hx, Slot.native?]
    by_cases hk : o.kind = .elementContainer
    · obtain ⟨p, hp, hpc⟩ := hcont hk
      refine ⟨p, some x, ?_, hpc⟩
      simp [RenderM.insertionPoint, innermost, TView.expectTNode, hn, hnative, bind, Except.bind, hty, hk,
        (hd x hxc).2, hp, pure, Except.pure]
    · refine ⟨x, none, ?_, hxc⟩
      simp [RenderM.insertionPoint, innermost, TView.expectTNode, hn, hnative, bind, Except.bind, hty, hk,
        pure, Except.pure]

/-- Where a creation pass starts: the context, the view, and the view's template. -/
structure PassStart where
  context : Context
  view : LViewId
  template : TView

/-- The state of the first creation pass started at `p`, between two instructions: `f` is the
active frame, `t` and `v` the template and view as they now stand, `stack` the open starts and
`pending` the slots the rest of the pass declares. -/
structure PassInv (p : PassStart) (c : Context) (f : Frame) (t : TView) (v : LView)
    (stack : List OpenNode) (pending : List Nat) : Prop where
  frames : ∃ rest, c.frames = f :: rest
  lview_id : f.lview = p.view
  tview_ok : c.registry.tview f.tview = .ok t
  lview_ok : c.registry.lview f.lview = .ok v
  view_template : v.tview = f.tview
  template_id : t.id = f.tview
  decls : t.decls = p.template.decls
  consts : t.consts = p.template.consts
  first_pass : t.firstCreatePass = true
  binding : f.bindingIndex = t.decls
  no_i18n : f.i18n = none
  config : c.config = p.context.config
  creating : p.context.config.hydration = false
  hooks : c.HooksSucceed
  templates : c.registry.tviews.size = p.context.registry.tviews.size
  host : ∃ h, v.host = some h ∧ c.doc.contains h = true
  tracks : f.Tracks t stack
  registered : Registered t stack
  placed : Placed c.doc v stack
  nodup : (stack.map (·.index)).Nodup
  fresh : ∀ j ∈ pending, j ∉ stack.map (·.index) ∧ f.current ≠ some j
  acyclic : p.template.Acyclic → t.Acyclic

/-- The frame a pass of `view` with template `t` enters. -/
abbrev passFrame (view : LViewId) (t : TView) : Frame :=
  { lview := view, tview := t.id, bindingIndex := t.bindingStartIndex }

namespace Frame.Tracks

variable {f : Frame} {t t' : TView} {stack : List OpenNode}

theorem keeps {i : Nat} (h : f.Tracks t stack) (hk : t.Keeps t' i) (hcur : f.current ≠ some i) :
    f.Tracks t' stack := by
  refine { h with closed_current := fun hp => ?_ }
  rw [← h.closed_current hp]
  cases hc : f.current with
  | none => rfl
  | some cur => exact hk.parent_eq fun he => hcur (he ▸ hc)

end Frame.Tracks

namespace PassInv

variable {p : PassStart} {c c' : Context} {t t' : TView} {f : Frame} {v : LView} {stack : List OpenNode}
  {pending : List Nat} {rest : List Frame}

theorem not_hydrating (h : PassInv p c f t v stack pending) : c.config.hydration = false := by
  rw [h.config]
  exact h.creating

theorem viewPair (h : PassInv p c f t v stack pending) :
    c.registry.viewPair f.lview = .ok (t, v) :=
  Registry.viewPair_eq_ok.mpr ⟨h.lview_ok, h.view_template ▸ h.tview_ok⟩

/-- A pass that starts on a fresh frame of a view whose template is on its first creation pass. -/
theorem enter {c₀ : Context} {view : LViewId} {t₀ : TView}
    (hpair : c₀.registry.viewPair view = .ok (t₀, v)) (hid : t₀.id = v.tview)
    (hfirst : t₀.firstCreatePass = true) (hcreating : c₀.config.hydration = false)
    (hhooks : c₀.HooksSucceed) (hhost : ∃ h, v.host = some h ∧ c₀.doc.contains h = true)
    (pending : List Nat) :
    PassInv ⟨c₀, view, t₀⟩ { c₀ with frames := passFrame view t₀ :: c₀.frames } (passFrame view t₀) t₀ v
      [] pending := by
  obtain ⟨hv, ht⟩ := Registry.viewPair_eq_ok.mp hpair
  exact {
    frames := ⟨_, rfl⟩
    lview_id := rfl
    tview_ok := by simpa [passFrame, hid] using ht
    lview_ok := hv
    view_template := hid.symm
    template_id := rfl
    decls := rfl
    consts := rfl
    first_pass := hfirst
    binding := rfl
    no_i18n := rfl
    config := rfl
    creating := hcreating
    hooks := hhooks
    templates := rfl
    host := hhost
    tracks := ⟨rfl, nofun, fun _ => rfl, rfl⟩
    registered := trivial
    placed := nofun
    nodup := List.nodup_nil
    fresh := fun _ _ => ⟨List.not_mem_nil, nofun⟩
    acyclic := id }

/-- Registering the template node of a slot still to come, under the innermost open start,
keeps the invariant. -/
theorem register (h : PassInv p c f t v stack pending) {n : TNode}
    (hreg : t.registerTNode n f.current f.isParent = .ok t') (hn : n.index ∈ pending)
    (hpar : n.parent = innermost stack) :
    PassInv p { c with registry := c.registry.setTView t' } f t' v stack pending := by
  obtain ⟨hd, hc, hid, hfp⟩ := TView.registerTNode_fields hreg
  have hk := TView.registerTNode_keeps hreg
  obtain ⟨hnot, hcur⟩ := h.fresh n.index hn
  have htv : (c.registry.setTView t').tview f.tview = .ok t' := by
    rw [← h.template_id, ← hid]
    exact Registry.tview_setTView_self (by rw [hid, h.template_id]; exact h.tview_ok)
  -- the new node's parent and all its ancestors are open starts, and the node is not one
  have hfresh : ∀ q, n.parent = some q →
      q ≠ n.index ∧ ¬ ParentLinks.Ancestor t.parentOf n.index q := by
    intro q hq
    have hhead : (stack.map (·.index)).head? = some q := by
      rw [List.head?_map, ← hq, hpar]
      rfl
    refine ⟨fun he => hnot (he ▸ List.mem_of_mem_head? hhead), fun ha => hnot ?_⟩
    exact List.mem_of_mem_tail (ParentLinks.ancestor_mem_of_chain h.registered.isChain hhead ha)
  exact { h with
    tview_ok := htv
    template_id := hid.trans h.template_id
    decls := hd.trans h.decls
    consts := hc.trans h.consts
    first_pass := hfp.trans h.first_pass
    binding := h.binding.trans hd.symm
    templates := by simp only [Registry.size_setTView]; exact h.templates
    tracks := h.tracks.keeps hk hcur
    registered := h.registered.keeps hk hnot
    acyclic := fun h₀ => TView.registerTNode_acyclic hreg (h.acyclic h₀) hfresh }

/-- Filling the first slot still to come keeps the invariant, for the view with that slot set. -/
theorem store {index : Nat} (h : PassInv p c f t v stack (index :: pending)) (s : Slot) :
    PassInv p { c with registry := c.registry.setLView f.lview (v.set index s) } f t
      (v.set index s) stack pending := by
  have hnot := (h.fresh index List.mem_cons_self).1
  obtain ⟨host, hh, hhc⟩ := h.host
  exact { h with
    tview_ok := h.tview_ok
    lview_ok := Registry.lview_setLView_self h.lview_ok
    view_template := h.view_template
    host := ⟨host, hh, hhc⟩
    placed := h.placed.set hnot s
    fresh := fun j hj => h.fresh j (List.mem_cons_of_mem _ hj) }

/-- An edit that keeps the frames, the configuration, the template and the view, and only grows
the document, keeps the invariant. -/
theorem transfer (h : PassInv p c f t v stack pending) (hfr : c'.frames = c.frames)
    (hcfg : c'.config = c.config) (hdir : c'.directives = c.directives)
    (htv : c'.registry.tview f.tview = .ok t) (hlv : c'.registry.lview f.lview = .ok v)
    (hsize : c'.registry.tviews.size = c.registry.tviews.size) (hd : c.doc.Extends c'.doc) :
    PassInv p c' f t v stack pending := by
  obtain ⟨host, hh, hhc⟩ := h.host
  exact { h with
    frames := hfr ▸ h.frames
    tview_ok := htv
    lview_ok := hlv
    config := hcfg.trans h.config
    hooks := fun r hr => h.hooks r (hdir ▸ hr)
    templates := hsize.trans h.templates
    host := ⟨host, hh, (hd host hhc).1⟩
    placed := h.placed.extend hd }

theorem events (h : PassInv p c f t v stack pending) (evs : Array Event) :
    PassInv p { c with events := evs } f t v stack pending :=
  h.transfer rfl rfl rfl h.tview_ok h.lview_ok rfl (Document.Extends.refl _)

/-- Opening the node of a filled slot pushes it on the open starts. -/
theorem openNode (h : PassInv p c f t v stack pending) {index : Nat} {n : TNode} {x : NodeId}
    {kind : TNodeType} (hn : t.tnode? index = some n) (hidx : n.index = index) (hty : n.type = kind)
    (hpar : n.parent = innermost stack)
    (hslot : v.slot index = .node x) (hx : c.doc.contains x = true)
    (hcont : kind = .elementContainer → ∃ p, c.doc.parent? x = some p ∧ c.doc.contains p = true)
    (hnew : index ∉ stack.map (·.index)) (hpend : index ∉ pending) :
    PassInv p { c with frames := f.opened index n.flags :: rest } (f.opened index n.flags) t v
      (⟨index, kind, n.has .skipHydration⟩ :: stack) pending := by
  -- the opened node becomes the skip root only when no open start skips hydration yet
  have hskip : (f.opened index n.flags).skipHydrationRoot =
      outermostSkip (⟨index, kind, n.has .skipHydration⟩ :: stack) := by
    simp only [Frame.opened, outermostSkip_cons, h.tracks.skip_root, TNode.has]
    cases outermostSkip stack <;> cases n.flags.has .skipHydration <;> rfl
  refine { h with
    frames := ⟨rest, rfl⟩
    no_i18n := by simp [Frame.opened, h.no_i18n]
    tracks := ⟨by simp [Frame.opened, h.tracks.depth], fun _ => rfl, fun hp => Bool.noConfusion hp, hskip⟩
    registered := ⟨⟨n, hn, hidx, hty, hpar, rfl⟩, h.registered⟩
    placed := ?_
    nodup := List.nodup_cons.mpr ⟨hnew, h.nodup⟩
    fresh := fun j hj => ?_ }
  · intro o ho
    rcases List.mem_cons.mp ho with rfl | ho
    · exact ⟨x, hslot, hx, hcont⟩
    · exact h.placed o ho
  · have hne : index ≠ j := fun he => hpend (he ▸ hj)
    refine ⟨?_, fun he => hne (Option.some.inj he)⟩
    simp only [List.map_cons, List.mem_cons, not_or]
    exact ⟨Ne.symm hne, (h.fresh j hj).1⟩

/-- Making the node of a filled slot current without opening it keeps the open starts. -/
theorem moveTo (h : PassInv p c f t v stack pending) {index : Nat} {n : TNode}
    (hn : t.tnode? index = some n) (hpar : n.parent = innermost stack) (hpend : index ∉ pending) :
    PassInv p { c with frames := { f with current := some index, isParent := false } :: rest }
      { f with current := some index, isParent := false } t v stack pending := by
  refine { h with
    frames := ⟨rest, rfl⟩
    tracks := ⟨h.tracks.depth, nofun, fun _ => (by simp [hn, hpar]), h.tracks.skip_root⟩
    fresh := fun j hj => ⟨(h.fresh j hj).1, fun he => ?_⟩ }
  exact hpend (Option.some.inj he ▸ hj)

/-- Closing the innermost open start pops it. -/
theorem closeTop {o : OpenNode} (h : PassInv p c f t v (o :: stack) pending) :
    PassInv p { c with frames := f.closed o.index :: rest } (f.closed o.index) t v stack pending := by
  obtain ⟨⟨n, hn, -, -, hpar, -⟩, hreg⟩ := h.registered
  have hnodup : o.index ∉ stack.map (·.index) ∧ (stack.map (·.index)).Nodup :=
    List.nodup_cons.mp h.nodup
  -- the closed start was the skip root only if no start further out skips hydration
  have hskip : (if outermostSkip (o :: stack) == some o.index then none else outermostSkip (o :: stack)) =
      outermostSkip stack := by
    rw [outermostSkip_cons]
    cases hs : outermostSkip stack with
    | none => cases o.skip <;> simp
    | some k =>
      have hk : k ≠ o.index := fun he => hnodup.1 (he ▸ mem_of_outermostSkip hs)
      simp [hk]
  refine { h with
    frames := ⟨rest, rfl⟩
    tracks := ⟨?_, nofun, fun _ => (by simp [Frame.closed, hn, hpar]), ?_⟩
    registered := hreg
    placed := fun o' ho' => h.placed o' (List.mem_cons_of_mem _ ho')
    nodup := hnodup.2
    fresh := fun j hj => ?_ }
  · have hd := h.tracks.depth
    simp only [List.length_cons] at hd
    simp only [Frame.closed, hd, Nat.add_sub_cancel]
  · simp only [Frame.closed, h.tracks.skip_root]
    exact hskip
  · obtain ⟨hnot, -⟩ := h.fresh j hj
    simp only [List.map_cons, List.mem_cons, not_or] at hnot
    exact ⟨hnot.2, fun he => hnot.1 (Option.some.inj he).symm⟩

end PassInv

/-- Some frame, template and view of context `c` satisfy the pass invariant. -/
def PassAt (p : PassStart) (stack : List OpenNode) (pending : List Nat) (c : Context) : Prop :=
  ∃ f t v, PassInv p c f t v stack pending

end ViewHydration
