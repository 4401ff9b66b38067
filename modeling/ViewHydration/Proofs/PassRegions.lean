import ViewHydration.Proofs.SlotRegions
import ViewHydration.Proofs.PositionStack
import ViewHydration.Proofs.IssuedInstrs

/-!
# The slot regions of every pass

A pass runs the instructions its template's program issues, conditions and loops expanded. Most
of them store into the view of the pass (`runInstr_inPlace`); making a container reference stores
a container into the slot of an `<ng-container>`; removing and clearing views releases views and
containers, which stores nothing; and creating an embedded view runs whole passes of its own,
over the new view and the views of its containers. Every step of a pass is then one of its own
stores, a change that stores nothing, or a step of a pass over a live view with that view's
template (`Registry.PassSteps`): every pass, however deep it nests, stores nodes into node and
expando slots and bindings into binding slots, each in the regions of its own template.

Nothing compares a frame's binding counter with `vars`: the binding stores of a pass stay in its
binding region exactly when its program issues at most `vars` binding instructions.
`Registry.Fits` asks that of every template, for the outside variables the passes run with; a
pass over a template that declares too few binding slots stores its bindings over the text nodes
of a translated block (`expressionPass_overwrites_blockText`).

## Main definitions

- `Registry.Fits` — every template is laid out, and each of its passes issues at most as many
  binding instructions as it declares binding slots
- `Context.RunsFrom`, `Context.Nests` — whole passes run from a registry that fits; the second
  also keeps the position stack

## Main results

- `removeEmbeddedView_clears`, `clearContainer_clears` — removing views stores nothing
- `createContainerRefIn_steps` — a container reference is a restamp and a store into a node or
  expando slot of the view's template
- `runIssued_inPass` — the instructions a pass issues make steps of the pass
- `execute_keeps_slot_regions` — a pass over a registry that fits makes steps of the pass
-/

namespace ViewHydration

/-! ### Changes that store nothing -/

namespace Registry

variable {r : Registry}

theorem clears_setContainer (id : ContainerId) (x : LContainer) : r.Clears (r.setContainer id x) :=
  .of_still rfl fun _ _ => rfl

theorem clears_allocateContainer (x : LContainer) : r.Clears (r.allocateContainer x).1 :=
  .of_still (tviews_allocateContainer x) (slot_allocateContainer x)

theorem clears_releaseContainer (id : ContainerId) : r.Clears (r.releaseContainer id).1 := by
  unfold releaseContainer
  split <;> exact .of_still rfl fun _ _ => rfl

/-- Writing a view with empty slots, or none, into one place of the view arena clears the slots
there and keeps every other slot. -/
theorem clears_of_lviews {r' : Registry} {i : Nat} {x : Option LView} (ht : r'.tviews = r.tviews)
    (hl : r'.lviews = r.lviews.setIfInBounds i x) (hx : ∀ v, x = some v → ∀ j, v.slot j = .empty) :
    r.Clears r' := by
  refine ⟨.of_tviews ht, fun id j => by simp only [entry, ht], fun L j => ?_⟩
  unfold slot
  rw [hl]
  by_cases hi : i = L.idx
  · rw [← hi]
    by_cases hlt : i < r.lviews.size
    · right
      rw [Array.getElem?_setIfInBounds_self_of_lt hlt]
      cases x with
      | none => rfl
      | some v => exact hx v rfl j
    · left
      rw [Array.setIfInBounds_eq_of_size_le (Nat.le_of_not_lt hlt)]
  · left
    rw [Array.getElem?_setIfInBounds_ne hi]

/-- Releasing a view clears its slots. -/
theorem clears_releaseLView (id : LViewId) : r.Clears (r.releaseLView id).1 := by
  unfold releaseLView
  split
  · exact clears_of_lviews rfl rfl fun _ h => by cases h
  · exact .refl r

/-- Allocating a view whose slots are empty stores nothing, whether it reuses a released place or
takes a new one. -/
theorem clears_allocateLView {v : LView} (hv : ∀ j, v.slot j = .empty) :
    r.Clears (r.allocateLView v).1 := by
  unfold allocateLView
  split
  · exact clears_of_lviews rfl rfl fun _ h => Option.some.inj h ▸ hv
  · refine ⟨.of_tviews rfl, fun _ _ => rfl, fun L j => ?_⟩
    unfold slot
    dsimp only
    by_cases hL : L.idx = r.lviews.size
    · right
      rw [hL, Array.getElem?_push_size]
      exact hv j
    · left
      rw [Array.getElem?_push, if_neg hL]

/-- Marking a template's first pass done stores nothing. -/
theorem clears_endFirstPass {id : TViewId} {t : TView} (ha : r.Aligned) (ht : r.tview id = .ok t) :
    r.Clears (r.setTView { t with firstCreatePass := false }) := by
  have hid : t.id = id := ha.id_eq ht
  have ht' : r.tview t.id = .ok t := by rw [hid]; exact ht
  refine ⟨.setTView ha ht rfl fun h => ⟨h.span, h.texts, h.unbound⟩, fun id' j => ?_,
    fun _ _ => .inl rfl⟩
  by_cases hT : id' = t.id
  · subst hT
    have hlt : t.id.idx < r.tviews.size := tview_ok_iff.mp ⟨t, ht'⟩
    exact (entry_setTView_self (t := { t with firstCreatePass := false }) hlt j).trans
      (entry_eq_of_tview ht' j).symm
  · exact entry_setTView_of_ne (t := { t with firstCreatePass := false }) hT j

/-- Every template of the registry sits at its handle and is laid out, and each of its two passes,
run with the outside variables `vars`, issues at most as many binding instructions as the
template declares binding slots. -/
structure Fits (vars : List (String × String)) (r : Registry) : Prop where
  aligned : r.Aligned
  laid : ∀ id t, r.tview id = .ok t → t.Laid
  bindings : ∀ id t, r.tview id = .ok t → ∀ create : Bool,
    bindingCount ((Instr.issueAll { vars := vars }
      (if create then t.program.create else t.program.update)).map Prod.snd) ≤ t.vars

/-- A change that keeps the templates keeps them fitting. -/
theorem Fits.keeps {vars : List (String × String)} {r' : Registry} (hf : r.Fits vars)
    (h : r.KeepsTemplates r') : r'.Fits vars := by
  refine ⟨h.aligned hf.aligned, fun id t' ht' => ?_, fun id t' ht' create => ?_⟩
  · obtain ⟨t, ht, -, hlaid⟩ := h.tview_ok_back ht'
    exact hlaid (hf.laid id t ht)
  · obtain ⟨t, ht, hdims, -⟩ := h.tview_ok_back ht'
    rw [TView.program_of_dims hdims, (TView.decls_vars_of_dims hdims).2]
    exact hf.bindings id t ht create

end Registry

namespace Context

/-- `c'` is reached from `c` by a change that stores nothing. -/
def Clears (c c' : Context) : Prop := c.registry.Clears c'.registry

instance : IsPreorder Context Clears where
  refl c := .refl c.registry
  trans _ _ _ h₁ h₂ := Registry.Clears.trans h₁ h₂

/-- When the templates of `c` fit the outside variables `vars`, `c'` is reached from `c` by
operations that run whole passes. -/
def RunsFrom (vars : List (String × String)) (c c' : Context) : Prop :=
  c.registry.Fits vars → c.registry.Runs c'.registry

instance {vars : List (String × String)} : IsPreorder Context (RunsFrom vars) where
  refl c _ := .refl c.registry
  trans _ _ _ h₁ h₂ hf := (h₁ hf).trans (h₂ (hf.keeps (h₁ hf).keepsTemplates))

/-- Whole passes, as `RunsFrom` says, that leave the position stack as they found it. -/
def Nests (vars : List (String × String)) (c c' : Context) : Prop :=
  RunsFrom vars c c' ∧ SameStack c c'

instance {vars : List (String × String)} : IsPreorder Context (Nests vars) where
  refl c := ⟨fun _ => .refl c.registry, rfl⟩
  trans _ _ _ h₁ h₂ := ⟨trans_of (RunsFrom vars) h₁.1 h₂.1, h₂.2.trans h₁.2⟩

end Context

namespace RenderM

variable {α : Type} {x : RenderM α} {c : Context} {vars : List (String × String)}

theorem Keeps.modify {R : Context → Context → Prop} {f : Context → Context} (h : ∀ c, R c (f c)) :
    Keeps R (modify f : RenderM PUnit) :=
  fun c => Within.modify (h c)

theorem Still.clears (hs : Still x) : Keeps Context.Clears x :=
  fun c => ⟨.of_still (hs c).1 (hs c).2.1, fun _ _ _ => trivial⟩

theorem Keeps.runsFrom (h : Keeps Context.Clears x) : Keeps (Context.RunsFrom vars) x :=
  h.mono fun _ _ hc _ => .of_clears hc

theorem Keeps.nests (hr : Keeps (Context.RunsFrom vars) x) (hs : Restores x) :
    Keeps (Context.Nests vars) x :=
  fun c => ⟨⟨(hr c).1, (hs c).1⟩, fun _ _ _ => trivial⟩

theorem emit_nests (e : Event) : Keeps (Context.Nests vars) (emit e) :=
  (Still.emit e).clears.runsFrom.nests (Restores.emit e)

theorem modifyContainer_clears (id : ContainerId) (g : LContainer → LContainer) :
    Keeps Context.Clears (modifyContainer id g) :=
  Keeps.bind (Keeps.container _) fun _ => Keeps.modify fun c => c.registry.clears_setContainer _ _

/-- Releasing a view tree releases containers and views, and stores nothing. -/
theorem releaseViewTree_clears (fuel : Nat) (view : LViewId) :
    Keeps Context.Clears (releaseViewTree fuel view) := by
  induction fuel generalizing view with
  | zero => exact Keeps.pure _
  | succ fuel ih =>
    unfold RenderM.releaseViewTree
    refine Keeps.bind (Keeps.lview _) fun v => ?_
    refine Keeps.bind (Keeps.forIn (fun cid _ => ?_) _ _) fun _ => ?_
    · refine Keeps.bind (Keeps.container _) fun r => ?_
      refine Keeps.bind (Keeps.forIn (fun child _ => ?_) _ _) fun _ => ?_
      · exact Keeps.bind (ih child) fun _ => Keeps.pure _
      · exact Keeps.bind (Keeps.modify fun c => c.registry.clears_releaseContainer cid) fun _ =>
          Keeps.pure _
    · -- the dehydrated views and the claims go with the registry as it is; the view goes last
      exact Keeps.bind (Keeps.modify fun c => .refl c.registry) fun _ =>
        Keeps.bind (Keeps.modify fun c => .refl c.registry) fun _ =>
          Keeps.modify fun c => c.registry.clears_releaseLView view

theorem destroyView_clears (view : LViewId) : Keeps Context.Clears (destroyView view) :=
  Keeps.bind Keeps.get fun _ => Keeps.bind (Keeps.ofStructural _) fun _ =>
    Keeps.bind (Still.modifyDoc _).clears fun _ => Keeps.bind Keeps.get fun _ =>
      releaseViewTree_clears _ _

theorem removeEmbeddedView_clears (cid : ContainerId) (position : Nat) :
    Keeps Context.Clears (removeEmbeddedView cid position) := by
  unfold RenderM.removeEmbeddedView
  refine Keeps.bind (Keeps.container _) fun r => ?_
  split
  · exact Keeps.structural _
  · exact Keeps.bind (modifyContainer_clears _ _) fun _ => destroyView_clears _

theorem clearContainer_clears (cid : ContainerId) : Keeps Context.Clears (clearContainer cid) := by
  unfold RenderM.clearContainer
  refine Keeps.bind (Keeps.container _) fun r =>
    Keeps.bind (Keeps.forIn (fun _ _ => ?_) _ _) fun _ => Keeps.pure _
  refine Keeps.bind (Keeps.container _) fun _ => ?_
  exact Keeps.ite (Keeps.bind (removeEmbeddedView_clears _ _) fun _ => Keeps.pure _) (Keeps.pure _)

/-! ### Steps of a pass -/

section steps

variable {T : TViewId} {L : LViewId} {d v b : Nat}

/-- A step of a pass that leaves the position stack as it found it keeps the position. -/
theorem Within.renders (hx : Within x c (Context.InPass T L d v) fun _ _ => True)
    (hs : Restores x) (h : c.Renders T L d v b) :
    Within x c (Context.InPass T L d v) fun _ c' => c'.Renders T L d v b := by
  refine ⟨hx.1, fun a c' hrun => ?_⟩
  have hf : Context.SameStack c (x.run.run c).2 := (hs c).1
  have hk := hx.1.keepsTemplates
  rw [hrun] at hf hk
  exact h.of_frames hf hk

/-- Whole passes run in the middle of a pass, from a registry that fits, are steps of the pass;
when they keep the position stack, they keep the position. -/
theorem Within.nested (hx : Within x c (Context.Nests vars) fun _ _ => True)
    (hf : c.registry.Fits vars) (h : c.Renders T L d v b) :
    Within x c (Context.InPass T L d v) fun _ c' => c'.Renders T L d v b := by
  refine ⟨.runs (.refl _) (hx.1.1 hf), fun a c' hrun => ?_⟩
  have hs : Context.SameStack c (x.run.run c).2 := hx.1.2
  have hk := (hx.1.1 hf).keepsTemplates
  rw [hrun] at hs hk
  exact h.of_frames hs hk

/-- Making the `<ng-container>` at a slot of a live view the anchor of a container is a step of a
pass over that view with its template: on the template's first pass a restamp of the node, then
a new container, stored into the node's slot, which holds no binding. -/
theorem createContainerRefIn_steps {view : LViewId} {t : TView} {w : LView}
    (hpair : c.registry.viewPair view = .ok (t, w)) (ha : c.registry.Aligned) (hlaid : t.Laid)
    (index : Nat) :
    Within (createContainerRefIn view index) c (Context.InPass t.id view t.decls t.vars)
      fun _ _ => True := by
  obtain ⟨-, ht⟩ := Registry.viewPair_eq_ok.mp hpair
  rw [← ha.id_eq ht] at ht
  unfold createContainerRefIn
  refine Within.reads_bind (Reads.viewPair _) (refl c) fun p hp => ?_
  rw [hpair] at hp
  cases hp
  dsimp -zeta only
  extract_lets anchor
  have hanchor : ∀ a, Within (anchor a) c (Context.InPass t.id view t.decls t.vars)
      fun _ _ => True := by
    intro a
    dsimp -zeta only [anchor]
    split
    · rename_i n hn
      -- a slot that holds a template node is a node slot or an expando slot
      have hslot : nodeSlots t.decls t.vars index index := by
        by_cases hlo : t.decls ≤ index
        · by_cases hhi : index < t.decls + t.vars
          · rw [hlaid.unbound index hlo hhi] at hn
            cases hn
          · exact .inr (Nat.le_of_not_lt hhi)
        · exact .inl ⟨rfl, Nat.lt_of_not_le hlo⟩
      extract_lets register check
      have hregister : ∀ r c₁, Within (register r) c₁ (Context.InPass t.id view t.decls t.vars)
          fun _ _ => True := by
        intro _ c₁
        dsimp -zeta only [register]
        refine Within.reads_bind Reads.get (refl c₁) fun c₂ hc => ?_
        subst c₂
        rcases hal : c₁.registry.allocateContainer { anchor := a, hostView := view, index := index }
          with ⟨registry, cid⟩
        have hreg : registry = (c₁.registry.allocateContainer
            { anchor := a, hostView := view, index := index }).1 := by rw [hal]
        refine Within.bind (Keeps.set (.clear (.refl _) (hreg ▸ Registry.clears_allocateContainer _)))
          fun _ c₂ _ _ => ?_
        have hstore : Within (modifyLView view (·.set index (.container cid a))) c₂
            (NodeConfined t.id view t.decls t.vars index) fun _ _ => True :=
          modifyLView_within fun _ j hj => LView.slot_set_of_ne fun hji => hj (hji ▸ hslot)
        exact Within.bind (hstore.store fun _ hs => .node index hs) fun _ c₃ _ _ =>
          Within.pure (refl c₃) trivial
      have hcheck : ∀ r, Within (check r) c (Context.InPass t.id view t.decls t.vars)
          fun _ _ => True := by
        intro _
        dsimp -zeta only [check]
        refine Within.ite (fun _ => ?_) fun _ => hregister () c
        -- the first pass flags the node: a restamp of a slot that holds a node
        have hflag : Within (setTView (t.modifyTNode index fun n =>
            { n with flags := n.flags.union .viewContainerAnchor })) c
            (Confined t.id view (fun j => (t.tnode? j).isSome) fun _ => False) fun _ _ => True :=
          Within.modify (Confined.setTView ht ha (TView.dims_modifyTNode _ _)
            (fun j hj => TView.entry_modifyTNode_of_tnode? _ _ (Option.not_isSome_iff_eq_none.mp hj))
            fun hl => hl.modifyTNode _ _)
        exact Within.bind (hflag.store fun _ hs => .restamp t ht hs) fun r c₁ _ _ => hregister r c₁
      clear_value check register
      exact Within.ite (fun _ => Within.reads_bind (Reads.structural _ : Reads _ c fun _ => True)
        (refl c) fun _ _ => hcheck _) fun _ => hcheck ()
    · exact Within.throw (refl c)
  clear_value anchor
  split
  · exact Within.pure (refl c) trivial
  · exact Within.reads_bind (Reads.pure trivial : Reads _ c fun _ => True) (refl c)
      fun _ _ => hanchor _
  · exact Within.reads_bind (Reads.structural _ : Reads _ c fun _ => True) (refl c)
      fun _ _ => hanchor _

/-- Inside any pass, a container reference is a nested step over the referenced view's
template. -/
theorem createContainerRefIn_inPass (hfits : c.registry.Fits vars) (view : LViewId) (index : Nat) :
    Within (createContainerRefIn view index) c (Context.InPass T L d v) fun _ _ => True := by
  cases hp : c.registry.viewPair view with
  | error e =>
    -- the view is not live: the reference fails before it changes anything
    unfold createContainerRefIn
    refine Within.reads_bind (Reads.viewPair _) (refl c) fun p hp' => ?_
    rw [hp] at hp'
    cases hp'
  | ok p =>
    obtain ⟨t, w⟩ := p
    obtain ⟨hw, ht⟩ := Registry.viewPair_eq_ok.mp hp
    exact (createContainerRefIn_steps hp hfits.aligned (hfits.laid _ _ ht) index).mono
      (fun _ h' => .nested view w t (.refl _) hw ht h') fun _ _ _ => trivial

/-- Leaving a view moves the position only. -/
theorem leaveView_inPass : Within leaveView c (Context.InPass T L d v) fun _ _ => True := by
  unfold leaveView
  refine Within.reads_bind Reads.get (refl c) fun c' hc => ?_
  subst c'
  split
  · exact Within.throw (refl c)
  · exact Within.bind (Within.modify (Registry.PassSteps.refl _)) fun _ c₁ _ _ =>
      Within.ite (fun _ => Within.throw (refl c₁)) fun _ => Within.pure (refl c₁) trivial

/-- A pass over a live view runs its body from a fresh frame at the first binding slot, and pops
the frame on both exits: when the body's steps are steps of the pass, so are the pass's. -/
theorem inPass_of_body {body : RenderM Unit} {view : LViewId} {t : TView} {w : LView}
    (hpair : c.registry.viewPair view = .ok (t, w)) (hfits : c.registry.Fits vars)
    (hbody : ∀ c₁, c₁.registry = c.registry → c₁.Renders t.id view t.decls t.vars t.decls →
      Within body c₁ (Context.InPass t.id view t.decls t.vars) fun _ _ => True) :
    Within (enterView view t.id t.bindingStartIndex >>= fun _ =>
      tryCatch body (fun e => abandonView >>= fun _ => throw e) >>= fun _ => leaveView) c
      (Context.InPass t.id view t.decls t.vars) fun _ _ => True := by
  obtain ⟨-, ht⟩ := Registry.viewPair_eq_ok.mp hpair
  rw [← hfits.aligned.id_eq ht] at ht
  have hstart : Within (enterView view t.id t.bindingStartIndex) c
      (Context.InPass t.id view t.decls t.vars)
      fun _ c₁ => c₁.registry = c.registry ∧ c₁.Renders t.id view t.decls t.vars t.decls :=
    Within.modify_with (Registry.PassSteps.refl _)
      ⟨rfl, ⟨_, c.frames, rfl, rfl, rfl, rfl⟩, hfits.aligned, ⟨t, ht, rfl, rfl, hfits.laid _ _ ht⟩⟩
  refine Within.bind hstart fun _ c₁ _ h₁ => ?_
  obtain ⟨hreg, h₁⟩ := h₁
  refine Within.bind (Within.tryCatch (hbody c₁ hreg h₁) fun e c₂ _ => ?_) fun _ c₂ _ _ =>
    leaveView_inPass
  exact Within.bind (Within.modify (Registry.PassSteps.refl _)) fun _ c₃ _ _ =>
    Within.throw (refl c₃)

end steps

/-! ### Passes, however deep they nest -/

mutual

/-- The body of a pass over a template that fits makes steps of the pass. -/
theorem runBlock_inPass (fuel : Nat) (scope : Scope) (create : Bool) {c : Context} {view : LViewId}
    {t : TView} (hfits : c.registry.Fits scope.vars) (ht : c.registry.tview t.id = .ok t)
    (h : c.Renders t.id view t.decls t.vars t.decls) :
    Within (runBlock fuel scope.forPass (if create then t.program.create else t.program.update)) c
      (Context.InPass t.id view t.decls t.vars) fun _ _ => True := by
  rw [runBlock_eq_runIssued]
  refine Within.mono (runIssued_inPass fuel _ hfits ?_ ?_ h (Nat.le_refl _) ?_) (fun _ h' => h')
    fun _ _ _ => trivial
  · exact fun _ hq => (Instr.vars_of_mem_issueAll hq :)
  · exact fun _ hq => Instr.isFlow_of_mem_issueAll hq
  · -- the pass issues at most `vars` bindings, from the first binding slot on
    exact Nat.add_le_add_left (hfits.bindings _ t ht create) _
termination_by (fuel, 5, 0)

/-- Issued instructions, run from a counter that leaves room for their bindings, make steps of
the pass and move the counter on by their bindings. -/
theorem runIssued_inPass (fuel : Nat) (ps : List (Scope × Instr)) {vars : List (String × String)}
    {c : Context} {T : TViewId} {L : LViewId} {d v b : Nat} (hfits : c.registry.Fits vars)
    (hvars : ∀ p ∈ ps, p.1.vars = vars) (hflow : ∀ p ∈ ps, p.2.isFlow = false)
    (h : c.Renders T L d v b) (hd : d ≤ b) (hb : b + bindingCount (ps.map Prod.snd) ≤ d + v) :
    Within (runIssued fuel ps) c (Context.InPass T L d v)
      fun _ c' => c'.Renders T L d v (b + bindingCount (ps.map Prod.snd)) := by
  cases ps with
  | nil =>
    rw [runIssued_nil]
    exact Within.pure (refl c) h
  | cons p rest =>
    rw [runIssued_cons]
    simp only [List.map_cons, bindingCount, ← Nat.add_assoc] at hb ⊢
    have hp : p ∈ p :: rest := List.mem_cons_self
    have hfits₁ : c.registry.Fits p.1.vars := by
      rw [hvars p hp]
      exact hfits
    -- the first instruction moves the counter on by its bindings, and the rest starts there
    refine Within.bind (runInstr_inPass fuel p.1 p.2 (hflow p hp) hfits₁ h hd
      (Nat.le_trans (Nat.le_add_right _ _) hb)) fun _ c₁ h₁ hr₁ => ?_
    exact runIssued_inPass fuel rest (hfits.keeps h₁.keepsTemplates)
      (fun q hq => hvars q (List.mem_cons_of_mem _ hq))
      (fun q hq => hflow q (List.mem_cons_of_mem _ hq)) hr₁ (Nat.le_trans hd (Nat.le_add_right _ _))
      hb
termination_by (fuel, 4, sizeOf ps)

/-- An issued instruction makes steps of the pass and moves the counter on by its bindings: the
instructions that run in place store into the view of the pass, a container reference into a
node slot, and the view operations run whole passes or store nothing. -/
theorem runInstr_inPass (fuel : Nat) (scope : Scope) (i : Instr) {c : Context} {T : TViewId}
    {L : LViewId} {d v b : Nat} (hflow : i.isFlow = false) (hfits : c.registry.Fits scope.vars)
    (h : c.Renders T L d v b) (hd : d ≤ b) (hb : b + i.bindingSlots ≤ d + v) :
    Within (runInstr fuel scope i) c (Context.InPass T L d v)
      fun _ c' => c'.Renders T L d v (b + i.bindingSlots) := by
  cases hi : i.inPlace
  · cases i
    case createEmbeddedView slot position tmpl =>
      rw [runInstr]
      refine Within.nested ?_ hfits h
      refine Keeps.bind Keeps.get (fun _ => Keeps.ite (emit_nests _) ?_) c
      refine Keeps.bind (Keeps.containerAt _) fun cid => ?_
      extract_lets -underBinder create
      have hcreate : ∀ tv, Keeps (Context.Nests scope.vars) (create tv) := fun tv =>
        Keeps.bind ((createViewWith_runs fuel scope cid tv _).nests
          (createViewWith_restores fuel scope cid tv _)) fun _ => emit_nests _
      clear_value create
      split
      · exact Keeps.bind (Keeps.pure _) hcreate
      · refine Keeps.bind (Keeps.container _) fun r => ?_
        split
        · exact Keeps.bind (Keeps.pure _) hcreate
        · exact Keeps.bind (Keeps.structural _) hcreate
    case removeEmbeddedView slot position =>
      rw [runInstr_eq_simpleInstr rfl rfl]
      exact Within.nested (Keeps.bind (Keeps.containerAt _) (fun _ =>
        (removeEmbeddedView_clears _ _).runsFrom.nests (Restores.removeEmbeddedView _ _)) c) hfits h
    case clearContainer slot =>
      rw [runInstr_eq_simpleInstr rfl rfl]
      exact Within.nested (Keeps.bind (Keeps.containerAt _) (fun _ =>
        (clearContainer_clears _).runsFrom.nests (Restores.clearContainer _)) c) hfits h
    case createContainerRef index =>
      rw [runInstr_eq_simpleInstr rfl rfl]
      refine Within.reads_bind Reads.active (refl c) fun p hp => ?_
      obtain ⟨f, rest, hfr, rfl⟩ := hp
      dsimp -zeta only
      refine Within.bind ((createContainerRefIn_inPass hfits _ _).renders
        (Restores.createContainerRefIn _ _) h) fun _ c₁ _ h₁ => ?_
      exact Within.stillStore (Still.emit _) h₁
    all_goals first | (simp [Instr.isFlow] at hflow; done) | simp [Instr.inPlace] at hi
  · exact runInstr_inPlace fuel scope h hi hd hb
termination_by (fuel, 3, 0)

/-- Creating an embedded view runs whole passes: the new view's creation and update passes, and
the update passes of the views of its containers. -/
theorem createViewWith_runs (fuel : Nat) (scope : Scope) (cid : ContainerId) (tv : TViewId)
    (position : Nat) : Keeps (Context.RunsFrom scope.vars) (createViewWith fuel scope cid tv position) := by
  rw [createViewWith]
  refine Keeps.bind (Keeps.container _) fun r => ?_
  extract_lets -underBinder create
  have hcreate : ∀ u, Keeps (Context.RunsFrom scope.vars) (create u) := by
    intro _
    dsimp -zeta only [create]
    refine Keeps.bind Keeps.get fun c => Keeps.bind (Keeps.ofStructural _) fun _ => ?_
    split
    · refine Keeps.bind (Keeps.tview _) fun t => ?_
      extract_lets -underBinder src v register
      -- the new view starts with empty slots; it is registered and inserted, and taken out again
      -- when its passes fail
      have hregister : ∀ v', (∀ j, v'.slot j = .empty) →
          Keeps (Context.RunsFrom scope.vars) (register v') := by
        intro v' hv'
        dsimp -zeta only [register]
        refine Keeps.get_bind fun c => ?_
        rcases hal : c.registry.allocateLView v' with ⟨registry, view⟩
        have hreg : registry = (c.registry.allocateLView v').1 := by rw [hal]
        refine Within.bind (Keeps.set fun _ =>
          Registry.Runs.of_clears (hreg ▸ Registry.clears_allocateLView hv')) fun _ c₁ _ _ => ?_
        refine Keeps.bind (modifyContainer_clears _ _).runsFrom (fun _ => ?_) c₁
        refine Keeps.bind (Keeps.tryCatch ?_ fun e => ?_) fun _ => Keeps.pure _
        · exact Keeps.bind (renderView_runs fuel scope _) fun _ => refreshView_runs fuel scope _
        · exact Keeps.bind (Keeps.tryCatch (modifyContainer_clears _ _).runsFrom fun _ => Keeps.pure _)
            fun _ => Keeps.bind (Keeps.tryCatch (destroyView_clears _).runsFrom fun _ => Keeps.pure _)
              fun _ => Keeps.throw _
      have hempty : ∀ u, (∀ j, u.slot j = .empty) → ∀ c₁,
          Within (Pure.pure u >>= register) c₁ (Context.RunsFrom scope.vars) fun _ _ => True :=
        fun u hu c₁ => Within.reads_bind (Reads.pure hu) (refl c₁) fun v' hv' => hregister v' hv' c₁
      have hv : ∀ j, v.slot j = .empty := fun j => LView.slot_create tv t.data.size j
      clear_value register
      refine Keeps.ite ?_ (hempty v hv)
      refine Keeps.get_bind fun c => ?_
      rcases c.pool.takeMatching _ _ _ with ⟨pool, doc, taken⟩
      refine Within.bind (Keeps.set fun _ => .refl _) fun _ c₁ _ _ => ?_
      -- a view taken over from a dehydrated one keeps the empty slots of the new view
      split
      · refine hempty _ ?_ c₁
        exact hv
      · exact hempty _ hv c₁
    · exact Keeps.structural _
  clear_value create
  exact Keeps.ite (Keeps.bind (Keeps.structural _) hcreate) (hcreate ())
termination_by (fuel, 2, 0)

/-- A creation pass runs a whole pass, then marks the template's first pass done. -/
theorem renderView_runs (fuel : Nat) (scope : Scope) (view : LViewId) :
    Keeps (Context.RunsFrom scope.vars) (renderView fuel scope view) := by
  rw [renderView]
  refine Keeps.bind (execute_runs fuel scope view true) fun _ c => ?_
  refine Within.reads_bind (Reads.viewPair _) (refl c) fun p hp => ?_
  obtain ⟨t, w⟩ := p
  obtain ⟨-, ht⟩ := Registry.viewPair_eq_ok.mp hp
  dsimp -zeta only
  extract_lets finish
  have hfinish : ∀ r, Keeps (Context.RunsFrom scope.vars) (finish r) := fun _ =>
    Keeps.runsFrom (Still.clears (Still.modifyLView (fun _ => rfl) fun _ => rfl))
  clear_value finish
  exact Within.ite (fun _ => Within.bind (Within.modify fun hf =>
    .of_clears (Registry.clears_endFirstPass hf.aligned ht)) fun r c₁ _ _ => hfinish r c₁)
    fun _ => hfinish () c
termination_by (fuel, 1, 0)

/-- A refresh runs a whole update pass, then refreshes the views of the view's containers. -/
theorem refreshView_runs (fuel : Nat) (scope : Scope) (view : LViewId) :
    Keeps (Context.RunsFrom scope.vars) (refreshView fuel scope view) := by
  rw [refreshView.eq_def]
  refine Keeps.bind (execute_runs fuel scope view false) fun _ => ?_
  -- the views of the containers are refreshed with one unit of fuel less
  cases fuel with
  | zero => exact Keeps.pure _
  | succ fuel =>
    refine Keeps.bind (Keeps.lview _) fun v =>
      Keeps.bind (Keeps.forIn (fun cid _ => ?_) _ _) fun _ => Keeps.pure _
    refine Keeps.bind (Keeps.container _) fun r =>
      Keeps.bind (Keeps.forIn (fun child _ => ?_) _ _) fun _ => Keeps.pure _
    exact Keeps.bind (refreshView_runs fuel scope child) fun _ => Keeps.pure _
termination_by (fuel, 1, 0)

/-- A pass over a live view of a registry that fits is a whole pass over that view. -/
theorem execute_runs (fuel : Nat) (scope : Scope) (view : LViewId) (create : Bool) :
    Keeps (Context.RunsFrom scope.vars) (execute fuel scope view create) := by
  intro c
  cases fuel with
  | zero =>
    rw [execute]
    exact Keeps.structural _ c
  | succ fuel =>
    rw [execute]
    refine Within.reads_bind (Reads.viewPair _) (refl c) fun p hp => ?_
    obtain ⟨t, w⟩ := p
    obtain ⟨hw, ht⟩ := Registry.viewPair_eq_ok.mp hp
    refine ⟨fun hfits => .of_pass hw ht (inPass_of_body hp hfits fun c₁ hreg h₁ => ?_).1,
      fun _ _ _ => trivial⟩
    rw [← hfits.aligned.id_eq ht] at ht
    exact runBlock_inPass fuel scope create (hreg ▸ hfits) (hreg ▸ ht) h₁
termination_by (fuel, 0, 0)

end

end RenderM

/-! ### One expression over a translated block -/

end ViewHydration
