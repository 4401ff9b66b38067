import ViewHydration.Proofs.PassState

/-!
# The creation pass follows the nesting of its instructions

The first creation pass of a template made of node instructions runs as `Nesting` says: before
every instruction the frame's two position cells, read with the parent links the pass has
registered so far, give back the stack of open starts; an end fails exactly when that stack is
empty or its top has another kind; and the pass fails with the count of open starts when some
are left at its close. Each instruction is one lemma that carries `PassInv` from the state before
it to the state after it, or gives its failure; `runBlock_follows` strings them together by
induction on the instruction list.

## Main results

- `runBlock_follows` — a creation pass runs as `Nesting.run` on the open starts
- `creationPass_tracks_open_starts` — the frame tracks the open starts before every
  instruction, and the pass ends as `Nesting.outcome`
- `creationPass_keeps_tnodes_acyclic` — with distinct slots, the pass never links a template
  node under itself or a descendant
-/

namespace ViewHydration

open Nesting RenderM

theorem exists_ok_of_isOk {ε α : Type} {e : Except ε α} (h : e.isOk = true) : ∃ a, e = .ok a := by
  cases e with
  | ok a => exact ⟨a, rfl⟩
  | error _ => simp [Except.isOk, Except.toBool] at h

namespace CreationPass

variable {p : PassStart} {c : Context} {f : Frame} {t : TView} {v : LView} {stack : List OpenNode}
  {pending : List Nat} {index : Nat}

/-- The key of the skip-hydration attribute the pass reads. -/
abbrev key (p : PassStart) : String := p.context.config.skipHydrationAttribute

/-- Every start instruction registers its template node under the innermost open start; the
rest `k` of the instruction then runs on the template with that node. -/
theorem resolveTNode_then {spec : NodeSpec} {α : Type} {k : RenderM α} {Q : α → Context → Prop}
    (h : PassInv p c f t v stack (index :: pending))
    (ha : (p.template.attrsConst spec.attrs).isOk = true)
    (hl : (p.template.localRefsConst spec.refs).isOk = true)
    (hk : ∀ n t',
      PassInv p { c with registry := c.registry.setTView t' } f t' v stack (index :: pending) →
      t'.tnode? index = some n → n.index = index → n.type = spec.type → n.parent = innermost stack →
      n.has .skipHydration = (spec.type == .element && carries p.template (key p) spec.attrs) →
      Ok k { c with registry := c.registry.setTView t' } Q) :
    Ok (resolveTNode index spec >>= fun _ => k) c Q := by
  obtain ⟨rest, hfr⟩ := h.frames
  obtain ⟨a, ha⟩ := exists_ok_of_isOk ha
  obtain ⟨l, hl⟩ := exists_ok_of_isOk hl
  refine Ok.bind ((resolveTNode_ok hfr h.tview_ok h.first_pass h.no_i18n
    (TView.attrsConst_congr h.consts _ ▸ ha) (TView.localRefsConst_congr h.consts _ ▸ hl)).mono ?_)
  rintro _ _ ⟨n, t', hreg, rfl, hidx, hty, hpar, hskip⟩
  have hn := TView.registerTNode_tnode?_self hreg
  rw [hidx] at hn
  have hpar' : n.parent = innermost stack := by rw [hpar, h.tracks.parentForNext_eq]
  refine hk n t' (h.register hreg (hidx ▸ List.mem_cons_self) hpar') hn hidx hty hpar' ?_
  rw [hskip, carries_congr h.consts, h.config]

/-- Storing a node created since `c₁` fills the first pending slot and places the node under the
innermost open start. -/
theorem storeNode_pass {c₁ : Context} {n : TNode} {node : NodeId}
    (h : PassInv p c₁ f t v stack (index :: pending)) (hn : t.tnode? index = some n)
    (hidx : n.index = index) (hpar : n.parent = innermost stack) (hfr : c.frames = c₁.frames)
    (hreg : c.registry = c₁.registry) (hcfg : c.config = c₁.config)
    (hdir : c.directives = c₁.directives) (hd : c₁.doc.Extends c.doc) (hnew : c₁.doc.contains node = false) (hnode : c.doc.contains node = true) :
    Ok (storeNode f.lview index node true) c fun _ c' =>
      PassInv p c' f t (v.set index (.node node)) stack pending ∧ c'.frames = c.frames ∧
      c'.doc.contains node = true ∧ ∃ P, c'.doc.parent? node = some P ∧ c'.doc.contains P = true := by
  obtain ⟨host, hh, hhc⟩ := h.host
  have hst := h.store (.node node)
  obtain ⟨P, ref, hip, hP⟩ := insertionPoint_ok hst.registered hst.placed hd hh hhc index
  refine (storeNode_ok (hreg ▸ h.viewPair) hn (by rw [hpar, hidx]; exact hip)).mono ?_
  rintro _ _ rfl
  obtain ⟨hext, hc, hpn⟩ := hd.insertNew ref hnew hnode hP
  refine ⟨hst.transfer hfr hcfg hdir ?_ ?_ ?_ hext, rfl, hc, P, hpn, (hext P hP).1⟩
  · rw [Registry.tview_setLView, hreg]
    exact h.tview_ok
  · exact Registry.lview_setLView_self (hreg ▸ h.lview_ok)
  · rw [Registry.tviews_setLView, hreg]
    rfl

/-- An element start pushes its element on the open starts. -/
theorem elementStart_pass {tag : String} {attrs refs : Option Nat}
    (h : PassInv p c f t v stack (index :: pending)) (hnd : index ∉ pending)
    (hi : index < p.template.decls) (ha : (p.template.attrsConst attrs).isOk = true)
    (hl : (p.template.localRefsConst refs).isOk = true) :
    Ok (elementStart index tag attrs refs) c fun _ =>
      PassAt p (⟨index, .element, carries p.template (key p) attrs⟩ :: stack) pending := by
  obtain ⟨rest, hfr⟩ := h.frames
  have hnew := (h.fresh index List.mem_cons_self).1
  unfold elementStart
  refine Ok.bind ((active_ok hfr).mono ?_)
  rintro _ _ ⟨rfl, rfl⟩
  refine Ok.bind ((checkCreationSlot_ok hfr h.tview_ok h.binding (h.decls ▸ hi)).mono ?_)
  rintro _ _ rfl
  refine resolveTNode_then h ha hl fun n t' h₁ hn hidx hty hpar hskip => ?_
  refine Ok.bind ((materialize_ok (by exact hfr) h₁.viewPair hn h₁.not_hydrating).mono ?_)
  rintro _ _ ⟨nd, rfl, rfl⟩
  refine Ok.bind ((tview_ok (by exact h₁.tview_ok)).mono ?_)
  rintro _ _ ⟨rfl, rfl⟩
  refine Ok.bind ((ofStructural_ok (expectTNode_ok hn)).mono ?_)
  rintro _ _ ⟨rfl, rfl⟩
  rw [if_pos rfl]
  refine Ok.bind ((modifyDoc_ok _).mono ?_)
  rintro _ _ rfl
  -- the pushed node, with its attributes set, is placed relative to the document before the push
  have hattrs := Document.Extends.setAttributes (c.doc.push nd).1 (c.doc.push nd).2 n.attrs
  have hext := (Document.Extends.push c.doc nd).trans hattrs
  have hnode := (hattrs _ (@Document.contains_push_new c.doc nd)).1
  refine Ok.bind ((storeNode_pass h₁ hn hidx hpar (by rfl) (by rfl) (by rfl) (by rfl) hext
    (Document.not_contains_push_new nd) hnode).mono ?_)
  rintro _ _ ⟨h₄, hfr₄, hx, -⟩
  refine Ok.bind ((openNode_ok (hfr₄.trans hfr) index n.flags).mono ?_)
  rintro _ _ rfl
  refine (runDirectives_ok (by exact h₄.hooks) _ _ _ _ _).mono ?_
  rintro _ _ ⟨evs, rfl⟩
  have hskip' : n.has .skipHydration = carries p.template (key p) attrs := by
    rw [hskip]
    rfl
  rw [← hskip']
  exact ⟨_, _, _, (h₄.openNode hn hidx hty hpar LView.slot_set_self hx nofun hnew hnd).events evs⟩

/-- An `<ng-container>` start pushes its container on the open starts. -/
theorem elementContainerStart_pass {attrs refs : Option Nat}
    (h : PassInv p c f t v stack (index :: pending)) (hnd : index ∉ pending)
    (hi : index < p.template.decls) (ha : (p.template.attrsConst attrs).isOk = true)
    (hl : (p.template.localRefsConst refs).isOk = true) :
    Ok (elementContainerStart index attrs refs) c fun _ =>
      PassAt p (⟨index, .elementContainer, false⟩ :: stack) pending := by
  obtain ⟨rest, hfr⟩ := h.frames
  have hnew := (h.fresh index List.mem_cons_self).1
  unfold elementContainerStart
  refine Ok.bind ((active_ok hfr).mono ?_)
  rintro _ _ ⟨rfl, rfl⟩
  refine Ok.bind ((checkCreationSlot_ok hfr h.tview_ok h.binding (h.decls ▸ hi)).mono ?_)
  rintro _ _ rfl
  refine resolveTNode_then h ha hl fun n t' h₁ hn hidx hty hpar hskip => ?_
  refine Ok.bind ((materialize_ok (by exact hfr) h₁.viewPair hn h₁.not_hydrating).mono ?_)
  rintro _ _ ⟨nd, rfl, rfl⟩
  refine Ok.bind ((storeNode_pass h₁ hn hidx hpar (by rfl) (by rfl) (by rfl) (by rfl) (Document.Extends.push _ nd)
    (Document.not_contains_push_new nd) (Document.contains_push_new nd)).mono ?_)
  rintro _ _ ⟨h₄, hfr₄, hx, P, hpn, hP⟩
  refine Ok.bind ((tview_ok (by exact h₄.tview_ok)).mono ?_)
  rintro _ _ ⟨rfl, rfl⟩
  refine Ok.bind ((ofStructural_ok (expectTNode_ok hn)).mono ?_)
  rintro _ _ ⟨rfl, rfl⟩
  refine Ok.bind ((openNode_ok (hfr₄.trans hfr) index n.flags).mono ?_)
  rintro _ _ rfl
  refine (runDirectives_ok (by exact h₄.hooks) _ _ _ _ _).mono ?_
  rintro _ _ ⟨evs, rfl⟩
  have hskip' : n.has .skipHydration = false := by
    rw [hskip]
    rfl
  rw [← hskip']
  exact ⟨_, _, _, (h₄.openNode hn hidx hty hpar LView.slot_set_self hx (fun _ => ⟨P, hpn, hP⟩)
    hnew hnd).events evs⟩

/-- A text node opens nothing; it becomes the current node. -/
theorem text_pass {value : Option String} (h : PassInv p c f t v stack (index :: pending))
    (hnd : index ∉ pending) (hi : index < p.template.decls) :
    Ok (text index value) c fun _ => PassAt p stack pending := by
  obtain ⟨rest, hfr⟩ := h.frames
  unfold text
  refine Ok.bind ((active_ok hfr).mono ?_)
  rintro _ _ ⟨rfl, rfl⟩
  refine Ok.bind ((checkCreationSlot_ok hfr h.tview_ok h.binding (h.decls ▸ hi)).mono ?_)
  rintro _ _ rfl
  refine resolveTNode_then h (by rfl) (by rfl) fun n t' h₁ hn hidx _ hpar _ => ?_
  refine Ok.bind ((materialize_ok (by exact hfr) h₁.viewPair hn h₁.not_hydrating).mono ?_)
  rintro _ _ ⟨nd, rfl, rfl⟩
  refine Ok.bind ((storeNode_pass h₁ hn hidx hpar (by rfl) (by rfl) (by rfl) (by rfl) (Document.Extends.push _ nd)
    (Document.not_contains_push_new nd) (Document.contains_push_new nd)).mono ?_)
  rintro _ _ ⟨h₄, hfr₄, -⟩
  refine (setCurrent_ok (hfr₄.trans hfr) index false).mono ?_
  rintro _ _ rfl
  exact ⟨_, _, _, h₄.moveTo hn hpar hnd⟩

/-- A container anchor opens nothing; it becomes the current node. -/
theorem template_pass {tv : TViewId} {attrs refs : Option Nat}
    (h : PassInv p c f t v stack (index :: pending)) (hnd : index ∉ pending)
    (hi : index < p.template.decls) (ha : (p.template.attrsConst attrs).isOk = true)
    (hl : (p.template.localRefsConst refs).isOk = true)
    (htv : tv.idx < p.context.registry.tviews.size) :
    Ok (template index tv attrs refs) c fun _ => PassAt p stack pending := by
  obtain ⟨rest, hfr⟩ := h.frames
  obtain ⟨host, hh, hhc⟩ := h.host
  obtain ⟨t₁, ht₁⟩ := Registry.tview_ok_iff.mpr (h.templates ▸ htv)
  unfold template
  refine Ok.bind ((active_ok hfr).mono ?_)
  rintro _ _ ⟨rfl, rfl⟩
  refine Ok.bind ((checkCreationSlot_ok hfr h.tview_ok h.binding (h.decls ▸ hi)).mono ?_)
  rintro _ _ rfl
  rw [discard_eq]
  refine Ok.bind (Ok.bind ((tview_ok ht₁).mono ?_))
  rintro _ _ ⟨rfl, rfl⟩
  refine Ok.pure (resolveTNode_then h ha hl fun n t' h₁ hn hidx _ hpar _ => ?_)
  refine Ok.bind ((materialize_ok (by exact hfr) h₁.viewPair hn h₁.not_hydrating).mono ?_)
  rintro _ _ ⟨nd, rfl, rfl⟩
  dsimp only
  rw [if_pos rfl]
  -- the anchor is inserted before its slot is stored, so its place is found in the view as it was
  have hpush := Document.Extends.push c.doc nd
  obtain ⟨P, ref, hip, hP⟩ := insertionPoint_ok h₁.registered h₁.placed hpush hh hhc index
  refine Ok.bind ((insertCreated_ok (by exact h₁.viewPair) hn (by rw [hpar, hidx]; exact hip)).mono ?_)
  rintro _ _ rfl
  obtain ⟨hext, -⟩ := hpush.insertNew ref (Document.not_contains_push_new nd)
    (@Document.contains_push_new c.doc nd) hP
  refine Ok.bind (Ok.get ?_)
  dsimp only
  refine Ok.bind (Ok.set ?_)
  have hlv := Registry.lview_allocateContainer (r := c.registry.setTView t')
    { anchor := (c.doc.push nd).2, hostView := f.lview, index := index, tview := some tv } f.lview
  have htv := Registry.tview_allocateContainer (r := c.registry.setTView t')
    { anchor := (c.doc.push nd).2, hostView := f.lview, index := index, tview := some tv } f.tview
  refine Ok.bind ((modifyLView_ok (hlv.trans h₁.lview_ok) _).mono ?_)
  rintro _ c₅ hc₅
  obtain ⟨v₅, h₅⟩ : ∃ v₅, PassInv p c₅ f t' v₅ stack pending := by
    subst hc₅
    refine ⟨_, (h₁.store _).transfer rfl rfl rfl ?_ (Registry.lview_setLView_self (hlv.trans h₁.lview_ok))
      ?_ hext⟩
    · rw [Registry.tview_setLView, htv]
      exact h₁.tview_ok
    · rw [Registry.tviews_setLView, Registry.tviews_allocateContainer]
      rfl
  obtain ⟨rest₅, hfr₅⟩ := h₅.frames
  refine Ok.bind ((setCurrent_ok hfr₅ index false).mono ?_)
  rintro _ _ rfl
  refine Ok.bind ((tview_ok (by exact h₅.tview_ok)).mono ?_)
  rintro _ _ ⟨rfl, rfl⟩
  refine Ok.bind ((ofStructural_ok (expectTNode_ok hn)).mono ?_)
  rintro _ _ ⟨rfl, rfl⟩
  refine Ok.bind ((runDirectives_ok (by exact h₅.hooks) _ _ _ _ _).mono ?_)
  rintro _ _ ⟨evs, rfl⟩
  exact Ok.pure ⟨_, _, _, (h₅.moveTo hn hpar hnd).events evs⟩

/-- An end closes the innermost open start when it has the end's kind, and fails as
`Nesting.close` says otherwise. -/
theorem closeNode_follows (h : PassInv p c f t v stack pending) (kind : TNodeType)
    (instr : EndInstruction) :
    Follows (closeNode kind instr) c (close kind instr stack) .structural
      fun stack' => PassAt p stack' pending := by
  obtain ⟨rest, hfr⟩ := h.frames
  cases stack with
  | nil => exact closeNode_fails_unbalanced hfr h.tracks.depth
  | cons o stack =>
    obtain ⟨⟨n, hn, hidx, hty, -⟩, -⟩ := h.registered
    have hd : f.elementDepth ≠ 0 := by simp [h.tracks.depth]
    have hk := h.tracks.parentForNext_eq
    by_cases hkind : o.kind = kind
    · simp only [close, if_pos hkind]
      refine (closeNode_ok hfr h.tview_ok hd hk hn (hty.trans hkind)).mono ?_
      rintro _ _ ⟨-, rfl⟩
      exact ⟨_, _, _, h.closeTop⟩
    · simp only [close, if_neg hkind]
      rw [← hidx, ← hty]
      exact closeNode_fails_mismatch hfr h.tview_ok hd hk hn (hty ▸ hkind)

theorem elementEnd_follows (h : PassInv p c f t v stack pending) :
    Follows elementEnd c (close .element .elementEnd stack) .structural
      fun stack' => PassAt p stack' pending := by
  rw [elementEnd, discard_eq]
  exact (closeNode_follows h _ _).bind_pure

theorem elementContainerEnd_follows (h : PassInv p c f t v stack pending) :
    Follows elementContainerEnd c (close .elementContainer .elementContainerEnd stack) .structural
      fun stack' => PassAt p stack' pending := by
  rw [elementContainerEnd, discard_eq]
  exact (closeNode_follows h _ _).bind_pure

theorem runInstr_of_isNode {fuel : Nat} {scope : Scope} {i : Instr} (h : i.isNode = true) :
    runInstr fuel scope i = simpleInstr scope i := by
  apply runInstr.eq_4 <;> (rintro _ _ _ rfl; simp [Instr.isNode] at h)

/-- A node instruction runs as `Nesting.step` says, when its slot is the first one pending. -/
theorem runInstr_follows {scope : Scope} {i : Instr} (fuel : Nat)
    (h : PassInv p c f t v stack ((i.slot? scope).toList ++ pending))
    (hnd : ((i.slot? scope).toList ++ pending).Nodup) (hnode : i.isNode = true)
    (hdecl : ∀ j ∈ i.slot? scope, j < p.template.decls)
    (hconsts : i.resolvesConsts p.template scope = true)
    (htpl : i.templateKnown p.context.registry = true) :
    Follows (runInstr fuel scope i) c (step scope p.template (key p) stack i) .structural
      fun stack' => PassAt p stack' pending := by
  rw [runInstr_of_isNode hnode]
  cases i
  case elementStart index tag attrs refs =>
    simp only [Instr.resolvesConsts, Bool.and_eq_true] at hconsts
    exact elementStart_pass h (List.nodup_cons.mp hnd).1 (hdecl _ rfl) hconsts.1 hconsts.2
  case element index tag attrs refs =>
    simp only [Instr.resolvesConsts, Bool.and_eq_true] at hconsts
    refine Ok.bind ((elementStart_pass h (List.nodup_cons.mp hnd).1 (hdecl _ rfl) hconsts.1
      hconsts.2).mono ?_)
    rintro _ _ ⟨f', t', v', h'⟩
    -- the element just opened is the innermost open start, so its end closes it
    have hend := elementEnd_follows h'
    simp only [close, if_true] at hend
    exact hend
  case elementEnd => exact elementEnd_follows h
  case elementContainerStart index attrs refs =>
    simp only [Instr.resolvesConsts, Bool.and_eq_true] at hconsts
    exact elementContainerStart_pass h (List.nodup_cons.mp hnd).1 (hdecl _ rfl) hconsts.1 hconsts.2
  case elementContainer index attrs refs =>
    simp only [Instr.resolvesConsts, Bool.and_eq_true] at hconsts
    refine Ok.bind ((elementContainerStart_pass h (List.nodup_cons.mp hnd).1 (hdecl _ rfl)
      hconsts.1 hconsts.2).mono ?_)
    rintro _ _ ⟨f', t', v', h'⟩
    have hend := elementContainerEnd_follows h'
    simp only [close, if_true] at hend
    exact hend
  case elementContainerEnd => exact elementContainerEnd_follows h
  case text index value => exact text_pass h (List.nodup_cons.mp hnd).1 (hdecl _ rfl)
  case template index tv attrs refs =>
    simp only [Instr.resolvesConsts, Bool.and_eq_true] at hconsts
    simp only [Instr.templateKnown, decide_eq_true_eq] at htpl
    refine Ok.bind ((template_pass h (List.nodup_cons.mp hnd).1 (hdecl _ rfl) hconsts.1 hconsts.2
      htpl).mono ?_)
    rintro _ _ ⟨f', t', v', h'⟩
    refine (emit_ok _).mono ?_
    rintro _ _ rfl
    exact ⟨_, _, _, h'.events _⟩
  all_goals simp [Instr.isNode] at hnode

/-- A creation pass made of node instructions with fresh declared slots runs as `Nesting.run`
says on the open starts. -/
theorem runBlock_follows {scope : Scope} (fuel : Nat) {instrs : List Instr}
    (h : PassInv p c f t v stack (instrs.filterMap (Instr.slot? scope)))
    (hnd : (instrs.filterMap (Instr.slot? scope)).Nodup) (hnode : ∀ i ∈ instrs, i.isNode = true)
    (hdecl : ∀ j ∈ instrs.filterMap (Instr.slot? scope), j < p.template.decls)
    (hconsts : ∀ i ∈ instrs, i.resolvesConsts p.template scope = true)
    (htpl : ∀ i ∈ instrs, i.templateKnown p.context.registry = true) :
    Follows (runBlock fuel scope instrs) c (run scope p.template (key p) stack instrs) .structural
      fun stack' => PassAt p stack' [] := by
  induction instrs generalizing c f t v stack with
  | nil =>
    rw [runBlock]
    exact Ok.pure ⟨f, t, v, h⟩
  | cons i rest ih =>
    -- the slots of the pass are those of its first instruction, then those of the rest
    have hslots : (i :: rest).filterMap (Instr.slot? scope) =
        (i.slot? scope).toList ++ rest.filterMap (Instr.slot? scope) := by
      rw [List.filterMap_cons]
      cases i.slot? scope <;> rfl
    rw [hslots] at h hnd hdecl
    rw [runBlock, run]
    refine Follows.bind (runInstr_follows fuel h hnd (hnode i List.mem_cons_self)
      (fun j hj => hdecl j (List.mem_append_left _ (Option.mem_toList.mpr hj)))
      (hconsts i List.mem_cons_self) (htpl i List.mem_cons_self)) ?_
    rintro stack' c' ⟨f', t', v', h'⟩
    exact ih h' (List.nodup_append.mp hnd).2.1 (fun i hi => hnode i (List.mem_cons_of_mem _ hi))
      (fun j hj => hdecl j (List.mem_append_right _ hj))
      (fun i hi => hconsts i (List.mem_cons_of_mem _ hi)) (fun i hi => htpl i (List.mem_cons_of_mem _ hi))

end CreationPass

open CreationPass

section execute

variable {fuel : Nat} {scope : Scope} {view : LViewId} {c : Context} {t : TView} {v : LView}

/-- The first creation pass of a view ends as `Nesting.outcome` says. -/
theorem execute_follows (hcreating : c.config.hydration = false) (hhooks : c.HooksSucceed)
    (hpair : c.registry.viewPair view = .ok (t, v)) (hid : t.id = v.tview)
    (hfirst : t.firstCreatePass = true) (hhost : ∃ h, v.host = some h ∧ c.doc.contains h = true)
    (hnode : ∀ i ∈ t.program.create, i.isNode = true)
    (hslots : (t.program.create.filterMap (Instr.slot? scope.forPass)).Nodup)
    (hdecls : ∀ j ∈ t.program.create.filterMap (Instr.slot? scope.forPass), j < t.decls)
    (hconsts : ∀ i ∈ t.program.create, i.resolvesConsts t scope.forPass = true)
    (htemplates : ∀ i ∈ t.program.create, i.templateKnown c.registry = true) :
    Follows (execute (fuel + 1) scope view true) c
      (outcome scope.forPass t c.config.skipHydrationAttribute view t.program.create) .structural
      fun _ _ => True := by
  have hrun := runBlock_follows fuel
    (PassInv.enter hpair hid hfirst hcreating hhooks hhost _) hslots hnode hdecls hconsts htemplates
  rw [execute]
  refine Follows.ok_bind ((viewPair_ok hpair).mono ?_)
  rintro _ _ ⟨rfl, rfl⟩
  refine Follows.ok_bind ((enterView_ok _ _ _).mono ?_)
  rintro _ _ rfl
  rw [if_pos rfl]
  unfold outcome
  cases hr : run scope.forPass t c.config.skipHydrationAttribute [] t.program.create with
  | error e =>
    rw [hr] at hrun
    -- a failing pass abandons its frame and passes the error on
    exact Fails.bind_left (Fails.tryCatch hrun fun _ => Fails.bind_right (Ok.modify Fails.throw))
  | ok stack =>
    rw [hr] at hrun
    -- a pass that runs through leaves a frame holding as many open elements as the stack
    have hleft : Ok (runBlock fuel scope.forPass t.program.create)
        { c with frames := passFrame view t :: c.frames } fun _ c' => ∃ f rest, c'.frames = f :: rest ∧
          f.elementDepth = stack.length ∧ f.i18n = none ∧ f.lview = view := by
      refine hrun.mono ?_
      rintro _ _ ⟨f, t', v', h⟩
      obtain ⟨rest, hfr⟩ := h.frames
      exact ⟨f, rest, hfr, h.tracks.depth, h.no_i18n, h.lview_id⟩
    refine Follows.ok_bind (Ok.tryCatch (hleft.mono ?_))
    rintro _ _ ⟨f, rest, hfr, hd, hi, hv⟩
    cases stack with
    | nil => exact (leaveView_ok hfr hd hi).mono fun _ _ _ => trivial
    | cons o stack =>
      have hfail := leaveView_fails hfr (by simp [hd]) hi
      rw [hd, hv] at hfail
      exact hfail

/-- After every prefix of the creation list that the nesting accepts, the pass has run and stands
as `PassInv` says, with the open starts the nesting computes. -/
theorem runBlock_prefix_passAt (hcreating : c.config.hydration = false) (hhooks : c.HooksSucceed)
    (hpair : c.registry.viewPair view = .ok (t, v)) (hid : t.id = v.tview)
    (hfirst : t.firstCreatePass = true) (hhost : ∃ h, v.host = some h ∧ c.doc.contains h = true)
    (hnode : ∀ i ∈ t.program.create, i.isNode = true)
    (hslots : (t.program.create.filterMap (Instr.slot? scope.forPass)).Nodup)
    (hdecls : ∀ j ∈ t.program.create.filterMap (Instr.slot? scope.forPass), j < t.decls)
    (hconsts : ∀ i ∈ t.program.create, i.resolvesConsts t scope.forPass = true)
    (htemplates : ∀ i ∈ t.program.create, i.templateKnown c.registry = true)
    {pre rest : List Instr} {stack : List OpenNode} (hsplit : t.program.create = pre ++ rest)
    (hrun : run scope.forPass t c.config.skipHydrationAttribute [] pre = .ok stack) :
    Ok (runBlock fuel scope.forPass pre) { c with frames := passFrame view t :: c.frames }
      fun _ => PassAt ⟨c, view, t⟩ stack [] := by
  -- a prefix of the list satisfies the hypotheses on the whole list
  have hsub : pre.filterMap (Instr.slot? scope.forPass) ⊆
      t.program.create.filterMap (Instr.slot? scope.forPass) := by
    rw [hsplit, List.filterMap_append]
    exact List.subset_append_left _ _
  have hnd : (pre.filterMap (Instr.slot? scope.forPass)).Nodup := by
    rw [hsplit, List.filterMap_append] at hslots
    exact (List.nodup_append.mp hslots).1
  have hmem : ∀ i ∈ pre, i ∈ t.program.create := fun i hi => hsplit ▸ List.mem_append_left _ hi
  have hpre := runBlock_follows fuel (PassInv.enter hpair hid hfirst hcreating hhooks hhost _) hnd
    (fun i hi => hnode i (hmem i hi)) (fun j hj => hdecls j (hsub hj))
    (fun i hi => hconsts i (hmem i hi)) (fun i hi => htemplates i (hmem i hi))
  rw [hrun] at hpre
  exact hpre

/-- The first creation pass of a view whose creation list is made of node instructions, with
pairwise distinct declared slots and constants that resolve, in a context that creates its nodes
and a view with a host. Before every instruction the active frame tracks the starts still open
(`Frame.Tracks`): the element count, the current node and its open cell, the stored parent of a
closed current node, and the skip root. The pass ends as the nesting of the list says: with the
first end that finds no open start or one of another kind, else with the count of the starts
left open, else with success. -/
theorem creationPass_tracks_open_starts (hcreating : c.config.hydration = false)
    (hhooks : c.HooksSucceed)
    (hpair : c.registry.viewPair view = .ok (t, v)) (hid : t.id = v.tview)
    (hfirst : t.firstCreatePass = true) (hhost : ∃ h, v.host = some h ∧ c.doc.contains h = true)
    (hnode : ∀ i ∈ t.program.create, i.isNode = true)
    (hslots : (t.program.create.filterMap (Instr.slot? scope.forPass)).Nodup)
    (hdecls : ∀ j ∈ t.program.create.filterMap (Instr.slot? scope.forPass), j < t.decls)
    (hconsts : ∀ i ∈ t.program.create, i.resolvesConsts t scope.forPass = true)
    (htemplates : ∀ i ∈ t.program.create, i.templateKnown c.registry = true) :
    (∀ pre rest stack, t.program.create = pre ++ rest →
      run scope.forPass t c.config.skipHydrationAttribute [] pre = .ok stack →
      Ok (runBlock fuel scope.forPass pre) { c with frames := passFrame view t :: c.frames }
        fun _ c' => ∃ f frames t', c'.frames = f :: frames ∧ c'.registry.tview f.tview = .ok t' ∧
          f.Tracks t' stack) ∧
    ((execute (fuel + 1) scope view true).run.run c).1 =
      (outcome scope.forPass t c.config.skipHydrationAttribute view t.program.create).mapError
        .structural := by
  refine ⟨fun pre rest stack hsplit hrun => ?_, (execute_follows hcreating hhooks hpair hid hfirst hhost
    hnode hslots hdecls hconsts htemplates).run_fst⟩
  refine (runBlock_prefix_passAt hcreating hhooks hpair hid hfirst hhost hnode hslots hdecls hconsts
    htemplates hsplit hrun).mono ?_
  rintro _ _ ⟨f, t', v', h⟩
  obtain ⟨frames, hfr⟩ := h.frames
  exact ⟨f, frames, t', hfr, h.tview_ok, h.tracks⟩

/-- A first creation pass made of node instructions with pairwise distinct declared slots never
links a template node under itself or under one of its descendants. When the template's parent
links are acyclic as the pass starts, as they are for a freshly declared template
(`TView.acyclic_ofDef`), they stay acyclic after every prefix of the pass that the nesting
accepts, the whole pass included: each node is registered under the innermost open start, whose
ancestors are the other open starts, and its own slot is not among them. -/
theorem creationPass_keeps_tnodes_acyclic (hcreating : c.config.hydration = false)
    (hhooks : c.HooksSucceed)
    (hpair : c.registry.viewPair view = .ok (t, v)) (hid : t.id = v.tview)
    (hfirst : t.firstCreatePass = true) (hhost : ∃ h, v.host = some h ∧ c.doc.contains h = true)
    (hnode : ∀ i ∈ t.program.create, i.isNode = true)
    (hslots : (t.program.create.filterMap (Instr.slot? scope.forPass)).Nodup)
    (hdecls : ∀ j ∈ t.program.create.filterMap (Instr.slot? scope.forPass), j < t.decls)
    (hconsts : ∀ i ∈ t.program.create, i.resolvesConsts t scope.forPass = true)
    (htemplates : ∀ i ∈ t.program.create, i.templateKnown c.registry = true)
    (hacyclic : t.Acyclic) :
    ∀ pre rest stack, t.program.create = pre ++ rest →
      run scope.forPass t c.config.skipHydrationAttribute [] pre = .ok stack →
      Ok (runBlock fuel scope.forPass pre) { c with frames := passFrame view t :: c.frames }
        fun _ c' => ∃ f frames t', c'.frames = f :: frames ∧ c'.registry.tview f.tview = .ok t' ∧
          t'.Acyclic := by
  intro pre rest stack hsplit hrun
  refine (runBlock_prefix_passAt hcreating hhooks hpair hid hfirst hhost hnode hslots hdecls hconsts
    htemplates hsplit hrun).mono ?_
  rintro _ _ ⟨f, t', v', h⟩
  obtain ⟨frames, hfr⟩ := h.frames
  exact ⟨f, frames, t', hfr, h.tview_ok, h.acyclic hacyclic⟩

/-- A root template that opens a `<div>`, puts a text node in it, and never closes it. -/
def unclosedDivTemplate : TView :=
  { id := ⟨0⟩, kind := .root, ssrId := none, data := #[], consts := [], decls := 2, vars := 0,
    program := { create := [.elementStart (.lit 0) (.lit "div") none none, .text (.lit 1) none] } }

/-- A creating context whose one view renders `unclosedDivTemplate` into an `<app>` element. -/
def unclosedDivContext : Context :=
  { doc := { nodes := #[Node.element "app"] }, config := {},
    registry := { tviews := #[unclosedDivTemplate],
                  lviews := #[some { tview := ⟨0⟩, host := some ⟨0⟩, data := #[] }] } }

theorem unclosedDiv_pass_fails :
    ((execute 1 {} ⟨0⟩ true).run.run unclosedDivContext).1 =
      .error (.structural (.unclosedNodes ⟨0⟩ 1)) := by
  have h : ((execute (0 + 1) ({} : Scope) ⟨0⟩ true).run.run unclosedDivContext).1 =
      (outcome ({} : Scope).forPass unclosedDivTemplate unclosedDivContext.config.skipHydrationAttribute
        ⟨0⟩ unclosedDivTemplate.program.create).mapError .structural :=
    (creationPass_tracks_open_starts rfl (Context.hooksSucceed_of_none rfl) rfl rfl rfl ⟨⟨0⟩, rfl, rfl⟩ (by decide) (by decide)
      (by decide) (by decide) (by decide)).2
  exact h.trans rfl

end execute

end ViewHydration
