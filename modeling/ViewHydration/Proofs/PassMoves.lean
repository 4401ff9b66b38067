import ViewHydration.Proofs.LinkFrame

/-!
# A first pass makes the moves of its node instructions

Followed one issued instruction at a time, a successful first creation pass is a run of the
abstract machine `Threads`: a node instruction registers its slot with the frame's position and
moves the position as `Instr.moves` says, and every other instruction leaves both alone
(`RenderM.runInstr_threads`). An instruction that creates an embedded view runs passes of its
own, which `Proofs/NestedPasses` follows.

`RenderM.Ends x c Q` is the postcondition of the successful runs of `x` from `c`: the pass is
assumed to succeed, and what each step did is read back from that success.
-/

namespace ViewHydration

namespace RenderM

variable {α β : Type} {x : RenderM α} {c : Context} {P Q : α → Context → Prop}

/-- Every successful run of `x` from `c` ends with a value and a context satisfying `Q`. -/
def Ends (x : RenderM α) (c : Context) (Q : α → Context → Prop) : Prop :=
  ∀ a c', x.run.run c = (.ok a, c') → Q a c'

namespace Ends

theorem mono (h : Ends x c P) (hpq : ∀ a c', P a c' → Q a c') : Ends x c Q :=
  fun a c' hrun => hpq a c' (h a c' hrun)

/-- The run an operation that succeeds makes is its only run. -/
theorem of_ok (h : Ok x c Q) : Ends x c Q := by
  obtain ⟨a, c', hrun, hq⟩ := h
  intro b c'' hrun'
  rw [hrun] at hrun'
  cases hrun'
  exact hq

/-- A read ends where it started, with a value it vouches for. -/
theorem of_reads {P : α → Prop} (h : Reads x c P) : Ends x c fun a c' => P a ∧ c' = c := by
  obtain ⟨r, hrun, hp⟩ := h
  intro a c' hrun'
  rw [hrun] at hrun'
  cases hrun'
  exact ⟨hp a rfl, rfl⟩

/-- A step that keeps `R` on every run ends in a context related to the one it started from. -/
theorem of_keeps {R : Context → Context → Prop} (h : Keeps R x) : Ends x c fun _ c' => R c c' := by
  intro a c' hrun
  have hr := (h c).1
  rw [hrun] at hr
  exact hr

theorem bind {f : α → RenderM β} {Q : β → Context → Prop} (hx : Ends x c P)
    (hf : ∀ a c₁, P a c₁ → Ends (f a) c₁ Q) : Ends (x >>= f) c Q := by
  intro b c' hrun
  rw [run_bind] at hrun
  rcases hx' : x.run.run c with ⟨_ | a, c₁⟩
  · rw [hx'] at hrun
    cases hrun
  · rw [hx'] at hrun
    exact hf a c₁ (hx a c₁ hx') b c' hrun

theorem pure {a : α} (h : Q a c) : Ends (Pure.pure a) c Q := by
  intro b c' hrun
  cases hrun
  exact h

theorem throw (e : RenderError) : Ends (throw e : RenderM α) c Q := by
  intro _ _ hrun
  cases hrun

theorem structural (e : StructuralError) : Ends (structural e : RenderM α) c Q := throw _

theorem hydration (e : HydrationError) : Ends (hydration e : RenderM α) c Q := throw _

theorem ite {p : Prop} [Decidable p] {y : RenderM α} (hx : p → Ends x c Q)
    (hy : ¬p → Ends y c Q) : Ends (if p then x else y) c Q := by
  split
  · next hp => exact hx hp
  · next hp => exact hy hp

theorem throw_bind {f : α → RenderM β} {Q : β → Context → Prop} (e : RenderError) :
    Ends ((MonadExcept.throw e : RenderM α) >>= f) c Q :=
  bind (P := fun _ _ => False) (throw e) fun _ _ h => h.elim

/-- A step within `R` ends in a context related to the one it started from. -/
theorem of_within {R : Context → Context → Prop} {Q' : α → Context → Prop} (h : Within x c R Q') :
    Ends x c fun _ c' => R c c' := by
  intro a c' hrun
  have hr := h.1
  rw [hrun] at hr
  exact hr

/-- A read, and what follows runs from the context it read. -/
theorem reads_bind {P : α → Prop} {f : α → RenderM β} {Q : β → Context → Prop} (hx : Reads x c P)
    (hf : ∀ a, P a → Ends (f a) c Q) : Ends (x >>= f) c Q :=
  bind (of_reads hx) fun a _ ⟨ha, hc⟩ => hc ▸ hf a ha

/-- Two postconditions of the same successful run. -/
theorem and (hp : Ends x c P) (hq : Ends x c Q) : Ends x c fun a c' => P a c' ∧ Q a c' :=
  fun a c' hrun => ⟨hp a c' hrun, hq a c' hrun⟩

/-- A successful run of a guarded step is a successful run of the step or of the handler. -/
theorem tryCatch {handler : RenderError → RenderM α} (hx : Ends x c Q)
    (hh : ∀ e c₁, Ends (handler e) c₁ Q) : Ends (tryCatch x handler) c Q := by
  intro a c' hrun
  rcases hx' : x.run.run c with ⟨e | b, c₁⟩
  · rw [run_tryCatch_error hx'] at hrun
    exact hh e c₁ a c' hrun
  · rw [run_tryCatch_ok hx'] at hrun
    cases hrun
    exact hx _ _ hx'

/-- A loop whose body keeps an invariant for every element of the list keeps it. -/
theorem forIn {γ δ : Type} {f : γ → δ → RenderM (ForInStep δ)} {xs : List γ}
    {I : Context → Prop} (hf : ∀ a ∈ xs, ∀ b c, I c → Ends (f a b) c fun _ c' => I c')
    {init : δ} (h : I c) : Ends (forIn xs init f) c fun _ c' => I c' := by
  induction xs generalizing init c with
  | nil => exact pure h
  | cons a rest ih =>
    rw [List.forIn_cons]
    refine bind (hf a List.mem_cons_self init c h) fun r c₁ h₁ => ?_
    cases r with
    | done b => exact pure h₁
    | yield b => exact ih (fun a' ha' => hf a' (List.mem_cons_of_mem _ ha')) h₁

end Ends

end RenderM

namespace Context

open RenderM

variable {α β : Type} {T : TViewId} {k : Option Nat} {s : Threads} {c : Context}

/-- The frame a pass following `s` renders in. -/
theorem Follows.top (h : c.Follows T s) :
    ∃ f rest, c.frames = f :: rest ∧ f.tview = T ∧ f.current = s.current ∧ f.isParent = s.isParent := by
  obtain ⟨f, rest, hfr, hpos⟩ := h.frame
  simp only [Frame.position, Prod.mk.injEq] at hpos
  exact ⟨f, rest, hfr, hpos.1, hpos.2.1, hpos.2.2⟩

/-- A step that keeps the template's links away from the registered slots, then the rest. -/
theorem Follows.bind {x : RenderM α} {f : α → RenderM β} {Q : β → Context → Prop}
    (h : c.Follows T s) (hx : KeepsTemplate T k x) (hfree : ∀ j, k = some j → s.links j = none)
    (hf : ∀ a c₁, c₁.Follows T s → Ends (f a) c₁ Q) : Ends (x >>= f) c Q :=
  Ends.bind (Ends.of_keeps hx) fun a c₁ hk => hf a c₁ (h.keepsLinks hk hfree)

/-- A step that keeps every link of the template, then the rest. -/
theorem Follows.keep_bind {x : RenderM α} {f : α → RenderM β} {Q : β → Context → Prop}
    (h : c.Follows T s) (hx : KeepsTemplate T none x)
    (hf : ∀ a c₁, c₁.Follows T s → Ends (f a) c₁ Q) : Ends (x >>= f) c Q :=
  h.bind hx (fun _ h => by cases h) hf

/-- A last step that keeps every link of the template. -/
theorem Follows.keeps {x : RenderM α} (h : c.Follows T s) (hx : KeepsTemplate T none x) :
    Ends x c fun _ c' => c'.Follows T s :=
  (Ends.of_keeps hx).mono fun _ _ hk => h.keepsLinks hk fun _ h => by cases h

/-- Making a node current moves the position only. -/
theorem Follows.setCurrent (h : c.Follows T s) (index : Nat) (isParent : Bool) :
    Ends (setCurrent index isParent) c fun _ c' =>
      c'.Follows T { s with current := some index, isParent := isParent } := by
  obtain ⟨f, rest, hfr, hT, -, -⟩ := h.top
  refine Ends.of_ok ((setCurrent_ok hfr index isParent).mono ?_)
  rintro _ _ rfl
  obtain ⟨t, ht, hpass, hm⟩ := h.template
  exact ⟨⟨_, rest, rfl, by simp [Frame.position, hT]⟩, h.aligned, t, ht, hpass, hm.1, hm.2, hm.3⟩

/-- Opening a node makes it current and open. -/
theorem Follows.openNode (h : c.Follows T s) (index : Nat) (flags : TNodeFlags) :
    Ends (openNode index flags) c fun _ c' =>
      c'.Follows T { s with current := some index, isParent := true } := by
  unfold RenderM.openNode
  exact Ends.bind (h.setCurrent index true) fun _ c₁ h₁ =>
    h₁.keeps (KeepsTemplate.modifyFrame fun _ => rfl)

/-- On a first pass following `s`, resolving a slot's node registers it with the frame's
position, as the abstract machine registers the slot. -/
theorem Follows.resolveTNode (h : c.Follows T s)
    (hcur : ∀ j, s.current = some j → s.links j ≠ none) (index : Nat) (spec : NodeSpec) :
    Ends (resolveTNode index spec) c fun _ c' => c'.Follows T (s.register index) := by
  obtain ⟨f, rest, hfr, hT, hc, hp⟩ := h.top
  obtain ⟨t, ht, hpass, hm⟩ := h.template
  have hft : c.registry.tview f.tview = .ok t := by rw [hT]; exact ht
  have hpar : f.parentForNext ((s.current.bind t.tnode?).bind (·.parent)) = s.innermost := by
    unfold Frame.parentForNext
    rw [hc, hp]
    exact hm.parentForNext_eq hcur
  unfold RenderM.resolveTNode
  refine Ends.bind (Ends.of_ok (frame_ok hfr)) ?_
  rintro _ _ ⟨rfl, rfl⟩
  refine Ends.bind (Ends.of_ok (tview_ok hft)) ?_
  rintro _ _ ⟨rfl, rfl⟩
  rw [hpass, Bool.not_true, if_neg Bool.false_ne_true]
  refine Ends.reads_bind (Reads.ofStructural _) fun attrs _ => ?_
  refine Ends.reads_bind (Reads.ofStructural _) fun names _ => ?_
  refine Ends.reads_bind Reads.get fun c' hc' => ?_
  subst hc'
  refine Ends.reads_bind (Reads.ofStructural _) fun t' hreg => ?_
  refine Ends.of_ok (Ok.modify ?_)
  -- the template registers the node under the innermost open node, linked to nothing yet
  have hreg' := hreg
  rw [hc, hp] at hreg'
  have hid : t'.id = T := (TView.id_registerTNode hreg).trans (h.aligned.id_eq ht)
  refine ⟨⟨f, rest, hfr, ?_⟩, h.aligned.setTView t', t', ?_, ?_, ?_⟩
  · simp only [Frame.position, hT, hc, hp]
    rfl
  · rw [← hid]
    exact Registry.tview_setTView_self (hid ▸ ht)
  · rw [TView.firstCreatePass_registerTNode hreg]
    exact hpass
  · exact hm.register hcur hreg' hpar rfl rfl

/-- Closing the innermost open node is the abstract close. -/
theorem Follows.closeNode (h : c.Follows T s)
    (hcur : ∀ j, s.current = some j → s.links j ≠ none) (expected : TNodeType)
    (instr : EndInstruction) :
    Ends (closeNode expected instr) c fun _ c' => ∃ s', s.step .leave = some s' ∧ c'.Follows T s' := by
  obtain ⟨f, rest, hfr, hT, hc, hp⟩ := h.top
  obtain ⟨t, ht, -, hm⟩ := h.template
  have hft : c.registry.tview f.tview = .ok t := by rw [hT]; exact ht
  unfold RenderM.closeNode
  refine Ends.bind (Ends.of_ok (frame_ok hfr)) ?_
  rintro _ _ ⟨rfl, rfl⟩
  extract_lets close
  -- the closed node is the abstract innermost open node, and becomes the closed current node
  have hclose : ∀ r, Ends (close r) c fun _ c' => ∃ s', s.step .leave = some s' ∧ c'.Follows T s' := by
    intro _
    dsimp -zeta only [close]
    split
    · next current hcurrent =>
      refine Ends.bind (Ends.of_ok (tview_ok hft)) ?_
      rintro _ _ ⟨rfl, rfl⟩
      extract_lets finish
      have hfinish : ∀ closing, s.innermost = some closing →
          Ends (finish closing) c fun _ c' => ∃ s', s.step .leave = some s' ∧ c'.Follows T s' := by
        intro closing hk
        dsimp -zeta only [finish]
        refine Ends.reads_bind (Reads.ofStructural _) fun n _ => ?_
        extract_lets leave
        have hleave : ∀ r, Ends (leave r) c
            fun _ c' => ∃ s', s.step .leave = some s' ∧ c'.Follows T s' := by
          intro _
          dsimp -zeta only [leave]
          refine Ends.bind (h.setCurrent closing false) fun _ c₁ h₁ => ?_
          refine h₁.keep_bind (KeepsTemplate.modifyFrame fun _ => rfl) fun _ c₂ h₂ => ?_
          refine Ends.pure ⟨_, ?_, h₂⟩
          simp only [Threads.step, hk, Option.map_some]
        clear_value leave
        exact Ends.ite (fun _ => Ends.throw_bind _) fun _ => hleave ()
      clear_value finish
      have hcur' : s.current = some current := hc ▸ hcurrent
      refine Ends.ite (fun hpar => ?_) fun hpar => ?_
      · refine Ends.reads_bind (Reads.pure rfl) fun closing hcl => hfinish closing ?_
        rw [← hcl, Threads.innermost, ← hp, if_pos hpar, hcur']
      · refine Ends.reads_bind (Reads.ofStructural _) fun n hn => ?_
        have hn' : t.tnode? current = some n := by
          cases hq : t.tnode? current with
          | none => simp [TView.expectTNode, hq] at hn
          | some q => simp [TView.expectTNode, hq] at hn; rw [hn]
        split
        · next p hparent =>
          refine Ends.reads_bind (Reads.pure rfl) fun closing hcl => hfinish closing ?_
          obtain ⟨l, hl⟩ := Option.ne_none_iff_exists'.mp (hcur current hcur')
          have htl := hm.treeLinks_of_links hl
          rw [TView.treeLinks_of_tnode? hn', Option.some.injEq] at htl
          rw [← hcl, Threads.innermost, ← hp, if_neg hpar, hcur', Option.bind_some, parentIn, hl,
            Option.bind_some, ← htl]
          exact hparent
        · exact Ends.throw_bind _
    · exact Ends.structural _
  clear_value close
  exact Ends.ite (fun _ => Ends.throw_bind _) fun _ => hclose ()

/-! ### Node instructions -/

section nodes

variable (hcur : ∀ j, s.current = some j → s.links j ≠ none)
include hcur

/-- Opening an element registers its slot and makes it the open current node. -/
theorem Follows.elementStart (h : c.Follows T s) (index : Nat) (tag : String)
    (attrs refs : Option Nat) :
    Ends (elementStart index tag attrs refs) c fun _ c' =>
      c'.Follows T { s.register index with current := some index, isParent := true } := by
  unfold RenderM.elementStart
  refine h.keep_bind RenderM.Keeps.active fun p c₁ h₁ => ?_
  obtain ⟨view, tv⟩ := p
  refine h₁.keep_bind (RenderM.Keeps.checkCreationSlot _) fun _ c₂ h₂ => ?_
  refine Ends.bind (h₂.resolveTNode hcur _ _) fun _ c₃ h₃ => ?_
  refine h₃.keep_bind (KeepsTemplate.of_still (Restores.materialize _ _) (Still.materialize _ _))
    fun p c₄ h₄ => ?_
  obtain ⟨node, created⟩ := p
  refine h₄.keep_bind (RenderM.Keeps.tview _) fun _ c₅ h₅ => h₅.keep_bind (RenderM.Keeps.ofStructural _) fun n c₆ h₆ => ?_
  extract_lets -underBinder store
  -- the node is stored and opened, then its directives run
  have hstore : ∀ r c₇, c₇.Follows T (s.register index) → Ends (store r) c₇ fun _ c' =>
      c'.Follows T { s.register index with current := some index, isParent := true } := by
    intro _ c₇ h₇
    dsimp -zeta only [store]
    refine h₇.keep_bind (KeepsTemplate.storeNode _ _ _ _) fun _ c₈ h₈ => ?_
    refine Ends.bind (h₈.openNode _ _) fun _ c₉ h₉ => ?_
    exact h₉.keeps (KeepsTemplate.of_still (Restores.runDirectives _ _ _ _ _)
      (Still.runDirectives _ _ _ _ _))
  clear_value store
  exact Ends.ite (fun _ => h₆.keep_bind (KeepsTemplate.modifyDoc _) fun r c₇ h₇ => hstore r c₇ h₇)
    fun _ => hstore () c₆ h₆

/-- Opening an `<ng-container>` registers its slot and makes it the open current node. -/
theorem Follows.elementContainerStart (h : c.Follows T s) (index : Nat) (attrs refs : Option Nat) :
    Ends (elementContainerStart index attrs refs) c fun _ c' =>
      c'.Follows T { s.register index with current := some index, isParent := true } := by
  unfold RenderM.elementContainerStart
  refine h.keep_bind RenderM.Keeps.active fun p c₁ h₁ => ?_
  obtain ⟨view, tv⟩ := p
  refine h₁.keep_bind (RenderM.Keeps.checkCreationSlot _) fun _ c₂ h₂ => ?_
  refine Ends.bind (h₂.resolveTNode hcur _ _) fun _ c₃ h₃ => ?_
  refine h₃.keep_bind (KeepsTemplate.of_still (Restores.materialize _ _) (Still.materialize _ _))
    fun p c₄ h₄ => ?_
  obtain ⟨node, created⟩ := p
  refine h₄.keep_bind (KeepsTemplate.storeNode _ _ _ _) fun _ c₅ h₅ => ?_
  refine h₅.keep_bind (RenderM.Keeps.tview _) fun _ c₆ h₆ => h₆.keep_bind (RenderM.Keeps.ofStructural _) fun n c₇ h₇ => ?_
  refine Ends.bind (h₇.openNode _ _) fun _ c₈ h₈ => ?_
  exact h₈.keeps (KeepsTemplate.of_still (Restores.runDirectives _ _ _ _ _)
    (Still.runDirectives _ _ _ _ _))

/-- A text node registers its slot and becomes the closed current node. -/
theorem Follows.text (h : c.Follows T s) (index : Nat) (value : Option String) :
    Ends (text index value) c fun _ c' =>
      c'.Follows T { s.register index with current := some index, isParent := false } := by
  unfold RenderM.text
  refine h.keep_bind RenderM.Keeps.active fun p c₁ h₁ => ?_
  obtain ⟨view, _⟩ := p
  refine h₁.keep_bind (RenderM.Keeps.checkCreationSlot _) fun _ c₂ h₂ => ?_
  refine Ends.bind (h₂.resolveTNode hcur _ _) fun _ c₃ h₃ => ?_
  refine h₃.keep_bind (KeepsTemplate.of_still (Restores.materialize _ _) (Still.materialize _ _))
    fun p c₄ h₄ => ?_
  obtain ⟨node, created⟩ := p
  exact h₄.keep_bind (KeepsTemplate.storeNode _ _ _ _) fun _ c₅ h₅ => h₅.setCurrent _ _

/-- A container anchor registers its slot and becomes the closed current node. -/
theorem Follows.containerAnchor (h : c.Follows T s) (index : Nat) (tv : TViewId) (attrs refs : Option Nat) :
    Ends (RenderM.template index tv attrs refs) c fun _ c' =>
      c'.Follows T { s.register index with current := some index, isParent := false } := by
  unfold RenderM.template
  refine h.keep_bind RenderM.Keeps.active fun p c₁ h₁ => ?_
  obtain ⟨view, declaring⟩ := p
  refine h₁.keep_bind (RenderM.Keeps.checkCreationSlot _) fun _ c₂ h₂ => ?_
  refine h₂.keep_bind (RenderM.Keeps.discard (RenderM.Keeps.tview _)) fun _ c₃ h₃ => ?_
  refine Ends.bind (h₃.resolveTNode hcur _ _) fun _ c₄ h₄ => ?_
  refine h₄.keep_bind (KeepsTemplate.of_still (Restores.materialize _ _) (Still.materialize _ _))
    fun p c₅ h₅ => ?_
  obtain ⟨anchor, created⟩ := p
  dsimp -zeta only
  extract_lets -underBinder register
  -- the container is registered and stored in the anchor's slot, and the anchor made current
  have hregister : ∀ r c₆, c₆.Follows T (s.register index) → Ends (register r) c₆ fun _ c' =>
      c'.Follows T { s.register index with current := some index, isParent := false } := by
    intro _ c₆ h₆
    dsimp -zeta only [register]
    refine Ends.reads_bind Reads.get fun c₇ hc₇ => ?_
    subst c₇
    refine Ends.bind (Ends.of_within (RenderM.Keeps.set (R := Context.KeepsLinks T none)
      (Context.KeepsLinks.of_eq rfl (Registry.tviews_allocateContainer _)))) fun _ c₈ hk => ?_
    have h₈ := h₆.keepsLinks hk fun _ h => by cases h
    refine h₈.keep_bind (KeepsTemplate.modifyLView _ _) fun _ c₉ h₉ => ?_
    refine Ends.bind (h₉.setCurrent _ _) fun _ c₁₀ h₁₀ => ?_
    refine h₁₀.keep_bind (RenderM.Keeps.tview _) fun _ c₁₁ h₁₁ =>
      h₁₁.keep_bind (RenderM.Keeps.ofStructural _) fun _ c₁₂ h₁₂ => ?_
    exact h₁₂.keep_bind (KeepsTemplate.of_still (Restores.runDirectives _ _ _ _ _)
      (Still.runDirectives _ _ _ _ _)) fun _ c₁₃ h₁₃ => Ends.pure h₁₃
  clear_value register
  exact Ends.ite (fun _ => h₅.keep_bind (KeepsTemplate.of_still (Restores.insertCreated _ _ _)
    (Still.insertCreated _ _ _)) fun r c₆ h₆ => hregister r c₆ h₆) fun _ => hregister () c₅ h₅

end nodes

end Context

namespace Instr

end Instr

namespace RenderM

variable {T : TViewId} {s : Threads} {c : Context}

/-- An issued instruction that creates no view, run on a first pass following `s`, makes its
moves. -/
theorem runInstr_threads (fuel : Nat) (scope : Scope) {i : Instr} (h : c.Follows T s)
    (hcur : ∀ j, s.current = some j → s.links j ≠ none) (hflow : i.isFlow = false)
    (hview : i.startsView = false) (hfree : ∀ j ∈ i.slots scope, s.links j = none) :
    Ends (runInstr fuel scope i) c fun _ c' =>
      ∃ s', s.run (i.moves scope) = some s' ∧ c'.Follows T s' := by
  rw [runInstr_eq_simpleInstr hflow hview]
  -- an instruction that does not move keeps the links away from the registered slots
  have hstay : i.moves scope = [] → Ends (simpleInstr scope i) c fun _ c' =>
      ∃ s', s.run (i.moves scope) = some s' ∧ c'.Follows T s' := by
    intro hm
    rw [hm]
    exact (Ends.of_keeps (KeepsTemplate.simpleInstr_of_moves scope hm)).mono fun _ c' hk =>
      ⟨s, rfl, h.keepsLinks hk fun j hj => hfree j (List.mem_of_mem_head? hj)⟩
  -- a node opened is the current node, registered
  have hopened : ∀ k j, ({ s.register k with current := some k, isParent := true } : Threads).current =
      some j → (s.register k).links j ≠ none := by
    intro k j hj
    cases hj
    simp [Threads.links_register_self]
  -- an end closes the innermost open node
  have hclose : ∀ (s₁ : Threads) (c₁ : Context) (x : RenderM Nat), c₁.Follows T s₁ →
      (∀ j, s₁.current = some j → s₁.links j ≠ none) →
      Ends x c₁ (fun _ c' => ∃ s', s₁.step .leave = some s' ∧ c'.Follows T s') →
      Ends (discard x) c₁ fun _ c' => ∃ s', s₁.run [.leave] = some s' ∧ c'.Follows T s' := by
    intro s₁ c₁ x _ _ hx
    rw [discard_eq]
    refine Ends.bind hx fun _ c' ⟨s', hs', h'⟩ => Ends.pure ⟨s', ?_, h'⟩
    rw [Threads.run_cons, hs']
    rfl
  cases i with
  | elementStart index tag attrs refs =>
    exact (h.elementStart hcur _ _ _ _).mono fun _ c' h' => ⟨_, rfl, h'⟩
  | element index tag attrs refs =>
    refine Ends.bind (h.elementStart hcur _ _ _ _) fun _ c₁ h₁ => ?_
    exact hclose _ c₁ _ h₁ (hopened _) (h₁.closeNode (hopened _) _ _)
  | elementEnd => exact hclose s c _ h hcur (h.closeNode hcur _ _)
  | elementContainerStart index attrs refs =>
    exact (h.elementContainerStart hcur _ _ _).mono fun _ c' h' => ⟨_, rfl, h'⟩
  | elementContainer index attrs refs =>
    refine Ends.bind (h.elementContainerStart hcur _ _ _) fun _ c₁ h₁ => ?_
    exact hclose _ c₁ _ h₁ (hopened _) (h₁.closeNode (hopened _) _ _)
  | elementContainerEnd => exact hclose s c _ h hcur (h.closeNode hcur _ _)
  | text index value => exact (h.text hcur _ _).mono fun _ c' h' => ⟨_, rfl, h'⟩
  | template index tv attrs refs =>
    refine Ends.bind (h.containerAnchor hcur _ _ _ _) fun _ c₁ h₁ => ?_
    exact (h₁.keeps (KeepsTemplate.emit _)).mono fun _ c' h' => ⟨_, rfl, h'⟩
  | cond | loop => cases hflow
  | createEmbeddedView => cases hview
  | textInterpolate | removeEmbeddedView | clearContainer | containerLength | createContainerRef
  | i18nStart | i18n | i18nEnd | i18nAttributes | i18nExp | i18nApply | localRef | removeLocalRef
  | removeSlotNode | probe => exact hstay rfl

end RenderM

end ViewHydration
