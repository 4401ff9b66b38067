import ViewHydration.Proofs.TemplateLinks
import ViewHydration.Proofs.PositionStack
import ViewHydration.Proofs.IssuedInstrs

/-!
# Steps that keep a template's links

Apart from the node instructions, no instruction of a first creation pass moves the render
position or changes the tree links of a template: bindings and translated expressions store
into view slots, container operations edit containers and views, and the translated-block
instructions store a block at their own slot, add text nodes that link to nothing and set flags.
`Context.KeepsLinks T k` is that frame condition on contexts: every frame keeps its position, the
registry stays aligned, and template `T` keeps its links at every slot but `k`. Every such step
keeps it on every run, failing or not, and is proved so step by step along the definitions, as
`Restores` and `TopOnly` are.

`Context.Follows T s` says that the pass renders template `T` at the position of the abstract
state `s` while `T`, still in its first creation pass, mirrors `s`; such steps keep it
(`Follows.keepsLinks`) when `k` is a slot `s` has not registered.
-/

namespace ViewHydration

namespace Frame

/-- Where a frame renders: its template, its current node, and whether that node is open. -/
def position (f : Frame) : TViewId × Option Nat × Bool := (f.tview, f.current, f.isParent)

end Frame

namespace Context

variable {T : TViewId} {k : Option Nat} {c c' : Context}

/-- `c'` keeps the position of every frame of `c`, the alignment of its registry, and the links
template `T` holds at every slot but `k`. -/
structure KeepsLinks (T : TViewId) (k : Option Nat) (c c' : Context) : Prop where
  positions : c'.frames.map Frame.position = c.frames.map Frame.position
  aligned : c.registry.Aligned → c'.registry.Aligned
  links : c.registry.Aligned → ∀ t, c.registry.tview T = .ok t →
    ∃ t', c'.registry.tview T = .ok t' ∧ t.KeepsLinks k t'

instance : IsPreorder Context (KeepsLinks T k) where
  refl c := ⟨rfl, id, fun _ t ht => ⟨t, ht, .refl k t⟩⟩
  trans _ _ _ h₁ h₂ := by
    refine ⟨h₂.positions.trans h₁.positions, fun ha => h₂.aligned (h₁.aligned ha), fun ha t ht => ?_⟩
    obtain ⟨t₁, ht₁, hk₁⟩ := h₁.links ha t ht
    obtain ⟨t₂, ht₂, hk₂⟩ := h₂.links (h₁.aligned ha) t₁ ht₁
    exact ⟨t₂, ht₂, hk₁.trans hk₂⟩

namespace KeepsLinks

/-- A step that keeps the positions and every template. -/
theorem of_eq (hp : c'.frames.map Frame.position = c.frames.map Frame.position)
    (ht : c'.registry.tviews = c.registry.tviews) : KeepsLinks T k c c' := by
  have htview : ∀ id, c'.registry.tview id = c.registry.tview id := by
    intro id
    simp only [Registry.tview, ht]
  refine ⟨hp, fun ha i t h => ?_, fun _ t h => ⟨t, (htview T).trans h, .refl k t⟩⟩
  rw [ht] at h
  exact ha i t h

/-- A step that keeps the links of every slot keeps them of every slot but `k`. -/
theorem weaken (h : KeepsLinks T none c c') (k : Option Nat) : KeepsLinks T k c c' :=
  ⟨h.positions, h.aligned, fun ha t ht => by
    obtain ⟨t', ht', hk⟩ := h.links ha t ht
    exact ⟨t', ht', hk.weaken k⟩⟩

/-- Writing back an edit of a template read from the registry. -/
theorem setTView {id : TViewId} {t t' : TView} (hread : c.registry.tview id = .ok t)
    (hk : t.KeepsLinks k t') : KeepsLinks T k c { c with registry := c.registry.setTView t' } := by
  refine ⟨rfl, fun ha => ha.setTView t', fun ha u hu => ?_⟩
  have hid : t'.id = id := hk.id.trans (ha.id_eq hread)
  by_cases hT : id = T
  · subst hT
    rw [hread] at hu
    cases hu
    refine ⟨t', ?_, hk⟩
    rw [← hid]
    exact Registry.tview_setTView_self (hid ▸ hread)
  · exact ⟨u, (Registry.tview_setTView_of_ne (hid ▸ hT)).trans hu, .refl k u⟩

end KeepsLinks

end Context

namespace RenderM

variable {α : Type} {T : TViewId} {k : Option Nat} {x : RenderM α}

/-- Every run of `x`, failing or not, keeps the position of every frame and the links template
`T` holds at every slot but `k`. -/
abbrev KeepsTemplate (T : TViewId) (k : Option Nat) (x : RenderM α) : Prop :=
  Keeps (Context.KeepsLinks T k) x

namespace KeepsTemplate

theorem weaken (h : KeepsTemplate T none x) : KeepsTemplate T k x :=
  Keeps.mono h fun _ _ h => h.weaken k

/-- A step that keeps the position stack and stores into no template. -/
theorem of_still (hr : Restores x) (hs : Still x) : KeepsTemplate T k x := fun c =>
  ⟨Context.KeepsLinks.of_eq (congrArg _ (hr c).1) (hs c).1, fun _ _ _ => trivial⟩

/-- A step that keeps the position stack and stores into no template, with every template it ends
with. -/
theorem within_still (hr : Restores x) (hs : Still x) (c : Context) :
    Within x c (Context.KeepsLinks T k) fun _ c' => c'.registry.tviews = c.registry.tviews :=
  ⟨(of_still hr hs c).1, fun _ c' hrun => by
    have h := (hs c).1
    rw [hrun] at h
    exact h⟩

theorem modify {f : Context → Context} (hf : ∀ c, (f c).frames = c.frames)
    (ht : ∀ c, (f c).registry.tviews = c.registry.tviews) : KeepsTemplate T k (modify f) :=
  fun c => Within.modify (Context.KeepsLinks.of_eq (congrArg _ (hf c)) (ht c))

theorem emit (e : Event) : KeepsTemplate T k (emit e) := modify (fun _ => rfl) fun _ => rfl

theorem modifyDoc (g : Document → Document) : KeepsTemplate T k (modifyDoc g) :=
  modify (fun _ => rfl) fun _ => rfl

theorem setLView (id : LViewId) (v : LView) : KeepsTemplate T k (setLView id v) :=
  modify (fun _ => rfl) fun _ => rfl

theorem modifyLView (id : LViewId) (g : LView → LView) : KeepsTemplate T k (modifyLView id g) :=
  Keeps.bind (Keeps.lview _) fun _ => setLView _ _

theorem modifyContainer (id : ContainerId) (g : LContainer → LContainer) :
    KeepsTemplate T k (modifyContainer id g) :=
  Keeps.bind (Keeps.container _) fun _ => modify (fun _ => rfl) fun _ => rfl

theorem storeNode (view : LViewId) (index : Nat) (node : NodeId) (created : Bool) :
    KeepsTemplate T k (storeNode view index node created) :=
  Keeps.bind (modifyLView _ _) fun _ =>
    Keeps.ite (of_still (Restores.insertCreated _ _ _) (Still.insertCreated _ _ _)) (Keeps.pure _)

/-- Writing back an edit of a template read from the context the write runs in. -/
theorem setTView_edit {c : Context} {id : TViewId} {t t' : TView}
    (hread : c.registry.tview id = .ok t) (hk : t.KeepsLinks k t') :
    Within (setTView t') c (Context.KeepsLinks T k) fun _ _ => True :=
  Within.modify (Context.KeepsLinks.setTView hread hk)

/-- An edit of the top frame that keeps its position. -/
theorem modifyFrame {g : Frame → Frame} (hg : ∀ f, (g f).position = f.position) :
    KeepsTemplate T k (modifyFrame g) := by
  unfold RenderM.modifyFrame
  refine Keeps.get_bind fun c => ?_
  split
  · rename_i top rest hfr
    exact Within.modify (Context.KeepsLinks.of_eq (by simp [hfr, hg]) rfl)
  · exact Keeps.structural _ c

/-! ### View teardown -/

theorem releaseViewTree (fuel : Nat) (view : LViewId) :
    KeepsTemplate T k (releaseViewTree fuel view) := by
  induction fuel generalizing view with
  | zero => exact Keeps.pure _
  | succ fuel ih =>
    unfold RenderM.releaseViewTree
    refine Keeps.bind (Keeps.lview _) fun v => ?_
    -- releasing containers, pooled views, claims and the view itself edits no template
    refine Keeps.bind (Keeps.forIn (fun cid _ => ?_) _ _) fun _ => ?_
    · refine Keeps.bind (Keeps.container _) fun r => ?_
      refine Keeps.bind (Keeps.forIn (fun child _ => ?_) _ _) fun _ => ?_
      · exact Keeps.bind (ih child) fun _ => Keeps.pure _
      · refine Keeps.bind (modify (fun _ => rfl) fun c => ?_) fun _ => Keeps.pure _
        unfold Registry.releaseContainer
        split <;> rfl
    · refine Keeps.bind (modify (fun _ => rfl) fun _ => rfl) fun _ =>
        Keeps.bind (modify (fun _ => rfl) fun _ => rfl) fun _ => modify (fun _ => rfl) fun c => ?_
      unfold Registry.releaseLView
      split <;> rfl

theorem destroyView (view : LViewId) : KeepsTemplate T k (destroyView view) :=
  Keeps.bind Keeps.get fun _ => Keeps.bind (Keeps.ofStructural _) fun _ =>
    Keeps.bind (modifyDoc _) fun _ => Keeps.bind Keeps.get fun _ => releaseViewTree _ _

theorem removeEmbeddedView (cid : ContainerId) (position : Nat) :
    KeepsTemplate T k (removeEmbeddedView cid position) := by
  unfold RenderM.removeEmbeddedView
  refine Keeps.bind (Keeps.container _) fun r => ?_
  split
  · exact Keeps.structural _
  · exact Keeps.bind (modifyContainer _ _) fun _ => destroyView _

theorem clearContainer (cid : ContainerId) : KeepsTemplate T k (clearContainer cid) := by
  unfold RenderM.clearContainer
  refine Keeps.bind (Keeps.container _) fun r =>
    Keeps.bind (Keeps.forIn (fun _ _ => ?_) _ _) fun _ => Keeps.pure _
  refine Keeps.bind (Keeps.container _) fun _ => ?_
  exact Keeps.ite (Keeps.bind (removeEmbeddedView _ _) fun _ => Keeps.pure _) (Keeps.pure _)

/-- Making an `<ng-container>` a container anchor sets a flag on its template node only. -/
theorem createContainerRefIn (view : LViewId) (index : Nat) :
    KeepsTemplate T k (createContainerRefIn view index) := by
  intro c
  unfold RenderM.createContainerRefIn
  refine Within.reads_bind (Reads.viewPair _) (refl c) fun p hp => ?_
  obtain ⟨t, v⟩ := p
  have ht : c.registry.tview v.tview = .ok t := (Registry.viewPair_eq_ok.mp hp).2
  dsimp -zeta only
  extract_lets anchor
  have hanchor : ∀ a, Within (anchor a) c (Context.KeepsLinks T k) fun _ _ => True := by
    intro a
    dsimp -zeta only [anchor]
    split
    · extract_lets register check
      have hregister : ∀ r, KeepsTemplate T k (register r) := by
        intro _
        dsimp -zeta only [register]
        refine Keeps.get_bind fun c₁ => ?_
        refine Within.bind (Keeps.set ?_) fun _ c₂ _ _ =>
          Keeps.bind (modifyLView _ _) (fun _ => Keeps.pure _) c₂
        exact Context.KeepsLinks.of_eq rfl (Registry.tviews_allocateContainer _)
      have hcheck : ∀ r, Within (check r) c (Context.KeepsLinks T k) fun _ _ => True := by
        intro _
        dsimp -zeta only [check]
        refine Within.ite (fun _ => ?_) fun _ => hregister () c
        refine Within.bind (setTView_edit ht ?_) fun r c₁ _ _ => hregister r c₁
        apply TView.KeepsLinks.weaken
        apply TView.keepsLinks_modifyTNode
        exact fun _ => ⟨rfl, rfl⟩
      clear_value check register
      exact Within.ite (fun _ => Within.reads_bind (Reads.structural _ : Reads _ c fun _ => True)
        (refl c) fun _ _ => hcheck _) fun _ => hcheck ()
    · exact Keeps.structural _ c
  clear_value anchor
  split
  · exact Keeps.pure _ c
  · exact Within.reads_bind (Reads.pure trivial : Reads _ c fun _ => True) (refl c)
      fun _ _ => hanchor _
  · exact Within.reads_bind (Reads.structural _ : Reads _ c fun _ => True) (refl c)
      fun _ _ => hanchor _

/-! ### Bindings -/

theorem nextBindingIndex : KeepsTemplate T k nextBindingIndex :=
  Keeps.bind Keeps.frame fun _ => Keeps.bind (modifyFrame fun _ => rfl) fun _ => Keeps.pure _

theorem bindingUpdated (value : String) : KeepsTemplate T k (bindingUpdated value) := by
  unfold RenderM.bindingUpdated
  refine Keeps.bind nextBindingIndex fun index => Keeps.bind Keeps.active fun p => ?_
  obtain ⟨view, _⟩ := p
  refine Keeps.bind (Keeps.lview _) fun v => ?_
  extract_lets -underBinder store
  have hstore : ∀ r, KeepsTemplate T k (store r) := fun _ =>
    Keeps.bind (setLView _ _) fun _ => Keeps.pure _
  clear_value store
  split
  · exact Keeps.ite (Keeps.pure _) (hstore ())
  · exact hstore ()

theorem textInterpolate (index : Nat) (value : String) :
    KeepsTemplate T k (textInterpolate index value) := by
  unfold RenderM.textInterpolate
  refine Keeps.bind (bindingUpdated _) fun changed => Keeps.ite ?_ (Keeps.pure _)
  refine Keeps.bind Keeps.active fun p => ?_
  obtain ⟨view, _⟩ := p
  refine Keeps.bind (Keeps.lview _) fun v => ?_
  split
  · exact modifyDoc _
  · exact Keeps.hydration _

/-! ### Translated blocks -/

/-- Compiling a translated block adds its text nodes, linked to nothing, in new expando slots. -/
theorem compileBlock (tv : TViewId) (messageIndex : Nat) (sub root : Option Nat) :
    KeepsTemplate T k (compileBlock tv messageIndex sub root) := by
  intro c
  unfold RenderM.compileBlock
  refine Within.reads_bind (Reads.tview _) (refl c) fun t ht => ?_
  refine Within.reads_bind (Reads.ofStructural _) (refl c) fun x _ => ?_
  extract_lets -underBinder translate
  have htranslate : ∀ message,
      Within (translate message) c (Context.KeepsLinks T k) fun _ _ => True := by
    intro _
    dsimp -zeta only [translate]
    refine Within.reads_bind (Reads.ofI18n _) (refl c) fun message _ => ?_
    refine Within.reads_bind (Reads.ofI18n _) (refl c) fun parts _ => ?_
    refine Within.reads_bind (Reads.ofI18n _) (refl c) fun planned _ => ?_
    -- the template built by the fold keeps every link of the one read
    have hwrite : ∀ acc : TView × I18nBlock, t.KeepsLinks none acc.1 →
        Within (setTView acc.1 >>= fun _ => pure acc.2) c (Context.KeepsLinks T k)
          fun _ _ => True := fun acc hacc =>
      Within.bind (setTView_edit ht (hacc.weaken k)) fun _ c₁ _ _ => Keeps.pure _ c₁
    apply hwrite
    refine List.foldlRecOn (motive := fun acc : TView × I18nBlock => t.KeepsLinks none acc.1)
      _ _ ?_ ?_
    · exact TView.KeepsLinks.refl none t
    · intro acc hacc node _
      obtain ⟨t₁, b₁⟩ := acc
      cases node with
      | text parent parts => exact hacc.trans (TView.keepsLinks_addText _ rfl rfl rfl)
      | element index parent => exact hacc
      | template index parent => exact hacc
  clear_value translate
  -- the message constant is read, localized or refused, with no store
  split
  · exact Within.reads_bind (Reads.pure trivial : Reads _ c fun _ => True) (refl c)
      fun _ _ => htranslate _
  · exact Within.reads_bind ((Reads.ofI18n _).mono fun _ _ => trivial) (refl c)
      fun _ _ => htranslate _
  · exact Within.reads_bind (Reads.structural _ : Reads _ c fun _ => True) (refl c)
      fun _ _ => htranslate _

/-- Opening a translated block stores the block at its own slot. -/
theorem i18nStart (index messageIndex : Nat) (sub : Option Nat) :
    KeepsTemplate T (some index) (i18nStart index messageIndex sub) := by
  unfold RenderM.i18nStart
  refine Keeps.bind Keeps.active fun p => ?_
  obtain ⟨view, tv⟩ := p
  refine Keeps.bind (Keeps.checkCreationSlot _) fun _ => Keeps.bind Keeps.frame fun f => ?_
  extract_lets -underBinder check
  have hcheck : ∀ r, KeepsTemplate T (some index) (check r) := by
    intro _
    dsimp -zeta only [check]
    refine Keeps.bind (Keeps.tview _) fun t => ?_
    extract_lets -underBinder root compiled enter
    -- the block's text nodes are materialised, then the frame opens the block
    have henter : ∀ r, KeepsTemplate T (some index) (enter r) := by
      intro _
      dsimp -zeta only [enter]
      refine Keeps.bind (Keeps.tview _) fun t => Keeps.bind (Keeps.blockAt _ _) fun block => ?_
      refine Keeps.bind (Keeps.foldlM (fun located q => ?_) _ _) fun _ => modifyFrame fun _ => rfl
      obtain ⟨slot, value⟩ := q
      refine Keeps.bind (of_still (Restores.materialize _ _) (Still.materialize _ _)) fun r => ?_
      obtain ⟨node, created⟩ := r
      exact Keeps.bind (modifyLView _ _) fun _ => Keeps.pure _
    clear_value enter
    refine Keeps.ite ?_ (henter ())
    refine Keeps.bind (compileBlock _ _ _ _) fun block c₁ => ?_
    refine Within.reads_bind (Reads.tview _) (refl c₁) fun t' ht' => ?_
    exact Within.bind (setTView_edit ht' (TView.keepsLinks_setData _ fun _ h => by cases h))
      fun r c₂ _ _ => henter r c₂
  clear_value check
  exact Keeps.ite (Keeps.bind (Keeps.structural _) hcheck) (hcheck ())

/-- The compiled block at a slot is read without a store. -/
theorem reads_blockAt (t : TView) (index : Nat) (c : Context) :
    Reads (blockAt t index) c fun _ => True := by
  unfold RenderM.blockAt
  split
  · exact Reads.pure trivial
  · exact Reads.structural _

/-- Closing a translated block sets flags on template nodes only. -/
theorem i18nEnd : KeepsTemplate T none i18nEnd := by
  unfold RenderM.i18nEnd
  refine Keeps.bind Keeps.active fun p => ?_
  obtain ⟨view, tv⟩ := p
  refine Keeps.bind Keeps.frame fun f => ?_
  split
  · rename_i bf _
    refine Keeps.bind (modifyFrame fun _ => rfl) fun _ c => ?_
    refine Within.reads_bind (Reads.tview _) (refl c) fun t ht => ?_
    refine Within.reads_bind (reads_blockAt _ _ c) (refl c) fun block _ => ?_
    extract_lets -underBinder place
    -- detached elements leave the document and unclaimed nodes go to their places
    have hplace : ∀ r, KeepsTemplate T none (place r) := by
      intro _
      dsimp -zeta only [place]
      refine Keeps.bind (Keeps.viewPair _) fun p => ?_
      obtain ⟨t', v⟩ := p
      dsimp -zeta only
      refine Keeps.bind (Keeps.forIn (fun e _ => ?_) _ _) fun _ =>
        Keeps.bind (Keeps.forIn (fun node _ => ?_) _ _) fun _ => Keeps.pure _
      · refine Keeps.ite ?_ (Keeps.pure _)
        split
        · exact Keeps.bind (modifyDoc _) fun _ => Keeps.pure _
        · exact Keeps.pure _
      · split
        · refine Keeps.bind Keeps.get fun _ => Keeps.ite ?_ (Keeps.pure _)
          refine Keeps.bind Keeps.get fun _ => Keeps.bind (Keeps.ofStructural _) fun q => ?_
          obtain ⟨parent, before⟩ := q
          exact Keeps.bind (modifyDoc _) fun _ => Keeps.pure _
        · exact Keeps.pure _
    clear_value place
    refine Within.ite (fun _ => ?_) fun _ => hplace () c
    exact Within.bind (setTView_edit ht (TView.keepsLinks_markUnmentioned block bf.elements))
      fun r c₁ _ _ => hplace r c₁
  · exact Keeps.structural _

/-- Translated attributes store their compiled list at their own slot. -/
theorem i18nAttributes (index attrsIndex : Nat) :
    KeepsTemplate T (some index) (i18nAttributes index attrsIndex) := by
  unfold RenderM.i18nAttributes
  refine Keeps.bind Keeps.active fun p => ?_
  obtain ⟨view, tv⟩ := p
  refine Keeps.bind (Keeps.checkCreationSlot _) fun _ => Keeps.bind Keeps.frame fun f => ?_
  split
  · intro c
    refine Within.reads_bind (Reads.tview _) (refl c) fun t ht => ?_
    extract_lets -underBinder apply
    have happly : ∀ r, KeepsTemplate T (some index) (apply r) := by
      intro _
      dsimp -zeta only [apply]
      refine Keeps.bind (Keeps.viewPair _) fun p => ?_
      obtain ⟨t', w⟩ := p
      dsimp -zeta only
      split
      · split
        · exact modifyDoc _
        · exact Keeps.hydration _
      · exact Keeps.structural _
    clear_value apply
    refine Within.ite (fun _ => ?_) fun _ => happly () c
    refine Within.reads_bind (Reads.ofStructural _) (refl c) fun x _ => ?_
    extract_lets -underBinder compile
    -- the list is compiled without a store, then written into the slot of the template read
    have hcompile : ∀ pairs,
        Within (compile pairs) c (Context.KeepsLinks T (some index)) fun _ _ => True := by
      intro pairs
      dsimp -zeta only [compile]
      refine Within.bind (within_still ?_ ?_ c) fun compiled c₁ _ htv => ?_
      · refine Keeps.foldlM (fun acc a => ?_) _ _
        obtain ⟨name, message⟩ := a
        exact Keeps.bind (Keeps.ofI18n _) fun parts => by split <;> exact Keeps.pure _
      · refine Still.foldlM (fun acc a => ?_) _ _
        obtain ⟨name, message⟩ := a
        exact Still.bind (Still.ofI18n _) fun parts => by split <;> exact Still.pure _
      · have ht₁ : c₁.registry.tview tv = .ok t := by
          simp only [Registry.tview, htv] at ht ⊢
          exact ht
        exact Within.bind (setTView_edit ht₁ (TView.keepsLinks_setData _ fun _ h => by cases h))
          fun r c₂ _ _ => happly r c₂
    clear_value compile
    split
    · exact Within.reads_bind (Reads.pure trivial : Reads _ c fun _ => True) (refl c)
        fun _ _ => hcompile _
    · exact Within.reads_bind (Reads.structural _ : Reads _ c fun _ => True) (refl c)
        fun _ _ => hcompile _
  · exact Keeps.structural _

theorem i18nExp (value : String) : KeepsTemplate T k (i18nExp value) :=
  Keeps.bind (bindingUpdated _) fun _ => modifyFrame fun _ => rfl

theorem i18nApply (index : Nat) : KeepsTemplate T k (i18nApply index) := by
  unfold RenderM.i18nApply
  refine Keeps.bind Keeps.active fun _ => Keeps.bind Keeps.frame fun f =>
    Keeps.bind (modifyFrame fun _ => rfl) fun _ => ?_
  refine Keeps.ite (Keeps.bind (Keeps.tview _) fun t => ?_) (Keeps.pure _)
  extract_lets -underBinder apply
  have happly : ∀ ops, KeepsTemplate T k (apply ops) := by
    intro ops
    dsimp -zeta only [apply]
    refine Keeps.bind (Keeps.lview _) fun v =>
      Keeps.bind (Keeps.forIn (fun op _ => ?_) _ _) fun _ => Keeps.pure _
    refine Keeps.ite ?_ (Keeps.pure _)
    split
    · split
      · exact Keeps.bind (modifyDoc _) fun _ => Keeps.pure _
      · exact Keeps.bind (Keeps.hydration _) fun _ => Keeps.pure _
    · split
      · exact Keeps.bind (modifyDoc _) fun _ => Keeps.pure _
      · exact Keeps.bind (Keeps.hydration _) fun _ => Keeps.pure _
  clear_value apply
  split
  · exact Keeps.bind (Keeps.pure _) happly
  · exact Keeps.bind (Keeps.pure _) happly
  · exact Keeps.bind (Keeps.structural _) happly

/-- An instruction that does not move the position keeps the links of every slot but the one it
declares. -/
theorem simpleInstr_of_moves (scope : Scope) {i : Instr} (h : i.moves scope = []) :
    KeepsTemplate T (i.slots scope).head? (simpleInstr scope i) := by
  cases i with
  | elementStart | element | elementEnd | elementContainerStart | elementContainer
  | elementContainerEnd | text | template => cases h
  | textInterpolate index value => exact textInterpolate _ _
  | removeEmbeddedView slot position =>
    exact Keeps.bind (Keeps.containerAt _) fun _ => removeEmbeddedView _ _
  | clearContainer slot => exact Keeps.bind (Keeps.containerAt _) fun _ => clearContainer _
  | containerLength slot =>
    exact Keeps.bind (Keeps.containerAt _) fun _ => Keeps.bind (Keeps.container _) fun _ => emit _
  | createContainerRef index =>
    exact Keeps.bind Keeps.active fun _ =>
      Keeps.bind (createContainerRefIn _ _) fun _ => emit _
  | i18nStart index message sub => exact i18nStart _ _ _
  | i18n index message sub => exact Keeps.bind (i18nStart _ _ _) fun _ => i18nEnd.weaken
  | i18nEnd => exact i18nEnd.weaken
  | i18nAttributes index attrs => exact i18nAttributes _ _
  | i18nExp value => exact i18nExp _
  | i18nApply index => exact i18nApply _
  | localRef name => exact Keeps.bind (Keeps.localRef _) fun _ => emit _
  | removeLocalRef name =>
    refine Keeps.bind (Keeps.localRef _) fun n => ?_
    split
    · exact modifyDoc _
    · exact Keeps.pure _
  | removeSlotNode index =>
    refine Keeps.bind Keeps.active fun _ => Keeps.bind (Keeps.lview _) fun w => ?_
    split
    · exact modifyDoc _
    · exact Keeps.pure _
  | probe => exact Keeps.bind Keeps.frame fun _ => Keeps.bind Keeps.get fun _ => emit _
  | createEmbeddedView slot position tmpl => exact Keeps.pure _
  | cond var thenBranch elseBranch => exact Keeps.pure _
  | loop count var body => exact Keeps.pure _

end KeepsTemplate

end RenderM

/-! ### Following the abstract machine -/

namespace Context

variable {T : TViewId} {k : Option Nat} {s : Threads} {c c' : Context}

/-- The pass renders template `T` at the position of the abstract state `s`, and `T`, in its first
creation pass, mirrors `s`. -/
structure Follows (T : TViewId) (s : Threads) (c : Context) : Prop where
  frame : ∃ f rest, c.frames = f :: rest ∧ f.position = (T, s.current, s.isParent)
  aligned : c.registry.Aligned
  template : ∃ t, c.registry.tview T = .ok t ∧ t.firstCreatePass = true ∧ t.Mirrors s

/-- A step that keeps the links away from the registered slots keeps the pass following the
same abstract state. -/
theorem Follows.keepsLinks (h : c.Follows T s) (hk : KeepsLinks T k c c')
    (hfree : ∀ j, k = some j → s.links j = none) : c'.Follows T s := by
  obtain ⟨f, rest, hfr, hpos⟩ := h.frame
  obtain ⟨t, ht, hpass, hm⟩ := h.template
  obtain ⟨t', ht', hkt⟩ := hk.links h.aligned t ht
  refine ⟨?_, hk.aligned h.aligned, t', ht', hkt.firstCreatePass.trans hpass,
    hm.keepsLinks hkt hfree⟩
  have hp := hk.positions
  rw [hfr] at hp
  cases hc' : c'.frames with
  | nil => simp [hc'] at hp
  | cons f' rest' =>
    rw [hc', List.map_cons, List.map_cons, List.cons.injEq] at hp
    exact ⟨f', rest', rfl, hp.1.trans hpos⟩

end Context

end ViewHydration
