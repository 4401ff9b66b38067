import ViewHydration.Proofs.MadeViews
import ViewHydration.Proofs.LinkFrame
import ViewHydration.Proofs.SlotRegions

/-!
# Steps that spare a template

A pass nested in the first creation pass of a template `T` renders other templates. Its
instructions write the template of their frame, and a template that is not in its first pass not
at all, so they leave the links of `T` alone. They also keep the views and containers the nested
passes made closed (`Registry.Made`): they narrow them, except that a container they declare in
the view of their frame counts as made.

`Context.Spares T R V0 c c'` collects what a step that runs no pass keeps, whether it fails or
not: the view and template of every frame, the alignment of the registry, the program of every
template, the links of `T` when the top frame renders another template, and the views and
containers made so far. Every instruction that runs no pass spares `T`
(`RenderM.Spares.simpleInstr`), provided the templates it spawns are in `R`.
-/

namespace ViewHydration

namespace Frame

/-- The view a frame renders and its template. -/
def owner (f : Frame) : LViewId × TViewId := (f.lview, f.tview)

theorem owners_of_passes {fs fs' : List Frame} (h : fs'.map pass = fs.map pass) :
    fs'.map owner = fs.map owner := by
  have hmap := congrArg (List.map fun q : LViewId × TViewId × Nat => (q.1, q.2.1)) h
  have hcomp : ((fun q : LViewId × TViewId × Nat => (q.1, q.2.1)) ∘ pass) = owner := rfl
  simpa only [List.map_map, hcomp] using hmap

end Frame

namespace Context

variable {T : TViewId} {R : TViewId → Prop} {V0 : LViewId} {c c' c'' : Context}

/-- The top frame renders a template other than `T`. -/
def Clear (T : TViewId) (c : Context) : Prop := ∃ f rest, c.frames = f :: rest ∧ f.tview ≠ T

theorem Clear.of_owners (h : c.Clear T) (ho : c'.frames.map Frame.owner = c.frames.map Frame.owner) :
    c'.Clear T := by
  obtain ⟨f, rest, hfr, hT⟩ := h
  rw [hfr] at ho
  cases hc' : c'.frames with
  | nil => rw [hc'] at ho; cases ho
  | cons f' rest' =>
    rw [hc', List.map_cons, List.map_cons, List.cons.injEq] at ho
    have htv : f'.tview = f.tview := congrArg Prod.snd ho.1
    exact ⟨f', rest', hc', htv ▸ hT⟩

/-- The template of the top frame is not `T` when the top frame is clear of it. -/
theorem Clear.ne {f : Frame} {rest : List Frame} (h : c.Clear T) (hfr : c.frames = f :: rest) :
    f.tview ≠ T := by
  obtain ⟨f', rest', hfr', hT⟩ := h
  rw [hfr] at hfr'
  cases hfr'
  exact hT

/-- `c'` follows `c` by steps that run no pass and spare template `T`: every frame keeps its view
and template, the registry stays aligned, every template keeps its program, `T` keeps its links
when the top frame renders another template, and the views and containers made by the passes
nested in a pass over `V0` stay closed, with at most more made containers. -/
structure Spares (T : TViewId) (R : TViewId → Prop) (V0 : LViewId) (c c' : Context) : Prop where
  owners : c'.frames.map Frame.owner = c.frames.map Frame.owner
  aligned : c.registry.Aligned → c'.registry.Aligned
  programs : c.registry.Aligned → ∀ X t', c'.registry.tview X = .ok t' →
    ∃ t, c.registry.tview X = .ok t ∧ t'.program = t.program
  links : c.registry.Aligned → c.Clear T → ∀ t, c.registry.tview T = .ok t →
    ∃ t', c'.registry.tview T = .ok t' ∧ t.KeepsLinks none t'
  made : ∀ S C, c.registry.Made R V0 S C →
    ∃ C' : ContainerId → Prop, (∀ cid, C cid → C' cid) ∧ c'.registry.Made R V0 S C'

instance : IsPreorder Context (Spares T R V0) where
  refl c := ⟨rfl, id, fun _ _ t h => ⟨t, h, rfl⟩, fun _ _ t h => ⟨t, h, .refl none t⟩,
    fun _ C h => ⟨C, fun _ h => h, h⟩⟩
  trans _ _ _ h₁ h₂ := by
    refine ⟨h₂.owners.trans h₁.owners, fun ha => h₂.aligned (h₁.aligned ha),
      fun ha X t'' ht'' => ?_, fun ha hc t ht => ?_, fun S C hm => ?_⟩
    · obtain ⟨t', ht', hp'⟩ := h₂.programs (h₁.aligned ha) X t'' ht''
      obtain ⟨t, ht, hp⟩ := h₁.programs ha X t' ht'
      exact ⟨t, ht, hp'.trans hp⟩
    · obtain ⟨t', ht', hk'⟩ := h₁.links ha hc t ht
      obtain ⟨t'', ht'', hk''⟩ := h₂.links (h₁.aligned ha) (hc.of_owners h₁.owners) t' ht'
      exact ⟨t'', ht'', hk'.trans hk''⟩
    · obtain ⟨C₁, hC₁, hm₁⟩ := h₁.made S C hm
      obtain ⟨C₂, hC₂, hm₂⟩ := h₂.made S C₁ hm₁
      exact ⟨C₂, fun cid h => hC₂ cid (hC₁ cid h), hm₂⟩

namespace Spares

/-- A step that keeps the frames' views and templates and every template, and keeps the made
views and containers closed. -/
theorem of_tviews (ho : c'.frames.map Frame.owner = c.frames.map Frame.owner)
    (ht : c'.registry.tviews = c.registry.tviews)
    (hm : ∀ S C, c.registry.Made R V0 S C →
      ∃ C' : ContainerId → Prop, (∀ cid, C cid → C' cid) ∧ c'.registry.Made R V0 S C') :
    Spares T R V0 c c' :=
  ⟨ho, fun ha i t h => ha i t (ht ▸ h),
    fun _ X t' h => ⟨t', (Registry.tview_eq_of_tviews ht X).symm.trans h, rfl⟩,
    fun _ _ t h => ⟨t, (Registry.tview_eq_of_tviews ht T).trans h, .refl none t⟩, hm⟩

/-- A step that keeps the frames' views and templates and every template, and narrows the views
and containers. -/
theorem of_narrows (ho : c'.frames.map Frame.owner = c.frames.map Frame.owner)
    (ht : c'.registry.tviews = c.registry.tviews) (hn : c.registry.Narrows c'.registry) :
    Spares T R V0 c c' :=
  of_tviews ho ht fun _ C hm => ⟨C, fun _ h => h, hm.narrow hn⟩

/-- Allocating a container that lists no view and declares a template of `R`, or none. -/
theorem allocateContainer {k : LContainer} (hviews : k.views = [])
    (hdecl : ∀ tv, k.tview = some tv → R tv) :
    Spares T R V0 c { c with registry := (c.registry.allocateContainer k).1 } :=
  of_tviews rfl (Registry.tviews_allocateContainer _) fun _ C hm =>
    ⟨C, fun _ h => h, hm.allocateContainer hviews hdecl⟩

/-- Writing back an edit of a template read from the registry, with its handle and program: a
template other than `T`, or one whose edit keeps the links of `T`, when the top frame is clear of
`T`. -/
theorem setTView {X : TViewId} {t t' : TView} (hread : c.registry.tview X = .ok t)
    (hdims : t'.dims = t.dims) (hlinks : c.Clear T → X ≠ T ∨ t.KeepsLinks none t') :
    Spares T R V0 c { c with registry := c.registry.setTView t' } := by
  refine ⟨rfl, fun ha => ha.setTView t', fun ha => Registry.programs_setTView ha hread hdims,
    fun ha hc u hu => ?_, fun S C hm => ⟨C, fun _ h => h, hm.narrow (.setTView t')⟩⟩
  rcases hlinks hc with hne | hk
  · have hid : t'.id = X := ha.id_of_dims hread hdims
    exact ⟨u, (Registry.tview_setTView_of_ne (hid ▸ hne)).trans hu, .refl none u⟩
  · exact (KeepsLinks.setTView (T := T) hread hk).links ha u hu

end Spares

end Context

namespace RenderM

variable {α : Type} {T : TViewId} {R : TViewId → Prop} {V0 : LViewId} {x : RenderM α} {c : Context}

/-- Every run of `x`, failing or not, spares template `T` and keeps the views and containers
made so far closed. -/
abbrev Spares (T : TViewId) (R : TViewId → Prop) (V0 : LViewId) (x : RenderM α) : Prop :=
  Keeps (Context.Spares T R V0) x

namespace Spares

/-- A step that stores nowhere. -/
theorem of_still (hs : Still x) : Spares T R V0 x := fun c => by
  obtain ⟨ht, hsl, hp, hv⟩ := hs c
  exact ⟨.of_narrows (Frame.owners_of_passes hp) ht (.of_sameViews hv hsl), fun _ _ _ => trivial⟩

/-- A change of the registry alone that keeps every template and narrows the views and
containers. -/
theorem modify_registry {g : Registry → Registry} (ht : ∀ r : Registry, (g r).tviews = r.tviews)
    (hn : ∀ r : Registry, r.Narrows (g r)) :
    Spares T R V0 (modify fun c => { c with registry := g c.registry } : RenderM PUnit) := fun c =>
  Within.modify (.of_narrows rfl (ht c.registry) (hn c.registry))

theorem modify {f : Context → Context} (hf : ∀ c, (f c).registry = c.registry)
    (ho : ∀ c, (f c).frames.map Frame.owner = c.frames.map Frame.owner) :
    Spares T R V0 (modify f) := fun c =>
  Within.modify (.of_narrows (ho c) (by rw [hf c]) (by rw [hf c]; exact .refl _))

/-- An edit of the top frame that keeps its view and template. -/
theorem modifyFrame {g : Frame → Frame} (hg : ∀ f, (g f).owner = f.owner) :
    Spares T R V0 (modifyFrame g) := by
  unfold RenderM.modifyFrame
  refine Keeps.get_bind fun c => ?_
  split
  · rename_i top rest hfr
    exact Within.modify (.of_narrows (by simp [hfr, hg]) rfl (.refl _))
  · exact Keeps.structural _ c

/-- Writing back an edit of a template read from the registry. -/
theorem setTView_edit {X : TViewId} {t t' : TView} (hread : c.registry.tview X = .ok t)
    (hdims : t'.dims = t.dims) (hlinks : c.Clear T → X ≠ T ∨ t.KeepsLinks none t') :
    Within (setTView t') c (Context.Spares T R V0) fun _ _ => True :=
  Within.modify (Context.Spares.setTView hread hdims hlinks)

/-- Writing back an edit of a live view with its template that stores no container. -/
theorem setLView_edit {y : LViewId} {v v' : LView} (hv : c.registry.lview y = .ok v)
    (ht : v'.tview = v.tview)
    (hs : ∀ j cid a, v'.slot j = .container cid a → v.slot j = .container cid a) :
    Within (setLView y v') c (Context.Spares T R V0) fun _ _ => True :=
  Within.modify (.of_narrows rfl rfl (.setLView hv ht hs))

/-- An edit of a live view that keeps its template and stores no container. -/
theorem modifyLView {y : LViewId} {g : LView → LView} (ht : ∀ v, (g v).tview = v.tview)
    (hs : ∀ v j cid a, (g v).slot j = .container cid a → v.slot j = .container cid a) :
    Spares T R V0 (modifyLView y g) := fun c =>
  Within.reads_bind (Reads.lview _) (refl c) fun v hv => setLView_edit hv (ht v) (hs v)

/-- An edit of a container that keeps its template and lists no new view. -/
theorem modifyContainer {cid : ContainerId} {g : LContainer → LContainer}
    (ht : ∀ k, (g k).tview = k.tview) (hs : ∀ k, ∀ z ∈ (g k).views, z ∈ k.views) :
    Spares T R V0 (modifyContainer cid g) := fun c => by
  refine Within.reads_bind (Reads.bind Reads.get fun _ hc => by subst hc; exact Reads.ofStructural _)
    (refl c) fun k hk => ?_
  exact Within.modify (.of_narrows rfl rfl (.setContainer hk (ht k) (hs k)))

/-- A step that stores nowhere ends with the templates it started with. -/
theorem within_still (hs : Still x) (c : Context) :
    Within x c (Context.Spares T R V0) fun _ c' => c'.registry.tviews = c.registry.tviews :=
  ⟨(of_still hs c).1, fun _ c' hrun => by
    have h := (hs c).1
    rw [hrun] at h
    exact h⟩

/-- Storing a container whose record lists no view and declares a template of `R`, or none, into
a slot of a view: the container counts as made. -/
theorem storeContainer {y : LViewId} {index : Nat} {cid : ContainerId} {a : NodeId}
    (hfresh : ∀ k, c.registry.container cid = .ok k →
      k.views = [] ∧ ∀ tv, k.tview = some tv → R tv) :
    Within (RenderM.modifyLView y (·.set index (.container cid a))) c (Context.Spares T R V0)
      fun _ _ => True :=
  Within.reads_bind (Reads.lview _) (refl c) fun _ hv => Within.modify
    (Context.Spares.of_tviews rfl rfl fun _ _ hm => ⟨_, fun _ h => .inl h, hm.setSlot hv hfresh⟩)

/-- Storing a node or a binding into a slot stores no container there. -/
theorem set_of_container? (v : LView) (index : Nat) {s : Slot} (hs : s.container? = none)
    (j : Nat) (cid : ContainerId) (a : NodeId) (h : (v.set index s).slot j = .container cid a) :
    v.slot j = .container cid a := by
  by_cases hj : j = index
  · subst hj
    rw [LView.slot_set_self] at h
    rw [h] at hs
    cases hs
  · rwa [LView.slot_set_of_ne hj] at h

/-! ### View teardown -/

theorem releaseViewTree (fuel : Nat) (view : LViewId) : Spares T R V0 (releaseViewTree fuel view) := by
  induction fuel generalizing view with
  | zero => exact Keeps.pure _
  | succ fuel ih =>
    unfold RenderM.releaseViewTree
    refine Keeps.bind (Keeps.lview _) fun v => ?_
    -- releasing containers and views only narrows them
    refine Keeps.bind (Keeps.forIn (fun cid _ => ?_) _ _) fun _ => ?_
    · refine Keeps.bind (Keeps.container _) fun r => ?_
      refine Keeps.bind (Keeps.forIn (fun child _ => ?_) _ _) fun _ => ?_
      · exact Keeps.bind (ih child) fun _ => Keeps.pure _
      · refine Keeps.bind (modify_registry (fun r => ?_) fun r => .releaseContainer _) fun _ =>
          Keeps.pure _
        unfold Registry.releaseContainer
        split <;> rfl
    · refine Keeps.bind (modify (fun _ => rfl) fun _ => rfl) fun _ =>
        Keeps.bind (modify (fun _ => rfl) fun _ => rfl) fun _ =>
          modify_registry (fun r => ?_) fun r => .releaseLView _
      unfold Registry.releaseLView
      split <;> rfl

theorem destroyView (view : LViewId) : Spares T R V0 (destroyView view) :=
  Keeps.bind Keeps.get fun _ => Keeps.bind (Keeps.ofStructural _) fun _ =>
    Keeps.bind (of_still (Still.modifyDoc _)) fun _ => Keeps.bind Keeps.get fun _ =>
      releaseViewTree _ _

theorem removeEmbeddedView (cid : ContainerId) (position : Nat) :
    Spares T R V0 (removeEmbeddedView cid position) := by
  unfold RenderM.removeEmbeddedView
  refine Keeps.bind (Keeps.container _) fun r => ?_
  split
  · exact Keeps.structural _
  · exact Keeps.bind (modifyContainer (fun _ => rfl) fun _ _ hz => List.mem_of_mem_eraseIdx hz)
      fun _ => destroyView _

theorem clearContainer (cid : ContainerId) : Spares T R V0 (clearContainer cid) := by
  unfold RenderM.clearContainer
  refine Keeps.bind (Keeps.container _) fun r =>
    Keeps.bind (Keeps.forIn (fun _ _ => ?_) _ _) fun _ => Keeps.pure _
  refine Keeps.bind (Keeps.container _) fun _ => ?_
  exact Keeps.ite (Keeps.bind (removeEmbeddedView _ _) fun _ => Keeps.pure _) (Keeps.pure _)

/-! ### Template nodes and slots -/

/-- A template node is registered in the template of the top frame, and only on its first
pass. -/
theorem resolveTNode (index : Nat) (spec : NodeSpec) : Spares T R V0 (resolveTNode index spec) := by
  intro c
  unfold RenderM.resolveTNode
  refine Within.reads_bind Reads.frame (refl c) fun f hf => ?_
  obtain ⟨rest, hfr⟩ := hf
  refine Within.reads_bind (Reads.tview _) (refl c) fun t ht => ?_
  refine Within.ite (fun _ => ?_) fun _ => ?_
  · exact Keeps.bind (Keeps.ofStructural _) (fun _ => Keeps.ite (Keeps.structural _) (Keeps.pure _)) c
  · refine Within.reads_bind (Reads.ofStructural _) (refl c) fun _ _ => ?_
    refine Within.reads_bind (Reads.ofStructural _) (refl c) fun _ _ => ?_
    refine Within.reads_bind Reads.get (refl c) fun c' hc' => ?_
    subst c'
    refine Within.reads_bind (Reads.ofStructural _) (refl c) fun t' hreg => ?_
    exact setTView_edit ht (TView.dims_registerTNode hreg) fun hc => .inl (hc.ne hfr)

theorem storeNode (view : LViewId) (index : Nat) (node : NodeId) (created : Bool) :
    Spares T R V0 (storeNode view index node created) :=
  Keeps.bind (modifyLView (fun _ => rfl) fun v => set_of_container? v index rfl) fun _ =>
    Keeps.ite (of_still (Still.insertCreated _ _ _)) (Keeps.pure _)

theorem nextBindingIndex : Spares T R V0 nextBindingIndex :=
  Keeps.bind Keeps.frame fun _ => Keeps.bind (modifyFrame fun _ => rfl) fun _ => Keeps.pure _

theorem bindingUpdated (value : String) : Spares T R V0 (bindingUpdated value) := by
  unfold RenderM.bindingUpdated
  refine Keeps.bind nextBindingIndex fun index => Keeps.bind Keeps.active fun p => ?_
  obtain ⟨view, _⟩ := p
  intro c
  refine Within.reads_bind (Reads.lview _) (refl c) fun v hv => ?_
  extract_lets -underBinder store
  have hstore : ∀ r, Within (store r) c (Context.Spares T R V0) fun _ _ => True := fun _ =>
    Within.bind (setLView_edit hv rfl (set_of_container? v index rfl)) fun _ c₁ _ _ =>
      Keeps.pure _ c₁
  clear_value store
  split
  · exact Within.ite (fun _ => Keeps.pure _ c) fun _ => hstore ()
  · exact hstore ()

theorem textInterpolate (index : Nat) (value : String) :
    Spares T R V0 (textInterpolate index value) := by
  unfold RenderM.textInterpolate
  refine Keeps.bind (bindingUpdated _) fun changed => Keeps.ite ?_ (Keeps.pure _)
  refine Keeps.bind Keeps.active fun p => ?_
  obtain ⟨view, _⟩ := p
  refine Keeps.bind (Keeps.lview _) fun v => ?_
  split
  · exact of_still (Still.modifyDoc _)
  · exact Keeps.hydration _

theorem elementStart (index : Nat) (tag : String) (attrs refs : Option Nat) :
    Spares T R V0 (elementStart index tag attrs refs) := by
  unfold RenderM.elementStart
  refine Keeps.bind Keeps.active fun p => ?_
  obtain ⟨view, tv⟩ := p
  refine Keeps.bind (Keeps.checkCreationSlot _) fun _ => Keeps.bind (resolveTNode _ _) fun _ => ?_
  refine Keeps.bind (of_still (Still.materialize _ _)) fun p => ?_
  obtain ⟨node, created⟩ := p
  refine Keeps.bind (Keeps.tview _) fun _ => Keeps.bind (Keeps.ofStructural _) fun n => ?_
  extract_lets -underBinder store
  have hstore : ∀ r, Spares T R V0 (store r) := by
    intro _
    dsimp -zeta only [store]
    exact Keeps.bind (storeNode _ _ _ _) fun _ => Keeps.bind (of_still (Still.openNode _ _))
      fun _ => of_still (Still.runDirectives _ _ _ _ _)
  clear_value store
  exact Keeps.ite (Keeps.bind (of_still (Still.modifyDoc _)) hstore) (hstore ())

theorem elementContainerStart (index : Nat) (attrs refs : Option Nat) :
    Spares T R V0 (elementContainerStart index attrs refs) := by
  unfold RenderM.elementContainerStart
  refine Keeps.bind Keeps.active fun p => ?_
  obtain ⟨view, tv⟩ := p
  refine Keeps.bind (Keeps.checkCreationSlot _) fun _ => Keeps.bind (resolveTNode _ _) fun _ => ?_
  refine Keeps.bind (of_still (Still.materialize _ _)) fun p => ?_
  obtain ⟨node, created⟩ := p
  exact Keeps.bind (storeNode _ _ _ _) fun _ => Keeps.bind (Keeps.tview _) fun _ =>
    Keeps.bind (Keeps.ofStructural _) fun _ => Keeps.bind (of_still (Still.openNode _ _))
      fun _ => of_still (Still.runDirectives _ _ _ _ _)

theorem text (index : Nat) (value : Option String) : Spares T R V0 (text index value) := by
  unfold RenderM.text
  refine Keeps.bind Keeps.active fun p => ?_
  obtain ⟨view, _⟩ := p
  refine Keeps.bind (Keeps.checkCreationSlot _) fun _ => Keeps.bind (resolveTNode _ _) fun _ => ?_
  refine Keeps.bind (of_still (Still.materialize _ _)) fun p => ?_
  obtain ⟨node, created⟩ := p
  exact Keeps.bind (storeNode _ _ _ _) fun _ => of_still (Still.setCurrent _ _)

/-- Declaring a template in the view of the top frame: the new container lists no view and
declares `tv`, a template of `R`. -/
theorem template (index : Nat) {tv : TViewId} (htv : R tv) (attrs refs : Option Nat) :
    Spares T R V0 (template index tv attrs refs) := by
  unfold RenderM.template
  refine Keeps.bind Keeps.active fun p => ?_
  obtain ⟨view, declaring⟩ := p
  refine Keeps.bind (Keeps.checkCreationSlot _) fun _ =>
    Keeps.bind (Keeps.discard (Keeps.tview _)) fun _ => ?_
  refine Keeps.bind (resolveTNode _ _) fun _ =>
    Keeps.bind (of_still (Still.materialize _ _)) fun p => ?_
  obtain ⟨anchor, created⟩ := p
  dsimp -zeta only
  extract_lets -underBinder register
  have hregister : ∀ r, Spares T R V0 (register r) := by
    intro _
    dsimp -zeta only [register]
    refine Keeps.get_bind fun c => ?_
    refine Within.bind (Within.set_with (.allocateContainer rfl fun _ h => Option.some.inj h ▸ htv))
      fun _ c₁ _ hc₁ => ?_
    subst hc₁
    refine Within.bind (storeContainer fun k hk => ?_) fun _ c₂ _ _ => ?_
    · obtain rfl := Registry.eq_of_container_allocateContainer hk
      exact ⟨rfl, fun _ h => Option.some.inj h ▸ htv⟩
    · exact Keeps.bind (of_still (Still.setCurrent _ _)) (fun _ => Keeps.bind (Keeps.tview _)
        fun _ => Keeps.bind (Keeps.ofStructural _) fun _ =>
          Keeps.bind (of_still (Still.runDirectives _ _ _ _ _)) fun _ => Keeps.pure _) c₂
  clear_value register
  exact Keeps.ite (Keeps.bind (of_still (Still.insertCreated _ _ _)) hregister) (hregister ())

/-- Making an `<ng-container>` a container anchor sets a flag on a template node, and declares a
container that lists no view and no template. -/
theorem createContainerRefIn (view : LViewId) (index : Nat) :
    Spares T R V0 (createContainerRefIn view index) := by
  intro c
  unfold RenderM.createContainerRefIn
  refine Within.reads_bind (Reads.viewPair _) (refl c) fun p hp => ?_
  obtain ⟨t, v⟩ := p
  have ht : c.registry.tview v.tview = .ok t := (Registry.viewPair_eq_ok.mp hp).2
  dsimp -zeta only
  extract_lets anchor
  have hanchor : ∀ a, Within (anchor a) c (Context.Spares T R V0) fun _ _ => True := by
    intro a
    dsimp -zeta only [anchor]
    split
    · extract_lets register check
      have hregister : ∀ r, Spares T R V0 (register r) := by
        intro _
        dsimp -zeta only [register]
        refine Keeps.get_bind fun c₁ => ?_
        refine Within.bind (Within.set_with (.allocateContainer rfl fun _ h => by cases h))
          fun _ c₂ _ hc₂ => ?_
        subst hc₂
        refine Within.bind (storeContainer fun k hk => ?_) fun _ c₃ _ _ => Keeps.pure _ c₃
        obtain rfl := Registry.eq_of_container_allocateContainer hk
        exact ⟨rfl, fun _ h => by cases h⟩
      have hcheck : ∀ r, Within (check r) c (Context.Spares T R V0) fun _ _ => True := by
        intro _
        dsimp -zeta only [check]
        refine Within.ite (fun _ => ?_) fun _ => hregister () c
        refine Within.bind (setTView_edit ht (TView.dims_modifyTNode _ _) fun _ => .inr ?_)
          fun r c₁ _ _ => hregister r c₁
        apply TView.keepsLinks_modifyTNode
        exact fun _ => ⟨rfl, rfl⟩
      clear_value check register
      exact Within.ite (fun _ => Within.reads_bind (Reads.structural _ : Reads _ c fun _ => True)
        (refl c) fun _ _ => hcheck _) fun _ => hcheck ()
    · exact Keeps.structural _ c
  clear_value anchor
  split
  · exact Keeps.pure _ c
  · exact Within.reads_bind (Reads.pure trivial : Reads _ c fun _ => True) (refl c)
      fun _ _ => hanchor _
  · exact Within.reads_bind (Reads.structural _ : Reads _ c fun _ => True) (refl c)
      fun _ _ => hanchor _

/-! ### Translated blocks

A translated block writes the template of the top frame, which every step before the write keeps
on top. -/

/-- Compiling a translated block writes the template `tv` back with its handle and program. -/
theorem compileBlock (tv : TViewId) (messageIndex : Nat) (sub root : Option Nat)
    (htop : c.Clear T → tv ≠ T) :
    Within (compileBlock tv messageIndex sub root) c (Context.Spares T R V0) fun _ _ => True := by
  unfold RenderM.compileBlock
  refine Within.reads_bind (Reads.tview _) (refl c) fun t ht => ?_
  refine Within.reads_bind (Reads.ofStructural _) (refl c) fun x _ => ?_
  extract_lets -underBinder translate
  have htranslate : ∀ message,
      Within (translate message) c (Context.Spares T R V0) fun _ _ => True := by
    intro _
    dsimp -zeta only [translate]
    refine Within.reads_bind (Reads.ofI18n _) (refl c) fun message _ => ?_
    refine Within.reads_bind (Reads.ofI18n _) (refl c) fun parts _ => ?_
    refine Within.reads_bind (Reads.ofI18n _) (refl c) fun planned _ => ?_
    -- the template built by the fold has the handle and program of the one read
    have hwrite : ∀ acc : TView × I18nBlock, acc.1.dims = t.dims →
        Within (setTView acc.1 >>= fun _ => pure acc.2) c (Context.Spares T R V0)
          fun _ _ => True := fun acc hacc =>
      Within.bind (setTView_edit ht hacc fun hc => .inl (htop hc)) fun _ c₁ _ _ => Keeps.pure _ c₁
    apply hwrite
    refine List.foldlRecOn (motive := fun acc : TView × I18nBlock => acc.1.dims = t.dims)
      _ _ rfl ?_
    intro acc hacc node _
    obtain ⟨t₁, b₁⟩ := acc
    cases node with
    | text parent parts => exact (TView.dims_setData _ _).trans hacc
    | element index parent => exact hacc
    | template index parent => exact hacc
  clear_value translate
  split
  · exact Within.reads_bind (Reads.pure trivial : Reads _ c fun _ => True) (refl c)
      fun _ _ => htranslate _
  · exact Within.reads_bind ((Reads.ofI18n _).mono fun _ _ => trivial) (refl c)
      fun _ _ => htranslate _
  · exact Within.reads_bind (Reads.structural _ : Reads _ c fun _ => True) (refl c)
      fun _ _ => htranslate _

/-- The top frame keeps its template along steps that spare `T`. -/
theorem top_ne {f : Frame} {rest : List Frame} (hfr : c.frames = f :: rest) {c₁ : Context}
    (h₁ : Context.Spares T R V0 c c₁) (hc : c₁.Clear T) : f.tview ≠ T :=
  (hc.of_owners h₁.owners.symm).ne hfr

theorem i18nStart (index messageIndex : Nat) (sub : Option Nat) :
    Spares T R V0 (i18nStart index messageIndex sub) := by
  intro c
  unfold RenderM.i18nStart
  refine Within.reads_bind Reads.active (refl c) fun p hp => ?_
  obtain ⟨f, rest, hfr, rfl⟩ := hp
  refine Within.bind (Keeps.checkCreationSlot _ c) fun _ c₁ h₁ _ => ?_
  refine Within.bind (Keeps.frame c₁) fun g c₂ h₂ _ => ?_
  extract_lets -underBinder check
  have hcheck : ∀ r c₃, Context.Spares T R V0 c c₃ →
      Within (check r) c₃ (Context.Spares T R V0) fun _ _ => True := by
    intro _ c₃ h₃
    dsimp -zeta only [check]
    refine Within.reads_bind (Reads.tview _) (refl c₃) fun t _ => ?_
    extract_lets -underBinder root compiled enter
    -- the block's text nodes are materialised, then the frame opens the block
    have henter : ∀ r, Spares T R V0 (enter r) := by
      intro _
      dsimp -zeta only [enter]
      refine Keeps.bind (Keeps.tview _) fun t => Keeps.bind (Keeps.blockAt _ _) fun block => ?_
      refine Keeps.bind (Keeps.foldlM (fun located q => ?_) _ _) fun _ => modifyFrame fun _ => rfl
      obtain ⟨slot, value⟩ := q
      refine Keeps.bind (of_still (Still.materialize _ _)) fun r => ?_
      obtain ⟨node, created⟩ := r
      exact Keeps.bind (modifyLView (fun _ => rfl) fun v => set_of_container? v slot rfl)
        fun _ => Keeps.pure _
    clear_value enter
    refine Within.ite (fun _ => ?_) fun _ => henter () c₃
    refine Within.bind (compileBlock _ _ _ _ (top_ne hfr h₃)) fun block c₄ h₄ _ => ?_
    refine Within.reads_bind (Reads.tview _) (refl c₄) fun t' ht' => ?_
    refine Within.bind (setTView_edit ht' (TView.dims_setData _ _) fun hc => .inl ?_)
      fun r c₅ _ _ => henter r c₅
    exact top_ne hfr (IsTrans.trans _ _ _ h₃ h₄) hc
  clear_value check
  have h₁₂ := IsTrans.trans _ _ _ h₁ h₂
  exact Within.ite (fun _ => Within.bind (Keeps.structural _ c₂) fun r c₃ h₃ _ =>
    hcheck r c₃ (IsTrans.trans _ _ _ h₁₂ h₃)) fun _ => hcheck () c₂ h₁₂

theorem i18nEnd : Spares T R V0 i18nEnd := by
  intro c
  unfold RenderM.i18nEnd
  refine Within.reads_bind Reads.active (refl c) fun p hp => ?_
  obtain ⟨f, rest, hfr, rfl⟩ := hp
  refine Within.bind (Keeps.frame c) fun g c₁ h₁ _ => ?_
  split
  · rename_i bf _
    refine Within.bind (modifyFrame (fun _ => by rfl) c₁) fun _ c₂ h₂ _ => ?_
    refine Within.reads_bind (Reads.tview _) (refl c₂) fun t ht => ?_
    refine Within.reads_bind (KeepsTemplate.reads_blockAt _ _ c₂) (refl c₂) fun block _ => ?_
    extract_lets -underBinder place
    -- detached elements leave the document and unclaimed nodes go to their places
    have hplace : ∀ r, Spares T R V0 (place r) := by
      intro _
      dsimp -zeta only [place]
      refine Keeps.bind (Keeps.viewPair _) fun p => ?_
      obtain ⟨t', v⟩ := p
      dsimp -zeta only
      refine Keeps.bind (Keeps.forIn (fun e _ => ?_) _ _) fun _ =>
        Keeps.bind (Keeps.forIn (fun node _ => ?_) _ _) fun _ => Keeps.pure _
      · refine Keeps.ite ?_ (Keeps.pure _)
        split
        · exact Keeps.bind (of_still (Still.modifyDoc _)) fun _ => Keeps.pure _
        · exact Keeps.pure _
      · split
        · refine Keeps.bind Keeps.get fun _ => Keeps.ite ?_ (Keeps.pure _)
          refine Keeps.bind Keeps.get fun _ => Keeps.bind (Keeps.ofStructural _) fun q => ?_
          obtain ⟨parent, before⟩ := q
          exact Keeps.bind (of_still (Still.modifyDoc _)) fun _ => Keeps.pure _
        · exact Keeps.pure _
    clear_value place
    refine Within.ite (fun _ => ?_) fun _ => hplace () c₂
    have hdims : (t.markUnmentioned block bf.elements).dims = t.dims :=
      TView.markUnmentioned_preserves (P := fun t' => t'.dims = t.dims)
        (fun _ _ _ h => (TView.dims_modifyTNode _ _).trans h) _ _ rfl
    refine Within.bind (setTView_edit ht hdims fun hc => .inl ?_) fun r c₃ _ _ => hplace r c₃
    exact top_ne hfr (IsTrans.trans _ _ _ h₁ h₂) hc
  · exact Keeps.structural _ c₁

theorem i18nAttributes (index attrsIndex : Nat) :
    Spares T R V0 (i18nAttributes index attrsIndex) := by
  intro c
  unfold RenderM.i18nAttributes
  refine Within.reads_bind Reads.active (refl c) fun p hp => ?_
  obtain ⟨f, rest, hfr, rfl⟩ := hp
  refine Within.bind (Keeps.checkCreationSlot _ c) fun _ c₁ h₁ _ => ?_
  refine Within.bind (Keeps.frame c₁) fun g c₂ h₂ _ => ?_
  split
  · refine Within.reads_bind (Reads.tview _) (refl c₂) fun t ht => ?_
    extract_lets -underBinder apply
    have happly : ∀ r, Spares T R V0 (apply r) := by
      intro _
      dsimp -zeta only [apply]
      refine Keeps.bind (Keeps.viewPair _) fun p => ?_
      obtain ⟨t', w⟩ := p
      dsimp -zeta only
      split
      · split
        · exact of_still (Still.modifyDoc _)
        · exact Keeps.hydration _
      · exact Keeps.structural _
    clear_value apply
    refine Within.ite (fun _ => ?_) fun _ => happly () c₂
    refine Within.reads_bind (Reads.ofStructural _) (refl c₂) fun x _ => ?_
    extract_lets -underBinder compile
    -- the list is compiled without a store, then written into the slot of the template read
    have hcompile : ∀ pairs,
        Within (compile pairs) c₂ (Context.Spares T R V0) fun _ _ => True := by
      intro pairs
      dsimp -zeta only [compile]
      refine Within.bind (within_still ?_ c₂) fun compiled c₃ h₃ htv => ?_
      · refine Still.foldlM (fun acc a => ?_) _ _
        obtain ⟨name, message⟩ := a
        exact Still.bind (Still.ofI18n _) fun parts => by split <;> exact Still.pure _
      · have ht₃ : c₃.registry.tview f.tview = .ok t := by
          simp only [Registry.tview, htv] at ht ⊢
          exact ht
        refine Within.bind (setTView_edit ht₃ (TView.dims_setData _ _) fun hc => .inl ?_)
          fun r c₄ _ _ => happly r c₄
        exact top_ne hfr (IsTrans.trans _ _ _ (IsTrans.trans _ _ _ h₁ h₂) h₃) hc
    clear_value compile
    split
    · exact Within.reads_bind (Reads.pure trivial : Reads _ c₂ fun _ => True) (refl c₂)
        fun _ _ => hcompile _
    · exact Within.reads_bind (Reads.structural _ : Reads _ c₂ fun _ => True) (refl c₂)
        fun _ _ => hcompile _
  · exact Keeps.structural _ c₂

theorem i18nExp (value : String) : Spares T R V0 (i18nExp value) :=
  Keeps.bind (bindingUpdated _) fun _ => modifyFrame fun _ => rfl

/-- Every instruction that runs no pass spares `T`, provided the templates it declares are in
`R`. -/
theorem simpleInstr (scope : Scope) {i : Instr} (hspawn : ∀ tv ∈ i.spawns, R tv) :
    Spares T R V0 (simpleInstr scope i) := by
  cases i with
  | elementStart index tag attrs refs => exact elementStart _ _ _ _
  | element index tag attrs refs =>
    exact Keeps.bind (elementStart _ _ _ _) fun _ => of_still (Still.discard (Still.closeNode _ _))
  | elementEnd => exact of_still (Still.discard (Still.closeNode _ _))
  | elementContainerStart index attrs refs => exact elementContainerStart _ _ _
  | elementContainer index attrs refs =>
    exact Keeps.bind (elementContainerStart _ _ _) fun _ =>
      of_still (Still.discard (Still.closeNode _ _))
  | elementContainerEnd => exact of_still (Still.discard (Still.closeNode _ _))
  | text index value => exact text _ _
  | textInterpolate index value => exact textInterpolate _ _
  | template index tv attrs refs =>
    exact Keeps.bind (template _ (hspawn tv (List.mem_singleton_self tv)) _ _) fun _ =>
      of_still (Still.emit _)
  | removeEmbeddedView slot position =>
    exact Keeps.bind (Keeps.containerAt _) fun _ => removeEmbeddedView _ _
  | clearContainer slot => exact Keeps.bind (Keeps.containerAt _) fun _ => clearContainer _
  | containerLength slot =>
    exact of_still (Still.bind (Still.containerAt _) fun _ =>
      Still.bind (Still.container _) fun _ => Still.emit _)
  | createContainerRef index =>
    exact Keeps.bind Keeps.active fun _ =>
      Keeps.bind (createContainerRefIn _ _) fun _ => of_still (Still.emit _)
  | i18nStart index message sub => exact i18nStart _ _ _
  | i18n index message sub => exact Keeps.bind (i18nStart _ _ _) fun _ => i18nEnd
  | i18nEnd => exact i18nEnd
  | i18nAttributes index attrs => exact i18nAttributes _ _
  | i18nExp value => exact i18nExp _
  | i18nApply index => exact of_still (Still.i18nApply _)
  | localRef name => exact of_still (Still.bind (Still.localRef _) fun _ => Still.emit _)
  | removeLocalRef name =>
    refine of_still (Still.bind (Still.localRef _) fun n => ?_)
    split
    · exact Still.modifyDoc _
    · exact Still.pure _
  | removeSlotNode index =>
    refine of_still (Still.bind Still.active fun p => Still.bind (Still.lview _) fun w => ?_)
    split
    · exact Still.modifyDoc _
    · exact Still.pure _
  | probe => exact of_still (Still.bind Still.frame fun _ => Still.bind Still.get fun _ => Still.emit _)
  | createEmbeddedView slot position tmpl => exact Keeps.pure _
  | cond var thenBranch elseBranch => exact Keeps.pure _
  | loop count var body => exact Keeps.pure _

end Spares

end RenderM

end ViewHydration
