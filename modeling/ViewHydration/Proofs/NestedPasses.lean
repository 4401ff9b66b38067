import Mathlib.Data.List.InsertIdx
import ViewHydration.Proofs.SparingSteps
import ViewHydration.Proofs.PassMoves

/-!
# Passes nested in a first creation pass

The first creation pass of a template `T` may create embedded views, and each of them runs passes
of its own: the creation and update passes of the new view, then the update passes of the views
its containers list, however deep they nest. None of them edits the links of `T`, provided no
nested pass renders `T` itself. Every template a nested pass renders is spawned, directly or
through others, by `T`: it lies in a set `R` closed under spawning (`Registry.Closed`), and `T` is
not in `R`.

`Registry.Apart` is what the nested passes keep: an aligned registry closed under spawning, the
links of `T`, and the views and containers the nested passes made (`Registry.Made`). Through the
made views and containers a nested pass knows that every view it refreshes and every view it
creates renders a template of `R`. The mutual theorem `createViewWith_apart` carries `Apart`
through passes however deep they nest; `runIssued_threads` then runs the first creation pass of
`T` itself, which follows the abstract machine `Threads` whatever embedded views it creates.
-/

namespace ViewHydration

namespace Registry

variable {T : TViewId} {R : TViewId → Prop} {V0 : LViewId} {t₀ : TView}
  {S : LViewId → Prop} {C : ContainerId → Prop} {r r' : Registry}

/-- What the passes nested in the first creation pass of `T` keep: the registry is aligned and
closed under spawning, `T` has at least the links of `t₀`, and the views `S` and containers `C`
are made. -/
structure Apart (T : TViewId) (R : TViewId → Prop) (V0 : LViewId) (t₀ : TView)
    (S : LViewId → Prop) (C : ContainerId → Prop) (r : Registry) : Prop where
  aligned : r.Aligned
  closed : r.Closed T R
  links : ∃ t, r.tview T = .ok t ∧ t₀.KeepsLinks none t
  made : r.Made R V0 S C

/-- The registry is apart with the made views `S` and containers `C`, or more. -/
def ApartFrom (T : TViewId) (R : TViewId → Prop) (V0 : LViewId) (t₀ : TView)
    (S : LViewId → Prop) (C : ContainerId → Prop) (r : Registry) : Prop :=
  ∃ S' C', (∀ y, S y → S' y) ∧ (∀ cid, C cid → C' cid) ∧ r.Apart T R V0 t₀ S' C'

theorem Apart.apartFrom (h : r.Apart T R V0 t₀ S C) : r.ApartFrom T R V0 t₀ S C :=
  ⟨S, C, fun _ h => h, fun _ h => h, h⟩

theorem ApartFrom.mono {S' : LViewId → Prop} {C' : ContainerId → Prop}
    (h : r.ApartFrom T R V0 t₀ S' C') (hS : ∀ y, S y → S' y) (hC : ∀ cid, C cid → C' cid) :
    r.ApartFrom T R V0 t₀ S C := by
  obtain ⟨S'', C'', hS', hC', h'⟩ := h
  exact ⟨S'', C'', fun y hy => hS' y (hS y hy), fun cid hc => hC' cid (hC cid hc), h'⟩

namespace Apart

/-- A change that keeps every template, with the made views and containers of the new
registry. -/
theorem of_tviews {S' : LViewId → Prop} {C' : ContainerId → Prop} (h : r.Apart T R V0 t₀ S C)
    (ht : r'.tviews = r.tviews) (hm : r'.Made R V0 S' C') : r'.Apart T R V0 t₀ S' C' := by
  obtain ⟨t, hT, hk⟩ := h.links
  exact ⟨fun i t h' => h.aligned i t (ht ▸ h'),
    h.closed.of_programs fun X t' h' => ⟨t', (tview_eq_of_tviews ht X).symm.trans h', rfl⟩,
    ⟨t, (tview_eq_of_tviews ht T).trans hT, hk⟩, hm⟩

/-- Writing back an edit of a template other than `T`, with its handle and program. -/
theorem setTView {X : TViewId} {t t' : TView} (h : r.Apart T R V0 t₀ S C)
    (hread : r.tview X = .ok t) (hdims : t'.dims = t.dims) (hX : X ≠ T) :
    (r.setTView t').Apart T R V0 t₀ S C := by
  have hid : t'.id = X := h.aligned.id_of_dims hread hdims
  obtain ⟨u, hu, hk⟩ := h.links
  exact ⟨h.aligned.setTView t', h.closed.of_programs (programs_setTView h.aligned hread hdims),
    ⟨u, (tview_setTView_of_ne (hid ▸ hX)).trans hu, hk⟩, h.made.narrow (.setTView t')⟩

/-- A step that spares `T` while the top frame renders another template. -/
theorem spares {c c' : Context} (h : c.registry.Apart T R V0 t₀ S C) (hc : c.Clear T)
    (hs : Context.Spares T R V0 c c') : c'.registry.ApartFrom T R V0 t₀ S C := by
  obtain ⟨t, hT, hk⟩ := h.links
  obtain ⟨t', hT', hk'⟩ := hs.links h.aligned hc t hT
  obtain ⟨C', hC', hm⟩ := hs.made S C h.made
  exact ⟨S, C', fun _ h => h, hC', hs.aligned h.aligned,
    h.closed.of_programs (hs.programs h.aligned), ⟨t', hT', hk.trans hk'⟩, hm⟩

end Apart

end Registry

namespace Context

variable {T : TViewId} {c : Context} {y : LViewId} {X : TViewId} {os : List (LViewId × TViewId)}

/-- A top frame that renders a template other than `T` is clear of it. -/
theorem Clear.of_top (htop : c.frames.map Frame.owner = (y, X) :: os) (hX : X ≠ T) : c.Clear T := by
  cases hc : c.frames with
  | nil =>
    rw [hc] at htop
    cases htop
  | cons f rest =>
    rw [hc, List.map_cons, List.cons.injEq] at htop
    have hX' : f.tview = X := congrArg Prod.snd htop.1
    exact ⟨f, rest, hc, fun he => hX (hX'.symm.trans he)⟩

theorem lview_of_top {f : Frame} {rest : List Frame}
    (htop : c.frames.map Frame.owner = (y, X) :: os) (hfr : c.frames = f :: rest) : f.lview = y := by
  rw [hfr, List.map_cons, List.cons.injEq] at htop
  exact congrArg Prod.fst htop.1

variable {R : TViewId → Prop} {V0 : LViewId}

/-- The first creation pass of `T` over view `V0`, between two of its instructions: the top frame
renders `V0`, the registry is closed under spawning, and some views and containers are made. -/
structure Outer (T : TViewId) (R : TViewId → Prop) (V0 : LViewId) (c : Context) : Prop where
  top : ∃ f rest, c.frames = f :: rest ∧ f.lview = V0
  closed : c.registry.Closed T R
  made : ∃ S C, c.registry.Made R V0 S C

/-- A step that spares `T` keeps the pass over `V0`, closed under spawning. -/
theorem Outer.spares {c' : Context} (h : c.Outer T R V0) (ha : c.registry.Aligned)
    (hs : c.Spares T R V0 c') : c'.Outer T R V0 := by
  obtain ⟨f, rest, hfr, hV0⟩ := h.top
  obtain ⟨S, C, hm⟩ := h.made
  obtain ⟨C', -, hm'⟩ := hs.made S C hm
  refine ⟨?_, h.closed.of_programs (hs.programs ha), S, C', hm'⟩
  have ho := hs.owners
  rw [hfr] at ho
  cases hc' : c'.frames with
  | nil =>
    rw [hc'] at ho
    cases ho
  | cons f' rest' =>
    rw [hc', List.map_cons, List.map_cons, List.cons.injEq] at ho
    exact ⟨f', rest', rfl, (congrArg Prod.fst ho.1).trans hV0⟩

end Context

namespace RenderM

open Registry

variable {T : TViewId} {R : TViewId → Prop} {V0 : LViewId} {t₀ : TView}
  {S : LViewId → Prop} {C : ContainerId → Prop} {c : Context}

/-- The container at a slot of the top frame's view is the one that slot holds. -/
theorem Reads.containerAt (index : Nat) :
    Reads (containerAt index) c fun cid => ∃ f rest w a, c.frames = f :: rest ∧
      c.registry.lview f.lview = .ok w ∧ w.slot index = .container cid a := by
  unfold RenderM.containerAt RenderM.containerIn
  refine Reads.bind Reads.active fun p hp => ?_
  obtain ⟨f, rest, hfr, rfl⟩ := hp
  refine Reads.bind (Reads.lview _) fun w hw => ?_
  cases hs : w.slot index with
  | container cid a => exact Reads.pure ⟨f, rest, w, a, hfr, hw, hs⟩
  | _ => exact Reads.structural _

/-- Leaving a view pops a frame and keeps the registry. -/
theorem Ends.leaveView : Ends leaveView c fun _ c' => c'.registry = c.registry := by
  unfold RenderM.leaveView
  refine Ends.reads_bind Reads.get fun c' hc => ?_
  subst c'
  split
  · exact Ends.structural _
  · refine Ends.bind (P := fun _ c' => c'.registry = c.registry) ?_ fun _ c₁ h₁ =>
      Ends.ite (fun _ => Ends.structural _) fun _ => Ends.pure h₁
    intro _ c' hrun
    rw [run_modify] at hrun
    cases hrun
    rfl

/-- Inserting into a container views it listed already or made ones. -/
theorem modifyContainer_apart {cid : ContainerId} {g : LContainer → LContainer}
    (ht : ∀ k, (g k).tview = k.tview) (hviews : ∀ k, ∀ z ∈ (g k).views, z ∈ k.views ∨ S z)
    (h : c.registry.Apart T R V0 t₀ S C) :
    Ends (modifyContainer cid g) c fun _ c' => c'.registry.Apart T R V0 t₀ S C := by
  refine Ends.reads_bind (Reads.container _) fun k hk => ?_
  exact Ends.of_ok (Ok.modify (h.of_tviews rfl (h.made.setContainer hk (ht k) (hviews k))))

/-- Creating an embedded view from a frame over a made view, or over `V0`: the template is the
one the instruction names, which the pass spawns, or the one the container at the slot declares,
which is made. Either way it is in `R`. -/
theorem createEmbeddedView_ends {fuel : Nat} {scope : Scope} {slot position : CountArg}
    {tmpl : Option TViewId} {Q : Unit → Context → Prop} (hmade : c.registry.Made R V0 S C)
    (htop : ∀ f rest, c.frames = f :: rest → S f.lview ∨ f.lview = V0)
    (hspawn : ∀ tv ∈ tmpl.toList, R tv) (hdepth : Ends (emit .depthLimit) c Q)
    (hcreate : ∀ cid tv, R tv →
      Ends (createViewWith fuel scope cid tv (scope.count position) >>= fun v => emit (.view v))
        c Q) :
    Ends (runInstr fuel scope (.createEmbeddedView slot position tmpl)) c Q := by
  rw [runInstr]
  refine Ends.reads_bind Reads.get fun c' hc' => ?_
  subst c'
  refine Ends.ite (fun _ => hdepth) fun _ => ?_
  refine Ends.reads_bind (Reads.containerAt _) fun cid hcid => ?_
  obtain ⟨f, rest, w, a, hfr, hw, hslot⟩ := hcid
  extract_lets jp
  have hjp : ∀ tv, R tv → Ends (jp tv) c Q := hcreate cid
  clear_value jp
  cases tmpl with
  | some tv => exact Ends.reads_bind (Reads.pure (hspawn tv (List.mem_singleton_self tv))) hjp
  | none =>
    refine Ends.reads_bind (Reads.container _) fun k hk => ?_
    cases hkt : k.tview with
    | some tv =>
      exact Ends.reads_bind (Reads.pure
        (hmade.declares f.lview w _ cid a k (htop f rest hfr) hw hslot hk tv hkt)) hjp
    | none => exact Ends.reads_bind (P := fun _ => False) (Reads.structural _) fun _ h => h.elim

/-- A view created, then announced: its passes restore the frames, and the announcement keeps
them and the registry. -/
theorem createView_emit {fuel : Nat} {scope : Scope} {cid : ContainerId} {tv : TViewId}
    {position : Nat} {Q : Registry → Prop}
    (hcv : Ends (createViewWith fuel scope cid tv position) c fun _ c' => Q c'.registry) :
    Ends (createViewWith fuel scope cid tv position >>= fun v => emit (.view v)) c fun _ c' =>
      c'.frames = c.frames ∧ Q c'.registry := by
  refine Ends.bind (Ends.and hcv (Ends.of_keeps (createViewWith_restores fuel scope cid tv position)))
    fun _ c₁ h₁ => ?_
  refine (Ends.of_ok (emit_ok _)).mono fun _ c' hc' => ?_
  subst hc'
  exact ⟨h₁.2, h₁.1⟩

/-! ### Passes, however deep they nest -/

mutual

/-- Issued instructions run in a frame over a made view of a template of `R`, spawning only
templates of `R`, keep the frames' views and templates and the registry apart. -/
theorem runIssued_apart (hT : ¬ R T) (fuel : Nat) (ps : List (Scope × Instr))
    {S : LViewId → Prop} {C : ContainerId → Prop} {c : Context} {y : LViewId} {X : TViewId}
    {os : List (LViewId × TViewId)} (htop : c.frames.map Frame.owner = (y, X) :: os) (hX : R X)
    (hy : S y) (hflow : ∀ p ∈ ps, p.2.isFlow = false)
    (hspawn : ∀ p ∈ ps, ∀ tv ∈ p.2.spawns, R tv) (h : c.registry.Apart T R V0 t₀ S C) :
    Ends (runIssued fuel ps) c fun _ c' =>
      c'.frames.map Frame.owner = (y, X) :: os ∧ c'.registry.ApartFrom T R V0 t₀ S C := by
  cases ps with
  | nil =>
    rw [runIssued_nil]
    exact Ends.pure ⟨htop, h.apartFrom⟩
  | cons p rest =>
    rw [runIssued_cons]
    have hp : p ∈ p :: rest := List.mem_cons_self
    refine Ends.bind (runInstr_apart hT fuel p.1 p.2 htop hX hy (hflow p hp) (hspawn p hp) h)
      fun _ c₁ h₁ => ?_
    -- the rest runs from the views and containers the first instruction made
    obtain ⟨htop₁, S₁, C₁, hS₁, hC₁, h₁⟩ := h₁
    refine (runIssued_apart hT fuel rest htop₁ hX (hS₁ y hy)
      (fun q hq => hflow q (List.mem_cons_of_mem _ hq))
      (fun q hq => hspawn q (List.mem_cons_of_mem _ hq)) h₁).mono fun _ _ h' => ?_
    exact ⟨h'.1, h'.2.mono hS₁ hC₁⟩
termination_by (fuel, 4, sizeOf ps)

/-- An issued instruction run in a frame over a made view of a template of `R`: one that creates
no view spares `T`, and one that does runs passes of templates of `R`. -/
theorem runInstr_apart (hT : ¬ R T) (fuel : Nat) (scope : Scope) (i : Instr)
    {S : LViewId → Prop} {C : ContainerId → Prop} {c : Context} {y : LViewId} {X : TViewId}
    {os : List (LViewId × TViewId)} (htop : c.frames.map Frame.owner = (y, X) :: os) (hX : R X)
    (hy : S y) (hflow : i.isFlow = false) (hspawn : ∀ tv ∈ i.spawns, R tv)
    (h : c.registry.Apart T R V0 t₀ S C) :
    Ends (runInstr fuel scope i) c fun _ c' =>
      c'.frames.map Frame.owner = (y, X) :: os ∧ c'.registry.ApartFrom T R V0 t₀ S C := by
  have hclear : c.Clear T := Context.Clear.of_top htop fun he => hT (he ▸ hX)
  cases hv : i.startsView
  · rw [runInstr_eq_simpleInstr hflow hv]
    exact (Ends.of_keeps (Spares.simpleInstr scope hspawn : Spares T R V0 _)).mono
      fun _ _ hs => ⟨hs.owners.trans htop, h.spares hclear hs⟩
  · cases i
    case createEmbeddedView slot position tmpl =>
      refine createEmbeddedView_ends h.made (fun f rest hfr => .inl ?_) hspawn ?_
        fun cid tv htv => ?_
      · rw [Context.lview_of_top htop hfr]
        exact hy
      · exact (Ends.of_ok (emit_ok _)).mono fun _ c' hc' => by
          subst hc'
          exact ⟨htop, h.apartFrom⟩
      · exact (createView_emit (createViewWith_apart hT fuel scope cid htv _ h)).mono fun _ _ h' =>
          ⟨(congrArg (List.map Frame.owner) h'.1).trans htop, h'.2⟩
    all_goals cases hv
termination_by (fuel, 3, 0)

/-- Creating a view of a template of `R`: the new view, with empty slots, is made, inserted into
the container, rendered and refreshed. -/
theorem createViewWith_apart (hT : ¬ R T) (fuel : Nat) (scope : Scope) (cid : ContainerId)
    {tv : TViewId} (htv : R tv) (position : Nat) {S : LViewId → Prop} {C : ContainerId → Prop}
    {c : Context} (h : c.registry.Apart T R V0 t₀ S C) :
    Ends (createViewWith fuel scope cid tv position) c fun _ c' =>
      c'.registry.ApartFrom T R V0 t₀ S C := by
  rw [createViewWith]
  refine Ends.reads_bind (Reads.container _) fun k _ => ?_
  extract_lets -underBinder create
  have hcreate : ∀ u, Ends (create u) c fun _ c' => c'.registry.ApartFrom T R V0 t₀ S C := by
    intro _
    dsimp -zeta only [create]
    refine Ends.reads_bind Reads.get fun c' hc' => ?_
    subst c'
    refine Ends.reads_bind (Reads.ofStructural _) fun _ _ => ?_
    split
    · refine Ends.reads_bind (Reads.tview _) fun t _ => ?_
      extract_lets -underBinder src v register
      have hregister : ∀ v' c₁, c₁.registry = c.registry → v'.tview = tv →
          (∀ j, v'.slot j = .empty) →
          Ends (register v') c₁ fun _ c' => c'.registry.ApartFrom T R V0 t₀ S C := by
        intro v' c₁ hreg hv'tv hv'
        dsimp -zeta only [register]
        refine Ends.reads_bind Reads.get fun c₂ hc₂ => ?_
        subst c₂
        rcases hal : c₁.registry.allocateLView v' with ⟨registry, view⟩
        have h₂ : registry.Apart T R V0 t₀ (fun z => S z ∨ z = view) C := by
          have h₂ := (hreg ▸ h).of_tviews tviews_allocateLView
            ((hreg ▸ h).made.allocateLView (hv'tv ▸ htv) hv')
          rw [hal] at h₂
          exact h₂
        refine Ends.bind (P := fun _ c₂ => c₂ = { c₁ with registry := registry })
          (Ends.of_ok (Ok.set rfl)) fun _ c₂ hc₂ => ?_
        subst hc₂
        refine Ends.bind (modifyContainer_apart (fun _ => rfl)
          (fun _ z hz => (List.eq_or_mem_of_mem_insertIdx hz).symm.imp_right Or.inr) h₂)
          fun _ c₃ h₃ => ?_
        refine Ends.bind
          (P := fun _ c' => c'.registry.ApartFrom T R V0 t₀ (fun z => S z ∨ z = view) C)
          (Ends.tryCatch ?_ fun e _ => ?_) fun _ _ h₅ =>
            Ends.pure (h₅.mono (fun _ hz => .inl hz) fun _ h => h)
        · refine Ends.bind (renderView_apart hT fuel scope (.inr rfl) h₃) fun _ c₄ h₄ => ?_
          obtain ⟨S₄, C₄, hS₄, hC₄, h₄⟩ := h₄
          exact (refreshView_apart hT fuel scope (hS₄ view (.inr rfl)) h₄).mono
            fun _ _ h' => h'.mono hS₄ hC₄
        · -- the handler takes the view out again and always fails
          exact Ends.bind (P := fun _ _ => True) (fun _ _ _ => trivial) fun _ _ _ =>
            Ends.bind (P := fun _ _ => True) (fun _ _ _ => trivial) fun _ _ _ => Ends.throw e
      have hv : ∀ j, v.slot j = .empty := fun j => LView.slot_create tv t.data.size j
      clear_value register
      have hempty : ∀ u c₁, c₁.registry = c.registry → u.tview = tv → (∀ j, u.slot j = .empty) →
          Ends (Pure.pure u >>= register) c₁ fun _ c' => c'.registry.ApartFrom T R V0 t₀ S C :=
        fun u c₁ hreg hu hu' => Ends.reads_bind
          (P := fun u' => u'.tview = tv ∧ ∀ j, u'.slot j = .empty) (Reads.pure ⟨hu, hu'⟩)
          fun u' hu'' => hregister u' c₁ hreg hu''.1 hu''.2
      refine Ends.ite (fun _ => ?_) fun _ => hempty v c rfl rfl hv
      -- a view taken over from a dehydrated one keeps the template and empty slots of the new one
      refine Ends.reads_bind Reads.get fun c' hc' => ?_
      subst c'
      rcases c.pool.takeMatching _ _ _ with ⟨pool, doc, taken⟩
      refine Ends.bind (P := fun _ c₁ => c₁.registry = c.registry) (Ends.of_ok (Ok.set rfl))
        fun _ c₁ hreg => ?_
      split
      · exact hempty _ c₁ hreg rfl hv
      · exact hempty v c₁ hreg rfl hv
    · exact Ends.structural _
  clear_value create
  exact Ends.ite (fun _ => Ends.bind (P := fun _ _ => False) (Ends.structural _) fun _ _ h => h.elim)
    fun _ => hcreate ()
termination_by (fuel, 2, 0)

/-- A creation pass over a made view, then the freeze of its template, which is not `T`. -/
theorem renderView_apart (hT : ¬ R T) (fuel : Nat) (scope : Scope) {view : LViewId}
    {S : LViewId → Prop} {C : ContainerId → Prop} {c : Context} (hy : S view)
    (h : c.registry.Apart T R V0 t₀ S C) :
    Ends (renderView fuel scope view) c fun _ c' => c'.registry.ApartFrom T R V0 t₀ S C := by
  rw [renderView]
  refine Ends.bind (execute_apart hT fuel scope view true hy h) fun _ c₁ h₁ => ?_
  obtain ⟨S₁, C₁, hS₁, hC₁, h₁⟩ := h₁
  refine Ends.reads_bind (Reads.viewPair _) fun p hp => ?_
  obtain ⟨t, w⟩ := p
  obtain ⟨hw, ht⟩ := Registry.viewPair_eq_ok.mp hp
  -- the view is made, so its template is in `R` and is not `T`
  have hX : w.tview ≠ T := fun he => hT (he ▸ h₁.made.templates view w (hS₁ view hy) hw)
  dsimp -zeta only
  extract_lets finish
  have hfinish : ∀ r c₂, c₂.registry.Apart T R V0 t₀ S₁ C₁ →
      Ends (finish r) c₂ fun _ c' => c'.registry.ApartFrom T R V0 t₀ S C := by
    intro _ c₂ h₂
    dsimp -zeta only [finish]
    -- the view's creation flag is cleared: its template and slots stay
    refine Ends.reads_bind (Reads.lview _) fun w' hw' => Ends.of_ok (Ok.modify ?_)
    refine ApartFrom.mono (Apart.apartFrom (h₂.of_tviews rfl
      (h₂.made.narrow (.setLView hw' ?_ ?_)))) hS₁ hC₁
    · rfl
    · exact fun _ _ _ h => h
  clear_value finish
  refine Ends.ite (fun _ => ?_) fun _ => hfinish () c₁ h₁
  exact Ends.bind (P := fun _ c₂ => c₂.registry.Apart T R V0 t₀ S₁ C₁)
    (Ends.of_ok (Ok.modify (h₁.setTView ht rfl hX))) fun r c₂ h₂ => hfinish r c₂ h₂
termination_by (fuel, 1, 0)

/-- An update pass over a made view, then the refresh of the views its containers list, which are
made. -/
theorem refreshView_apart (hT : ¬ R T) (fuel : Nat) (scope : Scope) {view : LViewId}
    {S : LViewId → Prop} {C : ContainerId → Prop} {c : Context} (hy : S view)
    (h : c.registry.Apart T R V0 t₀ S C) :
    Ends (refreshView fuel scope view) c fun _ c' => c'.registry.ApartFrom T R V0 t₀ S C := by
  rw [refreshView.eq_def]
  refine Ends.bind (execute_apart hT fuel scope view false hy h) fun _ c₁ h₁ => ?_
  cases fuel with
  | zero => exact Ends.pure h₁
  | succ fuel =>
    obtain ⟨S₁, C₁, hS₁, hC₁, h₁⟩ := h₁
    refine Ends.reads_bind (Reads.lview _) fun v hv => ?_
    -- the containers the view holds are made, and so are the views they list
    have hheld : ∀ cid ∈ v.containers, C₁ cid := fun cid hcid => by
      obtain ⟨j, a, hj⟩ := LView.exists_slot_of_mem_containers hcid
      exact h₁.made.holds view v j cid a (hS₁ view hy) hv hj
    refine Ends.bind (Ends.forIn (I := fun c' => c'.registry.ApartFrom T R V0 t₀ S₁ C₁)
      (fun cid hcid _ c₂ h₂ => ?_) h₁.apartFrom) fun _ _ h₃ => Ends.pure (h₃.mono hS₁ hC₁)
    obtain ⟨S₂, C₂, hS₂, hC₂, h₂⟩ := h₂
    refine Ends.reads_bind (Reads.container _) fun k hk => ?_
    have hlisted : ∀ z ∈ k.views, S₂ z :=
      fun z hz => h₂.made.lists cid k (hC₂ cid (hheld cid hcid)) hk z hz
    refine Ends.bind (Ends.forIn (I := fun c' => c'.registry.ApartFrom T R V0 t₀ S₂ C₂)
      (fun child hchild _ c₄ h₄ => ?_) h₂.apartFrom) fun _ _ h₅ => Ends.pure (h₅.mono hS₂ hC₂)
    obtain ⟨S₄, C₄, hS₄, hC₄, h₄⟩ := h₄
    exact Ends.bind (refreshView_apart hT fuel scope (hS₄ child (hlisted child hchild)) h₄)
      fun _ _ h₆ => Ends.pure (h₆.mono hS₄ hC₄)
termination_by (fuel, 1, 0)

/-- A pass over a made view runs the instructions its template issues in a frame of its own,
which renders a template of `R`. -/
theorem execute_apart (hT : ¬ R T) (fuel : Nat) (scope : Scope) (view : LViewId) (create : Bool)
    {S : LViewId → Prop} {C : ContainerId → Prop} {c : Context} (hy : S view)
    (h : c.registry.Apart T R V0 t₀ S C) :
    Ends (execute fuel scope view create) c fun _ c' => c'.registry.ApartFrom T R V0 t₀ S C := by
  cases fuel with
  | zero =>
    rw [execute]
    exact Ends.structural _
  | succ fuel =>
    rw [execute]
    refine Ends.reads_bind (Reads.viewPair _) fun p hp => ?_
    obtain ⟨t, w⟩ := p
    obtain ⟨hw, ht⟩ := Registry.viewPair_eq_ok.mp hp
    have hid : t.id = w.tview := h.aligned.id_eq ht
    have hX : R t.id := hid ▸ h.made.templates view w hy hw
    dsimp only
    refine Ends.bind (Ends.of_ok (enterView_ok _ _ _)) fun _ c₁ hc₁ => ?_
    subst hc₁
    rw [runBlock_eq_runIssued]
    -- the issued instructions spawn what the template spawns, all in `R`
    have hspawn : ∀ p ∈ Instr.issueAll scope.forPass
        (if create then t.program.create else t.program.update), ∀ tv ∈ p.2.spawns, R tv :=
      fun _ hq tv htv => h.closed w.tview t (.inr (hid ▸ hX)) ht tv (TView.spawns_of_mem_pass hq tv htv)
    refine Ends.bind (Ends.tryCatch (runIssued_apart hT fuel _ (by rfl) hX hy
      (fun _ hq => Instr.isFlow_of_mem_issueAll hq) hspawn h) fun e _ =>
        Ends.bind (P := fun _ _ => True) (fun _ _ _ => trivial) fun _ _ _ => Ends.throw e)
      fun _ c₂ h₂ => ?_
    exact Ends.leaveView.mono fun _ _ hreg => hreg ▸ h₂.2
termination_by (fuel, 0, 0)

end

/-! ### The first creation pass of `T` -/

variable {s : Threads}

/-- Creating an embedded view in the first creation pass of `T`: the passes it nests keep the
positions and the links of `T`, so the pass follows the same state of the machine. -/
theorem createEmbeddedView_follows (hT : ¬ R T) {fuel : Nat} {scope : Scope}
    {slot position : CountArg} {tmpl : Option TViewId} (h : c.Follows T s)
    (ho : c.Outer T R V0) (hspawn : ∀ tv ∈ tmpl.toList, R tv) :
    Ends (runInstr fuel scope (.createEmbeddedView slot position tmpl)) c fun _ c' =>
      c'.Follows T s ∧ c'.Outer T R V0 := by
  obtain ⟨S, C, hmade⟩ := ho.made
  obtain ⟨t, ht, -, -⟩ := h.template
  obtain ⟨f, rest, hfr, hV0⟩ := ho.top
  have happ : c.registry.Apart T R V0 t S C := ⟨h.aligned, ho.closed, ⟨t, ht, .refl none t⟩, hmade⟩
  refine createEmbeddedView_ends hmade (fun f' rest' hfr' => .inr ?_) hspawn ?_ fun cid tv htv => ?_
  · rw [hfr] at hfr'
    cases hfr'
    exact hV0
  · exact (Ends.of_ok (emit_ok _)).mono fun _ c' hc' => by
      subst hc'
      exact ⟨⟨h.frame, h.aligned, h.template⟩, ⟨ho.top, ho.closed, ho.made⟩⟩
  · refine (createView_emit (createViewWith_apart hT fuel scope cid htv _ happ)).mono
      fun _ c₁ h₁ => ?_
    obtain ⟨hsame, S₁, C₁, -, -, h₁⟩ := h₁
    obtain ⟨t₁, ht₁, hk⟩ := h₁.links
    -- the nested passes restore the frames and keep the links of `T`
    have hkeeps : Context.KeepsLinks T none c c₁ := by
      refine ⟨by rw [hsame], fun _ => h₁.aligned, fun _ u hu => ?_⟩
      rw [ht] at hu
      cases hu
      exact ⟨t₁, ht₁, hk⟩
    exact ⟨h.keepsLinks hkeeps (fun _ h => by cases h), ⟨f, rest, hsame.trans hfr, hV0⟩,
      h₁.closed, S₁, C₁, h₁.made⟩

/-- An issued instruction of the first creation pass of `T` makes its moves, whatever embedded
views it creates. -/
theorem runInstr_follows (hT : ¬ R T) (fuel : Nat) (scope : Scope) {i : Instr}
    (h : c.Follows T s) (ho : c.Outer T R V0) (hcur : ∀ j, s.current = some j → s.links j ≠ none)
    (hflow : i.isFlow = false) (hspawn : ∀ tv ∈ i.spawns, R tv)
    (hfree : ∀ j ∈ i.slots scope, s.links j = none) :
    Ends (runInstr fuel scope i) c fun _ c' =>
      (∃ s', s.run (i.moves scope) = some s' ∧ c'.Follows T s') ∧ c'.Outer T R V0 := by
  cases hv : i.startsView
  · refine Ends.and (runInstr_threads fuel scope h hcur hflow hv hfree) ?_
    rw [runInstr_eq_simpleInstr hflow hv]
    exact (Ends.of_keeps (Spares.simpleInstr scope hspawn : Spares T R V0 _)).mono
      fun _ _ hs => ho.spares h.aligned hs
  · cases i
    case createEmbeddedView slot position tmpl =>
      exact (createEmbeddedView_follows hT h ho hspawn).mono fun _ _ h' => ⟨⟨s, rfl, h'.1⟩, h'.2⟩
    all_goals cases hv

end RenderM

end ViewHydration
