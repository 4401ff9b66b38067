import Mathlib.Logic.Relation
import ViewHydration.Proofs.IssuedInstrs
import ViewHydration.Proofs.Footprint

/-!
# Views made by nested passes

A template's program declares containers of other templates and creates views of them
(`Instr.spawns`). The templates a pass can reach that way are those `Registry.Spawns` leads to
from the template of the pass; a template that does not reach itself is built by its own first
pass and by no pass nested in it.

While a pass over a view `V0` runs, the passes nested in it make views and containers.
`Registry.Made R V0 S C` says that the views `S` and containers `C` they made are closed: a made
view has a template of `R` and holds made containers only, a made container lists made views
only, and every container that `V0` or a made view holds declares a template of `R`. Steps that
only narrow the views and containers (`Registry.Narrows`) keep this, and so do the allocations of
the passes, once the new container or view counts as made.

## Main definitions

- `Instr.spawns`, `TView.spawns` — the templates a program declares containers of or creates
  views of
- `Registry.Spawns`, `Registry.Closed` — what the templates of a registry spawn
- `Registry.Narrows` — fewer views and containers, each holding or listing less
- `Registry.Made` — the views and containers made by nested passes are closed
-/

namespace ViewHydration

namespace Instr

mutual

/-- The templates an instruction declares containers of or creates views of, in the blocks it
nests too. -/
def spawns : Instr → List TViewId
  | .template _ tv _ _ => [tv]
  | .createEmbeddedView _ _ tmpl => tmpl.toList
  | .cond _ thenBranch elseBranch => spawnsAll thenBranch ++ spawnsAll elseBranch
  | .loop _ _ body => spawnsAll body
  | _ => []

/-- The templates a block declares containers of or creates views of. -/
def spawnsAll : List Instr → List TViewId
  | [] => []
  | i :: rest => spawns i ++ spawnsAll rest

end

mutual

/-- An instruction issued by another spawns only what that one spawns. -/
theorem spawns_of_mem_issue : ∀ {scope : Scope} {i : Instr} {p : Scope × Instr},
    p ∈ i.issue scope → ∀ tv ∈ p.2.spawns, tv ∈ i.spawns
  | _, .cond .., _, h, tv, htv => by
    rw [issue] at h
    rw [spawns, List.mem_append]
    split at h
    · exact .inr (spawns_of_mem_issueAll h tv htv)
    · exact .inl (spawns_of_mem_issueAll h tv htv)
  | _, .loop .., _, h, tv, htv => by
    rw [issue, List.mem_flatMap] at h
    obtain ⟨_, -, hk⟩ := h
    exact spawns_of_mem_issueAll hk tv htv
  | _, .elementStart .., _, h, _, htv | _, .element .., _, h, _, htv | _, .elementEnd, _, h, _, htv
  | _, .elementContainerStart .., _, h, _, htv | _, .elementContainer .., _, h, _, htv
  | _, .elementContainerEnd, _, h, _, htv | _, .text .., _, h, _, htv
  | _, .textInterpolate .., _, h, _, htv | _, .template .., _, h, _, htv
  | _, .createEmbeddedView .., _, h, _, htv | _, .removeEmbeddedView .., _, h, _, htv
  | _, .clearContainer .., _, h, _, htv | _, .containerLength .., _, h, _, htv
  | _, .createContainerRef .., _, h, _, htv | _, .i18nStart .., _, h, _, htv
  | _, .i18n .., _, h, _, htv | _, .i18nEnd, _, h, _, htv | _, .i18nAttributes .., _, h, _, htv
  | _, .i18nExp .., _, h, _, htv | _, .i18nApply .., _, h, _, htv | _, .localRef .., _, h, _, htv
  | _, .removeLocalRef .., _, h, _, htv | _, .removeSlotNode .., _, h, _, htv
  | _, .probe, _, h, _, htv => by
    rw [issue_of_isFlow_eq_false rfl, List.mem_singleton] at h
    subst h
    exact htv

theorem spawns_of_mem_issueAll : ∀ {scope : Scope} {instrs : List Instr} {p : Scope × Instr},
    p ∈ issueAll scope instrs → ∀ tv ∈ p.2.spawns, tv ∈ spawnsAll instrs
  | _, [], _, h, _, _ => nomatch h
  | _, _ :: _, _, h, tv, htv => by
    rw [issueAll, List.mem_append] at h
    rw [spawnsAll, List.mem_append]
    rcases h with h | h
    · exact .inl (spawns_of_mem_issue h tv htv)
    · exact .inr (spawns_of_mem_issueAll h tv htv)

end

end Instr

namespace TView

/-- The templates a template's programs declare containers of or create views of. -/
def spawns (t : TView) : List TViewId :=
  Instr.spawnsAll t.program.create ++ Instr.spawnsAll t.program.update

/-- An instruction a pass of a template issues spawns only what the template spawns. -/
theorem spawns_of_mem_pass {t : TView} {scope : Scope} {create : Bool} {p : Scope × Instr}
    (h : p ∈ Instr.issueAll scope (if create then t.program.create else t.program.update)) :
    ∀ tv ∈ p.2.spawns, tv ∈ t.spawns := by
  intro tv htv
  rw [spawns, List.mem_append]
  cases create
  · exact .inr (Instr.spawns_of_mem_issueAll h tv htv)
  · exact .inl (Instr.spawns_of_mem_issueAll h tv htv)

end TView

namespace Registry

variable {r r' r'' : Registry} {T : TViewId} {R : TViewId → Prop} {V0 : LViewId}
  {S : LViewId → Prop} {C : ContainerId → Prop}

/-- Template `X` declares containers of template `Y` or creates views of it. -/
def Spawns (r : Registry) (X Y : TViewId) : Prop := ∃ t, r.tview X = .ok t ∧ Y ∈ t.spawns

/-- `T` and every template of `R` spawn templates of `R` only. -/
def Closed (T : TViewId) (R : TViewId → Prop) (r : Registry) : Prop :=
  ∀ X t, (X = T ∨ R X) → r.tview X = .ok t → ∀ Y ∈ t.spawns, R Y

/-- The templates `T` leads to are closed. -/
theorem closed_transGen (r : Registry) (T : TViewId) : r.Closed T (Relation.TransGen r.Spawns T) := by
  intro X t hX ht Y hY
  have hstep : r.Spawns X Y := ⟨t, ht, hY⟩
  rcases hX with rfl | hX
  · exact .single hstep
  · exact .tail hX hstep

/-- Templates that keep their programs spawn what they spawned. -/
theorem Closed.of_programs (h : r.Closed T R)
    (hp : ∀ X t', r'.tview X = .ok t' → ∃ t, r.tview X = .ok t ∧ t'.program = t.program) :
    r'.Closed T R := by
  intro X t' hX ht' Y hY
  obtain ⟨t, ht, hprog⟩ := hp X t' ht'
  exact h X t hX ht Y (by rw [TView.spawns, ← hprog]; exact hY)

/-- Writing back an edit of a template with its handle and program keeps every program. -/
theorem programs_setTView {X : TViewId} {t t' : TView} (ha : r.Aligned) (hread : r.tview X = .ok t)
    (hdims : t'.dims = t.dims) :
    ∀ X' t'', (r.setTView t').tview X' = .ok t'' → ∃ t₀, r.tview X' = .ok t₀ ∧ t''.program = t₀.program := by
  intro X' t'' ht''
  have hid : t'.id = X := ha.id_of_dims hread hdims
  by_cases hX' : X' = X
  · subst hX'
    rw [← hid, tview_setTView_self (hid ▸ hread)] at ht''
    cases ht''
    exact ⟨t, hid ▸ hread, TView.program_of_dims hdims⟩
  · rw [tview_setTView_of_ne (hid ▸ Ne.symm hX')] at ht''
    exact ⟨t'', ht'', rfl⟩

/-- `r'` narrows the views and containers of `r`: a live view of `r'` was live in `r` with its
template and holds only containers it held there; a container of `r'` was a container of `r`
declaring its template, and lists only views it listed there. -/
structure Narrows (r r' : Registry) : Prop where
  views : ∀ y v', r'.lview y = .ok v' → ∃ v, r.lview y = .ok v ∧ v'.tview = v.tview ∧
    ∀ j cid a, v'.slot j = .container cid a → v.slot j = .container cid a
  containers : ∀ cid k', r'.container cid = .ok k' → ∃ k, r.container cid = .ok k ∧
    k'.tview = k.tview ∧ ∀ z ∈ k'.views, z ∈ k.views

namespace Narrows

theorem refl (r : Registry) : r.Narrows r :=
  ⟨fun _ v h => ⟨v, h, rfl, fun _ _ _ h => h⟩, fun _ k h => ⟨k, h, rfl, fun _ h => h⟩⟩

theorem trans (h₁ : r.Narrows r') (h₂ : r'.Narrows r'') : r.Narrows r'' := by
  refine ⟨fun y v'' hv'' => ?_, fun cid k'' hk'' => ?_⟩
  · obtain ⟨v', hv', ht', hs'⟩ := h₂.views y v'' hv''
    obtain ⟨v, hv, ht, hs⟩ := h₁.views y v' hv'
    exact ⟨v, hv, ht'.trans ht, fun j cid a h => hs j cid a (hs' j cid a h)⟩
  · obtain ⟨k', hk', ht', hs'⟩ := h₂.containers cid k'' hk''
    obtain ⟨k, hk, ht, hs⟩ := h₁.containers cid k' hk'
    exact ⟨k, hk, ht'.trans ht, fun z h => hs z (hs' z h)⟩

/-- A change that keeps the live views with their templates and slots, and the containers. -/
theorem of_sameViews (h : r.SameViews r') (hs : ∀ id j, r'.slot id j = r.slot id j) :
    r.Narrows r' := by
  refine ⟨fun y v' hv' => ?_, fun cid k' hk' => ?_⟩
  · have hy := h.views y
    rw [hv'] at hy
    cases hv : r.lview y with
    | error e => rw [hv] at hy; cases hy
    | ok v =>
      rw [hv] at hy
      simp only [Except.map, Except.ok.injEq] at hy
      refine ⟨v, rfl, hy, fun j cid a hj => ?_⟩
      have hslot := hs y j
      rw [slot_eq_of_lview hv', slot_eq_of_lview hv, hj] at hslot
      exact hslot.symm
  · have hk : r.container cid = r'.container cid := by
      unfold Registry.container
      rw [h.containers]
    exact ⟨k', hk.trans hk', rfl, fun _ h => h⟩

theorem setTView (t : TView) : r.Narrows (r.setTView t) :=
  ⟨fun _ v h => ⟨v, h, rfl, fun _ _ _ h => h⟩, fun _ k h => ⟨k, h, rfl, fun _ h => h⟩⟩

/-- Writing back an edit of a live view with its template that adds no container. -/
theorem setLView {y : LViewId} {v v' : LView} (hv : r.lview y = .ok v) (ht : v'.tview = v.tview)
    (hs : ∀ j cid a, v'.slot j = .container cid a → v.slot j = .container cid a) :
    r.Narrows (r.setLView y v') := by
  refine ⟨fun y' w hw => ?_, fun cid k h => ⟨k, h, rfl, fun _ h => h⟩⟩
  by_cases hy : y' = y
  · subst hy
    rw [lview_setLView_self hv] at hw
    cases hw
    exact ⟨v, hv, ht, hs⟩
  · rw [lview_setLView_of_ne hy] at hw
    exact ⟨w, hw, rfl, fun _ _ _ h => h⟩

/-- Writing back an edit of a container with its template that lists no new view. -/
theorem setContainer {cid : ContainerId} {k k' : LContainer} (hk : r.container cid = .ok k)
    (ht : k'.tview = k.tview) (hs : ∀ z ∈ k'.views, z ∈ k.views) :
    r.Narrows (r.setContainer cid k') := by
  refine ⟨fun y w hw => ⟨w, hw, rfl, fun _ _ _ h => h⟩, fun cid' k'' hk'' => ?_⟩
  by_cases hc : cid' = cid
  · subst hc
    rw [container_setContainer_self hk] at hk''
    cases hk''
    exact ⟨k, hk, ht, hs⟩
  · rw [container_setContainer_of_ne hc] at hk''
    exact ⟨k'', hk'', rfl, fun _ h => h⟩

theorem releaseLView (id : LViewId) : r.Narrows (r.releaseLView id).1 := by
  refine ⟨fun y w hw => ?_, fun cid k hk => ?_⟩
  · exact ⟨w, (lview_releaseLView hw).2, rfl, fun _ _ _ h => h⟩
  · rw [container_releaseLView] at hk
    exact ⟨k, hk, rfl, fun _ h => h⟩

theorem releaseContainer (cid : ContainerId) : r.Narrows (r.releaseContainer cid).1 := by
  refine ⟨fun y w hw => ?_, fun cid' k hk => ?_⟩
  · rw [lview_releaseContainer] at hw
    exact ⟨w, hw, rfl, fun _ _ _ h => h⟩
  · exact ⟨k, (container_releaseContainer hk).2, rfl, fun _ h => h⟩

end Narrows

/-- The views `S` and containers `C` made by the passes nested in a pass over `V0` are closed: a
made view has a template of `R` and holds made containers only; every container that `V0` or a
made view holds declares a template of `R`, or none; a made container lists made views only. -/
structure Made (R : TViewId → Prop) (V0 : LViewId) (S : LViewId → Prop) (C : ContainerId → Prop)
    (r : Registry) : Prop where
  templates : ∀ y v, S y → r.lview y = .ok v → R v.tview
  holds : ∀ y v j cid a, S y → r.lview y = .ok v → v.slot j = .container cid a → C cid
  declares : ∀ y v j cid a k, (S y ∨ y = V0) → r.lview y = .ok v → v.slot j = .container cid a →
    r.container cid = .ok k → ∀ tv, k.tview = some tv → R tv
  lists : ∀ cid k, C cid → r.container cid = .ok k → ∀ z ∈ k.views, S z

namespace Made

/-- Nothing is made yet, and the view of the pass holds no container. -/
theorem start {v : LView} (hv : r.lview V0 = .ok v) (hempty : v.containers = []) :
    r.Made R V0 (fun _ => False) (fun _ => False) := by
  refine ⟨fun _ _ h => h.elim, fun _ _ _ _ _ h => h.elim, ?_, fun _ _ h => h.elim⟩
  rintro y w j cid a k (h | rfl) hw hj
  · exact h.elim
  · obtain rfl : w = v := by
      rw [hv] at hw
      cases hw
      rfl
    have hmem : cid ∈ w.containers := by
      unfold LView.containers
      refine List.mem_filterMap.mpr ⟨.container cid a, ?_, rfl⟩
      have hlt : j < w.data.size := by
        refine Nat.lt_of_not_le fun hge => ?_
        simp [LView.slot, Array.getElem?_eq_none hge] at hj
      rw [Array.mem_toList_iff]
      have hget : w.data[j]? = some (.container cid a) := by
        simp only [LView.slot, Array.getElem?_eq_getElem hlt, Option.getD_some] at hj ⊢
        rw [hj]
      exact Array.mem_of_getElem? hget
    rw [hempty] at hmem
    cases hmem

theorem narrow (h : r.Made R V0 S C) (hn : r.Narrows r') : r'.Made R V0 S C := by
  refine ⟨fun y v' hy hv' => ?_, fun y v' j cid a hy hv' hj => ?_,
    fun y v' j cid a k' hy hv' hj hk' tv htv => ?_, fun cid k' hc hk' z hz => ?_⟩
  · obtain ⟨v, hv, ht, -⟩ := hn.views y v' hv'
    exact ht ▸ h.templates y v hy hv
  · obtain ⟨v, hv, -, hs⟩ := hn.views y v' hv'
    exact h.holds y v j cid a hy hv (hs j cid a hj)
  · obtain ⟨v, hv, -, hs⟩ := hn.views y v' hv'
    obtain ⟨k, hk, hkt, -⟩ := hn.containers cid k' hk'
    exact h.declares y v j cid a k hy hv (hs j cid a hj) hk tv (hkt ▸ htv)
  · obtain ⟨k, hk, -, hs⟩ := hn.containers cid k' hk'
    exact h.lists cid k hc hk z (hs z hz)

/-- A new container that lists no view and declares a template of `R`, or none, keeps the made
views and containers closed. -/
theorem allocateContainer (h : r.Made R V0 S C) {k : LContainer} (hviews : k.views = [])
    (hdecl : ∀ tv, k.tview = some tv → R tv) : (r.allocateContainer k).1.Made R V0 S C := by
  -- a container of the new registry is the new one, or one the registry had
  have hcases : ∀ cid k', (r.allocateContainer k).1.container cid = .ok k' →
      k' = k ∨ r.container cid = .ok k' := by
    intro cid k' hk'
    by_cases hc : cid = (r.allocateContainer k).2
    · subst hc
      exact .inl (eq_of_container_allocateContainer hk')
    · rw [container_allocateContainer_of_ne hc] at hk'
      exact .inr hk'
  refine ⟨fun y v hy hv => ?_, fun y v j cid a hy hv hj => ?_,
    fun y v j cid a k' hy hv hj hk' tv htv => ?_, fun cid k' hc hk' z hz => ?_⟩
  · rw [lview_allocateContainer] at hv
    exact h.templates y v hy hv
  · rw [lview_allocateContainer] at hv
    exact h.holds y v j cid a hy hv hj
  · rw [lview_allocateContainer] at hv
    rcases hcases cid k' hk' with rfl | hold
    · exact hdecl tv htv
    · exact h.declares y v j cid a k' hy hv hj hold tv htv
  · rcases hcases cid k' hk' with rfl | hold
    · rw [hviews] at hz
      cases hz
    · exact h.lists cid k' hc hold z hz

/-- Storing a container that lists no view and declares a template of `R`, or none, into a slot of
a live view: it counts as made. -/
theorem setSlot (h : r.Made R V0 S C) {z : LViewId} {v : LView} (hv : r.lview z = .ok v)
    {index : Nat} {cid : ContainerId} {a : NodeId}
    (hfresh : ∀ k, r.container cid = .ok k → k.views = [] ∧ ∀ tv, k.tview = some tv → R tv) :
    (r.setLView z (v.set index (.container cid a))).Made R V0 S fun c => C c ∨ c = cid := by
  -- a slot of the new registry holds what it held, or the stored container
  have hslot : ∀ y w j cid' a', (r.setLView z (v.set index (.container cid a))).lview y = .ok w →
      w.slot j = .container cid' a' →
      (cid' = cid) ∨ ∃ w₀, r.lview y = .ok w₀ ∧ w₀.slot j = .container cid' a' := by
    intro y w j cid' a' hw hj
    by_cases hy : y = z
    · subst hy
      rw [lview_setLView_self hv] at hw
      cases hw
      by_cases hji : j = index
      · subst hji
        rw [LView.slot_set_self] at hj
        cases hj
        exact .inl rfl
      · rw [LView.slot_set_of_ne hji] at hj
        exact .inr ⟨v, hv, hj⟩
    · rw [lview_setLView_of_ne hy] at hw
      exact .inr ⟨w, hw, hj⟩
  -- the view keeps its template
  have htemplate : ∀ y w, (r.setLView z (v.set index (.container cid a))).lview y = .ok w →
      ∃ w₀, r.lview y = .ok w₀ ∧ w.tview = w₀.tview := by
    intro y w hw
    by_cases hy : y = z
    · subst hy
      rw [lview_setLView_self hv] at hw
      cases hw
      exact ⟨v, hv, rfl⟩
    · rw [lview_setLView_of_ne hy] at hw
      exact ⟨w, hw, rfl⟩
  refine ⟨fun y w hy hw => ?_, fun y w j cid' a' hy hw hj => ?_,
    fun y w j cid' a' k hy hw hj hk tv htv => ?_, fun cid' k hc' hk z hz => ?_⟩
  · obtain ⟨w₀, hw₀, ht⟩ := htemplate y w hw
    exact ht ▸ h.templates y w₀ hy hw₀
  · rcases hslot y w j cid' a' hw hj with rfl | ⟨w₀, hw₀, hj₀⟩
    · exact .inr rfl
    · exact .inl (h.holds y w₀ j cid' a' hy hw₀ hj₀)
  · rw [container_setLView] at hk
    rcases hslot y w j cid' a' hw hj with rfl | ⟨w₀, hw₀, hj₀⟩
    · exact (hfresh k hk).2 tv htv
    · exact h.declares y w₀ j cid' a' k hy hw₀ hj₀ hk tv htv
  · rw [container_setLView] at hk
    rcases hc' with hc' | rfl
    · exact h.lists cid' k hc' hk z hz
    · rw [(hfresh k hk).1] at hz
      cases hz

/-- A new view with a template of `R` and empty slots counts as made. -/
theorem allocateLView (h : r.Made R V0 S C) {v : LView} (htv : R v.tview)
    (hempty : ∀ j, v.slot j = .empty) :
    (r.allocateLView v).1.Made R V0 (fun y => S y ∨ y = (r.allocateLView v).2) C := by
  -- a live view of the new registry is the new one, or one the registry had
  have hcases : ∀ y w, (r.allocateLView v).1.lview y = .ok w →
      (y = (r.allocateLView v).2 ∧ w = v) ∨ (y ≠ (r.allocateLView v).2 ∧ r.lview y = .ok w) := by
    intro y w hw
    by_cases hy : y = (r.allocateLView v).2
    · subst hy
      exact .inl ⟨rfl, eq_of_lview_allocateLView hw⟩
    · rw [lview_allocateLView_of_ne hy] at hw
      exact .inr ⟨hy, hw⟩
  refine ⟨fun y w hy hw => ?_, fun y w j cid a hy hw hj => ?_,
    fun y w j cid a k hy hw hj hk tv htv => ?_, fun cid k hc hk z hz => ?_⟩
  · rcases hcases y w hw with ⟨-, rfl⟩ | ⟨hne, hold⟩
    · exact htv
    · exact h.templates y w (hy.resolve_right hne) hold
  · rcases hcases y w hw with ⟨-, rfl⟩ | ⟨hne, hold⟩
    · rw [hempty] at hj
      cases hj
    · exact h.holds y w j cid a (hy.resolve_right hne) hold hj
  · rw [container_allocateLView] at hk
    rcases hcases y w hw with ⟨-, rfl⟩ | ⟨hne, hold⟩
    · rw [hempty] at hj
      cases hj
    · refine h.declares y w j cid a k ?_ hold hj hk tv htv
      rcases hy with (hy | hy) | hy
      · exact .inl hy
      · exact absurd hy hne
      · exact .inr hy
  · rw [container_allocateLView] at hk
    exact .inl (h.lists cid k hc hk z hz)

/-- Writing back an edit of a container with its template that lists made views besides the ones
it listed. -/
theorem setContainer (h : r.Made R V0 S C) {cid : ContainerId} {k k' : LContainer}
    (hk : r.container cid = .ok k) (ht : k'.tview = k.tview)
    (hviews : ∀ z ∈ k'.views, z ∈ k.views ∨ S z) : (r.setContainer cid k').Made R V0 S C := by
  refine ⟨fun y w hy hw => h.templates y w hy hw, fun y w j c a hy hw hj => h.holds y w j c a hy hw hj,
    fun y w j c a k'' hy hw hj hk'' tv htv => ?_, fun c k'' hc hk'' z hz => ?_⟩
  · by_cases hcc : c = cid
    · subst hcc
      rw [container_setContainer_self hk] at hk''
      cases hk''
      exact h.declares y w j c a k hy hw hj hk tv (ht ▸ htv)
    · rw [container_setContainer_of_ne hcc] at hk''
      exact h.declares y w j c a k'' hy hw hj hk'' tv htv
  · by_cases hcc : c = cid
    · subst hcc
      rw [container_setContainer_self hk] at hk''
      cases hk''
      rcases hviews z hz with hz | hz
      · exact h.lists c k hc hk z hz
      · exact hz
    · rw [container_setContainer_of_ne hcc] at hk''
      exact h.lists c k'' hc hk'' z hz

end Made

end Registry

end ViewHydration
