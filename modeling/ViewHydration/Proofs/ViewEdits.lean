import ViewHydration.View.Registry
import ViewHydration.Proofs.ParentLinks

/-!
# What template, view and registry edits leave alone

Registering a template node writes the node at its own slot and fills in the `child` or `next`
link of the node before it; nothing else of the template changes. Storing a slot of a live view
changes that slot only, and the registry setters change the entry they name only. These are the
frame facts the proofs about render passes cite instead of unfolding the edits.

## Main definitions

- `TNode.shape` — what registration fixes about a node for good
- `TView.Keeps` — a later template keeps the shape of every node but one
- `TView.Acyclic` — no template node is its own ancestor through `parent` links
-/

namespace ViewHydration

namespace TNode

/-- What registration fixes about a node for good: its slot, kind, parent and flags. Only the
`child` and `next` links are filled in later. -/
def shape (n : TNode) : Nat × TNodeType × Option Nat × TNodeFlags := (n.index, n.type, n.parent, n.flags)

end TNode

namespace TView

variable {t t' : TView}

theorem tnode?_ensureLen (len j : Nat) : (t.ensureLen len).tnode? j = t.tnode? j := by
  unfold ensureLen
  split
  · by_cases hj : j < t.data.size
    · simp [tnode?, Array.getElem?_append_left hj]
    · rw [Nat.not_lt] at hj
      have hr : (Array.replicate (len - t.data.size) TData.empty)[j - t.data.size]? = none ∨
          (Array.replicate (len - t.data.size) TData.empty)[j - t.data.size]? = some .empty := by
        rw [Array.getElem?_replicate]
        split
        · exact .inr rfl
        · exact .inl rfl
      rcases hr with hr | hr <;>
        simp [tnode?, Array.getElem?_append_right hj, Array.getElem?_eq_none hj, hr]
  · rfl

theorem size_ensureLen (len : Nat) : len ≤ (t.ensureLen len).data.size := by
  unfold ensureLen
  split
  · simp only [Array.size_append, Array.size_replicate]
    omega
  · omega

theorem lt_size_of_tnode? {i : Nat} {n : TNode} (h : t.tnode? i = some n) : i < t.data.size := by
  rcases Nat.lt_or_ge i t.data.size with hlt | hge
  · exact hlt
  · simp [tnode?, Array.getElem?_eq_none hge] at h

theorem tnode?_modifyTNode (i j : Nat) (f : TNode → TNode) :
    (t.modifyTNode i f).tnode? j = if i = j then (t.tnode? j).map f else t.tnode? j := by
  unfold modifyTNode
  split
  · rename_i n hn
    by_cases h : i = j
    · subst h
      rw [if_pos rfl, hn, Option.map_some]
      simp [tnode?, Array.getElem?_setIfInBounds_self_of_lt (lt_size_of_tnode? hn)]
    · simp [tnode?, Array.getElem?_setIfInBounds_ne h, h]
  · rename_i hn
    by_cases h : i = j
    · subst h
      simp [hn]
    · simp [h]

theorem size_modifyTNode (i : Nat) (f : TNode → TNode) : (t.modifyTNode i f).data.size = t.data.size := by
  unfold modifyTNode
  split <;> simp

theorem tnode?_modifyTNode_shape {f : TNode → TNode} (hf : ∀ m, (f m).shape = m.shape) (i j : Nat) :
    ((t.modifyTNode i f).tnode? j).map TNode.shape = (t.tnode? j).map TNode.shape := by
  rw [tnode?_modifyTNode]
  split
  · cases t.tnode? j <;> simp [hf]
  · rfl

/-- A later template keeps the shape of every node outside slot `i`. -/
def Keeps (t t' : TView) (i : Nat) : Prop :=
  ∀ j, j ≠ i → (t'.tnode? j).map TNode.shape = (t.tnode? j).map TNode.shape

theorem attrsConst_congr (h : t.consts = t'.consts) (a : Option Nat) :
    t.attrsConst a = t'.attrsConst a := by
  cases a <;> simp [attrsConst, constAt, h]

theorem localRefsConst_congr (h : t.consts = t'.consts) (a : Option Nat) :
    t.localRefsConst a = t'.localRefsConst a := by
  cases a <;> simp [localRefsConst, constAt, h]

namespace Keeps

variable {i j : Nat}

theorem tnode? {n : TNode} (h : Keeps t t' i) (hj : j ≠ i) (hn : t.tnode? j = some n) :
    ∃ n', t'.tnode? j = some n' ∧ n'.shape = n.shape := by
  have hs := h j hj
  rw [hn, Option.map_some] at hs
  exact Option.map_eq_some_iff.mp hs

/-- A kept node keeps its parent. -/
theorem parent_eq (h : Keeps t t' i) (hj : j ≠ i) :
    (t'.tnode? j).bind (·.parent) = (t.tnode? j).bind (·.parent) := by
  have hs := congrArg (Option.map fun s => s.2.2.1) (h j hj)
  simp only [Option.map_map] at hs
  cases h₁ : t'.tnode? j <;> cases h₂ : t.tnode? j <;> simp_all [TNode.shape]

end Keeps

section registerTNode
variable {n : TNode} {current : Option Nat} {isParent : Bool}

theorem registerTNode_ok (n : TNode) (current : Option Nat) (isParent : Bool)
    (h : t.firstCreatePass = true) : ∃ t', t.registerTNode n current isParent = .ok t' := by
  simp [registerTNode, h]

/-- The template registration builds before it writes the new node: the data grown to hold the
node's slot, with the link from the current node filled in. -/
theorem registerTNode_eq (h : t.registerTNode n current isParent = .ok t') :
    ∃ u : TView, t' = { u with data := u.data.setIfInBounds n.index (.node n) } ∧
      n.index < u.data.size ∧ (∀ j, (u.tnode? j).map TNode.shape = (t.tnode? j).map TNode.shape) ∧
      u.decls = t.decls ∧ u.consts = t.consts ∧ u.id = t.id ∧ u.firstCreatePass = t.firstCreatePass := by
  unfold registerTNode at h
  split at h
  · cases h
  · cases h
    have hlen : n.index + 1 ≤ (t.ensureLen (n.index + 1)).data.size := size_ensureLen (n.index + 1)
    have hshape : ∀ m : TNode,
        (if isParent then (if m.child.isNone then { m with child := some n.index } else m)
          else { m with next := some n.index }).shape = m.shape := by
      intro m
      split
      · split <;> rfl
      · rfl
    refine ⟨_, rfl, ?_, ?_, ?_⟩
    · split
      · rw [size_modifyTNode]; omega
      · split <;> exact Nat.lt_of_succ_le hlen
    · intro j
      split
      · rw [tnode?_modifyTNode_shape hshape, tnode?_ensureLen]
      · split
        · exact congrArg _ (tnode?_ensureLen _ j)
        · exact congrArg _ (tnode?_ensureLen _ j)
    · split
      · simp only [modifyTNode, ensureLen]
        split <;> split <;> simp
      · split <;> simp only [ensureLen] <;> split <;> simp

theorem registerTNode_tnode?_self (h : t.registerTNode n current isParent = .ok t') :
    t'.tnode? n.index = some n := by
  obtain ⟨u, rfl, hlt, -⟩ := registerTNode_eq h
  simp [tnode?, Array.getElem?_setIfInBounds_self_of_lt hlt]

theorem registerTNode_keeps (h : t.registerTNode n current isParent = .ok t') : Keeps t t' n.index := by
  obtain ⟨u, rfl, -, hu, -⟩ := registerTNode_eq h
  intro j hj
  rw [← hu j]
  simp [tnode?, Array.getElem?_setIfInBounds_ne (Ne.symm hj)]

/-- Registration changes neither the declared sizes, the constants, the handle nor the pass. -/
theorem registerTNode_fields (h : t.registerTNode n current isParent = .ok t') :
    t'.decls = t.decls ∧ t'.consts = t.consts ∧ t'.id = t.id ∧
      t'.firstCreatePass = t.firstCreatePass := by
  obtain ⟨u, rfl, -, -, hd, hc, hi, hf⟩ := registerTNode_eq h
  exact ⟨hd, hc, hi, hf⟩

end registerTNode

/-! ### Parent links of a template -/

/-- The parent slot of the node at a slot; `none` for an empty slot or a root node. -/
def parentOf (t : TView) (i : Nat) : Option Nat := (t.tnode? i).bind (·.parent)

/-- No template node is its own ancestor through `parent` links. -/
def Acyclic (t : TView) : Prop := ParentLinks.Acyclic t.parentOf

/-- A freshly declared template has no nodes yet. -/
theorem acyclic_ofDef (id : TViewId) (d : TemplateDef) : (ofDef id d).Acyclic := by
  intro x hx
  obtain ⟨b, hb, -⟩ := hx.exists_parent
  simp [parentOf, tnode?, ofDef, Array.getElem?_replicate] at hb

section registerTNode
variable {n : TNode} {current : Option Nat} {isParent : Bool}

/-- Registration moves the node's slot under the node's parent and leaves every other parent
link alone. -/
theorem parentOf_registerTNode (h : t.registerTNode n current isParent = .ok t') (y : Nat) :
    t'.parentOf y = if n.index = y then n.parent else t.parentOf y := by
  split
  · next hy =>
    subst hy
    simp [parentOf, registerTNode_tnode?_self h]
  · next hy => exact (registerTNode_keeps h).parent_eq (Ne.symm hy)

/-- Registering a node under a slot that is not one of its descendants keeps the parent links
acyclic. -/
theorem registerTNode_acyclic (h : t.registerTNode n current isParent = .ok t') (ht : t.Acyclic)
    (hpar : ∀ q, n.parent = some q → q ≠ n.index ∧ ¬ ParentLinks.Ancestor t.parentOf n.index q) :
    t'.Acyclic := by
  have hd' := parentOf_registerTNode h
  cases hp : n.parent with
  | none => exact ParentLinks.Acyclic.unlink ht (by simpa [hp] using hd')
  | some q => exact ParentLinks.Acyclic.relink ht (by simpa [hp] using hd') (hpar q hp).1 (hpar q hp).2

end registerTNode

end TView

namespace LView

variable {v : LView} {i j : Nat} {s : Slot}

@[simp] theorem slot_set_self : (v.set i s).slot i = s := by
  unfold set slot
  split
  · rename_i h
    have hlt : i < (v.data ++ Array.replicate (i + 1 - v.data.size) Slot.empty).size := by
      simp only [Array.size_append, Array.size_replicate]
      omega
    simp [Array.getElem?_setIfInBounds_self_of_lt hlt]
  · rename_i h
    simp [Array.getElem?_setIfInBounds_self_of_lt (Nat.lt_of_not_le h)]

theorem slot_set_of_ne (h : j ≠ i) : (v.set i s).slot j = v.slot j := by
  unfold set slot
  split
  · rw [Array.getElem?_setIfInBounds_ne (Ne.symm h)]
    by_cases hj : j < v.data.size
    · rw [Array.getElem?_append_left hj]
    · rw [Nat.not_lt] at hj
      rw [Array.getElem?_append_right hj, Array.getElem?_eq_none hj, Array.getElem?_replicate]
      split <;> rfl
  · rw [Array.getElem?_setIfInBounds_ne (Ne.symm h)]

@[simp] theorem host_set : (v.set i s).host = v.host := rfl

@[simp] theorem tview_set : (v.set i s).tview = v.tview := rfl

@[simp] theorem slot_create (tv : TViewId) (n j : Nat) : (LView.create tv n).slot j = .empty := by
  by_cases hj : j < n <;> simp [LView.slot, LView.create, hj]

/-- A container of a view sits in one of its slots. -/
theorem exists_slot_of_mem_containers {cid : ContainerId} (h : cid ∈ v.containers) :
    ∃ j a, v.slot j = .container cid a := by
  obtain ⟨s, hs, hc⟩ := List.mem_filterMap.mp h
  obtain ⟨j, hj, rfl⟩ := List.getElem_of_mem hs
  cases hsj : v.data.toList[j] with
  | container c a =>
    rw [hsj] at hc
    cases hc
    refine ⟨j, a, ?_⟩
    rw [Array.length_toList] at hj
    simp only [slot, Array.getElem?_eq_getElem hj, Option.getD_some]
    rw [← hsj, Array.getElem_toList]
  | empty | node | binding => rw [hsj] at hc; cases hc

end LView

namespace Registry

variable {r : Registry} {t t₀ : TView} {id : TViewId} {view : LViewId} {v v₀ : LView}

theorem tview_ok_iff : (∃ t, r.tview id = .ok t) ↔ id.idx < r.tviews.size := by
  unfold tview
  constructor
  · rintro ⟨t, ht⟩
    rcases Nat.lt_or_ge id.idx r.tviews.size with hlt | hge
    · exact hlt
    · simp [Array.getElem?_eq_none hge] at ht
  · intro hlt
    simp [Array.getElem?_eq_getElem hlt]

/-- A registry with the same templates reads the same template at every handle. -/
theorem tview_eq_of_tviews {r' : Registry} (h : r'.tviews = r.tviews) (id : TViewId) :
    r'.tview id = r.tview id := by
  unfold tview
  rw [h]

theorem viewPair_eq_ok : r.viewPair view = .ok (t, v) ↔ r.lview view = .ok v ∧ r.tview v.tview = .ok t := by
  unfold viewPair
  cases hv : r.lview view with
  | error e => simp [bind, Except.bind]
  | ok v' =>
    constructor
    · intro h
      cases ht : r.tview v'.tview with
      | error e => simp [bind, Except.bind, ht] at h
      | ok t' =>
        simp only [bind, Except.bind, ht] at h
        cases h
        exact ⟨rfl, ht⟩
    · rintro ⟨h, ht⟩
      cases h
      simp only [bind, Except.bind, ht]
      rfl

theorem tview_setTView_self (h : r.tview t.id = .ok t₀) : (r.setTView t).tview t.id = .ok t := by
  have hlt := tview_ok_iff.mp ⟨t₀, h⟩
  simp [tview, setTView, Array.getElem?_setIfInBounds_self_of_lt hlt]

@[simp] theorem size_setTView : (r.setTView t).tviews.size = r.tviews.size := by
  simp [setTView]

@[simp] theorem lview_setTView : (r.setTView t).lview view = r.lview view := rfl

theorem lview_setLView_self (h : r.lview view = .ok v₀) : (r.setLView view v).lview view = .ok v := by
  unfold lview at h ⊢
  have hlt : view.idx < r.lviews.size := by
    rcases Nat.lt_or_ge view.idx r.lviews.size with hlt | hge
    · exact hlt
    · simp [Array.getElem?_eq_none hge] at h
  simp [setLView, Array.getElem?_setIfInBounds_self_of_lt hlt]

theorem lview_setLView_of_ne {id : LViewId} (h : id ≠ view) : (r.setLView view v).lview id = r.lview id := by
  have hidx : view.idx ≠ id.idx := fun he => h (by cases id; cases view; simp_all)
  simp only [lview, setLView, Array.getElem?_setIfInBounds_ne hidx]

@[simp] theorem tview_setLView : (r.setLView view v).tview id = r.tview id := rfl

@[simp] theorem tviews_setLView : (r.setLView view v).tviews = r.tviews := rfl

@[simp] theorem container_setTView (cid : ContainerId) : (r.setTView t).container cid = r.container cid :=
  rfl

@[simp] theorem container_setLView (cid : ContainerId) : (r.setLView view v).container cid = r.container cid :=
  rfl

@[simp] theorem lview_setContainer (cid : ContainerId) (k : LContainer) :
    (r.setContainer cid k).lview view = r.lview view := rfl

theorem container_setContainer_self {cid : ContainerId} {k₀ k : LContainer}
    (h : r.container cid = .ok k₀) : (r.setContainer cid k).container cid = .ok k := by
  unfold container at h ⊢
  have hlt : cid.idx < r.containers.size := by
    rcases Nat.lt_or_ge cid.idx r.containers.size with hlt | hge
    · exact hlt
    · simp [Array.getElem?_eq_none hge] at h
  simp [setContainer, Array.getElem?_setIfInBounds_self_of_lt hlt]

theorem container_setContainer_of_ne {cid cid' : ContainerId} (h : cid' ≠ cid) (k : LContainer) :
    (r.setContainer cid k).container cid' = r.container cid' := by
  have hidx : cid.idx ≠ cid'.idx := fun he => h (by cases cid; cases cid'; simp_all)
  simp only [container, setContainer, Array.getElem?_setIfInBounds_ne hidx]

/-- A handle the allocation did not hand out names the container it named before. -/
theorem container_allocateContainer_of_ne {k : LContainer} {cid : ContainerId}
    (h : cid ≠ (r.allocateContainer k).2) :
    (r.allocateContainer k).1.container cid = r.container cid := by
  unfold allocateContainer at h ⊢
  split
  · rename_i i rest hfree
    rw [hfree] at h
    have hidx : i ≠ cid.idx := fun he => h (by cases cid; simp_all)
    simp only [container, Array.getElem?_setIfInBounds_ne hidx]
  · rename_i hfree
    rw [hfree] at h
    have hidx : cid.idx ≠ r.containers.size := fun he => h (by cases cid; simp_all)
    simp only [container, Array.getElem?_push, if_neg hidx]

/-- The handle an allocation hands out names the new container, if anything. -/
theorem eq_of_container_allocateContainer {k k' : LContainer}
    (h : (r.allocateContainer k).1.container (r.allocateContainer k).2 = .ok k') : k' = k := by
  unfold allocateContainer at h
  split at h
  · rename_i i rest hfree
    simp only [container] at h
    by_cases hlt : i < r.containers.size
    · simp only [Array.getElem?_setIfInBounds_self_of_lt hlt] at h
      cases h
      rfl
    · simp only [Array.getElem?_setIfInBounds, if_neg hlt,
        Array.getElem?_eq_none (Nat.le_of_not_lt hlt)] at h
      cases h
  · simp only [container, Array.getElem?_push_size] at h
    cases h
    rfl

@[simp] theorem container_allocateLView (cid : ContainerId) :
    (r.allocateLView v).1.container cid = r.container cid := by
  unfold allocateLView
  split <;> rfl

@[simp] theorem tviews_allocateLView : (r.allocateLView v).1.tviews = r.tviews := by
  unfold allocateLView
  split <;> rfl

theorem lview_allocateLView_of_ne {id : LViewId} (h : id ≠ (r.allocateLView v).2) :
    (r.allocateLView v).1.lview id = r.lview id := by
  unfold allocateLView at h ⊢
  split
  · rename_i i rest hfree
    rw [hfree] at h
    have hidx : i ≠ id.idx := fun he => h (by cases id; simp_all)
    simp only [lview, Array.getElem?_setIfInBounds_ne hidx]
  · rename_i hfree
    rw [hfree] at h
    have hidx : id.idx ≠ r.lviews.size := fun he => h (by cases id; simp_all)
    simp only [lview, Array.getElem?_push, if_neg hidx]

theorem eq_of_lview_allocateLView {v' : LView}
    (h : (r.allocateLView v).1.lview (r.allocateLView v).2 = .ok v') : v' = v := by
  unfold allocateLView at h
  split at h
  · rename_i i rest hfree
    simp only [lview] at h
    by_cases hlt : i < r.lviews.size
    · simp only [Array.getElem?_setIfInBounds_self_of_lt hlt] at h
      cases h
      rfl
    · simp only [Array.getElem?_setIfInBounds, if_neg hlt,
        Array.getElem?_eq_none (Nat.le_of_not_lt hlt)] at h
      cases h
  · simp only [lview, Array.getElem?_push_size] at h
    cases h
    rfl

@[simp] theorem container_releaseLView (id : LViewId) (cid : ContainerId) :
    (r.releaseLView id).1.container cid = r.container cid := by
  unfold releaseLView
  split <;> rfl

/-- A view live after a release was live before, and is not the one released. -/
theorem lview_releaseLView {id id' : LViewId} {v' : LView}
    (h : (r.releaseLView id).1.lview id' = .ok v') : id' ≠ id ∧ r.lview id' = .ok v' := by
  unfold releaseLView at h
  split at h
  · by_cases hid : id' = id
    · subst hid
      simp [lview, Array.getElem?_setIfInBounds] at h
    · have hidx : id.idx ≠ id'.idx := fun he => hid (by cases id; cases id'; simp_all)
      simp only [lview, Array.getElem?_setIfInBounds_ne hidx] at h
      exact ⟨hid, h⟩
  · refine ⟨fun hid => ?_, h⟩
    subst hid
    simp only [lview] at h
    cases h

@[simp] theorem lview_releaseContainer (cid : ContainerId) (id : LViewId) :
    (r.releaseContainer cid).1.lview id = r.lview id := by
  unfold releaseContainer
  split <;> rfl

/-- A container live after a release was live before, and is not the one released. -/
theorem container_releaseContainer {cid cid' : ContainerId} {k : LContainer}
    (h : (r.releaseContainer cid).1.container cid' = .ok k) : cid' ≠ cid ∧ r.container cid' = .ok k := by
  unfold releaseContainer at h
  split at h
  · by_cases hid : cid' = cid
    · subst hid
      simp [container, Array.getElem?_setIfInBounds] at h
    · have hidx : cid.idx ≠ cid'.idx := fun he => hid (by cases cid; cases cid'; simp_all)
      simp only [container, Array.getElem?_setIfInBounds_ne hidx] at h
      exact ⟨hid, h⟩
  · refine ⟨fun hid => ?_, h⟩
    subst hid
    simp only [container] at h
    cases h

theorem tviews_allocateContainer (c : LContainer) : (r.allocateContainer c).1.tviews = r.tviews := by
  unfold allocateContainer
  split <;> rfl

theorem lviews_allocateContainer (c : LContainer) : (r.allocateContainer c).1.lviews = r.lviews := by
  unfold allocateContainer
  split <;> rfl

theorem tview_allocateContainer (c : LContainer) (id : TViewId) :
    (r.allocateContainer c).1.tview id = r.tview id := by
  unfold tview
  rw [tviews_allocateContainer]

theorem lview_allocateContainer (c : LContainer) (id : LViewId) :
    (r.allocateContainer c).1.lview id = r.lview id := by
  unfold lview
  rw [lviews_allocateContainer]

end Registry

end ViewHydration
