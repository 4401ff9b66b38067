import Mathlib.Order.Defs.Unbundled
import ViewHydration.Proofs.RenderSteps

/-!
# What a render operation may store

Templates and live views keep their nodes, blocks and binding values in slots. An operation
*stores into* a slot when it puts an entry there. `Confined T L tw lw c c'` says that `c'`
differs from `c` only by stores into the slots `tw` of template `T` and `lw` of view `L`: every
other slot of every template and live view keeps its entry. A first pass also threads the
template's tree through the `child` and `next` links of its nodes as later nodes arrive; the links
are not part of an entry (`TData.unlinked`), so filling one in is no store.

An operation can fail half way and keep what it did before the failure. `RenderM.Within x c R Q`
says that every run of `x` from `c`, failing or not, ends in a context related to `c` by `R`, and
that a run that succeeds ends with a value and a context satisfying `Q`. It follows `bind` when
`R` is transitive, so the slots an instruction may store into are gathered from those of its
steps. `RenderM.Still` marks the steps that store into no slot at all.

## Main definitions

- `TData.unlinked`, `TView.entry`, `Registry.entry`, `Registry.slot` — what a slot holds
- `TView.Laid` — the data covers the declared slots, and blocks keep their text nodes past them
- `Registry.Aligned` — every template sits at the index its handle names
- `Confined` — the slots a change may store into
- `RenderM.Within`, `RenderM.Still` — what every run of an operation keeps
-/

namespace ViewHydration

namespace TData

/-- An entry with the tree links of a node forgotten. -/
def unlinked : TData → TData
  | .node n => .node { n with child := none, next := none }
  | d => d

end TData

namespace TView

variable {t : TView} {i j : Nat}

/-- The entry at a slot, links forgotten; past the data every slot is empty. -/
def entry (t : TView) (j : Nat) : TData := (t.data[j]?.getD .empty).unlinked

/-- The data covers the declared node and binding slots, every compiled block keeps its text
nodes in expando slots, past the binding slots, and no template node sits in a binding slot. -/
structure Laid (t : TView) : Prop where
  span : t.decls + t.vars ≤ t.data.size
  texts : ∀ (i : Nat) (b : I18nBlock), t.data[i]? = some (.i18n b) →
    ∀ n ∈ b.nodes, n.kind = .text → t.decls + t.vars ≤ n.index
  unbound : ∀ j, t.decls ≤ j → j < t.decls + t.vars → t.tnode? j = none

/-- Growing the data adds empty slots only. -/
theorem entry_ensureLen (len j : Nat) : (t.ensureLen len).entry j = t.entry j := by
  unfold ensureLen entry
  split
  · by_cases hj : j < t.data.size
    · rw [Array.getElem?_append_left hj]
    · rw [Nat.not_lt] at hj
      rw [Array.getElem?_append_right hj, Array.getElem?_eq_none hj, Array.getElem?_replicate]
      split <;> rfl
  · rfl

theorem size_le_ensureLen (len : Nat) : t.data.size ≤ (t.ensureLen len).data.size := by
  unfold ensureLen
  split
  · simp
  · exact Nat.le_refl _

theorem entry_setIfInBounds_of_ne (h : j ≠ i) (d : TData) :
    ({ t with data := t.data.setIfInBounds i d } : TView).entry j = t.entry j := by
  simp only [entry, Array.getElem?_setIfInBounds_ne (Ne.symm h)]

theorem entry_setData_of_ne (h : j ≠ i) (d : TData) : (t.setData i d).entry j = t.entry j := by
  unfold setData
  rw [entry_setIfInBounds_of_ne h, entry_ensureLen]

theorem size_le_setData (i : Nat) (d : TData) : t.data.size ≤ (t.setData i d).data.size := by
  unfold setData
  simp only [Array.size_setIfInBounds]
  exact size_le_ensureLen _

theorem getElem?_setData_self (i : Nat) (d : TData) : (t.setData i d).data[i]? = some d := by
  unfold setData
  have hlt : i < (t.ensureLen (i + 1)).data.size := Nat.lt_of_succ_le (size_ensureLen _)
  exact Array.getElem?_setIfInBounds_self_of_lt hlt

/-- Filling in a node's links stores nothing. -/
theorem entry_modifyTNode {g : TNode → TNode}
    (hg : ∀ m, { g m with child := none, next := none } = { m with child := none, next := none })
    (i j : Nat) : (t.modifyTNode i g).entry j = t.entry j := by
  unfold modifyTNode
  split
  · rename_i m hm
    by_cases hij : j = i
    · subst hij
      have hlt : j < t.data.size := by
        rcases Nat.lt_or_ge j t.data.size with hlt | hge
        · exact hlt
        · simp [tnode?, Array.getElem?_eq_none hge] at hm
      have hdata : t.data[j]? = some (.node m) := by
        unfold tnode? at hm
        split at hm
        · rename_i n hn
          cases hm
          exact hn
        · cases hm
      simp only [entry, Array.getElem?_setIfInBounds_self_of_lt hlt, hdata, Option.getD_some,
        TData.unlinked, hg]
    · exact entry_setIfInBounds_of_ne hij _
  · rfl

/-- A node edit adds no node. -/
theorem tnode?_modifyTNode_of_none (g : TNode → TNode) (i : Nat) (h : t.tnode? j = none) :
    (t.modifyTNode i g).tnode? j = none := by
  rw [tnode?_modifyTNode, h]
  split <;> rfl

/-- A node edit changes no slot that holds no node. -/
theorem entry_modifyTNode_of_tnode? (g : TNode → TNode) (i : Nat) (h : t.tnode? j = none) :
    (t.modifyTNode i g).entry j = t.entry j := by
  unfold modifyTNode
  split
  · rename_i m hm
    by_cases hij : j = i
    · subst hij
      rw [h] at hm
      cases hm
    · exact entry_setIfInBounds_of_ne hij _
  · rfl

/-- Registration stores the new node at its slot; elsewhere it only fills in a link. -/
theorem entry_registerTNode_of_ne {t' : TView} {n : TNode} {current : Option Nat} {isParent : Bool}
    (h : t.registerTNode n current isParent = .ok t') (hj : j ≠ n.index) :
    t'.entry j = t.entry j := by
  unfold registerTNode at h
  split at h
  · cases h
  · cases h
    rw [entry_setIfInBounds_of_ne hj]
    split
    · rw [entry_modifyTNode _ _ j, entry_ensureLen]
      intro m
      split
      · split <;> rfl
      · rfl
    · split <;> exact entry_ensureLen _ _

theorem size_le_registerTNode {t' : TView} {n : TNode} {current : Option Nat} {isParent : Bool}
    (h : t.registerTNode n current isParent = .ok t') : t.data.size ≤ t'.data.size := by
  unfold registerTNode at h
  split at h
  · cases h
  · cases h
    simp only [Array.size_setIfInBounds]
    split
    · rw [size_modifyTNode]
      exact size_le_ensureLen _
    · split <;> exact size_le_ensureLen _

/-- An expando slot is added empty. -/
theorem entry_allocateExpando (j : Nat) : t.allocateExpando.1.entry j = t.entry j := by
  simp only [allocateExpando, entry]
  by_cases hj : j < t.data.size
  · rw [Array.getElem?_push_lt hj, Array.getElem?_eq_getElem hj]
  · rw [Nat.not_lt] at hj
    rcases Nat.lt_or_ge t.data.size j with hlt | hle
    · rw [Array.getElem?_eq_none (by simp; omega), Array.getElem?_eq_none hj]
    · have : j = t.data.size := Nat.le_antisymm hle hj
      subst this
      rw [Array.getElem?_push_size, Array.getElem?_eq_none (Nat.le_refl _)]
      rfl

/-- A template's handle, declared sizes and program, which no edit of its data changes. -/
def dims (t : TView) : TViewId × Nat × Nat × Program := (t.id, t.decls, t.vars, t.program)

@[simp] theorem dims_ensureLen (len : Nat) : (t.ensureLen len).dims = t.dims := by
  unfold ensureLen
  split <;> rfl

@[simp] theorem dims_setData (i : Nat) (d : TData) : (t.setData i d).dims = t.dims :=
  dims_ensureLen _

@[simp] theorem dims_modifyTNode (i : Nat) (g : TNode → TNode) :
    (t.modifyTNode i g).dims = t.dims := by
  unfold modifyTNode
  split <;> rfl

@[simp] theorem dims_allocateExpando : t.allocateExpando.1.dims = t.dims := rfl

theorem dims_registerTNode {t' : TView} {n : TNode} {current : Option Nat} {isParent : Bool}
    (h : t.registerTNode n current isParent = .ok t') : t'.dims = t.dims := by
  unfold registerTNode at h
  split at h
  · cases h
  · cases h
    -- the new node is written into the data of the linked template
    cases current with
    | some p => exact (dims_modifyTNode _ _).trans (dims_ensureLen _)
    | none =>
      dsimp only
      split <;> exact dims_ensureLen _

theorem decls_vars_of_dims {t' : TView} (h : t'.dims = t.dims) :
    t'.decls = t.decls ∧ t'.vars = t.vars := by
  simp only [dims, Prod.mk.injEq] at h
  exact ⟨h.2.1, h.2.2.1⟩

theorem program_of_dims {t' : TView} (h : t'.dims = t.dims) : t'.program = t.program := by
  simp only [dims, Prod.mk.injEq] at h
  exact h.2.2.2

/-- A slot whose entry is kept holds a node only if it did before. -/
theorem tnode?_eq_none_of_entry {t' : TView} (he : t'.entry j = t.entry j)
    (h : t.tnode? j = none) : t'.tnode? j = none := by
  unfold entry at he
  unfold tnode? at h ⊢
  cases ht' : t'.data[j]? with
  | none => rfl
  | some x' =>
    cases x' with
    | node n' =>
      rw [ht'] at he
      cases ht : t.data[j]? with
      | none =>
        rw [ht] at he
        cases he
      | some x =>
        rw [ht] at he h
        cases x <;> simp_all [TData.unlinked]
    | _ => rfl

/-- A block at a slot whose entry is kept was there before. -/
theorem data_i18n_of_entry {t' : TView} {b : I18nBlock} (he : t'.entry j = t.entry j)
    (h : t'.data[j]? = some (.i18n b)) : t.data[j]? = some (.i18n b) := by
  unfold entry at he
  rw [h] at he
  cases hd : t.data[j]? with
  | none =>
    rw [hd] at he
    cases he
  | some x =>
    rw [hd] at he
    cases x <;> simp only [Option.getD_some, TData.unlinked, reduceCtorEq, TData.i18n.injEq] at he
    rw [he]

/-- An edit that keeps the declared sizes and the program, does not shrink the data, keeps the
entries of the binding slots and writes only blocks whose text nodes are expando slots keeps a
template laid out. -/
theorem Laid.of_blocks {t' : TView} (h : t.Laid) (hdims : t'.dims = t.dims)
    (hsize : t.data.size ≤ t'.data.size)
    (hblocks : ∀ (j : Nat) (b : I18nBlock), t'.data[j]? = some (.i18n b) →
      t.data[j]? = some (.i18n b) ∨
        ∀ n ∈ b.nodes, n.kind = .text → t.decls + t.vars ≤ n.index)
    (hkeep : ∀ j, t.decls ≤ j → j < t.decls + t.vars → t'.entry j = t.entry j) :
    t'.Laid := by
  obtain ⟨hd, hv⟩ := decls_vars_of_dims hdims
  refine ⟨by rw [hd, hv]; exact Nat.le_trans h.span hsize, fun j b hj n hn hk => ?_,
    fun j hlo hhi => ?_⟩
  · rw [hd, hv]
    rcases hblocks j b hj with hold | hnew
    · exact h.texts j b hold n hn hk
    · exact hnew n hn hk
  · rw [hd] at hlo
    rw [hd, hv] at hhi
    exact tnode?_eq_none_of_entry (hkeep j hlo hhi) (h.unbound j hlo hhi)

/-- Registering a node in a node or expando slot keeps a template laid out: the node goes into a
slot that held no block. -/
theorem Laid.registerTNode {t' : TView} {n : TNode} {current : Option Nat} {isParent : Bool}
    (h : t.Laid) (hreg : t.registerTNode n current isParent = .ok t')
    (hn : n.index < t.decls ∨ t.decls + t.vars ≤ n.index) : t'.Laid := by
  refine h.of_blocks (dims_registerTNode hreg) (size_le_registerTNode hreg) (fun j b hj => .inl ?_)
    fun j hlo hhi => entry_registerTNode_of_ne hreg (by omega)
  have hji : j ≠ n.index := by
    rintro rfl
    have hnode := registerTNode_tnode?_self hreg
    simp [tnode?, hj] at hnode
  exact data_i18n_of_entry (entry_registerTNode_of_ne hreg hji) hj

/-- Writing an entry into a node or expando slot keeps a template laid out, when a block written
keeps its text nodes in expando slots. -/
theorem Laid.setData (h : t.Laid) (i : Nat) (x : TData)
    (hi : i < t.decls ∨ t.decls + t.vars ≤ i)
    (hx : ∀ b, x = .i18n b →
      ∀ n ∈ b.nodes, n.kind = .text → t.decls + t.vars ≤ n.index) :
    (t.setData i x).Laid := by
  refine h.of_blocks (dims_setData i x) (size_le_setData i x) (fun j b hj => ?_)
    fun j hlo hhi => entry_setData_of_ne (by omega) x
  by_cases hji : j = i
  · subst hji
    rw [getElem?_setData_self, Option.some.injEq] at hj
    exact .inr (hx b hj)
  · exact .inl (data_i18n_of_entry (entry_setData_of_ne hji x) hj)

/-- A node edit keeps every compiled block where it was. -/
theorem Laid.modifyTNode (h : t.Laid) (i : Nat) (g : TNode → TNode) :
    (t.modifyTNode i g).Laid := by
  refine h.of_blocks (dims_modifyTNode i g) (Nat.le_of_eq (size_modifyTNode i g).symm)
    (fun j b hj => .inl ?_) fun j hlo hhi => entry_modifyTNode_of_tnode? g i (h.unbound j hlo hhi)
  unfold TView.modifyTNode at hj
  split at hj
  · by_cases hij : i = j
    · subst hij
      simp [Array.getElem?_setIfInBounds_self_of_lt (lt_size_of_tnode? ‹_›)] at hj
    · rwa [Array.getElem?_setIfInBounds_ne hij] at hj
  · exact hj

/-- A fresh template is laid out when its node and binding slots fit a machine word; a larger sum
wraps around and leaves the data shorter than the declared slots. -/
theorem laid_ofDef (id : TViewId) (td : TemplateDef) (h : td.decls + td.vars < Nat.pow 2 64) :
    (ofDef id td).Laid := by
  refine ⟨?_, fun i b hi => ?_, fun j _ _ => ?_⟩
  · simp [ofDef, slotSpan, Nat.mod_eq_of_lt h]
  · simp only [ofDef, Array.getElem?_replicate] at hi
    split at hi <;> cases hi
  · simp only [tnode?, ofDef, Array.getElem?_replicate]
    by_cases hj : j < slotSpan td.decls td.vars <;> simp [hj]

end TView

namespace Registry

variable {r : Registry}

/-- The entry at a slot of a template; a template that does not exist has only empty slots. -/
def entry (r : Registry) (id : TViewId) (j : Nat) : TData :=
  match r.tviews[id.idx]? with
  | some t => t.entry j
  | none => .empty

/-- What a live view holds at a slot; a view that is not live holds nothing. -/
def slot (r : Registry) (id : LViewId) (j : Nat) : Slot :=
  match r.lviews[id.idx]? with
  | some (some v) => v.slot j
  | _ => .empty

/-- Every template sits at the index its handle names, so writing a template back under its
handle replaces it. -/
def Aligned (r : Registry) : Prop :=
  ∀ (i : Nat) (t : TView), r.tviews[i]? = some t → t.id.idx = i

/-- Template `T` exists, declares `d` node slots and `v` binding slots, and is laid out. -/
def LaidAt (r : Registry) (T : TViewId) (d v : Nat) : Prop :=
  ∃ t, r.tview T = .ok t ∧ t.decls = d ∧ t.vars = v ∧ t.Laid

theorem entry_eq_of_tview {id : TViewId} {t : TView} (h : r.tview id = .ok t) (j : Nat) :
    r.entry id j = t.entry j := by
  unfold tview at h
  unfold entry
  cases ht : r.tviews[id.idx]? with
  | none =>
    rw [ht] at h
    cases h
  | some t' =>
    rw [ht] at h
    cases h
    rfl

theorem slot_eq_of_lview {id : LViewId} {v : LView} (h : r.lview id = .ok v) (j : Nat) :
    r.slot id j = v.slot j := by
  unfold lview at h
  unfold slot
  rcases hv : r.lviews[id.idx]? with _ | _ | v'
  · rw [hv] at h
    cases h
  · rw [hv] at h
    cases h
  · rw [hv] at h
    cases h
    rfl

/-- A template read under its handle carries that handle. -/
theorem Aligned.id_eq {id : TViewId} {t : TView} (ha : r.Aligned) (h : r.tview id = .ok t) :
    t.id = id := by
  unfold tview at h
  split at h
  · rename_i t' ht'
    cases h
    exact congrArg TViewId.mk (ha _ _ ht') |>.trans rfl
  · cases h

/-- A template with the sizes and program of the one read under a handle carries that handle. -/
theorem Aligned.id_of_dims {id : TViewId} {t t' : TView} (ha : r.Aligned) (h : r.tview id = .ok t)
    (hdims : t'.dims = t.dims) : t'.id = id := by
  rw [← ha.id_eq h]
  simp only [TView.dims, Prod.mk.injEq] at hdims
  exact hdims.1

theorem Aligned.setTView (ha : r.Aligned) (t : TView) : (r.setTView t).Aligned := by
  intro i u hu
  unfold Registry.setTView at hu
  by_cases hi : i = t.id.idx
  · subst hi
    rw [Array.getElem?_setIfInBounds_self] at hu
    split at hu
    · cases hu
      rfl
    · cases hu
  · rw [Array.getElem?_setIfInBounds_ne (Ne.symm hi)] at hu
    exact ha i u hu

theorem tview_setTView_of_ne {t : TView} {id : TViewId} (h : t.id ≠ id) :
    (r.setTView t).tview id = r.tview id := by
  have hidx : t.id.idx ≠ id.idx := fun he => h (by cases hid : t.id; cases id; simp_all)
  simp only [tview, setTView, Array.getElem?_setIfInBounds_ne hidx]

/-- Every template of `r` is still there in `r'`, with its handle, sizes and program, and laid out
when it was. -/
structure KeepsTemplates (r r' : Registry) : Prop where
  size : r'.tviews.size = r.tviews.size
  kept : ∀ id t t', r.tview id = .ok t → r'.tview id = .ok t' → t'.dims = t.dims ∧ (t.Laid → t'.Laid)

namespace KeepsTemplates

variable {r₁ r₂ r₃ : Registry} {id : TViewId} {t : TView}

theorem refl (r : Registry) : r.KeepsTemplates r :=
  ⟨rfl, fun _ _ _ h h' => by
    rw [h] at h'
    cases h'
    exact ⟨rfl, fun h => h⟩⟩

theorem tview_ok (h : r₁.KeepsTemplates r₂) (ht : r₁.tview id = .ok t) :
    ∃ t', r₂.tview id = .ok t' ∧ t'.dims = t.dims ∧ (t.Laid → t'.Laid) := by
  obtain ⟨t', ht'⟩ := tview_ok_iff.mpr (h.size ▸ tview_ok_iff.mp ⟨t, ht⟩)
  exact ⟨t', ht', h.kept id t t' ht ht'⟩

/-- A template of the later registry was there before, with the same handle, sizes and program. -/
theorem tview_ok_back {t' : TView} (h : r₁.KeepsTemplates r₂) (ht' : r₂.tview id = .ok t') :
    ∃ t, r₁.tview id = .ok t ∧ t'.dims = t.dims ∧ (t.Laid → t'.Laid) := by
  obtain ⟨t, ht⟩ := tview_ok_iff.mpr (h.size ▸ tview_ok_iff.mp ⟨t', ht'⟩)
  exact ⟨t, ht, h.kept id t t' ht ht'⟩

theorem trans (h₁ : r₁.KeepsTemplates r₂) (h₂ : r₂.KeepsTemplates r₃) : r₁.KeepsTemplates r₃ := by
  refine ⟨h₂.size.trans h₁.size, fun id t t'' ht ht'' => ?_⟩
  obtain ⟨t', ht', hd₁, hl₁⟩ := h₁.tview_ok ht
  obtain ⟨hd₂, hl₂⟩ := h₂.kept id t' t'' ht' ht''
  exact ⟨hd₂.trans hd₁, fun hl => hl₂ (hl₁ hl)⟩

/-- A change that leaves the templates as they are keeps them. -/
theorem of_tviews (h : r₂.tviews = r₁.tviews) : r₁.KeepsTemplates r₂ := by
  refine ⟨by rw [h], fun id t t' ht ht' => ?_⟩
  rw [tview_eq_of_tviews h, ht] at ht'
  cases ht'
  exact ⟨rfl, fun h => h⟩

theorem aligned (h : r₁.KeepsTemplates r₂) (ha : r₁.Aligned) : r₂.Aligned := by
  intro i t' ht'
  have ht₂ : r₂.tview ⟨i⟩ = .ok t' := by simp [Registry.tview, ht']
  obtain ⟨t, ht, hdims, -⟩ := h.tview_ok_back ht₂
  rw [ha.id_of_dims ht hdims]

/-- Writing back a template with its handle, sizes and program, laid out when it was, keeps the
templates. -/
theorem setTView {t' : TView} (ha : r₁.Aligned) (ht : r₁.tview id = .ok t)
    (hdims : t'.dims = t.dims) (hlaid : t.Laid → t'.Laid) : r₁.KeepsTemplates (r₁.setTView t') := by
  have hid : t'.id = id := ha.id_of_dims ht hdims
  refine ⟨size_setTView, fun id' u u' hu hu' => ?_⟩
  by_cases hT : id' = id
  · subst hT
    have hset : (r₁.setTView t').tview id' = .ok t' := hid ▸ tview_setTView_self (hid ▸ ht)
    rw [ht] at hu
    cases hu
    rw [hset] at hu'
    cases hu'
    exact ⟨hdims, hlaid⟩
  · rw [tview_setTView_of_ne fun h => hT (h.symm.trans hid), hu] at hu'
    cases hu'
    exact ⟨rfl, fun h => h⟩

theorem laidAt {T : TViewId} {d v : Nat} (h : r₁.KeepsTemplates r₂) (hl : r₁.LaidAt T d v) :
    r₂.LaidAt T d v := by
  obtain ⟨t, ht, hd, hv, hlaid⟩ := hl
  obtain ⟨t', ht', hdims, hlaid'⟩ := h.tview_ok ht
  obtain ⟨hd', hv'⟩ := TView.decls_vars_of_dims hdims
  exact ⟨t', ht', hd'.trans hd, hv'.trans hv, hlaid' hlaid⟩

end KeepsTemplates

theorem entry_setTView_of_ne {t : TView} {id : TViewId} (h : id ≠ t.id) (j : Nat) :
    (r.setTView t).entry id j = r.entry id j := by
  have hidx : t.id.idx ≠ id.idx := fun he => h (by cases id; cases ht : t.id; simp_all)
  simp only [entry, Registry.setTView, Array.getElem?_setIfInBounds_ne hidx]

theorem entry_setTView_self {t : TView} (hlt : t.id.idx < r.tviews.size) (j : Nat) :
    (r.setTView t).entry t.id j = t.entry j := by
  simp only [entry, Registry.setTView, Array.getElem?_setIfInBounds_self_of_lt hlt]

@[simp] theorem slot_setTView (t : TView) (id : LViewId) (j : Nat) :
    (r.setTView t).slot id j = r.slot id j := rfl

theorem slot_setLView_of_ne {id L : LViewId} (h : id ≠ L) (v : LView) (j : Nat) :
    (r.setLView L v).slot id j = r.slot id j := by
  have hidx : L.idx ≠ id.idx := fun he => h (by cases id; cases L; simp_all)
  simp only [slot, Registry.setLView, Array.getElem?_setIfInBounds_ne hidx]

theorem slot_setLView_self {L : LViewId} {v₀ : LView} (h : r.lview L = .ok v₀) (v : LView)
    (j : Nat) :
    (r.setLView L v).slot L j = v.slot j :=
  slot_eq_of_lview (lview_setLView_self h) j

@[simp] theorem entry_setLView (L : LViewId) (v : LView) (id : TViewId) (j : Nat) :
    (r.setLView L v).entry id j = r.entry id j := rfl

theorem slot_allocateContainer (c : LContainer) (id : LViewId) (j : Nat) :
    (r.allocateContainer c).1.slot id j = r.slot id j := by
  simp only [slot, lviews_allocateContainer]

/-- `r'` has the live views of `r`, each with its template, and the containers of `r`. -/
structure SameViews (r r' : Registry) : Prop where
  views : ∀ id, (r'.lview id).map LView.tview = (r.lview id).map LView.tview
  containers : r'.containers = r.containers

theorem SameViews.refl (r : Registry) : r.SameViews r := ⟨fun _ => rfl, rfl⟩

theorem SameViews.trans {r₁ r₂ r₃ : Registry} (h₁ : r₁.SameViews r₂) (h₂ : r₂.SameViews r₃) :
    r₁.SameViews r₃ :=
  ⟨fun id => (h₂.views id).trans (h₁.views id), h₂.containers.trans h₁.containers⟩

/-- Writing back an edit of a live view with its template. -/
theorem SameViews.setLView {id : LViewId} {v v' : LView} (hv : r.lview id = .ok v)
    (ht : v'.tview = v.tview) : r.SameViews (r.setLView id v') := by
  refine ⟨fun id' => ?_, rfl⟩
  by_cases hid : id' = id
  · subst hid
    rw [lview_setLView_self hv, hv]
    simp only [Except.map, ht]
  · rw [lview_setLView_of_ne hid]

/-- `r'` is `r` with stores only into the slots `tw` of template `T` and `lw` of view `L`: every
other slot of every template and live view keeps its entry. -/
structure Stores (T : TViewId) (L : LViewId) (tw lw : Nat → Prop) (r r' : Registry) : Prop where
  entry : ∀ id j, (id = T → ¬ tw j) → r'.entry id j = r.entry id j
  slot : ∀ id j, (id = L → ¬ lw j) → r'.slot id j = r.slot id j

namespace Stores

variable {T : TViewId} {L : LViewId} {tw lw : Nat → Prop} {r₁ r₂ r₃ : Registry}

theorem refl (r : Registry) : r.Stores T L tw lw r := ⟨fun _ _ _ => rfl, fun _ _ _ => rfl⟩

theorem trans (h₁ : r₁.Stores T L tw lw r₂) (h₂ : r₂.Stores T L tw lw r₃) :
    r₁.Stores T L tw lw r₃ :=
  ⟨fun id j hj => (h₂.entry id j hj).trans (h₁.entry id j hj),
    fun id j hj => (h₂.slot id j hj).trans (h₁.slot id j hj)⟩

/-- Stores confined to some slots are confined to more. -/
theorem mono {tw' lw' : Nat → Prop} (h : r₁.Stores T L tw lw r₂) (ht : ∀ j, tw j → tw' j)
    (hl : ∀ j, lw j → lw' j) : r₁.Stores T L tw' lw' r₂ :=
  ⟨fun id j hj => h.entry id j fun hid htw => hj hid (ht j htw),
    fun id j hj => h.slot id j fun hid hlw => hj hid (hl j hlw)⟩

end Stores

end Registry

namespace Frame

/-- The view a frame renders, its template, and the next binding slot the frame claims. -/
def pass (f : Frame) : LViewId × TViewId × Nat := (f.lview, f.tview, f.bindingIndex)

end Frame

/-- `c'` differs from `c` by stores into the slots `tw` of template `T` and `lw` of view `L` only.
Every template keeps its handle, sizes and program and stays laid out, and every frame keeps its
view, template and binding counter. -/
structure Confined (T : TViewId) (L : LViewId) (tw lw : Nat → Prop) (c c' : Context) : Prop where
  stores : c.registry.Stores T L tw lw c'.registry
  kept : c.registry.KeepsTemplates c'.registry
  passes : c'.frames.map Frame.pass = c.frames.map Frame.pass

namespace Confined

variable {T : TViewId} {L : LViewId} {tw lw : Nat → Prop} {c c₁ c₂ c₃ : Context}

theorem refl (c : Context) : Confined T L tw lw c c :=
  ⟨.refl _, .refl _, rfl⟩

theorem trans (h₁ : Confined T L tw lw c₁ c₂) (h₂ : Confined T L tw lw c₂ c₃) :
    Confined T L tw lw c₁ c₃ :=
  ⟨h₁.stores.trans h₂.stores, h₁.kept.trans h₂.kept, h₂.passes.trans h₁.passes⟩

instance : IsTrans Context (Confined T L tw lw) := ⟨fun _ _ _ => trans⟩

theorem aligned (h : Confined T L tw lw c₁ c₂) (ha : c₁.registry.Aligned) : c₂.registry.Aligned :=
  h.kept.aligned ha

theorem laid (h : Confined T L tw lw c₁ c₂) (d v : Nat) (hl : c₁.registry.LaidAt T d v) :
    c₂.registry.LaidAt T d v :=
  h.kept.laidAt hl

/-- A change confined to some slots is confined to more. -/
theorem mono {tw' lw' : Nat → Prop} (h : Confined T L tw lw c₁ c₂)
    (ht : ∀ j, tw j → tw' j) (hl : ∀ j, lw j → lw' j) : Confined T L tw' lw' c₁ c₂ :=
  ⟨h.stores.mono ht hl, h.kept, h.passes⟩

/-- A change that keeps every template, the slots of every live view and the passes of the
frames stores nowhere. -/
theorem of_still (ht : c₂.registry.tviews = c₁.registry.tviews)
    (hs : ∀ id j, c₂.registry.slot id j = c₁.registry.slot id j)
    (hp : c₂.frames.map Frame.pass = c₁.frames.map Frame.pass) :
    Confined T L tw lw c₁ c₂ :=
  ⟨⟨fun id j _ => by simp only [Registry.entry, ht], fun id j _ => hs id j⟩,
    .of_tviews ht, hp⟩

end Confined

namespace RenderM

variable {α β : Type}

/-- Every run of `x` from `c`, failing or not, ends in a context related to `c` by `R`, and a run
that succeeds ends with a value and a context satisfying `Q`. -/
def Within (x : RenderM α) (c : Context) (R : Context → Context → Prop)
    (Q : α → Context → Prop) : Prop :=
  R c (x.run.run c).2 ∧ ∀ a c', x.run.run c = (.ok a, c') → Q a c'

/-- Every run of `x`, failing or not, keeps every template, the slots of every live view, the
view, template and binding counter of every frame, and the live views with their templates and
the containers. -/
def Still (x : RenderM α) : Prop :=
  ∀ c, (x.run.run c).2.registry.tviews = c.registry.tviews ∧
    (∀ id j, (x.run.run c).2.registry.slot id j = c.registry.slot id j) ∧
    (x.run.run c).2.frames.map Frame.pass = c.frames.map Frame.pass ∧
    c.registry.SameViews (x.run.run c).2.registry

namespace Still

theorem bind {x : RenderM α} {f : α → RenderM β} (hx : Still x) (hf : ∀ a, Still (f a)) :
    Still (x >>= f) := by
  intro c
  rw [run_bind]
  obtain ⟨h₁, h₂, h₃, h₄⟩ := hx c
  rcases hr : x.run.run c with ⟨_ | a, c₁⟩
  · rw [hr] at h₁ h₂ h₃ h₄
    exact ⟨h₁, h₂, h₃, h₄⟩
  · rw [hr] at h₁ h₂ h₃ h₄
    obtain ⟨h₅, h₆, h₇, h₈⟩ := hf a c₁
    exact ⟨h₅.trans h₁, fun id j => (h₆ id j).trans (h₂ id j), h₇.trans h₃, h₄.trans h₈⟩

theorem pure (a : α) : Still (Pure.pure a : RenderM α) :=
  fun c => ⟨rfl, fun _ _ => rfl, rfl, .refl c.registry⟩

theorem get : Still (get : RenderM Context) := fun c => ⟨rfl, fun _ _ => rfl, rfl, .refl c.registry⟩

theorem throw (e : RenderError) : Still (throw e : RenderM α) :=
  fun c => ⟨rfl, fun _ _ => rfl, rfl, .refl c.registry⟩

/-- A change of the context that keeps the registry and the frames' passes. -/
theorem modify {f : Context → Context} (h : ∀ c, (f c).registry = c.registry)
    (hp : ∀ c, (f c).frames.map Frame.pass = c.frames.map Frame.pass) :
    Still (modify f : RenderM PUnit) := fun c => by
  rw [run_modify, h c]
  exact ⟨rfl, fun _ _ => rfl, hp c, .refl c.registry⟩

theorem ite {p : Prop} [Decidable p] {x y : RenderM α} (hx : Still x) (hy : Still y) :
    Still (if p then x else y) := by
  split
  · exact hx
  · exact hy

theorem discard {x : RenderM α} (hx : Still x) : Still (discard x) := by
  rw [discard_eq]
  exact bind hx fun _ => pure _

/-- A fold whose every step stores nowhere stores nowhere. -/
theorem foldlM {γ : Type} {f : β → γ → RenderM β} (hf : ∀ acc a, Still (f acc a))
    (xs : List γ) (init : β) : Still (xs.foldlM f init) := by
  induction xs generalizing init with
  | nil => exact pure _
  | cons a rest ih => exact bind (hf init a) fun acc => ih acc

/-- A loop whose every round stores nowhere stores nowhere. -/
theorem forIn {γ : Type} {f : γ → β → RenderM (ForInStep β)} (hf : ∀ a b, Still (f a b))
    (xs : List γ) (init : β) : Still (forIn xs init f) := by
  induction xs generalizing init with
  | nil => exact pure _
  | cons a rest ih =>
    rw [List.forIn_cons]
    refine bind (hf a init) fun r => ?_
    cases r with
    | done b => exact pure b
    | yield b => exact ih b

theorem structural (e : StructuralError) : Still (structural e : RenderM α) := throw _

theorem hydration (e : HydrationError) : Still (hydration e : RenderM α) := throw _

theorem ofStructural (e : Except StructuralError α) : Still (ofStructural e) := by
  cases e
  · exact throw _
  · exact pure _

theorem ofHydration (e : Except HydrationError α) : Still (ofHydration e) := by
  cases e
  · exact throw _
  · exact pure _

theorem ofI18n (e : Except I18nError α) : Still (ofI18n e) := by
  cases e
  · exact throw _
  · exact pure _

theorem ofExcept (e : Except RenderError α) : Still (ofExcept e) := by
  cases e
  · exact throw _
  · exact pure _

theorem emit (e : Event) : Still (emit e) := modify (fun _ => rfl) fun _ => rfl

theorem modifyDoc (g : Document → Document) : Still (modifyDoc g) :=
  modify (fun _ => rfl) fun _ => rfl

theorem frame : Still frame := by
  unfold RenderM.frame
  refine bind get fun c => ?_
  split
  · exact pure _
  · exact structural _

/-- An edit of the top frame that keeps its pass. -/
theorem modifyFrame {g : Frame → Frame} (hg : ∀ f, (g f).pass = f.pass) :
    Still (modifyFrame g) := by
  intro c
  cases hc : c.frames with
  | nil =>
    have hrun : (RenderM.modifyFrame g).run.run c = (.error (.structural .noActiveView), c) := by
      simp only [RenderM.modifyFrame, run_bind, run_get, hc]
      rfl
    rw [hrun]
    exact ⟨rfl, fun _ _ => rfl, congrArg (List.map Frame.pass) hc, .refl c.registry⟩
  | cons top rest =>
    have hrun :
        (RenderM.modifyFrame g).run.run c = (.ok ⟨⟩, { c with frames := g top :: rest }) := by
      simp only [RenderM.modifyFrame, run_bind, run_get, hc, run_modify]
    rw [hrun]
    exact ⟨rfl, fun _ _ => rfl, by simp only [List.map_cons, hg], .refl c.registry⟩

theorem active : Still active := bind frame fun _ => pure _

theorem setCurrent (index : Nat) (isParent : Bool) : Still (setCurrent index isParent) :=
  modifyFrame fun _ => rfl

theorem tview (id : TViewId) : Still (tview id) := bind get fun _ => ofStructural _

theorem lview (id : LViewId) : Still (lview id) := bind get fun _ => ofStructural _

theorem viewPair (id : LViewId) : Still (viewPair id) := bind get fun _ => ofStructural _

theorem container (id : ContainerId) : Still (container id) := bind get fun _ => ofStructural _

theorem containerIn (view : LViewId) (index : Nat) : Still (containerIn view index) := by
  unfold RenderM.containerIn
  refine bind (lview _) fun v => ?_
  split
  · exact pure _
  · exact structural _

theorem containerAt (index : Nat) : Still (containerAt index) :=
  bind active fun _ => containerIn _ _

theorem localRef (name : String) : Still (localRef name) :=
  bind active fun _ => bind (viewPair _) fun _ => pure _

/-! ### Steps that store nowhere -/

/-- An edit of a live view that keeps its data and its template. -/
theorem modifyLView {id : LViewId} {g : LView → LView} (hg : ∀ v, (g v).data = v.data)
    (ht : ∀ v, (g v).tview = v.tview) : Still (modifyLView id g) := by
  intro c
  cases hv : c.registry.lview id with
  | error e =>
    have hrun : (RenderM.modifyLView id g).run.run c = (.error (.structural e), c) := by
      simp only [RenderM.modifyLView, RenderM.lview, run_bind, run_get, hv]
      rfl
    rw [hrun]
    exact ⟨rfl, fun _ _ => rfl, rfl, .refl c.registry⟩
  | ok v =>
    obtain ⟨_, _, hrun, rfl⟩ := modifyLView_ok hv g
    rw [hrun]
    refine ⟨rfl, fun id' j => ?_, rfl, Registry.SameViews.setLView hv (ht v)⟩
    by_cases hid : id' = id
    · subst hid
      rw [Registry.slot_setLView_self hv, Registry.slot_eq_of_lview hv]
      simp only [LView.slot, hg]
    · exact Registry.slot_setLView_of_ne hid _ _

theorem checkCreationSlot (index : Nat) : Still (checkCreationSlot index) := by
  unfold RenderM.checkCreationSlot
  refine bind frame fun f => bind (tview _) fun t => ?_
  exact ite (bind (structural _) fun _ => ite (structural _) (pure _))
    (ite (structural _) (pure _))

theorem createNode (req : NodeRequest) : Still (createNode req) := by
  intro c
  cases req <;> exact ⟨rfl, fun _ _ => rfl, rfl, .refl c.registry⟩

theorem expectKind (index : Nat) (node : NodeId) (kind : NodeKind) :
    Still (expectKind index node kind) :=
  bind get fun _ => ite (hydration _) (pure _)

theorem claim (node : NodeId) : Still (claim node) := by
  intro c
  simp only [RenderM.claim, run_bind, run_get]
  cases c.claims.claim node <;> exact ⟨rfl, fun _ _ => rfl, rfl, .refl c.registry⟩

theorem insertCreated (view : LViewId) (index : Nat) (node : NodeId) :
    Still (insertCreated view index node) := by
  unfold RenderM.insertCreated
  refine bind (viewPair _) fun p => ?_
  obtain ⟨t, v⟩ := p
  exact bind (ofStructural _) fun _ => bind get fun _ => bind (ofStructural _) fun _ => modifyDoc _

theorem openNode (index : Nat) (flags : TNodeFlags) : Still (openNode index flags) :=
  bind (setCurrent _ _) fun _ => modifyFrame fun _ => rfl

theorem closeNode (expected : TNodeType) (instr : EndInstruction) :
    Still (closeNode expected instr) := by
  unfold RenderM.closeNode
  refine bind frame fun f => ?_
  -- each join point of the do block is proved once and then forgotten
  extract_lets close
  have hclose : ∀ r, Still (close r) := by
    intro _
    dsimp -zeta only [close]
    split
    · refine bind (tview _) fun t => ?_
      extract_lets finish
      have hfinish : ∀ closing, Still (finish closing) := by
        intro _
        dsimp -zeta only [finish]
        refine bind (ofStructural _) fun n => ?_
        extract_lets leave
        have hleave : ∀ r, Still (leave r) := fun _ =>
          bind (setCurrent _ _) fun _ => bind (modifyFrame fun _ => rfl) fun _ => pure _
        clear_value leave
        exact ite (bind (structural _) fun _ => hleave _) (hleave _)
      clear_value finish
      refine ite (bind (pure _) fun _ => hfinish _) (bind (ofStructural _) fun n => ?_)
      split
      · exact bind (pure _) fun _ => hfinish _
      · exact bind (structural _) fun _ => hfinish _
    · exact structural _
  clear_value close
  exact ite (bind (structural _) fun _ => hclose _) (hclose _)

theorem runDirectives (view : LViewId) (index : Nat) (tag : String) (node : NodeId)
    (flags : TNodeFlags) : Still (runDirectives view index tag node flags) := by
  unfold RenderM.runDirectives
  refine ite (bind get fun c => ?_) (pure _)
  split
  · exact bind (emit _) fun _ => bind (ofExcept _) fun _ =>
      ite (bind (emit _) fun _ => ofExcept _) (pure _)
  · exact pure _

theorem materialize (index : Nat) (req : NodeRequest) : Still (materialize index req) := by
  unfold RenderM.materialize
  refine bind frame fun f => bind (viewPair _) fun p => ?_
  obtain ⟨t, v⟩ := p
  refine bind (ofStructural _) fun tnode => bind get fun c => ?_
  split
  · refine bind get fun _ => bind (ofHydration _) fun current => ?_
    split
    · -- an element
      refine bind (expectKind _ _ _) fun _ => bind get fun _ => ?_
      extract_lets -underBinder found rest
      have hrest : ∀ r, Still (rest r) := by
        intro _
        dsimp -zeta only [rest]
        refine bind (claim _) fun _ => ?_
        extract_lets done
        have hdone : ∀ r, Still (done r) := fun _ => pure _
        clear_value done
        exact ite (bind (modifyDoc _) fun _ => hdone _) (hdone _)
      clear_value rest
      exact ite (bind (hydration _) fun _ => hrest _) (hrest _)
    · -- a text node
      exact bind (expectKind _ _ _) fun _ => bind (claim _) fun _ => pure _
    · -- an element container
      split
      · refine bind get fun _ => ?_
        extract_lets -underBinder doc anchor
        -- the container's start is recorded in the hydration info, not in the view's data
        have hanchor : ∀ comment, Still (anchor comment) := fun _ =>
          bind (modifyLView (fun _ => rfl) fun _ => rfl) fun _ =>
            bind (expectKind _ _ _) fun _ => bind (claim _) fun _ => pure _
        clear_value anchor
        refine ite ?_ ?_
        · split
          · exact bind (pure _) fun _ => hanchor _
          · exact bind (hydration _) fun _ => hanchor _
        · split
          · refine bind (ofHydration _) fun p => ?_
            obtain ⟨a, dehydrated⟩ := p
            exact bind (modify (fun _ => rfl) fun _ => rfl) fun _ =>
              bind (pure _) fun _ => hanchor _
          · exact bind (hydration _) fun _ => hanchor _
      · exact hydration _
    · -- a container anchor
      split
      · refine bind get fun _ => bind (ofHydration _) fun p => ?_
        obtain ⟨a, dehydrated⟩ := p
        exact bind (modify (fun _ => rfl) fun _ => rfl) fun _ =>
          bind (expectKind _ _ _) fun _ => bind (claim _) fun _ => pure _
      · exact hydration _
  · exact bind (createNode _) fun _ => pure _

/-- Applying the expressions of a block clears the frame's change mask and writes the document
only. -/
theorem i18nApply (index : Nat) : Still (i18nApply index) := by
  unfold RenderM.i18nApply
  refine bind active fun _ => bind frame fun f => bind (modifyFrame fun _ => rfl) fun _ => ?_
  refine ite (bind (tview _) fun t => ?_) (pure _)
  extract_lets -underBinder apply
  have happly : ∀ ops, Still (apply ops) := by
    intro ops
    dsimp -zeta only [apply]
    refine bind (lview _) fun v => bind (forIn (fun op _ => ?_) _ _) fun _ => pure _
    refine ite ?_ (pure _)
    split
    · split
      · exact bind (modifyDoc _) fun _ => pure _
      · exact bind (hydration _) fun _ => pure _
    · split
      · exact bind (modifyDoc _) fun _ => pure _
      · exact bind (hydration _) fun _ => pure _
  clear_value apply
  split
  · exact bind (pure _) fun _ => happly _
  · exact bind (pure _) fun _ => happly _
  · exact bind (structural _) fun _ => happly _

end Still

theorem run_tryCatch_ok {x : RenderM α} {c c₁ : Context} {a : α}
    {handler : RenderError → RenderM α} (h : x.run.run c = (.ok a, c₁)) :
    (tryCatch x handler).run.run c = (.ok a, c₁) := by
  show (ExceptT.tryCatch x handler).run.run c = _
  rw [ExceptT.tryCatch, ExceptT.run_mk, StateT.run_bind]
  simp only [ExceptT.run] at h ⊢
  rw [h]
  rfl

theorem run_tryCatch_error {x : RenderM α} {c c₁ : Context} {e : RenderError}
    {handler : RenderError → RenderM α} (h : x.run.run c = (.error e, c₁)) :
    (tryCatch x handler).run.run c = (handler e).run.run c₁ := by
  show (ExceptT.tryCatch x handler).run.run c = _
  rw [ExceptT.tryCatch, ExceptT.run_mk, StateT.run_bind]
  simp only [ExceptT.run] at h ⊢
  rw [h]
  rfl

/-- `x` only reads `c`: its run from `c` ends in `c`, failing or not, and a value it returns
satisfies `P`. -/
def Reads (x : RenderM α) (c : Context) (P : α → Prop) : Prop :=
  ∃ r, x.run.run c = (r, c) ∧ ∀ a, r = .ok a → P a

namespace Reads

variable {x : RenderM α} {c : Context} {P Q : α → Prop}

theorem of_ok (h : Ok x c fun a c' => P a ∧ c = c') : Reads x c P := by
  obtain ⟨a, c', hrun, hp, rfl⟩ := h
  exact ⟨.ok a, hrun, fun b hb => by cases hb; exact hp⟩

theorem mono (h : Reads x c P) (hpq : ∀ a, P a → Q a) : Reads x c Q := by
  obtain ⟨r, hrun, hp⟩ := h
  exact ⟨r, hrun, fun a ha => hpq a (hp a ha)⟩

theorem pure {a : α} (h : P a) : Reads (Pure.pure a) c P :=
  ⟨.ok a, rfl, fun b hb => by cases hb; exact h⟩

theorem throw (e : RenderError) : Reads (throw e : RenderM α) c P :=
  ⟨.error e, rfl, fun _ h => by cases h⟩

theorem structural (e : StructuralError) : Reads (structural e : RenderM α) c P := throw _

theorem ofI18n (e : Except I18nError α) : Reads (ofI18n e) c fun a => e = .ok a := by
  cases e with
  | error e => exact throw _
  | ok a => exact pure rfl

theorem get : Reads (get : RenderM Context) c fun a => a = c := pure rfl

theorem ofStructural (e : Except StructuralError α) :
    Reads (ofStructural e) c fun a => e = .ok a := by
  cases e with
  | error e => exact throw _
  | ok a => exact pure rfl

theorem bind {f : α → RenderM β} {Q : β → Prop} (hx : Reads x c P)
    (hf : ∀ a, P a → Reads (f a) c Q) :
    Reads (x >>= f) c Q := by
  obtain ⟨r, hrun, hp⟩ := hx
  cases r with
  | error e => exact ⟨.error e, by rw [run_bind, hrun], fun _ h => by cases h⟩
  | ok a =>
    obtain ⟨r', hrun', hq⟩ := hf a (hp a rfl)
    exact ⟨r', by rw [run_bind, hrun]; exact hrun', hq⟩

theorem ite {p : Prop} [Decidable p] {y : RenderM α} (hx : p → Reads x c P)
    (hy : ¬p → Reads y c P) :
    Reads (if p then x else y) c P := by
  by_cases hp : p
  · simpa [hp] using hx hp
  · simpa [hp] using hy hp

theorem frame : Reads frame c fun f => ∃ rest, c.frames = f :: rest := by
  unfold RenderM.frame
  refine bind get fun _ hc => ?_
  subst hc
  split
  · rename_i f rest hfr
    exact pure ⟨rest, hfr⟩
  · exact structural _

theorem active :
    Reads active c fun p => ∃ f rest, c.frames = f :: rest ∧ p = (f.lview, f.tview) :=
  bind frame fun f ⟨rest, hfr⟩ => pure ⟨f, rest, hfr, rfl⟩

theorem tview (id : TViewId) : Reads (tview id) c fun t => c.registry.tview id = .ok t :=
  bind get fun _ hc => by subst hc; exact ofStructural _

theorem lview (id : LViewId) : Reads (lview id) c fun v => c.registry.lview id = .ok v :=
  bind get fun _ hc => by subst hc; exact ofStructural _

theorem viewPair (id : LViewId) : Reads (viewPair id) c fun p => c.registry.viewPair id = .ok p :=
  bind get fun _ hc => by subst hc; exact ofStructural _

theorem container (id : ContainerId) :
    Reads (container id) c fun k => c.registry.container id = .ok k :=
  bind get fun _ hc => by subst hc; exact ofStructural _

end Reads

namespace Within

variable {x : RenderM α} {c : Context} {R R' : Context → Context → Prop}
  {P Q : α → Context → Prop}

/-- Steps run in sequence: the first keeps `R` and ends in `P`; from any context it reached, the
rest keeps `R` and ends in `Q`. -/
theorem bind [IsTrans Context R] {f : α → RenderM β} {Q : β → Context → Prop}
    (hx : Within x c R P) (hf : ∀ a c₁, R c c₁ → P a c₁ → Within (f a) c₁ R Q) :
    Within (x >>= f) c R Q := by
  obtain ⟨hr, hq⟩ := hx
  rcases hrun : x.run.run c with ⟨_ | a, c₁⟩
  · rw [hrun] at hr
    refine ⟨?_, fun b c' h => ?_⟩
    · rw [run_bind, hrun]
      exact hr
    · rw [run_bind, hrun] at h
      cases h
  · rw [hrun] at hr
    obtain ⟨hr', hq'⟩ := hf a c₁ hr (hq a c₁ hrun)
    refine ⟨?_, fun b c' h => ?_⟩
    · rw [run_bind, hrun]
      exact IsTrans.trans _ _ _ hr hr'
    · rw [run_bind, hrun] at h
      exact hq' b c' h

theorem mono (h : Within x c R P) (hR : ∀ c', R c c' → R' c c')
    (hPQ : ∀ a c', P a c' → Q a c') : Within x c R' Q :=
  ⟨hR _ h.1, fun a c' hrun => hPQ a c' (h.2 a c' hrun)⟩

/-- An operation that succeeds within `R` is within `R`. -/
theorem of_ok (h : Ok x c fun a c' => R c c' ∧ Q a c') : Within x c R Q := by
  obtain ⟨a, c', hrun, hr, hq⟩ := h
  refine ⟨by rw [hrun]; exact hr, fun b c'' hrun' => ?_⟩
  rw [hrun] at hrun'
  cases hrun'
  exact hq

/-- An operation that keeps every template and view slot is confined to any slots. -/
theorem of_still {T : TViewId} {L : LViewId} {tw lw : Nat → Prop} (hs : Still x)
    (hq : ∀ a c', x.run.run c = (.ok a, c') → Q a c') : Within x c (Confined T L tw lw) Q :=
  ⟨Confined.of_still (hs c).1 (hs c).2.1 (hs c).2.2.1, hq⟩

theorem still {T : TViewId} {L : LViewId} {tw lw : Nat → Prop} (hs : Still x) :
    Within x c (Confined T L tw lw) fun _ _ => True :=
  of_still hs fun _ _ _ => trivial

/-- A step that stores nowhere ends with the templates it started with. -/
theorem still_tviews {T : TViewId} {L : LViewId} {tw lw : Nat → Prop} (hs : Still x) :
    Within x c (Confined T L tw lw) fun _ c' => c'.registry.tviews = c.registry.tviews :=
  of_still hs fun _ c' hrun => by
    have h := (hs c).1
    rw [hrun] at h
    exact h

/-- A step that stores nowhere first: what follows runs from any context it reached. -/
theorem still_bind {T : TViewId} {L : LViewId} {tw lw : Nat → Prop} {f : α → RenderM β}
    {Q : β → Context → Prop} (hs : Still x)
    (hf : ∀ a c₁, Confined T L tw lw c c₁ → Within (f a) c₁ (Confined T L tw lw) Q) :
    Within (x >>= f) c (Confined T L tw lw) Q :=
  bind (still hs) fun a c₁ h _ => hf a c₁ h

theorem modify_with {f : Context → Context} {Q : PUnit → Context → Prop} (h : R c (f c))
    (hq : Q ⟨⟩ (f c)) : Within (modify f : RenderM PUnit) c R Q :=
  of_ok (Ok.modify ⟨h, hq⟩)

theorem modify {f : Context → Context} (h : R c (f c)) :
    Within (modify f : RenderM PUnit) c R fun _ _ => True :=
  modify_with h trivial

/-- Writing back a related context; what follows runs from it. -/
theorem set_with {c' : Context} (h : R c c') :
    Within (set c' : RenderM PUnit) c R fun _ c₁ => c₁ = c' :=
  of_ok (Ok.set ⟨h, rfl⟩)

theorem pure {a : α} (hr : R c c) (hq : Q a c) : Within (Pure.pure a) c R Q :=
  of_ok (Ok.pure ⟨hr, hq⟩)

theorem ite {p : Prop} [Decidable p] {y : RenderM α} (hx : p → Within x c R Q)
    (hy : ¬p → Within y c R Q) : Within (if p then x else y) c R Q := by
  by_cases hp : p
  · simpa [hp] using hx hp
  · simpa [hp] using hy hp

/-- A read first: what follows runs from the same context, knowing what was read. -/
theorem reads_bind {f : α → RenderM β} {Q : β → Context → Prop} {P : α → Prop}
    (hx : Reads x c P) (hr : R c c) (hf : ∀ a, P a → Within (f a) c R Q) :
    Within (x >>= f) c R Q := by
  obtain ⟨r, hrun, hp⟩ := hx
  cases r with
  | error e =>
    refine ⟨?_, fun b c' h => ?_⟩
    · rw [run_bind, hrun]
      exact hr
    · rw [run_bind, hrun] at h
      cases h
  | ok a =>
    obtain ⟨hr', hq⟩ := hf a (hp a rfl)
    exact ⟨by rw [run_bind, hrun]; exact hr',
      fun b c' h => hq b c' (by rw [run_bind, hrun] at h; exact h)⟩

theorem throw {e : RenderError} (hr : R c c) : Within (throw e : RenderM α) c R Q :=
  ⟨hr, fun _ _ h => by cases h⟩

/-- A handled operation: the operation keeps `R`, and so does the handler from wherever the
operation failed. -/
theorem tryCatch [IsTrans Context R] {handler : RenderError → RenderM α} (hx : Within x c R Q)
    (hh : ∀ e c₁, R c c₁ → Within (handler e) c₁ R Q) :
    Within (tryCatch x handler) c R Q := by
  obtain ⟨hr, hq⟩ := hx
  unfold Within
  rcases hx : x.run.run c with ⟨e | a, c₁⟩
  · -- the handler runs from where `x` failed
    rw [hx] at hr
    obtain ⟨hr', hq'⟩ := hh e c₁ hr
    rw [run_tryCatch_error hx]
    exact ⟨IsTrans.trans _ _ _ hr hr', hq'⟩
  · rw [hx] at hr
    rw [run_tryCatch_ok hx]
    exact ⟨hr, fun b c' h => by cases h; exact hq a c₁ hx⟩

/-- A fold whose every step, from any context, keeps a reflexive and transitive `R` keeps `R`. -/
theorem foldlM [IsTrans Context R] {γ : Type} {f : β → γ → RenderM β} {xs : List γ}
    (hrefl : ∀ c, R c c) (hf : ∀ acc, ∀ a ∈ xs, ∀ c, Within (f acc a) c R fun _ _ => True)
    (init : β) : Within (xs.foldlM f init) c R fun _ _ => True := by
  induction xs generalizing init c with
  | nil => exact pure (hrefl c) trivial
  | cons a rest ih =>
    exact bind (hf init a List.mem_cons_self c) fun acc c₁ _ _ =>
      ih (fun acc a ha => hf acc a (List.mem_cons_of_mem _ ha)) acc

end Within

end RenderM

end ViewHydration
