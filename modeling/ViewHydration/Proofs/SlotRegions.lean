import ViewHydration.Proofs.Footprint
import ViewHydration.Proofs.BlockPlacement

/-!
# The slot regions of a pass

A template's slots fall into three regions: its `decls` node slots, then its `vars` binding slots,
then the expando slots that translated blocks add for their text nodes. A node instruction stores
into its own node slot, and the start of a translated block also into expando slots; a binding
instruction stores a binding into the slot that its frame's binding counter names, and advances
the counter. The end of a translated block restamps nodes of the template, and the other
instructions that run in place store nowhere. A pass starts the counter at the first binding slot.

The steps a pass makes (`Registry.PassSteps`) are its own stores, changes that store nothing
(allocating, editing and releasing views and containers), and the steps of the passes it runs
over other views, each in the regions of that view's template.

## Main definitions

- `nodeSlots` — the slots a node instruction may store into
- `Instr.inPlace` — the instructions that render into the view of the pass and nowhere else
- `Registry.BindsAt` — a change that stores at most a binding into one slot
- `PassStore` — one store of a pass
- `Registry.Clears` — a change that stores nothing
- `Registry.PassSteps`, `Registry.Runs` — the changes of a pass, and of operations that run
  whole passes
- `Context.Renders` — the position stands in a view, at a binding counter

## Main results

- `PassStore.binding_slot` — one store of a pass puts at most a binding into a binding slot
- `runInstr_inPlace` — an instruction that runs in place makes at most one store of the pass, a
  binding instruction into the binding slot its counter names, moving the counter on
-/

namespace ViewHydration

/-- The slots a node instruction at slot `i` may store into, for a template with `d` node slots
and `v` binding slots: its own slot when that is a node slot, and the expando slots. -/
def nodeSlots (d v i j : Nat) : Prop := (j = i ∧ i < d) ∨ d + v ≤ j

namespace TView

variable {t t₁ : TView} {b₁ : I18nBlock}

/-- What compiling a translated block keeps, between the template `t` it starts from and the
template and block built so far: the handle and sizes, every old entry and block, and the block's
text nodes in slots past the old data. -/
structure Compiles (t : TView) (acc : TView × I18nBlock) : Prop where
  dims : acc.1.dims = t.dims
  size : t.data.size ≤ acc.1.data.size
  entry : ∀ j < t.data.size, acc.1.entry j = t.entry j
  blocks : ∀ (j : Nat) (b : I18nBlock), acc.1.data[j]? = some (.i18n b) →
    t.data[j]? = some (.i18n b)
  texts : ∀ n ∈ acc.2.nodes, n.kind = .text → t.data.size ≤ n.index

theorem Compiles.start (t : TView) : Compiles t (t, {}) :=
  ⟨rfl, Nat.le_refl _, fun _ _ => rfl, fun _ _ h => h, fun _ hn => by simp at hn⟩

/-- A text run gets a new expando slot, past the data, holding its node. -/
theorem Compiles.text (h : Compiles t (t₁, b₁)) (n : TNode) (parent : Option Nat)
    (update : List I18nUpdateOp) :
    Compiles t (t₁.allocateExpando.1.setData t₁.allocateExpando.2 (.node n),
      { nodes := b₁.nodes ++ [⟨.text, t₁.allocateExpando.2, parent⟩],
        update := update }) := by
  have hslot : t₁.allocateExpando.2 = t₁.data.size := rfl
  have hsize : t₁.data.size < t₁.allocateExpando.1.data.size := by simp [allocateExpando]
  refine ⟨?_, ?_, fun j hj => ?_, fun j b hj => ?_, fun m hm hk => ?_⟩
  · simpa using h.dims
  · exact Nat.le_trans h.size (Nat.le_trans (Nat.le_of_lt hsize) (size_le_setData _ _))
  · have hne : j ≠ t₁.allocateExpando.2 := by
      rw [hslot]
      exact Nat.ne_of_lt (Nat.lt_of_lt_of_le hj h.size)
    rw [entry_setData_of_ne hne, entry_allocateExpando]
    exact h.entry j hj
  · by_cases hne : j = t₁.allocateExpando.2
    · subst hne
      rw [getElem?_setData_self] at hj
      cases hj
    · refine h.blocks j b (data_i18n_of_entry ?_
        (data_i18n_of_entry (entry_setData_of_ne hne _) hj))
      exact entry_allocateExpando j
  · rw [List.mem_append, List.mem_singleton] at hm
    rcases hm with hm | rfl
    · exact h.texts m hm hk
    · rw [hslot]
      exact h.size

/-- An element or template placeholder names a node the template declares; nothing is stored. -/
theorem Compiles.node (h : Compiles t (t₁, b₁)) (node : I18nNode) (hk : node.kind ≠ .text)
    (update : List I18nUpdateOp) :
    Compiles t (t₁, { nodes := b₁.nodes ++ [node], update := update }) := by
  refine ⟨h.dims, h.size, h.entry, h.blocks, fun m hm hmk => ?_⟩
  rw [List.mem_append, List.mem_singleton] at hm
  rcases hm with hm | rfl
  · exact h.texts m hm hmk
  · exact absurd hmk hk

/-- What every node edit keeps, marking the elements a message leaves out keeps. -/
theorem markUnmentioned_preserves {P : TView → Prop}
    (hP : ∀ t i g, P t → P (t.modifyTNode i g)) (block : I18nBlock) (elements : List Nat)
    (h : P t) : P (t.markUnmentioned block elements) := by
  induction elements generalizing t with
  | nil => exact h
  | cons e rest ih =>
    rw [markUnmentioned, List.foldl_cons, ← markUnmentioned]
    apply ih
    split
    · exact h
    · exact hP t e _ h

end TView

namespace Instr

/-- The instructions that run in place: they render into the view of the pass, run no nested
block, loop or pass, and edit no view container. The node instructions (element and
`<ng-container>` starts, text nodes, container anchors, starts of translated blocks, translated
attributes) store into their own node slot, the binding instructions (text bindings and
expressions of translated blocks) into the binding slot the counter names, and the end of a
translated block restamps nodes of the template; the others store nowhere. -/
def inPlace : Instr → Bool
  | .elementStart .. | .element .. | .elementEnd => true
  | .elementContainerStart .. | .elementContainer .. | .elementContainerEnd => true
  | .text .. | .template .. | .i18nStart .. | .i18nAttributes .. => true
  | .textInterpolate .. | .i18nExp .. => true
  | .i18n .. | .i18nEnd | .i18nApply .. => true
  | .containerLength .. | .localRef .. | .removeLocalRef .. | .removeSlotNode .. | .probe => true
  | _ => false

/-- The binding slots an instruction claims: one for a text binding or an expression. -/
def bindingSlots : Instr → Nat
  | .textInterpolate .. | .i18nExp .. => 1
  | _ => 0

end Instr

/-- The binding slots a program claims when it runs through. -/
def bindingCount : List Instr → Nat
  | [] => 0
  | i :: rest => i.bindingSlots + bindingCount rest

namespace Registry

/-- `r'` is `r` with at most a binding stored into slot `k` of view `L`. -/
structure BindsAt (L : LViewId) (k : Nat) (r r' : Registry) : Prop where
  tviews : r'.tviews = r.tviews
  slot : ∀ id j, (id = L → j ≠ k) → r'.slot id j = r.slot id j
  bound : r'.slot L k = r.slot L k ∨ ∃ w, r'.slot L k = .binding w

end Registry

/-- One store of a pass over view `L` of template `T`, which has `d` node slots and `v` binding
slots: a node store into one node slot and expando slots, a binding store into one binding slot,
or a restamp of slots where the template `t` held a node, into no slot of any view. -/
inductive PassStore (T : TViewId) (L : LViewId) (d v : Nat) : Registry → Registry → Prop
  | node {r r' : Registry} (i : Nat) : r.Stores T L (nodeSlots d v i) (nodeSlots d v i) r' →
      PassStore T L d v r r'
  | binding {r r' : Registry} (k : Nat) : d ≤ k → k < d + v → r.BindsAt L k r' →
      PassStore T L d v r r'
  | restamp {r r' : Registry} (t : TView) : r.tview T = .ok t →
      r.Stores T L (fun j => (t.tnode? j).isSome) (fun _ => False) r' → PassStore T L d v r r'

/-- One store of a pass keeps a binding slot of the view, or stores a binding there. -/
theorem PassStore.binding_slot {T : TViewId} {L : LViewId} {d v j : Nat} {r r' : Registry}
    (h : PassStore T L d v r r') (hd : d ≤ j) (hv : j < d + v) :
    r'.slot L j = r.slot L j ∨ ∃ w, r'.slot L j = .binding w := by
  cases h with
  | node i hs => exact .inl (hs.slot L j fun _ hj => by unfold nodeSlots at hj; omega)
  | binding k _ _ hb =>
    by_cases hk : j = k
    · subst hk
      exact hb.bound
    · exact .inl (hb.slot L j fun _ => hk)
  | restamp t _ hs => exact .inl (hs.slot L j fun _ hf => hf)

namespace Registry

/-- `r'` is `r` with nothing stored: every template keeps its entries, its handle, sizes and
program and its layout, and every slot of every view keeps its entry or is cleared. Allocating,
editing and releasing views and containers, and ending a template's first pass, store nothing. -/
structure Clears (r r' : Registry) : Prop where
  kept : r.KeepsTemplates r'
  entry : ∀ id j, r'.entry id j = r.entry id j
  slot : ∀ L j, r'.slot L j = r.slot L j ∨ r'.slot L j = .empty

namespace Clears

variable {r₁ r₂ r₃ : Registry}

theorem refl (r : Registry) : r.Clears r := ⟨.refl r, fun _ _ => rfl, fun _ _ => .inl rfl⟩

theorem trans (h₁ : r₁.Clears r₂) (h₂ : r₂.Clears r₃) : r₁.Clears r₃ := by
  refine ⟨h₁.kept.trans h₂.kept, fun id j => (h₂.entry id j).trans (h₁.entry id j), fun L j => ?_⟩
  rcases h₂.slot L j with h | h
  · rw [h]
    exact h₁.slot L j
  · exact .inr h

/-- A change that keeps every template and every slot of every view stores nothing. -/
theorem of_still (ht : r₂.tviews = r₁.tviews) (hs : ∀ L j, r₂.slot L j = r₁.slot L j) :
    r₁.Clears r₂ :=
  ⟨.of_tviews ht, fun id j => by simp only [Registry.entry, ht], fun L j => .inl (hs L j)⟩

end Clears

/-- The registry changes of a pass over view `L` of template `T`, which has `d` node slots and `v`
binding slots: stores of the pass, each keeping the templates; changes that store nothing; and
steps of a pass over a live view with the template that view has when they start, as the passes
of the views the pass creates and refreshes, and the container references it makes in its own
view, are. -/
inductive PassSteps : TViewId → LViewId → Nat → Nat → Registry → Registry → Prop
  | refl {T : TViewId} {L : LViewId} {d v : Nat} (r : Registry) : PassSteps T L d v r r
  | store {T : TViewId} {L : LViewId} {d v : Nat} {r r₁ r₂ : Registry} :
      PassSteps T L d v r r₁ → PassStore T L d v r₁ r₂ → r₁.KeepsTemplates r₂ →
      PassSteps T L d v r r₂
  | clear {T : TViewId} {L : LViewId} {d v : Nat} {r r₁ r₂ : Registry} :
      PassSteps T L d v r r₁ → r₁.Clears r₂ → PassSteps T L d v r r₂
  | nested {T : TViewId} {L : LViewId} {d v : Nat} {r r₁ r₂ : Registry} (L' : LViewId) (w : LView)
      (t : TView) : PassSteps T L d v r r₁ → r₁.lview L' = .ok w → r₁.tview w.tview = .ok t →
      PassSteps t.id L' t.decls t.vars r₁ r₂ → PassSteps T L d v r r₂

/-- The registry changes of operations that run whole passes: changes that store nothing, and
the steps of passes over live views, each with the template its view has when the pass starts. -/
inductive Runs : Registry → Registry → Prop
  | refl (r : Registry) : Runs r r
  | clear {r r₁ r₂ : Registry} : Runs r r₁ → r₁.Clears r₂ → Runs r r₂
  | pass {r r₁ r₂ : Registry} (L : LViewId) (w : LView) (t : TView) : Runs r r₁ →
      r₁.lview L = .ok w → r₁.tview w.tview = .ok t → PassSteps t.id L t.decls t.vars r₁ r₂ →
      Runs r r₂

variable {T : TViewId} {L : LViewId} {d v : Nat} {r r₁ r₂ r₃ : Registry}

theorem PassSteps.trans (h₁ : r₁.PassSteps T L d v r₂) (h₂ : r₂.PassSteps T L d v r₃) :
    r₁.PassSteps T L d v r₃ := by
  induction h₂ with
  | refl => exact h₁
  | store _ hs hk ih => exact .store (ih h₁) hs hk
  | clear _ hc ih => exact .clear (ih h₁) hc
  | nested L' w t _ hw ht hinner ih => exact .nested L' w t (ih h₁) hw ht hinner

/-- Whole passes run after steps of a pass are steps of that pass. -/
theorem PassSteps.runs (h₁ : r₁.PassSteps T L d v r₂) (h₂ : r₂.Runs r₃) :
    r₁.PassSteps T L d v r₃ := by
  induction h₂ with
  | refl => exact h₁
  | clear _ hc ih => exact .clear ih hc
  | pass L' w t _ hw ht hpass ih => exact .nested L' w t ih hw ht hpass

/-- No step of a pass loses a template, changes its handle, sizes or program, or its layout. -/
theorem PassSteps.keepsTemplates (h : r₁.PassSteps T L d v r₂) : r₁.KeepsTemplates r₂ := by
  induction h with
  | refl => exact .refl _
  | store _ _ hk ih => exact ih.trans hk
  | clear _ hc ih => exact ih.trans hc.kept
  | nested _ _ _ _ _ _ _ ih ih' => exact ih.trans ih'

theorem Runs.trans (h₁ : r₁.Runs r₂) (h₂ : r₂.Runs r₃) : r₁.Runs r₃ := by
  induction h₂ with
  | refl => exact h₁
  | clear _ hc ih => exact .clear ih hc
  | pass L' w t _ hw ht hpass ih => exact .pass L' w t ih hw ht hpass

theorem Runs.keepsTemplates (h : r₁.Runs r₂) : r₁.KeepsTemplates r₂ := by
  induction h with
  | refl => exact .refl _
  | clear _ hc ih => exact ih.trans hc.kept
  | pass _ _ _ _ _ _ hpass ih => exact ih.trans hpass.keepsTemplates

theorem Runs.of_clears (h : r₁.Clears r₂) : r₁.Runs r₂ := .clear (.refl r₁) h

/-- The steps of a pass over a live view, with the template it has, are a run. -/
theorem Runs.of_pass {w : LView} {t : TView} (hw : r₁.lview L = .ok w)
    (ht : r₁.tview w.tview = .ok t) (h : r₁.PassSteps t.id L t.decls t.vars r₂) : r₁.Runs r₂ :=
  .pass L w t (.refl r₁) hw ht h

end Registry

namespace Context

/-- `c'` is reached from `c` by the registry changes of a pass over view `L` of template `T`. -/
def InPass (T : TViewId) (L : LViewId) (d v : Nat) (c c' : Context) : Prop :=
  c.registry.PassSteps T L d v c'.registry

instance {T : TViewId} {L : LViewId} {d v : Nat} : IsPreorder Context (InPass T L d v) where
  refl c := .refl c.registry
  trans _ _ _ h₁ h₂ := Registry.PassSteps.trans h₁ h₂

end Context

/-- `c'` differs from `c` by at most a binding stored into slot `k` of view `L`. -/
def Binds (L : LViewId) (k : Nat) (c c' : Context) : Prop := c.registry.BindsAt L k c'.registry

namespace Binds

variable {L : LViewId} {k : Nat} {c c₁ c₂ c₃ : Context}

theorem refl (c : Context) : Binds L k c c := ⟨rfl, fun _ _ _ => rfl, .inl rfl⟩

theorem trans (h₁ : Binds L k c₁ c₂) (h₂ : Binds L k c₂ c₃) : Binds L k c₁ c₃ := by
  refine ⟨h₂.tviews.trans h₁.tviews,
    fun id j hj => (h₂.slot id j hj).trans (h₁.slot id j hj), ?_⟩
  rcases h₂.bound with h | h
  · rw [h]
    exact h₁.bound
  · exact .inr h

instance : IsTrans Context (Binds L k) := ⟨fun _ _ _ => trans⟩

/-- A change that keeps every template and every view slot stores no binding. -/
theorem of_still (ht : c₂.registry.tviews = c₁.registry.tviews)
    (hs : ∀ id j, c₂.registry.slot id j = c₁.registry.slot id j) : Binds L k c₁ c₂ :=
  ⟨ht, fun id j _ => hs id j, .inl (hs L k)⟩

end Binds

namespace Context

/-- The position of `c` stands in view `L` of template `T`, with binding counter `b`; `T` declares
`d` node slots and `v` binding slots and is laid out, in an aligned registry. -/
structure Renders (c : Context) (T : TViewId) (L : LViewId) (d v b : Nat) : Prop where
  top : ∃ f rest, c.frames = f :: rest ∧ f.lview = L ∧ f.tview = T ∧ f.bindingIndex = b
  aligned : c.registry.Aligned
  laid : c.registry.LaidAt T d v

variable {c c' : Context} {T : TViewId} {L : LViewId} {d v b : Nat} {tw lw : Nat → Prop}

/-- A change confined to some slots keeps the position, the template's layout and the alignment. -/
theorem Renders.confined (h : c.Renders T L d v b) (hc : Confined T L tw lw c c') :
    c'.Renders T L d v b := by
  obtain ⟨f, rest, hfr, hl, ht, hb⟩ := h.top
  have hpass := hc.passes
  rw [hfr] at hpass
  obtain ⟨f', rest', hfr', hpf, -⟩ : ∃ f' rest', c'.frames = f' :: rest' ∧
      f'.pass = f.pass ∧ rest'.map Frame.pass = rest.map Frame.pass := by
    cases hc' : c'.frames with
    | nil => simp [hc'] at hpass
    | cons f' rest' =>
      rw [hc', List.map_cons, List.map_cons, List.cons.injEq] at hpass
      exact ⟨f', rest', rfl, hpass⟩
  simp only [Frame.pass, Prod.mk.injEq] at hpf
  exact ⟨⟨f', rest', hfr', hpf.1.trans hl, hpf.2.1.trans ht, hpf.2.2.trans hb⟩,
    hc.aligned h.aligned, hc.laid d v h.laid⟩

/-- A change that keeps the position stack and the templates keeps the position. -/
theorem Renders.of_frames (h : c.Renders T L d v b) (hf : c'.frames = c.frames)
    (hk : c.registry.KeepsTemplates c'.registry) : c'.Renders T L d v b :=
  ⟨hf ▸ h.top, hk.aligned h.aligned, hk.laidAt h.laid⟩

theorem Renders.top_eq {f : Frame} {rest : List Frame} (h : c.Renders T L d v b)
    (hfr : c.frames = f :: rest) : f.lview = L ∧ f.tview = T ∧ f.bindingIndex = b := by
  obtain ⟨f', rest', hfr', hl, ht, hb⟩ := h.top
  rw [hfr] at hfr'
  obtain ⟨rfl, -⟩ := List.cons.inj hfr'
  exact ⟨hl, ht, hb⟩

theorem Renders.tview_eq {t : TView} (h : c.Renders T L d v b) (ht : c.registry.tview T = .ok t) :
    t.decls = d ∧ t.vars = v ∧ t.Laid := by
  obtain ⟨t', ht', hd, hv, hl⟩ := h.laid
  rw [ht] at ht'
  cases ht'
  exact ⟨hd, hv, hl⟩

/-- A node check that passes names a node slot of the template rendered. -/
theorem Renders.lt_decls {i : Nat} (h : c.Renders T L d v b)
    (hc : ∃ f rest t, c.frames = f :: rest ∧ c.registry.tview f.tview = .ok t ∧ i < t.decls) :
    i < d := by
  obtain ⟨f, rest, t, hfr, ht, hi⟩ := hc
  rw [(h.top_eq hfr).2.1] at ht
  exact (h.tview_eq ht).1 ▸ hi

end Context

/-! ### Stores into a template and into a view -/

namespace Confined

variable {c : Context} {T : TViewId} {L : LViewId} {tw lw : Nat → Prop}

/-- Writing back template `T` with its entries kept outside `tw` stores into `tw` only. -/
theorem setTView {t t' : TView} (ht : c.registry.tview T = .ok t) (ha : c.registry.Aligned)
    (hdims : t'.dims = t.dims) (hentry : ∀ j, ¬ tw j → t'.entry j = t.entry j)
    (hlaid : t.Laid → t'.Laid) :
    Confined T L tw lw c { c with registry := c.registry.setTView t' } := by
  have hid : t'.id = T := ha.id_of_dims ht hdims
  have hlt : t'.id.idx < c.registry.tviews.size := hid ▸ Registry.tview_ok_iff.mp ⟨t, ht⟩
  refine ⟨⟨fun id j hj => ?_, fun _ _ _ => rfl⟩, .setTView ha ht hdims hlaid, rfl⟩
  by_cases hT : id = T
  · subst hT
    rw [← hid, Registry.entry_setTView_self hlt, hid, hentry j (hj rfl),
      Registry.entry_eq_of_tview ht]
  · exact Registry.entry_setTView_of_ne (hid ▸ hT) j

/-- Writing back view `L` with its slots kept outside `lw` stores into `lw` only. -/
theorem setLView {w w' : LView} (hw : c.registry.lview L = .ok w)
    (hslot : ∀ j, ¬ lw j → w'.slot j = w.slot j) :
    Confined T L tw lw c { c with registry := c.registry.setLView L w' } := by
  refine ⟨⟨fun _ _ _ => rfl, fun id j hj => ?_⟩, .of_tviews rfl, rfl⟩
  by_cases hL : id = L
  · subst hL
    rw [Registry.slot_setLView_self hw, hslot j (hj rfl), Registry.slot_eq_of_lview hw]
  · exact Registry.slot_setLView_of_ne hL _ _

/-- A new container changes no slot. -/
theorem allocateContainer (x : LContainer) :
    Confined T L tw lw c { c with registry := (c.registry.allocateContainer x).1 } :=
  of_still (Registry.tviews_allocateContainer x) (Registry.slot_allocateContainer x) rfl

end Confined

namespace RenderM

variable {α : Type} {c : Context} {T : TViewId} {L : LViewId} {tw lw : Nat → Prop}

/-- An edit of view `L` that keeps its slots outside `lw` stores into `lw` only. -/
theorem modifyLView_within {g : LView → LView}
    (hg : ∀ w j, ¬ lw j → (g w).slot j = w.slot j) :
    Within (modifyLView L g) c (Confined T L tw lw) fun _ _ => True := by
  unfold modifyLView
  refine Within.reads_bind (Reads.lview _) (Confined.refl c) fun w hw => ?_
  exact Within.modify (Confined.setLView hw (hg w))

/-- A node check passes only for a node slot of the template of the top frame. -/
theorem checkCreationSlot_reads (index : Nat) :
    Reads (checkCreationSlot index) c fun _ =>
      ∃ f rest t, c.frames = f :: rest ∧ c.registry.tview f.tview = .ok t ∧
        index < t.decls := by
  unfold checkCreationSlot
  refine Reads.bind Reads.frame fun f ⟨rest, hfr⟩ => Reads.bind (Reads.tview _) fun t ht => ?_
  extract_lets range
  have hrange : ∀ r, Reads (range r) c fun _ =>
      ∃ f rest t, c.frames = f :: rest ∧ c.registry.tview f.tview = .ok t ∧
        index < t.decls := by
    intro _
    dsimp -zeta only [range]
    exact Reads.ite (fun _ => Reads.structural _) fun hlt =>
      Reads.pure ⟨f, rest, t, hfr, ht, by omega⟩
  clear_value range
  -- a binding read before the node fails the first check, before the range check is reached
  have hfail : Reads (structural (.bindingBeforeElement index) : RenderM Unit) c fun _ => True :=
    Reads.structural _
  exact Reads.ite (fun _ => Reads.bind hfail fun _ _ => hrange _) fun _ => hrange _

/-- A compiled block is read from its slot. -/
theorem blockAt_reads (t : TView) (index : Nat) :
    Reads (blockAt t index) c fun block => t.data[index]? = some (.i18n block) := by
  unfold blockAt
  split
  · rename_i block hblock
    exact Reads.pure hblock
  · exact Reads.structural _

end RenderM

/-! ### Node instructions -/

/-- A change confined to node slot `i` and the expando slots, of the template and of the view. -/
abbrev NodeConfined (T : TViewId) (L : LViewId) (d v i : Nat) : Context → Context → Prop :=
  Confined T L (nodeSlots d v i) (nodeSlots d v i)

theorem ne_of_not_nodeSlots {d v i j : Nat} (hi : i < d) (hj : ¬ nodeSlots d v i j) : j ≠ i :=
  fun hji => hj (.inl ⟨hji, hi⟩)

/-- Writing an entry into node slot `i` of the template is a node store. -/
theorem Confined.setData {c : Context} {T : TViewId} {L : LViewId} {d v i : Nat} {t : TView}
    (ht : c.registry.tview T = .ok t) (ha : c.registry.Aligned) (hd : t.decls = d) (hi : i < d)
    (x : TData)
    (hx : ∀ b, x = .i18n b →
      ∀ n ∈ b.nodes, n.kind = .text → t.decls + t.vars ≤ n.index) :
    NodeConfined T L d v i c { c with registry := c.registry.setTView (t.setData i x) } :=
  Confined.setTView ht ha (TView.dims_setData _ _)
    (fun _ hj => TView.entry_setData_of_ne (ne_of_not_nodeSlots hi hj) _)
    fun hl => hl.setData _ _ (.inl (hd ▸ hi)) hx

namespace RenderM

section nodes

variable {c : Context} {T : TViewId} {L : LViewId} {d v b i : Nat}

/-- Resolving the template node of a node slot stores into that slot of the template only. -/
theorem resolveTNode_within (h : c.Renders T L d v b) (hi : i < d) (spec : NodeSpec) :
    Within (resolveTNode i spec) c (NodeConfined T L d v i) fun _ _ => True := by
  unfold resolveTNode
  refine Within.reads_bind Reads.frame (Confined.refl c) fun f ⟨rest, hfr⟩ => ?_
  refine Within.reads_bind (Reads.tview _) (Confined.refl c) fun t ht => ?_
  rw [(h.top_eq hfr).2.1] at ht
  split
  · -- a later pass only checks the registered node
    exact Within.of_still (Still.bind (Still.ofStructural _) fun _ =>
      Still.ite (Still.structural _) (Still.pure _)) fun _ _ _ => trivial
  · refine Within.reads_bind (Reads.ofStructural _) (Confined.refl c) fun attrs _ => ?_
    refine Within.reads_bind (Reads.ofStructural _) (Confined.refl c) fun names _ => ?_
    refine Within.reads_bind Reads.get (Confined.refl c) fun c' hc => ?_
    subst c'
    refine Within.reads_bind (Reads.ofStructural _) (Confined.refl c) fun t' hreg => ?_
    -- the node goes into its own slot, which is a node slot
    refine Within.of_ok (Ok.modify ⟨Confined.setTView ht h.aligned (TView.dims_registerTNode hreg)
      (fun j hj => TView.entry_registerTNode_of_ne hreg (ne_of_not_nodeSlots hi hj))
      (fun hl => hl.registerTNode hreg (.inl (by rw [(h.tview_eq ht).1]; exact hi))), trivial⟩)

/-- Storing into node slot `i` of view `L` is a node store. -/
theorem setSlot_within (hi : i < d) (s : Slot) :
    Within (modifyLView L (·.set i s)) c (NodeConfined T L d v i) fun _ _ => True :=
  modifyLView_within fun _ _ hj => LView.slot_set_of_ne (ne_of_not_nodeSlots hi hj)

/-- Storing the node of a node slot stores into that slot of the view only. -/
theorem storeNode_within (hi : i < d) (node : NodeId) (created : Bool) :
    Within (storeNode L i node created) c (NodeConfined T L d v i) fun _ _ => True := by
  unfold storeNode
  refine Within.bind (setSlot_within hi _) fun _ _ _ _ => ?_
  exact Within.of_still (Still.ite (Still.insertCreated _ _ _) (Still.pure _)) fun _ _ _ => trivial

/-- Opening an element stores into its own node slot only. -/
theorem elementStart_within (h : c.Renders T L d v b) (tag : String) (attrs refs : Option Nat) :
    Within (elementStart i tag attrs refs) c (NodeConfined T L d v i) fun _ _ => True := by
  unfold elementStart
  refine Within.reads_bind Reads.active (Confined.refl c) fun p ⟨f, rest, hfr, hp⟩ => ?_
  subst hp
  refine Within.reads_bind (checkCreationSlot_reads i) (Confined.refl c) fun _ hc => ?_
  have hi := h.lt_decls hc
  refine Within.bind (resolveTNode_within h hi _) fun _ c₁ _ _ => ?_
  refine Within.still_bind (Still.materialize _ _) fun p c₂ _ => ?_
  obtain ⟨node, created⟩ := p
  refine Within.still_bind (Still.tview _) fun t c₃ _ =>
    Within.still_bind (Still.ofStructural _) fun n c₄ _ => ?_
  extract_lets -underBinder store
  have hstore : ∀ r c₅, Within (store r) c₅ (NodeConfined T L d v i) fun _ _ => True := by
    intro _ c₅
    dsimp -zeta only [store]
    rw [(h.top_eq hfr).1]
    exact Within.bind (storeNode_within hi _ _) fun _ _ _ _ =>
      Within.still (Still.bind (Still.openNode _ _) fun _ => Still.runDirectives _ _ _ _ _)
  clear_value store
  exact Within.ite (fun _ => Within.still_bind (Still.modifyDoc _) fun r c₅ _ => hstore r c₅)
    fun _ => hstore () c₄

/-- Opening an `<ng-container>` stores into its own node slot only. -/
theorem elementContainerStart_within (h : c.Renders T L d v b) (attrs refs : Option Nat) :
    Within (elementContainerStart i attrs refs) c (NodeConfined T L d v i) fun _ _ => True := by
  unfold elementContainerStart
  refine Within.reads_bind Reads.active (Confined.refl c) fun p ⟨f, rest, hfr, hp⟩ => ?_
  subst hp
  refine Within.reads_bind (checkCreationSlot_reads i) (Confined.refl c) fun _ hc => ?_
  have hi := h.lt_decls hc
  refine Within.bind (resolveTNode_within h hi _) fun _ c₁ _ _ => ?_
  refine Within.still_bind (Still.materialize _ _) fun p c₂ _ => ?_
  obtain ⟨node, created⟩ := p
  rw [(h.top_eq hfr).1]
  refine Within.bind (storeNode_within hi _ _) fun _ _ _ _ => Within.still ?_
  exact Still.bind (Still.tview _) fun _ => Still.bind (Still.ofStructural _) fun _ =>
    Still.bind (Still.openNode _ _) fun _ => Still.runDirectives _ _ _ _ _

/-- A text node stores into its own node slot only. -/
theorem text_within (h : c.Renders T L d v b) (value : Option String) :
    Within (text i value) c (NodeConfined T L d v i) fun _ _ => True := by
  unfold text
  refine Within.reads_bind Reads.active (Confined.refl c) fun p ⟨f, rest, hfr, hp⟩ => ?_
  subst hp
  refine Within.reads_bind (checkCreationSlot_reads i) (Confined.refl c) fun _ hc => ?_
  have hi := h.lt_decls hc
  refine Within.bind (resolveTNode_within h hi _) fun _ c₁ _ _ => ?_
  refine Within.still_bind (Still.materialize _ _) fun p c₂ _ => ?_
  obtain ⟨node, created⟩ := p
  rw [(h.top_eq hfr).1]
  exact Within.bind (storeNode_within hi _ _) fun _ _ _ _ => Within.still (Still.setCurrent _ _)

/-- A container anchor stores its node and its container into its own node slot only. -/
theorem template_within (h : c.Renders T L d v b) (tv : TViewId) (attrs refs : Option Nat) :
    Within (template i tv attrs refs) c (NodeConfined T L d v i) fun _ _ => True := by
  unfold template
  refine Within.reads_bind Reads.active (Confined.refl c) fun p ⟨f, rest, hfr, hp⟩ => ?_
  subst hp
  refine Within.reads_bind (checkCreationSlot_reads i) (Confined.refl c) fun _ hc => ?_
  have hi := h.lt_decls hc
  refine Within.still_bind (Still.discard (Still.tview _)) fun _ c₁ h₁ => ?_
  refine Within.bind (resolveTNode_within (h.confined h₁) hi _) fun _ c₂ _ _ => ?_
  refine Within.still_bind (Still.materialize _ _) fun p c₃ _ => ?_
  obtain ⟨anchor, created⟩ := p
  dsimp -zeta only
  rw [(h.top_eq hfr).1]
  extract_lets -underBinder register
  -- the container is registered, then stored in the anchor's slot
  have hregister :
      ∀ r c₄, Within (register r) c₄ (NodeConfined T L d v i) fun _ _ => True := by
    intro _ c₄
    dsimp -zeta only [register]
    refine Within.reads_bind Reads.get (Confined.refl c₄) fun c₅ hc₅ => ?_
    subst c₅
    rcases hal : c₄.registry.allocateContainer
      { anchor := anchor, hostView := L, index := i, tview := some tv } with ⟨registry, cid⟩
    have hreg : registry = (c₄.registry.allocateContainer
        { anchor := anchor, hostView := L, index := i, tview := some tv }).1 := by rw [hal]
    have hset : Within (set { c₄ with registry := registry } : RenderM PUnit) c₄
        (NodeConfined T L d v i) fun _ _ => True :=
      Within.of_ok (Ok.set ⟨hreg ▸ Confined.allocateContainer _, trivial⟩)
    refine Within.bind hset fun _ _ _ _ => ?_
    refine Within.bind (setSlot_within hi _) fun _ _ _ _ => Within.still ?_
    exact Still.bind (Still.setCurrent _ _) fun _ => Still.bind (Still.tview _) fun _ =>
      Still.bind (Still.ofStructural _) fun _ =>
        Still.bind (Still.runDirectives _ _ _ _ _) fun _ => Still.pure _
  clear_value register
  exact Within.ite
    (fun _ => Within.still_bind (Still.insertCreated _ _ _) fun r c₄ _ => hregister r c₄)
    fun _ => hregister () c₃

/-- Translated attributes store their compiled list into their own node slot of the template
only. -/
theorem i18nAttributes_within (h : c.Renders T L d v b) (attrsIndex : Nat) :
    Within (i18nAttributes i attrsIndex) c (NodeConfined T L d v i) fun _ _ => True := by
  unfold i18nAttributes
  refine Within.reads_bind Reads.active (Confined.refl c) fun p ⟨f, rest, hfr, hp⟩ => ?_
  subst hp
  refine Within.reads_bind (checkCreationSlot_reads i) (Confined.refl c) fun _ hc => ?_
  have hi := h.lt_decls hc
  refine Within.reads_bind Reads.frame (Confined.refl c) fun f' _ => ?_
  split
  · refine Within.reads_bind (Reads.tview _) (Confined.refl c) fun t ht => ?_
    rw [(h.top_eq hfr).2.1] at ht
    extract_lets -underBinder apply
    have happly : ∀ r c₁, Within (apply r) c₁ (NodeConfined T L d v i) fun _ _ => True := by
      intro _ c₁
      dsimp -zeta only [apply]
      refine Within.still (Still.bind (Still.viewPair _) fun p => ?_)
      obtain ⟨t', w⟩ := p
      dsimp -zeta only
      split
      · split
        · exact Still.modifyDoc _
        · exact Still.hydration _
      · exact Still.structural _
    clear_value apply
    refine Within.ite (fun _ => ?_) fun _ => happly () c
    refine Within.reads_bind (Reads.ofStructural _) (Confined.refl c) fun x _ => ?_
    extract_lets -underBinder compile
    -- the list is compiled without a store, then written into the slot
    have hcompile :
        ∀ pairs, Within (compile pairs) c (NodeConfined T L d v i) fun _ _ => True := by
      intro pairs
      dsimp -zeta only [compile]
      refine Within.bind (Within.still_tviews (Still.foldlM (fun acc a => ?_) pairs _))
        fun compiled c₁ h₁ htv => ?_
      · obtain ⟨name, message⟩ := a
        exact Still.bind (Still.ofI18n _) fun parts => by split <;> exact Still.pure _
      · have ht₁ : c₁.registry.tview T = .ok t := by
          simp only [Registry.tview, htv] at ht ⊢
          exact ht
        refine Within.bind (Within.modify (Confined.setData ht₁ (h.confined h₁).aligned
          ((h.confined h₁).tview_eq ht₁).1 hi _ fun _ hb => by cases hb))
          fun r c₂ _ _ => happly r c₂
    clear_value compile
    have hpure : ∀ pairs,
        Reads (pure pairs : RenderM (List (String × String))) c fun _ => True :=
      fun _ => Reads.pure trivial
    have hmismatch : Reads (structural (.constMismatch attrsIndex .i18nAttributeList) :
        RenderM (List (String × String))) c fun _ => True := Reads.structural _
    split
    · exact Within.reads_bind (hpure _) (Confined.refl c) fun _ _ => hcompile _
    · exact Within.reads_bind hmismatch (Confined.refl c) fun _ _ => hcompile _
  · exact Within.still (Still.structural _)

/-- Compiling a translated block stores its text nodes into new expando slots of the template only,
and those are the slots of the block's text nodes. -/
theorem compileBlock_within (h : c.Renders T L d v b) (messageIndex : Nat) (sub root : Option Nat) :
    Within (compileBlock T messageIndex sub root) c (NodeConfined T L d v i)
      fun block _ => ∀ n ∈ block.nodes, n.kind = .text → d + v ≤ n.index := by
  unfold compileBlock
  refine Within.reads_bind (Reads.tview _) (Confined.refl c) fun t ht => ?_
  obtain ⟨hd, hv, hlaid⟩ := h.tview_eq ht
  refine Within.reads_bind (Reads.ofStructural _) (Confined.refl c) fun x _ => ?_
  extract_lets -underBinder translate
  have htranslate : ∀ message, Within (translate message) c
      (NodeConfined T L d v i)
      fun block _ => ∀ n ∈ block.nodes, n.kind = .text → d + v ≤ n.index := by
    intro _
    dsimp -zeta only [translate]
    refine Within.reads_bind (Reads.ofI18n _) (Confined.refl c) fun message _ => ?_
    refine Within.reads_bind (Reads.ofI18n _) (Confined.refl c) fun parts _ => ?_
    refine Within.reads_bind (Reads.ofI18n _) (Confined.refl c) fun planned _ => ?_
    -- the compiled template is written back; its new slots and the block's texts are past the data
    have hwrite : ∀ acc : TView × I18nBlock, t.Compiles acc →
        Within (setTView acc.1 >>= fun _ => pure acc.2) c (NodeConfined T L d v i)
          fun block _ => ∀ n ∈ block.nodes, n.kind = .text → d + v ≤ n.index := by
      intro acc hacc
      have hspan : d + v ≤ t.data.size := hd ▸ hv ▸ hlaid.span
      refine Within.bind (Within.modify (Confined.setTView ht h.aligned hacc.dims
        (fun j hj => ?_) fun _ =>
          hlaid.of_blocks hacc.dims hacc.size (fun j b hj => .inl (hacc.blocks j b hj))
            fun j _ hhi => hacc.entry j (Nat.lt_of_lt_of_le hhi hlaid.span)))
        fun _ c₁ _ _ => ?_
      · exact hacc.entry j (Nat.lt_of_lt_of_le (Nat.lt_of_not_le fun hle => hj (.inr hle)) hspan)
      · exact Within.pure (Confined.refl c₁) fun n hn hk =>
          Nat.le_trans hspan (hacc.texts n hn hk)
    apply hwrite
    apply List.foldlRecOn
    · exact TView.Compiles.start t
    · intro acc hacc node _
      obtain ⟨t₁, b₁⟩ := acc
      cases node with
      | text parent parts => exact hacc.text _ _ _
      | element index parent => exact hacc.node _ (by simp) _
      | template index parent => exact hacc.node _ (by simp) _
  clear_value translate
  -- the message constant is read, localized or refused, with no store
  split
  · exact Within.reads_bind (Reads.pure trivial : Reads _ c fun _ => True) (Confined.refl c)
      fun _ _ => htranslate _
  · exact Within.reads_bind ((Reads.ofI18n _).mono fun _ _ => trivial) (Confined.refl c)
      fun _ _ => htranslate _
  · exact Within.reads_bind (Reads.structural _ : Reads _ c fun _ => True) (Confined.refl c)
      fun _ _ => htranslate _

/-- Opening a translated block stores the block into its own node slot of the template, and its
text nodes into expando slots of the template and of the view only. -/
theorem i18nStart_within (h : c.Renders T L d v b) (messageIndex : Nat) (sub : Option Nat) :
    Within (i18nStart i messageIndex sub) c (NodeConfined T L d v i) fun _ _ => True := by
  unfold i18nStart
  refine Within.reads_bind Reads.active (Confined.refl c) fun p ⟨f, rest, hfr, hp⟩ => ?_
  subst hp
  refine Within.reads_bind (checkCreationSlot_reads i) (Confined.refl c) fun _ hc => ?_
  have hi := h.lt_decls hc
  refine Within.reads_bind Reads.frame (Confined.refl c) fun f' _ => ?_
  extract_lets -underBinder open_
  have hopen : ∀ r, Within (open_ r) c (NodeConfined T L d v i) fun _ _ => True := by
    intro _
    dsimp -zeta only [open_]
    rw [(h.top_eq hfr).2.1, (h.top_eq hfr).1]
    refine Within.reads_bind (Reads.tview _) (Confined.refl c) fun t ht => ?_
    extract_lets -underBinder root compiled place
    -- every pass materialises the block's text nodes into their expando slots of the view
    have hplace : ∀ r c₁, NodeConfined T L d v i c c₁ →
        Within (place r) c₁ (NodeConfined T L d v i) fun _ _ => True := by
      intro _ c₁ h₁
      dsimp -zeta only [place]
      refine Within.reads_bind (Reads.tview _) (Confined.refl c₁) fun t₁ ht₁ => ?_
      obtain ⟨hd, hv, hlaid⟩ := (h.confined h₁).tview_eq ht₁
      refine Within.reads_bind (blockAt_reads _ _) (Confined.refl c₁) fun block hblock => ?_
      refine Within.bind (Within.foldlM Confined.refl (fun located a ha c₂ => ?_) 0)
        fun _ _ _ _ => Within.still (Still.modifyFrame fun _ => rfl)
      obtain ⟨n, hn, rfl⟩ := List.mem_map.mp ha
      obtain ⟨hn, hk⟩ := List.mem_filter.mp hn
      have hexp : d + v ≤ n.index :=
        hd ▸ hv ▸ hlaid.texts i block hblock n hn (by simpa using hk)
      refine Within.still_bind (Still.materialize _ _) fun p c₃ _ => ?_
      obtain ⟨node, created⟩ := p
      dsimp -zeta only
      refine Within.bind
        (modifyLView_within fun w j hj => LView.slot_set_of_ne fun hjn => hj (.inr ?_))
        fun _ c₄ _ _ => Within.pure (Confined.refl c₄) trivial
      rw [hjn]
      exact hexp
    clear_value place
    refine Within.ite (fun _ => ?_) fun _ => hplace () c (Confined.refl c)
    -- the first pass compiles the block and stores it into the block's own slot
    refine Within.bind (compileBlock_within h _ _ _) fun block c₁ h₁ hblock => ?_
    refine Within.reads_bind (Reads.tview _) (Confined.refl c₁) fun t₁ ht₁ => ?_
    obtain ⟨hd, hv, -⟩ := (h.confined h₁).tview_eq ht₁
    refine Within.bind (Within.modify (Confined.setData ht₁ (h.confined h₁).aligned hd hi _
      fun b' hb' => ?_)) fun r c₂ h₂ _ => hplace r c₂ (h₁.trans h₂)
    cases hb'
    rw [hd, hv]
    exact hblock
  clear_value open_
  exact Within.ite (fun _ => Within.reads_bind (Reads.structural _ : Reads _ c fun _ => True)
    (Confined.refl c) fun _ _ => hopen _) fun _ => hopen ()

/-- Closing a translated block restamps, on the template's first pass, the elements its message
leaves out: it stores only into slots where the template `t` held a node, and into no view. -/
theorem i18nEnd_within {t : TView} (h : c.Renders T L d v b) (ht : c.registry.tview T = .ok t) :
    Within i18nEnd c (Confined T L (fun j => (t.tnode? j).isSome) fun _ => False)
      fun _ _ => True := by
  unfold i18nEnd
  refine Within.reads_bind Reads.active (Confined.refl c) fun p hp => ?_
  obtain ⟨f, rest, hfr, rfl⟩ := hp
  refine Within.reads_bind Reads.frame (Confined.refl c) fun f' _ => ?_
  split
  · rename_i bf _
    refine Within.bind (Within.still_tviews (Still.modifyFrame fun _ => rfl))
      fun _ c₁ h₁ htv => ?_
    have ht₁ : c₁.registry.tview T = .ok t := by
      simp only [Registry.tview, htv] at ht ⊢
      exact ht
    refine Within.reads_bind (Reads.tview _) (Confined.refl c₁) fun t₁ ht₁' => ?_
    rw [(h.top_eq hfr).2.1, ht₁] at ht₁'
    cases ht₁'
    refine Within.reads_bind (blockAt_reads _ _) (Confined.refl c₁) fun block _ => ?_
    rw [ite_bind_unit]
    -- the restamped elements held nodes, and every other slot keeps its entry
    have hmark : Confined T L (fun j => (t.tnode? j).isSome) (fun _ => False) c₁
        { c₁ with registry := c₁.registry.setTView (t.markUnmentioned block bf.elements) } := by
      refine Confined.setTView ht₁ (h.confined h₁).aligned ?_ (fun j hj => ?_) fun hl => ?_
      · exact TView.markUnmentioned_preserves (P := fun t' => t'.dims = t.dims)
          (fun _ _ _ h => (TView.dims_modifyTNode _ _).trans h) _ _ rfl
      · have hnone : t.tnode? j = none := Option.not_isSome_iff_eq_none.mp hj
        refine (TView.markUnmentioned_preserves
          (P := fun t' => t'.tnode? j = none ∧ t'.entry j = t.entry j)
          (fun t' i g hP => ⟨?_, ?_⟩) _ _ ⟨hnone, rfl⟩).2
        · exact TView.tnode?_modifyTNode_of_none g i hP.1
        · exact (TView.entry_modifyTNode_of_tnode? g i hP.1).trans hP.2
      · exact TView.markUnmentioned_preserves (P := TView.Laid)
          (fun _ _ _ h => h.modifyTNode _ _) _ _ hl
    refine Within.bind (Within.ite (fun _ => Within.modify hmark)
      fun _ => Within.pure (Confined.refl c₁) trivial) fun _ c₂ _ _ => Within.still ?_
    -- then both loops only move document nodes
    refine Still.bind (Still.viewPair _) fun p => ?_
    obtain ⟨t', w⟩ := p
    refine Still.bind (Still.forIn (fun e _ => ?_) _ _) fun _ =>
      Still.bind (Still.forIn (fun node _ => ?_) _ _) fun _ => Still.pure _
    · refine Still.ite ?_ (Still.pure _)
      split
      · exact Still.bind (Still.modifyDoc _) fun _ => Still.pure _
      · exact Still.pure _
    · split
      · refine Still.bind Still.get fun _ => Still.ite ?_ (Still.pure _)
        refine Still.bind Still.get fun _ => Still.bind (Still.ofStructural _) fun q => ?_
        obtain ⟨parent, before⟩ := q
        exact Still.bind (Still.modifyDoc _) fun _ => Still.pure _
      · exact Still.pure _
  · exact Within.still (Still.structural _)

end nodes

end RenderM

/-! ### Binding instructions -/

namespace RenderM

section bindings

variable {c : Context} {T : TViewId} {L : LViewId} {d v k : Nat}

/-- A step that stores nowhere stores no binding, and keeps the position. -/
theorem Within.still_binds {α : Type} {x : RenderM α} {b : Nat} (hs : Still x)
    (h : c.Renders T L d v b) :
    Within x c (Binds L k) fun _ c' => c'.Renders T L d v b := by
  obtain ⟨ht, hs', hp, -⟩ := hs c
  refine ⟨Binds.of_still ht hs', fun a c' hrun => ?_⟩
  rw [hrun] at ht hs' hp
  exact h.confined
    (Confined.of_still ht hs' hp : Confined T L (fun _ => False) (fun _ => False) c c')

/-- Claiming the next binding slot moves the counter on and stores nothing. -/
theorem nextBindingIndex_within (h : c.Renders T L d v k) :
    Within nextBindingIndex c (Binds L k) fun a c' => a = k ∧ c'.Renders T L d v (k + 1) := by
  obtain ⟨f, rest, hfr, hl, ht, hb⟩ := h.top
  refine Within.of_ok ?_
  unfold nextBindingIndex
  refine Ok.bind ((frame_ok hfr).mono ?_)
  rintro _ _ ⟨rfl, rfl⟩
  refine Ok.bind ((modifyFrame_ok hfr _).mono ?_)
  rintro _ _ rfl
  exact Ok.pure
    ⟨Binds.refl _, hb, ⟨_, rest, rfl, hl, ht, congrArg (· + 1) hb⟩, h.aligned, h.laid⟩

/-- Storing a binding into slot `k` of view `L` stores nothing else. -/
theorem Binds.setLView {w : LView} (hw : c.registry.lview L = .ok w) (value : String) :
    Binds L k c { c with registry := c.registry.setLView L (w.set k (.binding value)) } := by
  refine ⟨rfl, fun id j hj => ?_, .inr ⟨value, ?_⟩⟩
  · by_cases hL : id = L
    · subst hL
      rw [Registry.slot_setLView_self hw, LView.slot_set_of_ne (hj rfl),
        Registry.slot_eq_of_lview hw]
    · exact Registry.slot_setLView_of_ne hL _ _
  · rw [Registry.slot_setLView_self hw, LView.slot_set_self]

/-- A binding claims the slot the counter names, stores at most a binding there, and moves the
counter on. -/
theorem bindingUpdated_within (h : c.Renders T L d v k) (value : String) :
    Within (bindingUpdated value) c (Binds L k) fun _ c' => c'.Renders T L d v (k + 1) := by
  unfold bindingUpdated
  refine Within.bind (nextBindingIndex_within h) fun index c₁ _ ⟨hidx, h₁⟩ => ?_
  subst hidx
  refine Within.reads_bind Reads.active (Binds.refl c₁) fun p ⟨f, rest, hfr, hp⟩ => ?_
  subst hp
  rw [(h₁.top_eq hfr).1]
  refine Within.reads_bind (Reads.lview _) (Binds.refl c₁) fun w hw => ?_
  extract_lets -underBinder store
  have hstore : ∀ r,
      Within (store r) c₁ (Binds L index) fun _ c' => c'.Renders T L d v (index + 1) := by
    intro _
    dsimp -zeta only [store]
    refine Within.bind
      (Within.modify_with (Binds.setLView hw value) ⟨h₁.top, h₁.aligned, h₁.laid⟩)
      fun _ c₂ _ h₂ => Within.pure (Binds.refl c₂) h₂
  clear_value store
  split
  · exact Within.ite (fun _ => Within.pure (Binds.refl c₁) h₁) fun _ => hstore ()
  · exact hstore ()

/-- A text binding stores at most a binding into the slot the counter names. -/
theorem textInterpolate_within (h : c.Renders T L d v k) (index : Nat) (value : String) :
    Within (textInterpolate index value) c (Binds L k) fun _ c' => c'.Renders T L d v (k + 1) := by
  unfold textInterpolate
  refine Within.bind (bindingUpdated_within h value) fun changed c₁ _ h₁ => ?_
  refine Within.ite (fun _ => Within.still_binds ?_ h₁)
    fun _ => Within.pure (Binds.refl c₁) h₁
  refine Still.bind Still.active fun p => Still.bind (Still.lview _) fun w => ?_
  split
  · exact Still.modifyDoc _
  · exact Still.hydration _

/-- An expression of a translated block stores at most a binding into the slot the counter names. -/
theorem i18nExp_within (h : c.Renders T L d v k) (value : String) :
    Within (i18nExp value) c (Binds L k) fun _ c' => c'.Renders T L d v (k + 1) := by
  unfold i18nExp
  exact Within.bind (bindingUpdated_within h value) fun _ c₁ _ h₁ =>
    Within.still_binds (Still.modifyFrame fun _ => rfl) h₁

end bindings

end RenderM

/-! ### Passes -/

namespace RenderM

section passes

variable {c : Context} {T : TViewId} {L : LViewId} {d v b : Nat} {α : Type} {x : RenderM α}

/-- A step confined to slots whose every store is one store of the pass is a step of the pass. -/
theorem Within.store {tw lw : Nat → Prop}
    (hx : Within x c (Confined T L tw lw) fun _ _ => True)
    (hs : ∀ r', c.registry.Stores T L tw lw r' → PassStore T L d v c.registry r') :
    Within x c (Context.InPass T L d v) fun _ _ => True :=
  ⟨.store (.refl _) (hs _ hx.1.stores) hx.1.kept, fun _ _ _ => trivial⟩

/-- Such a step keeps the position. -/
theorem Within.passStore {tw lw : Nat → Prop}
    (hx : Within x c (Confined T L tw lw) fun _ _ => True)
    (hs : ∀ r', c.registry.Stores T L tw lw r' → PassStore T L d v c.registry r')
    (h : c.Renders T L d v b) :
    Within x c (Context.InPass T L d v) fun _ c' => c'.Renders T L d v b := by
  refine ⟨(hx.store hs).1, fun a c' hrun => ?_⟩
  have hc := hx.1
  rw [hrun] at hc
  exact h.confined hc

/-- A node instruction's run is one node store of the pass. -/
theorem Within.nodeStore {i : Nat} (hx : Within x c (NodeConfined T L d v i)
    fun _ _ => True) (h : c.Renders T L d v b) :
    Within x c (Context.InPass T L d v) fun _ c' => c'.Renders T L d v b :=
  hx.passStore (fun _ => .node i) h

/-- The end of a translated block is one restamp of the pass. -/
theorem Within.restampStore (hx : ∀ t, c.registry.tview T = .ok t →
    Within x c (Confined T L (fun j => (t.tnode? j).isSome) fun _ => False) fun _ _ => True)
    (h : c.Renders T L d v b) :
    Within x c (Context.InPass T L d v) fun _ c' => c'.Renders T L d v b := by
  obtain ⟨t, ht, -⟩ := h.laid
  exact (hx t ht).passStore (fun _ => .restamp t ht) h

/-- A binding instruction's run is one binding store of the pass, into a binding slot. -/
theorem Within.bindingStore (hx : Within x c (Binds L b) fun _ c' => c'.Renders T L d v (b + 1))
    (hd : d ≤ b) (hb : b < d + v) :
    Within x c (Context.InPass T L d v) fun _ c' => c'.Renders T L d v (b + 1) :=
  ⟨.store (.refl _) (.binding b hd hb hx.1) (.of_tviews hx.1.tviews), hx.2⟩

/-- A step that stores nowhere is a node store that reaches no node slot. -/
theorem Within.stillStore (hs : Still x) (h : c.Renders T L d v b) :
    Within x c (Context.InPass T L d v) fun _ c' => c'.Renders T L d v b :=
  (Within.still hs : Within x c (Confined T L (nodeSlots d v d) (nodeSlots d v d)) _).nodeStore h

theorem runInstr_of_inPlace {fuel : Nat} {scope : Scope} {i : Instr} (h : i.inPlace = true) :
    runInstr fuel scope i = simpleInstr scope i := by
  apply runInstr.eq_4 <;> (rintro _ _ _ rfl; simp [Instr.inPlace] at h)

/-- Each instruction that runs in place makes at most two stores: a node instruction into its own
node slot and expando slots, a binding instruction into the binding slot its counter names, the end
of a translated block a restamp, and the others none. -/
theorem runInstr_inPlace (fuel : Nat) (scope : Scope) {i : Instr} (h : c.Renders T L d v b)
    (hs : i.inPlace = true) (hd : d ≤ b) (hb : b + i.bindingSlots ≤ d + v) :
    Within (runInstr fuel scope i) c (Context.InPass T L d v)
      fun _ c' => c'.Renders T L d v (b + i.bindingSlots) := by
  rw [runInstr_of_inPlace hs]
  cases i with
  | elementStart index tag attrs refs => exact (elementStart_within h _ _ _).nodeStore h
  | element index tag attrs refs =>
    refine (Within.bind (elementStart_within h _ _ _) fun _ _ _ _ => ?_).nodeStore h
    exact Within.still (Still.discard (Still.closeNode _ _))
  | elementEnd => exact Within.stillStore (Still.discard (Still.closeNode _ _)) h
  | elementContainerStart index attrs refs => exact (elementContainerStart_within h _ _).nodeStore h
  | elementContainer index attrs refs =>
    refine (Within.bind (elementContainerStart_within h _ _) fun _ _ _ _ => ?_).nodeStore h
    exact Within.still (Still.discard (Still.closeNode _ _))
  | elementContainerEnd => exact Within.stillStore (Still.discard (Still.closeNode _ _)) h
  | text index value => exact (text_within h _).nodeStore h
  | template index tv attrs refs =>
    refine (Within.bind (template_within h _ _ _) fun _ _ _ _ => ?_).nodeStore h
    exact Within.still (Still.emit _)
  | i18nStart index message sub => exact (i18nStart_within h _ _).nodeStore h
  | i18nAttributes index attrs => exact (i18nAttributes_within h _).nodeStore h
  | textInterpolate index value =>
    exact (textInterpolate_within h _ _).bindingStore hd (by simp [Instr.bindingSlots] at hb; omega)
  | i18nExp value =>
    exact (i18nExp_within h _).bindingStore hd (by simp [Instr.bindingSlots] at hb; omega)
  | i18n index message sub =>
    refine Within.bind ((i18nStart_within h _ _).nodeStore h) fun _ c₁ _ h₁ => ?_
    exact Within.restampStore (fun _ ht => i18nEnd_within h₁ ht) h₁
  | i18nEnd => exact Within.restampStore (fun _ ht => i18nEnd_within h ht) h
  | i18nApply index => exact Within.stillStore (Still.i18nApply _) h
  | containerLength slot =>
    exact Within.stillStore (Still.bind (Still.containerAt _) fun _ =>
      Still.bind (Still.container _) fun _ => Still.emit _) h
  | localRef name => exact Within.stillStore (Still.bind (Still.localRef _) fun _ => Still.emit _) h
  | removeLocalRef name =>
    refine Within.stillStore (Still.bind (Still.localRef _) fun n => ?_) h
    split
    · exact Still.modifyDoc _
    · exact Still.pure _
  | removeSlotNode index =>
    refine Within.stillStore
      (Still.bind Still.active fun p => Still.bind (Still.lview _) fun w => ?_) h
    split
    · exact Still.modifyDoc _
    · exact Still.pure _
  | probe =>
    exact Within.stillStore
      (Still.bind Still.frame fun _ => Still.bind Still.get fun _ => Still.emit _) h
  | _ => simp [Instr.inPlace] at hs

end passes

end RenderM

end ViewHydration
