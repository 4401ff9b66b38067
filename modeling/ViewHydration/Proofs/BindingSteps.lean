import ViewHydration.Proofs.RenderSteps
import ViewHydration.Proofs.BindingSites

/-!
# The binding instructions, one step at a time

Specifications of the instructions of an update pass, run from a frame of the form `bindFrame`:
the frame of a view in an update pass, at a binding slot, with a change mask and a count of the
expressions waiting for their application. A text binding and an expression each claim the next
binding slot and store their value in it; the text binding rewrites its node and the expression
marks its bit in the change mask, each only when the value changed. An application writes the
operations of its block whose masks meet the change mask, and clears the mask. None of them
touches the templates.

## Main results

- `RenderM.bindingUpdated_ok` — a binding stores its value and answers whether it changed
- `RenderM.textInterpolate_ok`, `RenderM.i18nExp_ok`, `RenderM.i18nApply_ok` — the three
  binding instructions
-/

namespace ViewHydration

/-- The frame of an update pass of `view` at binding slot `b`, with change mask `mask` and `s`
expressions waiting for their application. -/
abbrev bindFrame (view : LViewId) (t : TView) (b : Nat) (mask : UInt32) (s : Nat) : Frame :=
  { lview := view, tview := t.id, bindingIndex := b, expMask := mask, expShift := s }

/-! ### The writes of an application -/

namespace I18nUpdateOp

/-- Whether an operation runs again under a change mask: its own mask meets it. -/
def Reruns (op : I18nUpdateOp) (mask : UInt32) : Prop := (op.mask &&& mask != 0) = true

instance (op : I18nUpdateOp) (mask : UInt32) : Decidable (op.Reruns mask) :=
  inferInstanceAs (Decidable (_ = true))

/-- The write of an operation that reruns: its parts rendered with `ws`, at its place. -/
def write? (v : LView) (mask : UInt32) (ws : List String) (op : I18nUpdateOp) :
    Option (WritePlace × String) :=
  if op.Reruns mask then (op.place? v).map (·, renderParts op.parts ws) else none

end I18nUpdateOp

/-- The writes of an application of the operations `ops` under a change mask, in order. -/
def applyWrites (v : LView) (mask : UInt32) (ws : List String) (ops : List I18nUpdateOp) :
    List (WritePlace × String) :=
  ops.filterMap (·.write? v mask ws)

section applyWrites

variable {v : LView} {mask : UInt32} {ws : List String} {ops : List I18nUpdateOp}

theorem applyWrites_zero : applyWrites v 0 ws ops = [] := by
  simp [applyWrites, I18nUpdateOp.write?, I18nUpdateOp.Reruns]

theorem mem_applyWrites {p : WritePlace} {w : String} :
    (p, w) ∈ applyWrites v mask ws ops ↔
      ∃ op ∈ ops, op.Reruns mask ∧ op.place? v = some p ∧ renderParts op.parts ws = w := by
  simp only [applyWrites, I18nUpdateOp.write?, List.mem_filterMap]
  constructor
  · rintro ⟨op, hop, hw⟩
    split at hw
    · obtain ⟨q, hq, hqw⟩ := Option.map_eq_some_iff.mp hw
      cases hqw
      exact ⟨op, hop, by assumption, hq, rfl⟩
    · cases hw
  · rintro ⟨op, hop, hr, hp, rfl⟩
    exact ⟨op, hop, by simp [hr, hp]⟩

theorem I18nUpdateOp.place?_of_write? {op : I18nUpdateOp} {pw : WritePlace × String}
    (h : op.write? v mask ws = some pw) : op.place? v = some pw.1 := by
  unfold I18nUpdateOp.write? at h
  split at h
  · obtain ⟨q, hq, rfl⟩ := Option.map_eq_some_iff.mp h
    exact hq
  · cases h

/-- An application writes only at places of its operations, each at most once. -/
theorem applyWrites_places_sublist :
    List.Sublist ((applyWrites v mask ws ops).map (·.1)) (ops.filterMap (·.place? v)) := by
  induction ops with
  | nil => exact List.Sublist.refl _
  | cons op rest ih =>
    simp only [applyWrites, List.filterMap_cons] at ih ⊢
    cases hw : op.write? v mask ws with
    | none =>
      cases op.place? v with
      | none => exact ih
      | some p => exact ih.cons p
    | some pw =>
      simp only [I18nUpdateOp.place?_of_write? hw, List.map_cons]
      exact ih.cons_cons pw.1

/-- An operation that does not rerun is not written, when the operations have distinct places. -/
theorem not_mem_applyWrites_of_skip {op : I18nUpdateOp} {p : WritePlace}
    (hnd : (ops.filterMap (·.place? v)).Nodup) (hop : op ∈ ops) (hp : op.place? v = some p)
    (hskip : ¬ op.Reruns mask) : p ∉ (applyWrites v mask ws ops).map (·.1) := by
  induction ops with
  | nil => simp at hop
  | cons a rest ih =>
    rw [List.filterMap_cons] at hnd
    have hsub : ∀ q ∈ (applyWrites v mask ws rest).map (·.1), q ∈ rest.filterMap (·.place? v) :=
      fun q hq => applyWrites_places_sublist.subset hq
    rw [applyWrites, List.filterMap_cons]
    rcases List.mem_cons.mp hop with rfl | hrest
    · -- the operation itself writes nothing, and no later one writes its place
      simp only [hp, List.nodup_cons] at hnd
      rw [show op.write? v mask ws = none by simp [I18nUpdateOp.write?, hskip]]
      exact fun hmem => hnd.1 (hsub p hmem)
    · have hin : p ∈ rest.filterMap (·.place? v) := List.mem_filterMap.mpr ⟨op, hrest, hp⟩
      cases ha : a.place? v with
      | none =>
        simp only [ha] at hnd
        rw [show a.write? v mask ws = none by simp [I18nUpdateOp.write?, ha]]
        exact ih hnd hrest
      | some q =>
        simp only [ha, List.nodup_cons] at hnd
        -- an earlier write lands at the earlier operation's place, which is not this one
        cases hw : a.write? v mask ws with
        | none => exact ih hnd.2 hrest
        | some pw =>
          have hq : pw.1 = q := by simpa [ha] using (I18nUpdateOp.place?_of_write? hw).symm
          simp only [List.map_cons, List.mem_cons, not_or]
          exact ⟨fun hpq => hnd.1 (hq ▸ hpq ▸ hin), ih hnd.2 hrest⟩

end applyWrites

namespace RenderM

variable {c : Context} {view : LViewId} {t : TView} {v : LView} {b s : Nat} {mask : UInt32}
  {fr : List Frame}

theorem nextBindingIndex_ok (h : c.frames = bindFrame view t b mask s :: fr) :
    Ok nextBindingIndex c fun a c' =>
      a = b ∧ c' = { c with frames := bindFrame view t (b + 1) mask s :: fr } := by
  unfold nextBindingIndex
  refine Ok.bind ((frame_ok h).mono ?_)
  rintro _ _ ⟨rfl, rfl⟩
  refine Ok.bind ((modifyFrame_ok h _).mono ?_)
  rintro _ _ rfl
  exact Ok.pure ⟨rfl, rfl⟩

/-- A binding compares its value with its slot, stores it when it differs, and answers whether
it did. -/
theorem bindingUpdated_ok (h : c.frames = bindFrame view t b mask s :: fr)
    (hv : c.registry.lview view = .ok v) (value : String) :
    Ok (bindingUpdated value) c fun changed c' =>
      changed = !decide (v.slot b = .binding value) ∧
      c'.frames = bindFrame view t (b + 1) mask s :: fr ∧
      c'.registry.lview view = .ok (v.setBinding b value) ∧
      c'.registry.tviews = c.registry.tviews ∧ c'.doc = c.doc := by
  unfold bindingUpdated
  refine Ok.bind ((nextBindingIndex_ok h).mono ?_)
  rintro a _ ⟨ha, rfl⟩
  subst a
  refine Ok.bind ((active_ok rfl).mono ?_)
  rintro _ _ ⟨rfl, rfl⟩
  have hv₁ : ({ c with frames := bindFrame view t (b + 1) mask s :: fr } : Context).registry.lview view =
      .ok v := hv
  refine Ok.bind ((lview_ok hv₁).mono ?_)
  rintro _ _ ⟨rfl, rfl⟩
  -- an unchanged value returns early; any other slot is overwritten
  have hset : Ok (setLView view (v.set b (.binding value)) >>= fun _ => pure true)
      { c with frames := bindFrame view t (b + 1) mask s :: fr } fun changed c' =>
        changed = true ∧ c'.frames = bindFrame view t (b + 1) mask s :: fr ∧
        c'.registry.lview view = .ok (v.set b (.binding value)) ∧
        c'.registry.tviews = c.registry.tviews ∧ c'.doc = c.doc :=
    Ok.bind (Ok.modify (Ok.pure ⟨rfl, rfl, Registry.lview_setLView_self hv, rfl, rfl⟩))
  cases hs : v.slot b
  case binding old =>
    by_cases hold : old = value
    · subst hold
      simp only [beq_self_eq_true, if_true]
      refine Ok.pure ⟨by simp, rfl, ?_, rfl, rfl⟩
      simp only [LView.setBinding, hs, if_true]
      exact hv
    · simp only [beq_iff_eq, hold, if_false]
      refine hset.mono ?_
      rintro _ _ ⟨rfl, h₁, h₂, h₃, h₄⟩
      refine ⟨by simp [hold], h₁, ?_, h₃, h₄⟩
      simpa [LView.setBinding, hs, hold] using h₂
  all_goals
    refine hset.mono ?_
    rintro _ _ ⟨rfl, h₁, h₂, h₃, h₄⟩
    refine ⟨by simp, h₁, ?_, h₃, h₄⟩
    simpa [LView.setBinding, hs] using h₂

/-- A text binding stores its value and rewrites its node when the value changed. -/
theorem textInterpolate_ok {k : Nat} {x : NodeId} (h : c.frames = bindFrame view t b mask s :: fr)
    (hv : c.registry.lview view = .ok v) (hx : v.native? k = some x) (hk : k ≠ b) (value : String) :
    Ok (textInterpolate k value) c fun _ c' =>
      c'.frames = bindFrame view t (b + 1) mask s :: fr ∧
      c'.registry.lview view = .ok (v.setBinding b value) ∧
      c'.registry.tviews = c.registry.tviews ∧
      c'.doc = if v.slot b = .binding value then c.doc else c.doc.write (.data x) value := by
  unfold textInterpolate
  refine Ok.bind ((bindingUpdated_ok h hv value).mono ?_)
  rintro _ c₁ ⟨rfl, h₁, h₂, h₃, h₄⟩
  by_cases hs : v.slot b = .binding value
  · simp only [hs, decide_true, Bool.not_true, Bool.false_eq_true, if_false, if_true]
    exact Ok.pure ⟨h₁, h₂, h₃, h₄⟩
  · simp only [hs, decide_false, Bool.not_false, if_true, if_false]
    refine Ok.bind ((active_ok h₁).mono ?_)
    rintro _ _ ⟨rfl, rfl⟩
    refine Ok.bind ((lview_ok h₂).mono ?_)
    rintro _ _ ⟨rfl, rfl⟩
    -- the binding slot is not the node's slot, so the node is still there
    simp only [LView.native?_setBinding_of_ne hk, hx]
    exact Ok.modify ⟨h₁, h₂, h₃, by simp [h₄]; rfl⟩

/-- An expression stores its value and, when it changed, marks its bit in the change mask. -/
theorem i18nExp_ok (h : c.frames = bindFrame view t b mask s :: fr)
    (hv : c.registry.lview view = .ok v) (value : String) :
    Ok (i18nExp value) c fun _ c' =>
      c'.frames = bindFrame view t (b + 1)
        (if v.slot b = .binding value then mask else mask ||| expressionBit s) (s + 1) :: fr ∧
      c'.registry.lview view = .ok (v.setBinding b value) ∧
      c'.registry.tviews = c.registry.tviews ∧ c'.doc = c.doc := by
  unfold i18nExp
  refine Ok.bind ((bindingUpdated_ok h hv value).mono ?_)
  rintro _ c₁ ⟨rfl, h₁, h₂, h₃, h₄⟩
  refine (modifyFrame_ok h₁ _).mono ?_
  rintro _ _ rfl
  refine ⟨?_, h₂, h₃, h₄⟩
  by_cases hs : v.slot b = .binding value <;> simp [hs, bindFrame]

/-- An application clears the change mask and writes the operations of its block that rerun,
with the values of the waiting expressions read back from their slots. -/
theorem i18nApply_ok {i : Nat} (h : c.frames = bindFrame view t b mask s :: fr) (hsb : s ≤ b)
    (hv : c.registry.lview view = .ok v) (ht : c.registry.tview t.id = .ok t)
    (hblock : t.isBlock i = true) (hnodes : ∀ op ∈ t.updateOps i, (v.native? op.slot).isSome) :
    Ok (i18nApply i) c fun _ c' =>
      c'.frames = bindFrame view t b 0 0 :: fr ∧ c'.registry = c.registry ∧
      c'.doc = c.doc.writeAll (applyWrites v mask (v.window (b - s) s) (t.updateOps i)) := by
  unfold i18nApply
  refine Ok.bind ((active_ok h).mono ?_)
  rintro _ _ ⟨rfl, rfl⟩
  refine Ok.bind ((frame_ok h).mono ?_)
  rintro _ _ ⟨rfl, rfl⟩
  refine Ok.bind ((modifyFrame_ok h _).mono ?_)
  rintro _ c₁ hc₁
  have h₁ : c₁.frames = bindFrame view t b 0 0 :: fr := by rw [hc₁]
  have hreg : c₁.registry = c.registry := by rw [hc₁]
  have hdoc : c₁.doc = c.doc := by rw [hc₁]
  clear hc₁
  dsimp only [bindFrame]
  refine Ok.ite (fun hmask => ?_) (fun hmask => ?_)
  · have ht₁ : c₁.registry.tview t.id = .ok t := by rw [hreg]; exact ht
    refine Ok.bind ((tview_ok ht₁).mono ?_)
    rintro _ _ ⟨rfl, rfl⟩
    -- the loop only writes the document
    have hfold : ∀ (ops : List I18nUpdateOp) (c : Context),
        (ops.foldl (fun c op =>
          { c with doc := c.doc.writeAll (op.write? v mask (v.window (b - s) s)).toList }) c).doc =
          c.doc.writeAll (applyWrites v mask (v.window (b - s) s) ops) ∧
        (ops.foldl (fun c op =>
          { c with doc := c.doc.writeAll (op.write? v mask (v.window (b - s) s)).toList }) c).frames =
          c.frames ∧
        (ops.foldl (fun c op =>
          { c with doc := c.doc.writeAll (op.write? v mask (v.window (b - s) s)).toList }) c).registry =
          c.registry := by
      intro ops
      induction ops with
      | nil => intro c; exact ⟨rfl, rfl, rfl⟩
      | cons op rest ih =>
        intro c
        obtain ⟨h₁, h₂, h₃⟩ := ih { c with doc := c.doc.writeAll (op.write? v mask (v.window (b - s) s)).toList }
        refine ⟨?_, h₂, h₃⟩
        rw [List.foldl_cons, h₁]
        simp only [applyWrites, Document.writeAll_filterMap, List.foldl_cons]
    unfold TView.isBlock at hblock
    unfold TView.updateOps at hnodes ⊢
    split at hblock
    case h_3 => cases hblock
    all_goals
      rename_i block hd
      simp only [hd] at hnodes ⊢
      refine Ok.bind (Ok.pure ?_)
      have hv₁ : c₁.registry.lview view = .ok v := by rw [hreg]; exact hv
      refine Ok.bind ((lview_ok hv₁).mono ?_)
      rintro _ _ ⟨rfl, rfl⟩
      rw [Nat.sub_sub_self hsb]
      refine Ok.bind ((Ok.forIn_yield (fun op c =>
        { c with doc := c.doc.writeAll (op.write? v mask (v.window (b - s) s)).toList }) ?_).mono ?_)
      · intro op hop c₂
        obtain ⟨x, hx⟩ := Option.isSome_iff_exists.mp (hnodes op hop)
        refine Ok.ite (fun hr => ?_) (fun hr => Ok.pure ⟨rfl, ?_⟩)
        · -- an operation that reruns finds its node and writes it
          obtain ⟨target, parts, m⟩ := op
          rcases target with slot | ⟨element, name⟩
          all_goals
            simp only [I18nUpdateOp.slot] at hx
            simp only [hx]
            refine Ok.bind ((modifyDoc_ok _).mono ?_)
            rintro _ _ rfl
            refine Ok.pure ⟨rfl, ?_⟩
            simp only [I18nUpdateOp.write?, I18nUpdateOp.Reruns, hr, if_true, I18nUpdateOp.place?, hx,
              Option.map_some, Option.toList_some]
            rfl
        · simp only [I18nUpdateOp.write?, I18nUpdateOp.Reruns, hr]
          rfl
      · rintro _ _ rfl
        obtain ⟨hd₁, hd₂, hd₃⟩ := hfold block.update c₁
        exact Ok.pure ⟨hd₂.trans h₁, hd₃.trans hreg, hd₁.trans (by rw [hdoc])⟩
  · have hzero : mask = 0 := by simpa using hmask
    exact Ok.pure ⟨h₁, hreg, by rw [hzero, applyWrites_zero, hdoc]; rfl⟩

theorem runInstr_of_isBinding {fuel : Nat} {scope : Scope} {i : Instr} (h : i.isBinding = true) :
    runInstr fuel scope i = simpleInstr scope i := by
  apply runInstr.eq_4 <;> (rintro _ _ _ rfl; simp [Instr.isBinding] at h)

end RenderM

end ViewHydration
