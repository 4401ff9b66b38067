import ViewHydration.Proofs.Footprint
import ViewHydration.Render.Mount

/-!
# The position stack under render steps

Only `enterView`, `leaveView` and `abandonView` push or pop frames, and only `modifyFrame` edits
one. So every instruction that runs no template pass changes at most the top frame of the
position stack (`TopOnly`), and every step that does not edit a frame ends with the stack it
started with (`Restores`), whether it fails or not. Both are `Keeps R` for a preorder `R` on
contexts, and are proved step by step along the definitions.
-/

namespace ViewHydration

namespace Context

/-- `c'` holds the position stack of `c`. -/
def SameStack (c c' : Context) : Prop := c'.frames = c.frames

/-- `c'` holds the position stack of `c` up to its top frame: as many frames, the same ones below
the top. -/
def SameBelow (c c' : Context) : Prop :=
  c'.frames.length = c.frames.length ∧ c'.frames.tail = c.frames.tail

instance : IsPreorder Context SameStack where
  refl _ := rfl
  trans _ _ _ h₁ h₂ := Eq.trans h₂ h₁

instance : IsPreorder Context SameBelow where
  refl _ := ⟨rfl, rfl⟩
  trans _ _ _ h₁ h₂ := ⟨h₂.1.trans h₁.1, h₂.2.trans h₁.2⟩

theorem SameStack.sameBelow {c c' : Context} (h : SameStack c c') : SameBelow c c' := by
  unfold SameStack at h
  exact ⟨by rw [h], by rw [h]⟩

end Context

namespace RenderM

variable {α β : Type}

/-- Every run of `x`, failing or not, ends in a context related by `R` to the one it started
from. -/
def Keeps (R : Context → Context → Prop) (x : RenderM α) : Prop :=
  ∀ c, Within x c R fun _ _ => True

/-- Every run of `x` ends with the position stack it started with. -/
abbrev Restores (x : RenderM α) : Prop := Keeps Context.SameStack x

/-- Every run of `x` changes at most the top frame of the position stack. -/
abbrev TopOnly (x : RenderM α) : Prop := Keeps Context.SameBelow x

namespace Keeps

variable {R : Context → Context → Prop} {x : RenderM α}

theorem mono {R' : Context → Context → Prop} (h : Keeps R x) (hR : ∀ c c', R c c' → R' c c') :
    Keeps R' x :=
  fun c => (h c).mono (hR c) fun _ _ h => h

/-- Writing back a context related to the one the write runs from. -/
theorem set {c c' : Context} (h : R c c') :
    Within (set c' : RenderM PUnit) c R fun _ _ => True :=
  Within.of_ok (Ok.set ⟨h, trivial⟩)

theorem ite {p : Prop} [Decidable p] {y : RenderM α} (hx : Keeps R x) (hy : Keeps R y) :
    Keeps R (if p then x else y) := by
  split
  · exact hx
  · exact hy

variable [IsPreorder Context R]

theorem bind {f : α → RenderM β} (hx : Keeps R x) (hf : ∀ a, Keeps R (f a)) :
    Keeps R (x >>= f) :=
  fun c => Within.bind (hx c) fun a c₁ _ _ => hf a c₁

theorem pure (a : α) : Keeps R (Pure.pure a : RenderM α) :=
  fun c => Within.pure (refl c) trivial

theorem throw (e : RenderError) : Keeps R (throw e : RenderM α) :=
  fun c => Within.throw (refl c)

/-- A read of the context, and what follows runs from the context it read. -/
theorem get_bind {f : Context → RenderM β} (hf : ∀ c, Within (f c) c R fun _ _ => True) :
    Keeps R (Bind.bind get f) := by
  intro c
  refine Within.reads_bind Reads.get (refl c) fun c' hc => ?_
  subst hc
  exact hf c'

theorem get : Keeps R (get : RenderM Context) :=
  fun c => Within.of_ok (Ok.get ⟨refl c, trivial⟩)

theorem tryCatch {handler : RenderError → RenderM α} (hx : Keeps R x)
    (hh : ∀ e, Keeps R (handler e)) : Keeps R (tryCatch x handler) :=
  fun c => Within.tryCatch (hx c) fun e c₁ _ => hh e c₁

theorem discard (hx : Keeps R x) : Keeps R (discard x) := by
  rw [discard_eq]
  exact bind hx fun _ => pure _

theorem foldlM {γ : Type} {f : β → γ → RenderM β} (hf : ∀ acc a, Keeps R (f acc a))
    (xs : List γ) (init : β) : Keeps R (xs.foldlM f init) := by
  induction xs generalizing init with
  | nil => exact pure _
  | cons a rest ih => exact bind (hf init a) fun acc => ih acc

theorem forIn {γ : Type} {f : γ → β → RenderM (ForInStep β)} (hf : ∀ a b, Keeps R (f a b))
    (xs : List γ) (init : β) : Keeps R (forIn xs init f) := by
  induction xs generalizing init with
  | nil => exact pure _
  | cons a rest ih =>
    rw [List.forIn_cons]
    refine bind (hf a init) fun r => ?_
    cases r with
    | done b => exact pure b
    | yield b => exact ih b

/-! ### Reads and failures, which keep every context -/

theorem structural (e : StructuralError) : Keeps R (structural e : RenderM α) := throw _

theorem hydration (e : HydrationError) : Keeps R (hydration e : RenderM α) := throw _

theorem ofStructural (e : Except StructuralError α) : Keeps R (ofStructural e) := by
  cases e
  · exact throw _
  · exact pure _

theorem ofHydration (e : Except HydrationError α) : Keeps R (ofHydration e) := by
  cases e
  · exact throw _
  · exact pure _

theorem ofI18n (e : Except I18nError α) : Keeps R (ofI18n e) := by
  cases e
  · exact throw _
  · exact pure _

theorem ofExcept (e : Except RenderError α) : Keeps R (ofExcept e) := by
  cases e
  · exact throw _
  · exact pure _

theorem frame : Keeps R frame := by
  unfold RenderM.frame
  refine bind get fun c => ?_
  split
  · exact pure _
  · exact structural _

theorem active : Keeps R active := bind frame fun _ => pure _

theorem tview (id : TViewId) : Keeps R (tview id) := bind get fun _ => ofStructural _

theorem lview (id : LViewId) : Keeps R (lview id) := bind get fun _ => ofStructural _

theorem viewPair (id : LViewId) : Keeps R (viewPair id) := bind get fun _ => ofStructural _

theorem container (id : ContainerId) : Keeps R (container id) := bind get fun _ => ofStructural _

theorem containerIn (view : LViewId) (index : Nat) : Keeps R (containerIn view index) := by
  unfold RenderM.containerIn
  refine bind (lview _) fun v => ?_
  split
  · exact pure _
  · exact structural _

theorem containerAt (index : Nat) : Keeps R (containerAt index) :=
  bind active fun _ => containerIn _ _

theorem localRef (name : String) : Keeps R (localRef name) :=
  bind active fun _ => bind (viewPair _) fun _ => pure _

theorem checkCreationSlot (index : Nat) : Keeps R (checkCreationSlot index) := by
  unfold RenderM.checkCreationSlot
  refine bind frame fun f => bind (tview _) fun t => ?_
  exact ite (bind (structural _) fun _ => ite (structural _) (pure _))
    (ite (structural _) (pure _))

theorem expectKind (index : Nat) (node : NodeId) (kind : NodeKind) :
    Keeps R (expectKind index node kind) :=
  bind get fun _ => ite (hydration _) (pure _)

theorem blockAt (t : TView) (index : Nat) : Keeps R (blockAt t index) := by
  unfold RenderM.blockAt
  split
  · exact pure _
  · exact structural _

end Keeps

/-! ### Steps that leave the position stack as it was -/

namespace Restores

variable {x : RenderM α}

theorem topOnly (h : Restores x) : TopOnly x :=
  Keeps.mono h fun _ _ => Context.SameStack.sameBelow

theorem modify {f : Context → Context} (h : ∀ c, (f c).frames = c.frames) :
    Restores (modify f : RenderM PUnit) :=
  fun c => Within.modify (h c)

theorem emit (e : Event) : Restores (emit e) := modify fun _ => rfl

theorem modifyDoc (g : Document → Document) : Restores (modifyDoc g) := modify fun _ => rfl

theorem setTView (t : TView) : Restores (setTView t) := modify fun _ => rfl

theorem setLView (id : LViewId) (v : LView) : Restores (setLView id v) := modify fun _ => rfl

theorem modifyLView (id : LViewId) (g : LView → LView) : Restores (modifyLView id g) :=
  Keeps.bind (Keeps.lview _) fun _ => setLView _ _

theorem modifyContainer (id : ContainerId) (g : LContainer → LContainer) :
    Restores (modifyContainer id g) :=
  Keeps.bind (Keeps.container _) fun _ => modify fun _ => rfl

theorem createNode (req : NodeRequest) : Restores (createNode req) := by
  intro c
  cases req <;> exact ⟨rfl, fun _ _ _ => trivial⟩

theorem claim (node : NodeId) : Restores (claim node) := by
  intro c
  unfold RenderM.claim
  refine Within.reads_bind Reads.get rfl fun c' hc => ?_
  subst hc
  cases c'.claims.claim node with
  | error e => exact Keeps.throw _ _
  | ok claims => exact Keeps.set rfl

theorem insertCreated (view : LViewId) (index : Nat) (node : NodeId) :
    Restores (insertCreated view index node) := by
  unfold RenderM.insertCreated
  refine Keeps.bind (Keeps.viewPair _) fun p => ?_
  obtain ⟨t, v⟩ := p
  exact Keeps.bind (Keeps.ofStructural _) fun _ => Keeps.bind Keeps.get fun _ =>
    Keeps.bind (Keeps.ofStructural _) fun _ => modifyDoc _

theorem storeNode (view : LViewId) (index : Nat) (node : NodeId) (created : Bool) :
    Restores (storeNode view index node created) :=
  Keeps.bind (modifyLView _ _) fun _ => Keeps.ite (insertCreated _ _ _) (Keeps.pure _)

theorem runDirectives (view : LViewId) (index : Nat) (tag : String) (node : NodeId)
    (flags : TNodeFlags) : Restores (runDirectives view index tag node flags) := by
  unfold RenderM.runDirectives
  refine Keeps.ite (Keeps.bind Keeps.get fun c => ?_) (Keeps.pure _)
  split
  · exact Keeps.bind (emit _) fun _ => Keeps.bind (Keeps.ofExcept _) fun _ =>
      Keeps.ite (Keeps.bind (emit _) fun _ => Keeps.ofExcept _) (Keeps.pure _)
  · exact Keeps.pure _

theorem resolveTNode (index : Nat) (spec : NodeSpec) : Restores (resolveTNode index spec) := by
  unfold RenderM.resolveTNode
  refine Keeps.bind Keeps.frame fun f => Keeps.bind (Keeps.tview _) fun t => ?_
  refine Keeps.ite ?_ ?_
  · refine Keeps.bind (Keeps.ofStructural _) fun n => ?_
    exact Keeps.ite (Keeps.structural _) (Keeps.pure _)
  · refine Keeps.bind (Keeps.ofStructural _) fun _ => Keeps.bind (Keeps.ofStructural _) fun _ => ?_
    exact Keeps.bind Keeps.get fun _ => Keeps.bind (Keeps.ofStructural _) fun _ => setTView _

theorem materialize (index : Nat) (req : NodeRequest) : Restores (materialize index req) := by
  unfold RenderM.materialize
  refine Keeps.bind Keeps.frame fun f => Keeps.bind (Keeps.viewPair _) fun p => ?_
  obtain ⟨t, v⟩ := p
  refine Keeps.bind (Keeps.ofStructural _) fun tnode => Keeps.bind Keeps.get fun c => ?_
  split
  · refine Keeps.bind Keeps.get fun _ => Keeps.bind (Keeps.ofHydration _) fun current => ?_
    split
    · -- an element
      refine Keeps.bind (Keeps.expectKind _ _ _) fun _ => Keeps.bind Keeps.get fun _ => ?_
      extract_lets -underBinder found rest
      have hrest : ∀ r, Restores (rest r) := by
        intro _
        dsimp -zeta only [rest]
        refine Keeps.bind (claim _) fun _ => ?_
        extract_lets done
        have hdone : ∀ r, Restores (done r) := fun _ => Keeps.pure _
        clear_value done
        exact Keeps.ite (Keeps.bind (modifyDoc _) fun _ => hdone _) (hdone _)
      clear_value rest
      exact Keeps.ite (Keeps.bind (Keeps.hydration _) fun _ => hrest _) (hrest _)
    · -- a text node
      exact Keeps.bind (Keeps.expectKind _ _ _) fun _ => Keeps.bind (claim _) fun _ => Keeps.pure _
    · -- an element container
      split
      · refine Keeps.bind Keeps.get fun _ => ?_
        extract_lets -underBinder doc anchor
        have hanchor : ∀ comment, Restores (anchor comment) := fun _ =>
          Keeps.bind (modifyLView _ _) fun _ =>
            Keeps.bind (Keeps.expectKind _ _ _) fun _ => Keeps.bind (claim _) fun _ => Keeps.pure _
        clear_value anchor
        refine Keeps.ite ?_ ?_
        · split
          · exact Keeps.bind (Keeps.pure _) fun _ => hanchor _
          · exact Keeps.bind (Keeps.hydration _) fun _ => hanchor _
        · split
          · refine Keeps.bind (Keeps.ofHydration _) fun p => ?_
            obtain ⟨a, dehydrated⟩ := p
            exact Keeps.bind (modify fun _ => rfl) fun _ =>
              Keeps.bind (Keeps.pure _) fun _ => hanchor _
          · exact Keeps.bind (Keeps.hydration _) fun _ => hanchor _
      · exact Keeps.hydration _
    · -- a container anchor
      split
      · refine Keeps.bind Keeps.get fun _ => Keeps.bind (Keeps.ofHydration _) fun p => ?_
        obtain ⟨a, dehydrated⟩ := p
        exact Keeps.bind (modify fun _ => rfl) fun _ =>
          Keeps.bind (Keeps.expectKind _ _ _) fun _ => Keeps.bind (claim _) fun _ => Keeps.pure _
      · exact Keeps.hydration _
  · exact Keeps.bind (createNode _) fun _ => Keeps.pure _

theorem releaseViewTree (fuel : Nat) (view : LViewId) : Restores (releaseViewTree fuel view) := by
  induction fuel generalizing view with
  | zero => exact Keeps.pure _
  | succ fuel ih =>
    unfold RenderM.releaseViewTree
    refine Keeps.bind (Keeps.lview _) fun v => ?_
    -- each container releases its views, then itself; the view goes last
    refine Keeps.bind (Keeps.forIn (fun cid _ => ?_) _ _) fun _ => ?_
    · refine Keeps.bind (Keeps.container _) fun r => ?_
      refine Keeps.bind (Keeps.forIn (fun child _ => ?_) _ _) fun _ => ?_
      · exact Keeps.bind (ih child) fun _ => Keeps.pure _
      · exact Keeps.bind (modify fun _ => rfl) fun _ => Keeps.pure _
    · exact Keeps.bind (modify fun _ => rfl) fun _ =>
        Keeps.bind (modify fun _ => rfl) fun _ => modify fun _ => rfl

theorem destroyView (view : LViewId) : Restores (destroyView view) :=
  Keeps.bind Keeps.get fun _ => Keeps.bind (Keeps.ofStructural _) fun _ =>
    Keeps.bind (modifyDoc _) fun _ => Keeps.bind Keeps.get fun _ => releaseViewTree _ _

theorem removeEmbeddedView (cid : ContainerId) (position : Nat) :
    Restores (removeEmbeddedView cid position) := by
  unfold RenderM.removeEmbeddedView
  refine Keeps.bind (Keeps.container _) fun r => ?_
  split
  · exact Keeps.structural _
  · exact Keeps.bind (modifyContainer _ _) fun _ => destroyView _

theorem clearContainer (cid : ContainerId) : Restores (clearContainer cid) := by
  unfold RenderM.clearContainer
  refine Keeps.bind (Keeps.container _) fun r => Keeps.bind (Keeps.forIn (fun _ _ => ?_) _ _) fun _ => Keeps.pure _
  refine Keeps.bind (Keeps.container _) fun _ => ?_
  exact Keeps.ite (Keeps.bind (removeEmbeddedView _ _) fun _ => Keeps.pure _) (Keeps.pure _)

theorem createContainerRefIn (view : LViewId) (index : Nat) :
    Restores (createContainerRefIn view index) := by
  unfold RenderM.createContainerRefIn
  refine Keeps.bind (Keeps.viewPair _) fun p => ?_
  obtain ⟨t, v⟩ := p
  dsimp -zeta only
  extract_lets anchor
  -- the container is registered over the comment of the `<ng-container>`
  have hanchor : ∀ a, Restores (anchor a) := by
    intro a
    dsimp -zeta only [anchor]
    split
    · extract_lets register check
      have hregister : ∀ r, Restores (register r) := by
        intro _
        dsimp -zeta only [register]
        refine Keeps.get_bind fun c => ?_
        exact Within.bind (Keeps.set rfl) fun _ c₁ _ _ =>
          Keeps.bind (modifyLView _ _) (fun _ => Keeps.pure _) c₁
      have hcheck : ∀ r, Restores (check r) := by
        intro _
        dsimp -zeta only [check]
        exact Keeps.ite (Keeps.bind (setTView _) hregister) (hregister ())
      clear_value check register
      exact Keeps.ite (Keeps.bind (Keeps.structural _) hcheck) (hcheck ())
    · exact Keeps.structural _
  clear_value anchor
  split
  · exact Keeps.pure _
  · exact Keeps.bind (Keeps.pure _) fun _ => hanchor _
  · exact Keeps.bind (Keeps.structural _) fun _ => hanchor _

theorem compileBlock (tv : TViewId) (messageIndex : Nat) (sub root : Option Nat) :
    Restores (compileBlock tv messageIndex sub root) := by
  unfold RenderM.compileBlock
  refine Keeps.bind (Keeps.tview _) fun t => Keeps.bind (Keeps.ofStructural _) fun x => ?_
  extract_lets -underBinder finish
  -- the message is parsed and planned, and the template gets the block's text nodes
  have hfinish : ∀ m, Restores (finish m) := by
    intro _
    dsimp -zeta only [finish]
    refine Keeps.bind (Keeps.ofI18n _) fun _ => Keeps.bind (Keeps.ofI18n _) fun _ => ?_
    exact Keeps.bind (Keeps.ofI18n _) fun _ => Keeps.bind (setTView _) fun _ => Keeps.pure _
  clear_value finish
  split
  · exact Keeps.bind (Keeps.pure _) hfinish
  · exact Keeps.bind (Keeps.ofI18n _) hfinish
  · exact Keeps.bind (Keeps.structural _) hfinish

theorem i18nAttributes (index attrsIndex : Nat) : Restores (i18nAttributes index attrsIndex) := by
  unfold RenderM.i18nAttributes
  refine Keeps.bind Keeps.active fun p => ?_
  obtain ⟨view, tv⟩ := p
  refine Keeps.bind (Keeps.checkCreationSlot _) fun _ => Keeps.bind Keeps.frame fun f => ?_
  split
  · refine Keeps.bind (Keeps.tview _) fun t => ?_
    extract_lets -underBinder apply
    have happly : ∀ r, Restores (apply r) := by
      intro _
      dsimp -zeta only [apply]
      refine Keeps.bind (Keeps.viewPair _) fun p => ?_
      obtain ⟨t', w⟩ := p
      dsimp -zeta only
      split
      · split
        · exact modifyDoc _
        · exact Keeps.hydration _
      · exact Keeps.structural _
    clear_value apply
    refine Keeps.ite ?_ (happly ())
    refine Keeps.bind (Keeps.ofStructural _) fun x => ?_
    extract_lets -underBinder compile
    -- on the first pass the list is compiled and stored in the template
    have hcompile : ∀ pairs, Restores (compile pairs) := by
      intro pairs
      dsimp -zeta only [compile]
      refine Keeps.bind (Keeps.foldlM (fun acc a => ?_) _ _) fun _ => Keeps.bind (setTView _) happly
      obtain ⟨name, message⟩ := a
      exact Keeps.bind (Keeps.ofI18n _) fun parts => by split <;> exact Keeps.pure _
    clear_value compile
    split
    · exact Keeps.bind (Keeps.pure _) hcompile
    · exact Keeps.bind (Keeps.structural _) hcompile
  · exact Keeps.structural _

end Restores

/-! ### Steps that edit the top frame only -/

namespace TopOnly

theorem modifyFrame (g : Frame → Frame) : TopOnly (modifyFrame g) := by
  unfold RenderM.modifyFrame
  refine Keeps.get_bind fun c => ?_
  split
  · rename_i top rest hfr
    exact Within.modify ⟨by simp [hfr], by simp [hfr]⟩
  · exact Keeps.structural _ c

theorem setCurrent (index : Nat) (isParent : Bool) : TopOnly (setCurrent index isParent) :=
  modifyFrame _

theorem nextBindingIndex : TopOnly nextBindingIndex :=
  Keeps.bind Keeps.frame fun _ => Keeps.bind (modifyFrame _) fun _ => Keeps.pure _

theorem bindingUpdated (value : String) : TopOnly (bindingUpdated value) := by
  unfold RenderM.bindingUpdated
  refine Keeps.bind nextBindingIndex fun index => Keeps.bind Keeps.active fun p => ?_
  obtain ⟨view, _⟩ := p
  refine Keeps.bind (Keeps.lview _) fun v => ?_
  extract_lets -underBinder store
  have hstore : ∀ r, TopOnly (store r) := fun _ =>
    Keeps.bind (Restores.setLView _ _).topOnly fun _ => Keeps.pure _
  clear_value store
  split
  · exact Keeps.ite (Keeps.pure _) (hstore ())
  · exact hstore ()

theorem openNode (index : Nat) (flags : TNodeFlags) : TopOnly (openNode index flags) :=
  Keeps.bind (setCurrent _ _) fun _ => modifyFrame _

theorem closeNode (expected : TNodeType) (instr : EndInstruction) :
    TopOnly (closeNode expected instr) := by
  unfold RenderM.closeNode
  refine Keeps.bind Keeps.frame fun f => ?_
  extract_lets close
  have hclose : ∀ r, TopOnly (close r) := by
    intro _
    dsimp -zeta only [close]
    split
    · refine Keeps.bind (Keeps.tview _) fun t => ?_
      extract_lets finish
      have hfinish : ∀ closing, TopOnly (finish closing) := by
        intro _
        dsimp -zeta only [finish]
        refine Keeps.bind (Keeps.ofStructural _) fun n => ?_
        extract_lets leave
        have hleave : ∀ r, TopOnly (leave r) := fun _ =>
          Keeps.bind (setCurrent _ _) fun _ => Keeps.bind (modifyFrame _) fun _ => Keeps.pure _
        clear_value leave
        exact Keeps.ite (Keeps.bind (Keeps.structural _) hleave) (hleave ())
      clear_value finish
      refine Keeps.ite (Keeps.bind (Keeps.pure _) hfinish)
        (Keeps.bind (Keeps.ofStructural _) fun n => ?_)
      split
      · exact Keeps.bind (Keeps.pure _) hfinish
      · exact Keeps.bind (Keeps.structural _) hfinish
    · exact Keeps.structural _
  clear_value close
  exact Keeps.ite (Keeps.bind (Keeps.structural _) hclose) (hclose ())

theorem elementStart (index : Nat) (tag : String) (attrs refs : Option Nat) :
    TopOnly (elementStart index tag attrs refs) := by
  unfold RenderM.elementStart
  refine Keeps.bind Keeps.active fun p => ?_
  obtain ⟨view, tv⟩ := p
  refine Keeps.bind (Keeps.checkCreationSlot _) fun _ =>
    Keeps.bind (Restores.resolveTNode _ _).topOnly fun _ => ?_
  refine Keeps.bind (Restores.materialize _ _).topOnly fun p => ?_
  obtain ⟨node, created⟩ := p
  refine Keeps.bind (Keeps.tview _) fun _ => Keeps.bind (Keeps.ofStructural _) fun n => ?_
  extract_lets -underBinder store
  have hstore : ∀ r, TopOnly (store r) := by
    intro _
    dsimp -zeta only [store]
    exact Keeps.bind (Restores.storeNode _ _ _ _).topOnly fun _ =>
      Keeps.bind (openNode _ _) fun _ => (Restores.runDirectives _ _ _ _ _).topOnly
  clear_value store
  exact Keeps.ite (Keeps.bind (Restores.modifyDoc _).topOnly hstore) (hstore ())

theorem elementEnd : TopOnly elementEnd := Keeps.discard (closeNode _ _)

theorem elementContainerStart (index : Nat) (attrs refs : Option Nat) :
    TopOnly (elementContainerStart index attrs refs) := by
  unfold RenderM.elementContainerStart
  refine Keeps.bind Keeps.active fun p => ?_
  obtain ⟨view, tv⟩ := p
  refine Keeps.bind (Keeps.checkCreationSlot _) fun _ =>
    Keeps.bind (Restores.resolveTNode _ _).topOnly fun _ => ?_
  refine Keeps.bind (Restores.materialize _ _).topOnly fun p => ?_
  obtain ⟨node, created⟩ := p
  exact Keeps.bind (Restores.storeNode _ _ _ _).topOnly fun _ =>
    Keeps.bind (Keeps.tview _) fun _ => Keeps.bind (Keeps.ofStructural _) fun _ =>
      Keeps.bind (openNode _ _) fun _ => (Restores.runDirectives _ _ _ _ _).topOnly

theorem elementContainerEnd : TopOnly elementContainerEnd := Keeps.discard (closeNode _ _)

theorem text (index : Nat) (value : Option String) : TopOnly (text index value) := by
  unfold RenderM.text
  refine Keeps.bind Keeps.active fun p => ?_
  obtain ⟨view, _⟩ := p
  refine Keeps.bind (Keeps.checkCreationSlot _) fun _ =>
    Keeps.bind (Restores.resolveTNode _ _).topOnly fun _ => ?_
  refine Keeps.bind (Restores.materialize _ _).topOnly fun p => ?_
  obtain ⟨node, created⟩ := p
  exact Keeps.bind (Restores.storeNode _ _ _ _).topOnly fun _ => setCurrent _ _

theorem textInterpolate (index : Nat) (value : String) :
    TopOnly (textInterpolate index value) := by
  unfold RenderM.textInterpolate
  refine Keeps.bind (bindingUpdated _) fun changed => Keeps.ite ?_ (Keeps.pure _)
  refine Keeps.bind Keeps.active fun p => ?_
  obtain ⟨view, _⟩ := p
  refine Keeps.bind (Keeps.lview _) fun v => ?_
  split
  · exact (Restores.modifyDoc _).topOnly
  · exact Keeps.hydration _

theorem template (index : Nat) (tv : TViewId) (attrs refs : Option Nat) :
    TopOnly (template index tv attrs refs) := by
  unfold RenderM.template
  refine Keeps.bind Keeps.active fun p => ?_
  obtain ⟨view, declaring⟩ := p
  refine Keeps.bind (Keeps.checkCreationSlot _) fun _ =>
    Keeps.bind (Keeps.discard (Keeps.tview _)) fun _ => ?_
  refine Keeps.bind (Restores.resolveTNode _ _).topOnly fun _ =>
    Keeps.bind (Restores.materialize _ _).topOnly fun p => ?_
  obtain ⟨anchor, created⟩ := p
  dsimp -zeta only
  extract_lets -underBinder register
  -- the container is registered, stored in the anchor's slot, and the anchor made current
  have hregister : ∀ r, TopOnly (register r) := by
    intro _
    dsimp -zeta only [register]
    refine Keeps.get_bind fun c => ?_
    refine Within.bind (Keeps.set (Context.SameStack.sameBelow rfl)) fun _ c₁ _ _ => ?_
    refine Keeps.bind (Restores.modifyLView _ _).topOnly (fun _ => ?_) c₁
    exact Keeps.bind (setCurrent _ _) fun _ => Keeps.bind (Keeps.tview _) fun _ =>
      Keeps.bind (Keeps.ofStructural _) fun _ =>
        Keeps.bind (Restores.runDirectives _ _ _ _ _).topOnly fun _ => Keeps.pure _
  clear_value register
  exact Keeps.ite (Keeps.bind (Restores.insertCreated _ _ _).topOnly hregister) (hregister ())

theorem i18nStart (index messageIndex : Nat) (sub : Option Nat) :
    TopOnly (i18nStart index messageIndex sub) := by
  unfold RenderM.i18nStart
  refine Keeps.bind Keeps.active fun p => ?_
  obtain ⟨view, tv⟩ := p
  refine Keeps.bind (Keeps.checkCreationSlot _) fun _ => Keeps.bind Keeps.frame fun f => ?_
  extract_lets -underBinder check
  have hcheck : ∀ r, TopOnly (check r) := by
    intro _
    dsimp -zeta only [check]
    refine Keeps.bind (Keeps.tview _) fun t => ?_
    extract_lets -underBinder root compiled enter
    -- the block's text nodes are materialised, then the frame opens the block
    have henter : ∀ r, TopOnly (enter r) := by
      intro _
      dsimp -zeta only [enter]
      refine Keeps.bind (Keeps.tview _) fun t => Keeps.bind (Keeps.blockAt _ _) fun block => ?_
      refine Keeps.bind (Keeps.foldlM (fun located q => ?_) _ _) fun _ => modifyFrame _
      obtain ⟨slot, value⟩ := q
      refine Keeps.bind (Restores.materialize _ _).topOnly fun r => ?_
      obtain ⟨node, created⟩ := r
      exact Keeps.bind (Restores.modifyLView _ _).topOnly fun _ => Keeps.pure _
    clear_value enter
    refine Keeps.ite ?_ (henter ())
    exact Keeps.bind (Restores.compileBlock _ _ _ _).topOnly fun _ =>
      Keeps.bind (Keeps.tview _) fun _ => Keeps.bind (Restores.setTView _).topOnly henter
  clear_value check
  exact Keeps.ite (Keeps.bind (Keeps.structural _) hcheck) (hcheck ())

theorem i18nEnd : TopOnly i18nEnd := by
  unfold RenderM.i18nEnd
  refine Keeps.bind Keeps.active fun p => ?_
  obtain ⟨view, tv⟩ := p
  refine Keeps.bind Keeps.frame fun f => ?_
  split
  · refine Keeps.bind (modifyFrame _) fun _ => Keeps.bind (Keeps.tview _) fun t =>
      Keeps.bind (Keeps.blockAt _ _) fun block => ?_
    extract_lets -underBinder place
    -- detached elements leave the document and unclaimed nodes go to their places
    have hplace : ∀ r, TopOnly (place r) := by
      intro _
      dsimp -zeta only [place]
      refine Keeps.bind (Keeps.viewPair _) fun p => ?_
      obtain ⟨t', v⟩ := p
      dsimp -zeta only
      refine Keeps.bind (Keeps.forIn (fun e _ => ?_) _ _) fun _ =>
        Keeps.bind (Keeps.forIn (fun node _ => ?_) _ _) fun _ => Keeps.pure _
      · refine Keeps.ite ?_ (Keeps.pure _)
        split
        · exact Keeps.bind (Restores.modifyDoc _).topOnly fun _ => Keeps.pure _
        · exact Keeps.pure _
      · split
        · refine Keeps.bind Keeps.get fun _ => Keeps.ite ?_ (Keeps.pure _)
          refine Keeps.bind Keeps.get fun _ => Keeps.bind (Keeps.ofStructural _) fun q => ?_
          obtain ⟨parent, before⟩ := q
          exact Keeps.bind (Restores.modifyDoc _).topOnly fun _ => Keeps.pure _
        · exact Keeps.pure _
    clear_value place
    exact Keeps.ite (Keeps.bind (Restores.setTView _).topOnly hplace) (hplace ())
  · exact Keeps.structural _

theorem i18nExp (value : String) : TopOnly (i18nExp value) :=
  Keeps.bind (bindingUpdated _) fun _ => modifyFrame _

theorem i18nApply (index : Nat) : TopOnly (i18nApply index) := by
  unfold RenderM.i18nApply
  refine Keeps.bind Keeps.active fun _ => Keeps.bind Keeps.frame fun f =>
    Keeps.bind (modifyFrame _) fun _ => ?_
  refine Keeps.ite (Keeps.bind (Keeps.tview _) fun t => ?_) (Keeps.pure _)
  extract_lets -underBinder apply
  have happly : ∀ ops, TopOnly (apply ops) := by
    intro ops
    dsimp -zeta only [apply]
    refine Keeps.bind (Keeps.lview _) fun v =>
      Keeps.bind (Keeps.forIn (fun op _ => ?_) _ _) fun _ => Keeps.pure _
    refine Keeps.ite ?_ (Keeps.pure _)
    split
    · split
      · exact Keeps.bind (Restores.modifyDoc _).topOnly fun _ => Keeps.pure _
      · exact Keeps.bind (Keeps.hydration _) fun _ => Keeps.pure _
    · split
      · exact Keeps.bind (Restores.modifyDoc _).topOnly fun _ => Keeps.pure _
      · exact Keeps.bind (Keeps.hydration _) fun _ => Keeps.pure _
  clear_value apply
  split
  · exact Keeps.bind (Keeps.pure _) happly
  · exact Keeps.bind (Keeps.pure _) happly
  · exact Keeps.bind (Keeps.structural _) happly

/-- Every instruction that runs no template pass changes at most the top frame. -/
theorem simpleInstr (scope : Scope) (i : Instr) : TopOnly (simpleInstr scope i) := by
  cases i with
  | elementStart index tag attrs refs => exact elementStart _ _ _ _
  | element index tag attrs refs => exact Keeps.bind (elementStart _ _ _ _) fun _ => elementEnd
  | elementEnd => exact elementEnd
  | elementContainerStart index attrs refs => exact elementContainerStart _ _ _
  | elementContainer index attrs refs =>
    exact Keeps.bind (elementContainerStart _ _ _) fun _ => elementContainerEnd
  | elementContainerEnd => exact elementContainerEnd
  | text index value => exact text _ _
  | textInterpolate index value => exact textInterpolate _ _
  | template index tv attrs refs =>
    exact Keeps.bind (template _ _ _ _) fun _ => (Restores.emit _).topOnly
  | removeEmbeddedView slot position =>
    exact Keeps.bind (Keeps.containerAt _) fun _ => (Restores.removeEmbeddedView _ _).topOnly
  | clearContainer slot =>
    exact Keeps.bind (Keeps.containerAt _) fun _ => (Restores.clearContainer _).topOnly
  | containerLength slot =>
    exact Keeps.bind (Keeps.containerAt _) fun _ =>
      Keeps.bind (Keeps.container _) fun _ => (Restores.emit _).topOnly
  | createContainerRef index =>
    exact Keeps.bind Keeps.active fun _ =>
      Keeps.bind (Restores.createContainerRefIn _ _).topOnly fun _ => (Restores.emit _).topOnly
  | i18nStart index message sub => exact i18nStart _ _ _
  | i18n index message sub => exact Keeps.bind (i18nStart _ _ _) fun _ => i18nEnd
  | i18nEnd => exact i18nEnd
  | i18nAttributes index attrs => exact (Restores.i18nAttributes _ _).topOnly
  | i18nExp value => exact i18nExp _
  | i18nApply index => exact i18nApply _
  | localRef name => exact Keeps.bind (Keeps.localRef _) fun _ => (Restores.emit _).topOnly
  | removeLocalRef name =>
    refine Keeps.bind (Keeps.localRef _) fun n => ?_
    split
    · exact (Restores.modifyDoc _).topOnly
    · exact Keeps.pure _
  | removeSlotNode index =>
    refine Keeps.bind Keeps.active fun _ => Keeps.bind (Keeps.lview _) fun w => ?_
    split
    · exact (Restores.modifyDoc _).topOnly
    · exact Keeps.pure _
  | probe =>
    exact Keeps.bind Keeps.frame fun _ => Keeps.bind Keeps.get fun _ => (Restores.emit _).topOnly
  | createEmbeddedView slot position tmpl => exact Keeps.pure _
  | cond var thenBranch elseBranch => exact Keeps.pure _
  | loop count var body => exact Keeps.pure _

end TopOnly

/-! ### Passes -/

/-- `leaveView` pops the top frame, whether the check of the popped frame fails or not. -/
theorem leaveView_frames {c : Context} {g : Frame} {rest : List Frame} (h : c.frames = g :: rest) :
    (leaveView.run.run c).2.frames = rest := by
  simp only [leaveView, run_bind, run_get, h, run_modify]
  split <;> rfl

/-- A body that changes at most the top frame, run in a frame of its own that is popped on both
exits, leaves the stack as it found it. -/
theorem Restores.pass {body : RenderM Unit} (hbody : TopOnly body) (view : LViewId) (tv : TViewId)
    (b : Nat) :
    Restores (enterView view tv b >>= fun _ =>
      tryCatch body (fun e => abandonView >>= fun _ => throw e) >>= fun _ => leaveView) := by
  intro c
  refine ⟨?_, fun _ _ _ => trivial⟩
  obtain ⟨⟨hlen, htail⟩, -⟩ :=
    hbody { c with frames := { lview := view, tview := tv, bindingIndex := b } :: c.frames }
  rcases hrun : body.run.run
    { c with frames := { lview := view, tview := tv, bindingIndex := b } :: c.frames } with ⟨r, c₂⟩
  rw [hrun] at hlen htail
  -- the body ends with one frame above the caller's stack, on either exit
  obtain ⟨g, hg⟩ : ∃ g, c₂.frames = g :: c.frames := by
    cases h₂ : c₂.frames with
    | nil => simp [h₂] at hlen
    | cons g rest =>
      simp only [h₂, List.tail_cons] at htail
      exact ⟨g, by rw [htail]⟩
  unfold Context.SameStack
  rw [run_bind, enterView, run_modify]
  dsimp only
  rw [run_bind]
  cases r with
  | error e =>
    rw [run_tryCatch_error hrun, run_bind]
    show ({ c₂ with frames := c₂.frames.drop 1 } : Context).frames = c.frames
    rw [hg]
    rfl
  | ok a =>
    rw [run_tryCatch_ok hrun]
    exact leaveView_frames hg

mutual

/-- A program changes at most the top frame: every pass it nests restores the stack. -/
theorem runBlock_topOnly (fuel : Nat) (scope : Scope) :
    ∀ instrs, TopOnly (runBlock fuel scope instrs)
  | [] => by
    rw [runBlock]
    exact Keeps.pure _
  | i :: rest => by
    rw [runBlock]
    exact Keeps.bind (runInstr_topOnly fuel scope i) fun _ => runBlock_topOnly fuel scope rest
termination_by instrs => (fuel, 3, sizeOf instrs)

theorem runInstr_topOnly (fuel : Nat) (scope : Scope) (i : Instr) :
    TopOnly (runInstr fuel scope i) := by
  cases i
  case cond var thenBranch elseBranch =>
    rw [runInstr]
    exact Keeps.ite (runBlock_topOnly fuel scope elseBranch) (runBlock_topOnly fuel scope thenBranch)
  case loop count var body =>
    rw [runInstr]
    exact Keeps.bind (Keeps.forIn (fun _ _ =>
      Keeps.bind (runBlock_topOnly fuel _ body) fun _ => Keeps.pure _) _ _) fun _ => Keeps.pure _
  case createEmbeddedView slot position tmpl =>
    rw [runInstr]
    refine Keeps.bind Keeps.get fun _ => Keeps.ite (Restores.emit _).topOnly ?_
    refine Keeps.bind (Keeps.containerAt _) fun cid => ?_
    extract_lets -underBinder create
    have hcreate : ∀ tv, TopOnly (create tv) := fun tv =>
      Keeps.bind (createViewWith_restores fuel scope cid tv _).topOnly fun _ =>
        (Restores.emit _).topOnly
    clear_value create
    split
    · exact Keeps.bind (Keeps.pure _) hcreate
    · refine Keeps.bind (Keeps.container _) fun r => ?_
      split
      · exact Keeps.bind (Keeps.pure _) hcreate
      · exact Keeps.bind (Keeps.structural _) hcreate
  all_goals
    rw [runInstr.eq_def]
    exact TopOnly.simpleInstr scope _
termination_by (fuel, 3, sizeOf i)

theorem execute_restores (fuel : Nat) (scope : Scope) (view : LViewId) (create : Bool) :
    Restores (execute fuel scope view create) := by
  cases fuel with
  | zero =>
    rw [execute]
    exact Keeps.structural _
  | succ fuel =>
    rw [execute]
    refine Keeps.bind (Keeps.viewPair _) fun p => ?_
    obtain ⟨t, _⟩ := p
    exact Restores.pass (runBlock_topOnly fuel _ _) _ _ _
termination_by (fuel, 0, 0)

theorem renderView_restores (fuel : Nat) (scope : Scope) (view : LViewId) :
    Restores (renderView fuel scope view) := by
  rw [renderView]
  refine Keeps.bind (execute_restores fuel scope view true) fun _ =>
    Keeps.bind (Keeps.viewPair _) fun p => ?_
  obtain ⟨t, _⟩ := p
  dsimp -zeta only
  extract_lets finish
  have hfinish : ∀ r, Restores (finish r) := fun _ => Restores.modifyLView _ _
  clear_value finish
  exact Keeps.ite (Keeps.bind (Restores.setTView _) hfinish) (hfinish ())
termination_by (fuel, 1, 0)

theorem refreshView_restores (fuel : Nat) (scope : Scope) (view : LViewId) :
    Restores (refreshView fuel scope view) := by
  rw [refreshView.eq_def]
  refine Keeps.bind (execute_restores fuel scope view false) fun _ => ?_
  -- the views of the containers are refreshed with one unit of fuel less
  cases fuel with
  | zero => exact Keeps.pure _
  | succ fuel =>
    refine Keeps.bind (Keeps.lview _) fun v =>
      Keeps.bind (Keeps.forIn (fun cid _ => ?_) _ _) fun _ => Keeps.pure _
    refine Keeps.bind (Keeps.container _) fun r => Keeps.bind (Keeps.forIn (fun child _ => ?_) _ _)
      fun _ => Keeps.pure _
    exact Keeps.bind (refreshView_restores fuel scope child) fun _ => Keeps.pure _
termination_by (fuel, 1, 0)

theorem createViewWith_restores (fuel : Nat) (scope : Scope) (cid : ContainerId) (tv : TViewId)
    (position : Nat) : Restores (createViewWith fuel scope cid tv position) := by
  rw [createViewWith]
  refine Keeps.bind (Keeps.container _) fun r => ?_
  extract_lets -underBinder create
  have hcreate : ∀ u, Restores (create u) := by
    intro _
    dsimp -zeta only [create]
    refine Keeps.bind Keeps.get fun c => Keeps.bind (Keeps.ofStructural _) fun _ => ?_
    split
    · refine Keeps.bind (Keeps.tview _) fun t => ?_
      extract_lets -underBinder src v register
      -- the new view is registered and inserted, and taken out again when its passes fail
      have hregister : ∀ v, Restores (register v) := by
        intro _
        dsimp -zeta only [register]
        refine Keeps.get_bind fun c => ?_
        rcases c.registry.allocateLView _ with ⟨registry, view⟩
        refine Within.bind (Keeps.set rfl) fun _ c₁ _ _ => ?_
        refine Keeps.bind (Restores.modifyContainer _ _) (fun _ => ?_) c₁
        refine Keeps.bind (Keeps.tryCatch ?_ fun e => ?_) fun _ => Keeps.pure _
        · exact Keeps.bind (renderView_restores fuel scope _) fun _ =>
            refreshView_restores fuel scope _
        · exact Keeps.bind (Keeps.tryCatch (Restores.modifyContainer _ _) fun _ => Keeps.pure _)
            fun _ => Keeps.bind (Keeps.tryCatch (Restores.destroyView _) fun _ => Keeps.pure _)
              fun _ => Keeps.throw _
      clear_value register
      refine Keeps.ite ?_ (Keeps.bind (Keeps.pure _) hregister)
      refine Keeps.get_bind fun c => ?_
      rcases c.pool.takeMatching _ _ _ with ⟨pool, doc, taken⟩
      refine Within.bind (Keeps.set rfl) fun _ c₁ _ _ => ?_
      split
      · exact Keeps.bind (Keeps.pure _) hregister c₁
      · exact Keeps.bind (Keeps.pure _) hregister c₁
    · exact Keeps.structural _
  clear_value create
  exact Keeps.ite (Keeps.bind (Keeps.structural _) hcreate) (hcreate ())
termination_by (fuel, 2, 0)

end

/-! ### Operations that run template passes -/

theorem mount_restores (scope : Scope) (host : NodeId) (tv : TViewId) :
    Restores (mount scope host tv) := by
  unfold mount
  refine Keeps.bind (Keeps.tview _) fun t => Keeps.bind Keeps.get fun c => ?_
  extract_lets -underBinder src v finish
  -- the root view is registered and rendered, and torn down again when its passes fail
  have hfinish : ∀ v, Restores (finish v) := by
    intro _
    dsimp -zeta only [finish]
    refine Keeps.get_bind fun c => ?_
    rcases c.registry.allocateLView _ with ⟨registry, root⟩
    refine Within.bind (Keeps.set rfl) fun _ c₁ _ _ => ?_
    refine Keeps.bind Keeps.get (fun _ => ?_) c₁
    refine Keeps.bind (Keeps.tryCatch ?_ fun e => ?_) fun _ =>
      Keeps.bind Keeps.get fun _ => Keeps.pure _
    · exact Keeps.bind (renderView_restores _ scope _) fun _ => refreshView_restores _ scope _
    · exact Keeps.bind (Keeps.tryCatch (Restores.destroyView _) fun _ => Keeps.pure _) fun _ =>
        Keeps.throw _
  clear_value finish
  split
  · refine Keeps.ite ?_ ?_
    · split
      · exact Keeps.bind (Restores.modifyDoc _) fun _ => Keeps.bind Keeps.get fun _ =>
          Keeps.bind (Keeps.pure _) hfinish
      · exact Keeps.bind (Keeps.hydration _) hfinish
    · exact Keeps.bind (Restores.modifyDoc _) fun _ => Keeps.bind (Keeps.pure _) hfinish
  · exact Keeps.bind (Restores.modifyDoc _) fun _ => Keeps.bind (Keeps.pure _) hfinish

theorem refresh_restores (scope : Scope) (m : Mount) : Restores (refresh scope m) :=
  Keeps.bind Keeps.get fun _ => refreshView_restores _ _ _

theorem createEmbeddedView_restores (scope : Scope) (cid : ContainerId) (position : Nat) :
    Restores (createEmbeddedView scope cid position) := by
  unfold createEmbeddedView
  refine Keeps.bind (Keeps.container _) fun r => ?_
  split
  · exact Keeps.bind Keeps.get fun _ => createViewWith_restores _ _ _ _ _
  · exact Keeps.structural _

theorem createEmbeddedViewWith_restores (scope : Scope) (cid : ContainerId) (tv : TViewId)
    (position : Nat) : Restores (createEmbeddedViewWith scope cid tv position) :=
  Keeps.bind Keeps.get fun _ => createViewWith_restores _ _ _ _ _

end RenderM

/-- Rendering never disturbs the caller's position: mounting a root, refreshing it and creating an
embedded view end, with a value or with an error, with exactly the position stack they started
with, however deep the passes they run nest and wherever those fail. -/
theorem renders_restore_position_stack (scope : Scope) (c : Context) :
    (∀ host tv, ((RenderM.mount scope host tv).run.run c).2.frames = c.frames) ∧
    (∀ m, ((RenderM.refresh scope m).run.run c).2.frames = c.frames) ∧
    (∀ cid position,
      ((RenderM.createEmbeddedView scope cid position).run.run c).2.frames = c.frames) ∧
    (∀ cid tv position,
      ((RenderM.createEmbeddedViewWith scope cid tv position).run.run c).2.frames = c.frames) :=
  ⟨fun host tv => (RenderM.mount_restores scope host tv c).1,
    fun m => (RenderM.refresh_restores scope m c).1,
    fun cid position => (RenderM.createEmbeddedView_restores scope cid position c).1,
    fun cid tv position => (RenderM.createEmbeddedViewWith_restores scope cid tv position c).1⟩

end ViewHydration
