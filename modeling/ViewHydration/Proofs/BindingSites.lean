import ViewHydration.Render.Scope
import ViewHydration.Proofs.ViewEdits
import ViewHydration.Proofs.DocumentWrites
import ViewHydration.Proofs.ChangeMask

/-!
# Binding sites of update passes

An update pass of a view runs the binding instructions of its template. Each one claims the next
binding slot of the view, except the application of a translated block, which reads back the
slots of the expressions fed to it since the previous application. What a pass does with a
binding is fixed by its *shape* (which node it writes, or which block it applies), while the value
changes from pass to pass; passes of one template with the same shapes read and write the same
*sites*.

A site *agrees* with a view when the document shows what the view's binding slots keep: the node
of a text binding shows the value in its slot, and each update operation of an applied block shows
its parts rendered with the values in the slots of its expressions. Update passes keep this
agreement, which is what makes skipping unchanged bindings safe.

## Main definitions

- `BindStep`, `BindShape` — an instruction of an update pass, with and without its value
- `bindSites` — the sites of a pass of given shapes, with their binding slots
- `fedFrom` — every application comes right after the expressions it reads
- `BindSite.Agrees` — a site shows what the binding slots of a view keep
- `LView.bindFrom` — a view after a run of bindings stored from a slot on
- `passOutputs`, `BindOut.Shows` — what a pass should leave on screen
-/

namespace ViewHydration

/-! ### Steps, shapes and sites of an update pass -/

/-- An instruction of an update pass with its arguments read: a text binding of a slot, an
expression of a translated block, or the application of the block at a slot. -/
inductive BindStep where
  | text (index : Nat) (value : String)
  | exp (value : String)
  | apply (index : Nat)
  deriving DecidableEq, Repr

/-- What a step keeps from pass to pass: the step without its value. -/
inductive BindShape where
  | text (index : Nat)
  | exp
  | apply (index : Nat)
  deriving DecidableEq, Repr

namespace BindStep

def shape : BindStep → BindShape
  | .text k _ => .text k
  | .exp _ => .exp
  | .apply i => .apply i

/-- The value a step stores in its binding slot; an application stores none. -/
def value? : BindStep → Option String
  | .text _ w => some w
  | .exp w => some w
  | .apply _ => none

end BindStep

namespace Instr

/-- The binding instructions: text bindings, expressions and applications. -/
def isBinding : Instr → Bool
  | .textInterpolate .. | .i18nExp .. | .i18nApply .. => true
  | _ => false

/-- The step of a binding instruction, read in a scope. -/
def bindStep? (scope : Scope) : Instr → Option BindStep
  | .textInterpolate index value => some (.text (scope.count index) (scope.text value))
  | .i18nExp value => some (.exp (scope.text value))
  | .i18nApply index => some (.apply (scope.count index))
  | _ => none

end Instr

namespace TView

/-- The update operations of the block at a slot. -/
def updateOps (t : TView) (i : Nat) : List I18nUpdateOp :=
  match t.data[i]? with
  | some (.i18n b) => b.update
  | some (.i18nAttributes b) => b.update
  | _ => []

/-- Whether a slot holds a translated block or a translated attribute list. -/
def isBlock (t : TView) (i : Nat) : Bool :=
  match t.data[i]? with
  | some (.i18n _) | some (.i18nAttributes _) => true
  | _ => false

end TView

/-- A place where a pass reads binding slots and writes the document: the text binding of slot
`index`, whose value lives in slot `binding`, or the application of the block at `index` to the
`count` expressions whose values live in the slots from `first` on. -/
inductive BindSite where
  | text (index binding : Nat)
  | apply (index first count : Nat)
  deriving DecidableEq, Repr

namespace BindShape

/-- The next binding slot and the number of expressions waiting for their application, after one
step. -/
def next : Nat × Nat → BindShape → Nat × Nat
  | (b, s), .text _ => (b + 1, s)
  | (b, s), .exp => (b + 1, s + 1)
  | (b, _), .apply _ => (b, 0)

/-- The site of one step, given the next binding slot and the waiting expressions. -/
def site? : Nat × Nat → BindShape → Option BindSite
  | (b, _), .text k => some (.text k b)
  | _, .exp => none
  | (b, s), .apply i => some (.apply i (b - s) s)

end BindShape

/-- The sites of a pass of shape `sh`, from a binding slot and a count of waiting expressions. -/
def bindSites (acc : Nat × Nat) : List BindShape → List BindSite
  | [] => []
  | x :: rest => (x.site? acc).toList ++ bindSites (x.next acc) rest

/-- The steps of a pass are fed in order: no text binding comes while an expression waits for
its application, and every application comes after all the expressions its block reads. -/
def fedFrom (t : TView) : Nat → List BindShape → Bool
  | _, [] => true
  | s, .text _ :: rest => s == 0 && fedFrom t 0 rest
  | s, .exp :: rest => fedFrom t (s + 1) rest
  | s, .apply i :: rest =>
    (t.updateOps i).all (fun op => (readsOf op.parts).all (· < s)) && fedFrom t 0 rest

namespace I18nUpdateOp

/-- The slot whose node an operation writes. -/
def slot (op : I18nUpdateOp) : Nat :=
  match op.target with
  | .text slot => slot
  | .attribute element _ => element

/-- The place an operation writes in a view, when its slot has a node. -/
def place? (v : LView) (op : I18nUpdateOp) : Option WritePlace :=
  match op.target with
  | .text slot => (v.native? slot).map .data
  | .attribute element name => (v.native? element).map fun x => .attr x name

end I18nUpdateOp

/-- The values that the expressions of a block read from `count` binding slots from `first` on;
a slot without a value reads as empty. -/
def LView.window (v : LView) (first count : Nat) : List String :=
  (List.range count).map fun k =>
    match v.slot (first + k) with
    | .binding s => s
    | _ => ""

namespace BindSite

/-- The slots whose nodes a site writes. -/
def targets (t : TView) : BindSite → List Nat
  | .text k _ => [k]
  | .apply i _ _ => (t.updateOps i).map (·.slot)

/-- The places a site writes in a view. -/
def places (t : TView) (v : LView) : BindSite → List WritePlace
  | .text k _ => (v.native? k).toList.map .data
  | .apply i _ _ => (t.updateOps i).filterMap (·.place? v)

/-- A site shows what the binding slots of `v` keep: the node of a text binding shows the value
in its binding slot, and each operation of an applied block whose expressions all have values
shows its parts rendered with them. -/
def Agrees (d : Document) (t : TView) (v : LView) : BindSite → Prop
  | .text k b => ∀ w x, v.slot b = .binding w → v.native? k = some x → d.Holds (.data x) w
  | .apply i first count => ∀ op ∈ t.updateOps i,
      (∀ n ∈ readsOf op.parts, ∃ w, v.slot (first + n) = .binding w) →
      ∀ p, op.place? v = some p → d.Holds p (renderParts op.parts (v.window first count))

end BindSite


theorem BindShape.next_le {k : Nat} (x : BindShape) {acc : Nat × Nat} (h : acc.2 + k ≤ acc.1) :
    (x.next acc).2 + k ≤ (x.next acc).1 := by
  obtain ⟨b, s⟩ := acc
  cases x <;> simp only [BindShape.next] at h ⊢ <;> omega

/-- The waiting expressions never outnumber the binding slots claimed since `k`. -/
theorem BindShape.foldl_next_le {k : Nat} (xs : List BindShape) {acc : Nat × Nat}
    (h : acc.2 + k ≤ acc.1) : (xs.foldl next acc).2 + k ≤ (xs.foldl next acc).1 := by
  induction xs generalizing acc with
  | nil => exact h
  | cons x rest ih => exact ih (x.next_le h)

theorem bindSites_append (acc : Nat × Nat) (xs ys : List BindShape) :
    bindSites acc (xs ++ ys) = bindSites acc xs ++ bindSites (xs.foldl BindShape.next acc) ys := by
  induction xs generalizing acc with
  | nil => rfl
  | cons x rest ih => simp [bindSites, ih]

/-! ### The values of a pass -/

/-- The values a pass stores, in binding slot order. -/
def bindValues (steps : List BindStep) : List String := steps.filterMap BindStep.value?

@[simp] theorem bindValues_nil : bindValues [] = [] := rfl

theorem bindValues_append (xs ys : List BindStep) :
    bindValues (xs ++ ys) = bindValues xs ++ bindValues ys := List.filterMap_append

/-- The next binding slot after a run of steps is the first one past their values. -/
theorem foldl_next_fst (steps : List BindStep) (b s : Nat) :
    ((steps.map BindStep.shape).foldl BindShape.next (b, s)).1 = b + (bindValues steps).length := by
  induction steps generalizing b s with
  | nil => rfl
  | cons x rest ih =>
    cases x <;>
      simp only [List.map_cons, List.foldl_cons, BindStep.shape, BindShape.next, ih, bindValues,
        List.filterMap_cons, BindStep.value?, List.length_cons] <;> omega

/-! ### Storing bindings -/

/-- The view after a binding slot is given a value: unchanged when the slot already holds it. -/
def LView.setBinding (v : LView) (b : Nat) (value : String) : LView :=
  if v.slot b = .binding value then v else v.set b (.binding value)

/-- The view after the values `ws` are stored in the binding slots from `b` on. -/
def LView.bindFrom (v : LView) : Nat → List String → LView
  | _, [] => v
  | b, w :: ws => (v.setBinding b w).bindFrom (b + 1) ws

namespace LView

variable {v : LView} {b j k : Nat} {value : String}

@[simp] theorem slot_setBinding_self : (v.setBinding b value).slot b = .binding value := by
  unfold setBinding
  split
  · assumption
  · exact slot_set_self

theorem slot_setBinding_of_ne (h : j ≠ b) : (v.setBinding b value).slot j = v.slot j := by
  unfold setBinding
  split
  · rfl
  · exact slot_set_of_ne h

theorem native?_setBinding_of_ne (h : j ≠ b) : (v.setBinding b value).native? j = v.native? j := by
  simp only [native?, slot_setBinding_of_ne h]

@[simp] theorem tview_setBinding : (v.setBinding b value).tview = v.tview := by
  unfold setBinding
  split <;> rfl

theorem slot_bindFrom_of_lt {ws : List String} (h : k < b) : (v.bindFrom b ws).slot k = v.slot k := by
  induction ws generalizing v b with
  | nil => rfl
  | cons w rest ih =>
    rw [bindFrom, ih (by omega), slot_setBinding_of_ne (by omega)]

theorem slot_bindFrom_of_le {ws : List String} (h : b + ws.length ≤ k) :
    (v.bindFrom b ws).slot k = v.slot k := by
  induction ws generalizing v b with
  | nil => rfl
  | cons w rest ih =>
    simp only [List.length_cons] at h
    rw [bindFrom, ih (by omega), slot_setBinding_of_ne (by omega)]

/-- Slot `b + j` keeps the `j`-th stored value. -/
theorem slot_bindFrom {ws : List String} {w : String} (h : ws[j]? = some w) :
    (v.bindFrom b ws).slot (b + j) = .binding w := by
  induction ws generalizing v b j with
  | nil => simp at h
  | cons x rest ih =>
    cases j with
    | zero =>
      simp only [List.getElem?_cons_zero, Option.some.injEq] at h
      subst h
      rw [bindFrom, slot_bindFrom_of_lt (by omega), Nat.add_zero, slot_setBinding_self]
    | succ j =>
      rw [bindFrom, show b + (j + 1) = b + 1 + j by omega]
      exact ih (by simpa using h)

theorem native?_bindFrom_of_lt {ws : List String} (h : k < b) :
    (v.bindFrom b ws).native? k = v.native? k := by
  simp only [native?, slot_bindFrom_of_lt h]

theorem bindFrom_append (ws ws' : List String) :
    v.bindFrom b (ws ++ ws') = (v.bindFrom b ws).bindFrom (b + ws.length) ws' := by
  induction ws generalizing v b with
  | nil => rfl
  | cons w rest ih => simp only [List.cons_append, bindFrom, ih, List.length_cons]; congr 1; omega

theorem bindFrom_append_single (ws : List String) (w : String) :
    v.bindFrom b (ws ++ [w]) = (v.bindFrom b ws).setBinding (b + ws.length) w := by
  rw [bindFrom_append]
  rfl

/-- Views that keep the same slots in a window read the same values from it. -/
theorem window_congr {v' : LView} {first count : Nat}
    (h : ∀ k < count, v'.slot (first + k) = v.slot (first + k)) : v'.window first count = v.window first count := by
  apply List.ext_getElem (by simp [window])
  intro k h₁ _
  simp only [window, List.getElem_map, List.getElem_range]
  rw [h k (by simpa [window] using h₁)]

/-- Views that keep one slot of a window read the same value there. -/
theorem window_getElem?_congr {v' : LView} {first count n : Nat}
    (h : v'.slot (first + n) = v.slot (first + n)) :
    (v'.window first count)[n]? = (v.window first count)[n]? := by
  simp only [window, List.getElem?_map]
  rcases Nat.lt_or_ge n count with hn | hn
  · simp [List.getElem?_range hn, h]
  · rw [List.getElem?_eq_none (by simpa using hn)]
    rfl

end LView

theorem I18nUpdateOp.place?_congr {v v' : LView} {op : I18nUpdateOp}
    (h : v'.native? op.slot = v.native? op.slot) : op.place? v' = op.place? v := by
  unfold I18nUpdateOp.slot at h
  unfold I18nUpdateOp.place?
  split <;> simp_all

/-! ### Agreement under document edits -/

/-- A site keeps agreeing with a view across an edit that leaves its places alone. -/
theorem BindSite.Agrees.of_sameAt {d d' : Document} {t : TView} {v : LView} {site : BindSite}
    (h : site.Agrees d t v) (hsame : ∀ p ∈ site.places t v, d.SameAt d' p) : site.Agrees d' t v := by
  cases site with
  | text k b =>
    intro w x hb hx
    exact (hsame (.data x) (by simp [places, hx])).holds (h w x hb hx)
  | apply i first count =>
    intro op hop hreads p hp
    exact (hsame p (List.mem_filterMap.mpr ⟨op, hop, hp⟩)).holds (h op hop hreads p hp)

/-! ### What a pass shows -/

end ViewHydration
