import ViewHydration.Dom.Document

/-!
# What document edits leave alone

Every document edit but creation goes through `Document.modify`, which rewrites one node. The
lemmas here say which links each edit keeps: creation, attribute writes and the insertion of a
fresh node keep the parent of every node that was already there, so a render pass that only
creates and inserts nodes never moves an earlier node.

## Main definitions

- `Document.Extends` — a later document keeps the nodes of an earlier one, under the same parents
-/

namespace ViewHydration

namespace Document

variable {d : Document} {f : Node → Node}

theorem get?_modify (id y : NodeId) :
    (d.modify id f).get? y = if id = y then (d.get? y).map f else d.get? y := by
  by_cases h : id = y
  · subst h
    simp [modify, get?, Array.getElem?_modify]
  · have hidx : id.idx ≠ y.idx := fun he => h (by cases id; cases y; simp_all)
    simp [modify, get?, Array.getElem?_modify, hidx, h]

@[simp] theorem size_modify (id : NodeId) : (d.modify id f).size = d.size := by
  simp [modify, size]

@[simp] theorem contains_modify (id y : NodeId) : (d.modify id f).contains y = d.contains y := by
  simp [contains, modify]

/-- An edit that keeps every node's parent keeps `parent?`. -/
theorem parent?_modify_of (hf : ∀ n, (f n).parent = n.parent) (id y : NodeId) :
    (d.modify id f).parent? y = d.parent? y := by
  rw [parent?, parent?, get?_modify]
  split
  · cases d.get? y <;> simp [hf]
  · rfl

theorem parent?_modify_of_ne {id y : NodeId} (h : id ≠ y) :
    (d.modify id f).parent? y = d.parent? y := by
  rw [parent?, parent?, get?_modify, if_neg h]

theorem parent?_modify_self {id : NodeId} (hc : d.contains id = true) {p : Option NodeId}
    (hf : ∀ n, (f n).parent = p) : (d.modify id f).parent? id = p := by
  have hget : ∃ n, d.get? id = some n := by
    simp only [contains, decide_eq_true_eq] at hc
    exact ⟨_, Array.getElem?_eq_getElem hc⟩
  obtain ⟨n, hn⟩ := hget
  simp [parent?, get?_modify, hn, hf]

theorem size_detach (id : NodeId) : (d.detach id).size = d.size := by
  unfold detach
  split
  · rfl
  · split
    · rfl
    · dsimp only
      split <;> split <;> simp

theorem parent?_detach_of_ne {id y : NodeId} (h : y ≠ id) : (d.detach id).parent? y = d.parent? y := by
  unfold detach
  split
  · rfl
  · split
    · rfl
    · dsimp only
      rw [parent?_modify_of_ne (Ne.symm h)]
      split <;> split <;> simp [parent?_modify_of]

@[simp] theorem size_insertBefore (parent child : NodeId) (ref : Option NodeId) :
    (d.insertBefore parent child ref).size = d.size := by
  unfold insertBefore
  split
  · rfl
  · dsimp only
    split <;> split <;> simp [size_detach]

theorem contains_insertBefore (parent child y : NodeId) (ref : Option NodeId) :
    (d.insertBefore parent child ref).contains y = d.contains y := by
  have h : (d.insertBefore parent child ref).size = d.size := size_insertBefore parent child ref
  simp only [size] at h
  simp [contains, h]

/-- Inserting a node moves only that node. -/
theorem parent?_insertBefore_of_ne {parent child y : NodeId} (ref : Option NodeId) (h : y ≠ child) :
    (d.insertBefore parent child ref).parent? y = d.parent? y := by
  unfold insertBefore
  split
  · rfl
  · dsimp only
    split <;> split <;>
      simp [parent?_modify_of, parent?_modify_of_ne (Ne.symm h), parent?_detach_of_ne h]

/-- A node inserted under an existing parent other than itself gets that parent. -/
theorem parent?_insertBefore_self {parent child : NodeId} (ref : Option NodeId)
    (hp : d.contains parent = true) (hc : d.contains child = true) (hne : parent ≠ child) :
    (d.insertBefore parent child ref).parent? child = some parent := by
  have hc' : (d.detach child).contains child = true := by
    have h : (d.detach child).size = d.size := size_detach child
    simp only [size] at h
    simpa [contains, h] using hc
  have hguard : (!d.contains parent || !d.contains child || parent == child) = false := by
    simp [hp, hc, hne]
  unfold insertBefore
  rw [if_neg (by simp [hguard])]
  dsimp only
  split <;> split <;> simp only [parent?_modify_of, implies_true] <;>
    exact parent?_modify_self hc' fun _ => rfl

theorem parent?_setAttribute (id y : NodeId) (key value : String) :
    (d.setAttribute id key value).parent? y = d.parent? y :=
  parent?_modify_of (fun n => by split <;> rfl) id y

@[simp] theorem size_setAttribute (id : NodeId) (key value : String) :
    (d.setAttribute id key value).size = d.size :=
  size_modify id

theorem get?_push_of_contains (n : Node) {y : NodeId} (hy : d.contains y = true) :
    (d.push n).1.get? y = d.get? y := by
  simp only [contains, decide_eq_true_eq] at hy
  simp [push, get?, Array.getElem?_push, Nat.ne_of_lt hy]

@[simp] theorem size_push (n : Node) : (d.push n).1.size = d.size + 1 := by
  simp [push, size]

theorem contains_push_new (n : Node) : (d.push n).1.contains (d.push n).2 = true := by
  simp [push, contains]

theorem not_contains_push_new (n : Node) : d.contains (d.push n).2 = false := by
  simp [push, contains]

/-- A later document keeps every node of an earlier one, under the same parent. -/
def Extends (d d' : Document) : Prop :=
  ∀ x, d.contains x = true → d'.contains x = true ∧ d'.parent? x = d.parent? x

namespace Extends

variable {d₁ d₂ d₃ : Document}

theorem refl (d : Document) : Extends d d := fun _ h => ⟨h, rfl⟩

theorem trans (h₁ : Extends d₁ d₂) (h₂ : Extends d₂ d₃) : Extends d₁ d₃ := by
  intro x hx
  obtain ⟨hx₂, hp₂⟩ := h₁ x hx
  obtain ⟨hx₃, hp₃⟩ := h₂ x hx₂
  exact ⟨hx₃, hp₃.trans hp₂⟩

theorem push (d : Document) (n : Node) : Extends d (d.push n).1 := by
  intro x hx
  refine ⟨?_, by simp [parent?, get?_push_of_contains n hx]⟩
  simp only [contains, decide_eq_true_eq] at hx ⊢
  simp only [Document.push, Array.size_push]
  omega

theorem setAttribute (d : Document) (id : NodeId) (key value : String) :
    Extends d (d.setAttribute id key value) := by
  intro x hx
  refine ⟨?_, parent?_setAttribute id x key value⟩
  simpa [Document.setAttribute] using hx

theorem setAttributes (d : Document) (id : NodeId) (attrs : List (String × String)) :
    Extends d (attrs.foldl (fun d kv => d.setAttribute id kv.1 kv.2) d) := by
  induction attrs generalizing d with
  | nil => exact refl d
  | cons kv rest ih => exact (setAttribute d id kv.1 kv.2).trans (ih _)

/-- Inserting a node that `d₁` did not hold keeps the nodes of `d₁` in place. -/
theorem insertBefore (h : Extends d₁ d₂) {parent child : NodeId} (ref : Option NodeId)
    (hc : d₁.contains child = false) : Extends d₁ (d₂.insertBefore parent child ref) := by
  intro x hx
  obtain ⟨hx₂, hp₂⟩ := h x hx
  have hne : x ≠ child := by
    rintro rfl
    rw [hx] at hc
    cases hc
  exact ⟨by rw [contains_insertBefore]; exact hx₂, (parent?_insertBefore_of_ne ref hne).trans hp₂⟩

/-- A node that `d₁` did not hold, inserted under a node of `d₁`, gets that parent, and the nodes
of `d₁` stay in place. -/
theorem insertNew (h : Extends d₁ d₂) {parent child : NodeId} (ref : Option NodeId)
    (hc : d₁.contains child = false) (hc₂ : d₂.contains child = true)
    (hp : d₁.contains parent = true) :
    Extends d₁ (d₂.insertBefore parent child ref) ∧
      (d₂.insertBefore parent child ref).contains child = true ∧
      (d₂.insertBefore parent child ref).parent? child = some parent := by
  have hne : parent ≠ child := by
    rintro rfl
    rw [hp] at hc
    cases hc
  refine ⟨h.insertBefore ref hc, by rw [contains_insertBefore]; exact hc₂, ?_⟩
  exact parent?_insertBefore_self ref (h parent hp).1 hc₂ hne

end Extends

end Document

end ViewHydration
