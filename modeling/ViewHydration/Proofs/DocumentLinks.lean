import Mathlib.Data.List.Nodup
import ViewHydration.Proofs.DocumentEdits

/-!
# The child lists of a document

A document keeps each node's children as a doubly linked list threaded through the nodes: a
parent's first and last child, and each child's previous and next sibling. `LinkedBy d kids`
says that the links of `d` are exactly those of the lists `kids`: a node is in `kids p` when its
parent is `p`, no list repeats a node, a parent's first and last child are its list's ends, and a
node's siblings are its neighbours in its parent's list, so a node without a parent has none.

Every edit keeps this, each with its own lists: creation and data edits keep them, `detach`
takes the node out of its parent's list, `insertBefore` puts it in its new parent's list before
the reference or at the end. An insertion is proved as a detach followed by a link, and
`LinksInto` says what the link does to the five accessors. Once the lists link a document,
walking from a node's first child along next siblings lists its children, each once, and the
walk ends within the arena's size.

## Main definitions

- `nextIn`, `prevIn` — the neighbours of an element in a list
- `Document.LinkedBy` — the links of a document are those of given child lists
- `Document.LinksInto` — how the links change when a parentless node joins a list

## Main results

- `Document.LinkedBy.detach`, `Document.LinkedBy.insertBefore` — the edits keep the lists linked
- `Document.LinkedBy.children_eq` — the children a walk reads are the lists
- `Document.LinkedBy.nextSibling?_eq_some_iff` — back links mirror next links
-/

namespace ViewHydration

section Neighbours

variable {α : Type} [DecidableEq α]

/-- The element that follows the first occurrence of `x` in a list. -/
def nextIn : List α → α → Option α
  | [], _ => none
  | a :: rest, x => if a = x then rest.head? else nextIn rest x

/-- The element that precedes the last occurrence of `x` in a list. -/
def prevIn (l : List α) (x : α) : Option α := nextIn l.reverse x

@[simp] theorem nextIn_nil (x : α) : nextIn [] x = none := rfl

@[simp] theorem prevIn_nil (x : α) : prevIn [] x = none := rfl

theorem nextIn_cons (a x : α) (rest : List α) :
    nextIn (a :: rest) x = if a = x then rest.head? else nextIn rest x := rfl

theorem nextIn_cons_self (x : α) (rest : List α) : nextIn (x :: rest) x = rest.head? := by
  simp [nextIn_cons]

theorem nextIn_eq_none_of_not_mem {l : List α} {x : α} (h : x ∉ l) : nextIn l x = none := by
  induction l with
  | nil => rfl
  | cons a rest ih =>
    simp only [List.mem_cons, not_or] at h
    rw [nextIn_cons, if_neg (Ne.symm h.1), ih h.2]

/-- Past the end of the first part, the next element is the head of the second. -/
theorem nextIn_append (l₁ l₂ : List α) (x : α) :
    nextIn (l₁ ++ l₂) x = if x ∈ l₁ then (nextIn l₁ x).or l₂.head? else nextIn l₂ x := by
  induction l₁ with
  | nil => simp
  | cons a rest ih =>
    rw [List.cons_append, nextIn_cons, nextIn_cons, ih]
    by_cases ha : a = x
    · subst ha
      cases rest <;> simp
    · simp [ha, Ne.symm ha]

/-- Before the start of the second part, the previous element is the end of the first. -/
theorem prevIn_append (l₁ l₂ : List α) (x : α) :
    prevIn (l₁ ++ l₂) x = if x ∈ l₂ then (prevIn l₂ x).or l₁.getLast? else prevIn l₁ x := by
  simp [prevIn, List.reverse_append, nextIn_append, List.head?_reverse]

theorem nextIn_eq_some_iff {l : List α} {x y : α} :
    nextIn l x = some y ↔ ∃ l₁ l₂, x ∉ l₁ ∧ l = l₁ ++ x :: y :: l₂ := by
  constructor
  · intro h
    induction l with
    | nil => cases h
    | cons a rest ih =>
      rw [nextIn_cons] at h
      by_cases ha : a = x
      · subst ha
        rw [if_pos rfl] at h
        obtain ⟨l₂, rfl⟩ : ∃ l₂, rest = y :: l₂ := by
          cases rest with
          | nil => cases h
          | cons b l₂ => exact ⟨l₂, by simpa using h⟩
        exact ⟨[], l₂, List.not_mem_nil, rfl⟩
      · rw [if_neg ha] at h
        obtain ⟨l₁, l₂, hx, rfl⟩ := ih h
        exact ⟨a :: l₁, l₂, by simp [Ne.symm ha, hx], rfl⟩
  · rintro ⟨l₁, l₂, hx, rfl⟩
    rw [nextIn_append, if_neg hx, nextIn_cons_self]
    rfl

theorem prevIn_eq_some_iff {l : List α} {x y : α} :
    prevIn l y = some x ↔ ∃ l₁ l₂, y ∉ l₂ ∧ l = l₁ ++ x :: y :: l₂ := by
  rw [prevIn, nextIn_eq_some_iff]
  constructor
  · rintro ⟨m₁, m₂, hy, hl⟩
    refine ⟨m₂.reverse, m₁.reverse, by simpa using hy, ?_⟩
    rw [← List.reverse_reverse l, hl]
    simp
  · rintro ⟨l₁, l₂, hy, rfl⟩
    exact ⟨l₂.reverse, l₁.reverse, by simpa using hy, by simp⟩

theorem mem_of_nextIn_eq_some {l : List α} {x y : α} (h : nextIn l x = some y) : x ∈ l ∧ y ∈ l := by
  obtain ⟨l₁, l₂, -, rfl⟩ := nextIn_eq_some_iff.mp h
  simp

theorem mem_of_prevIn_eq_some {l : List α} {x y : α} (h : prevIn l y = some x) : x ∈ l ∧ y ∈ l := by
  obtain ⟨l₁, l₂, -, rfl⟩ := prevIn_eq_some_iff.mp h
  simp

/-- The two neighbour functions are mirror images in a list without repeats. -/
theorem nextIn_eq_some_iff_prevIn {l : List α} (hl : l.Nodup) {x y : α} :
    nextIn l x = some y ↔ prevIn l y = some x := by
  rw [nextIn_eq_some_iff, prevIn_eq_some_iff]
  constructor
  · rintro ⟨l₁, l₂, -, rfl⟩
    refine ⟨l₁, l₂, fun hy => ?_, rfl⟩
    exact (List.nodup_cons.mp (List.nodup_cons.mp (List.nodup_append.mp hl).2.1).2).1 hy
  · rintro ⟨l₁, l₂, -, rfl⟩
    exact ⟨l₁, l₂, fun hx => (List.nodup_append.mp hl).2.2 x hx x (by simp) rfl, rfl⟩

/-- In a list without repeats, the last element has no next one. -/
theorem nextIn_getLast {l : List α} (hl : l.Nodup) {x : α} (hx : l.getLast? = some x) :
    nextIn l x = none := by
  obtain ⟨l', rfl⟩ : ∃ l', l = l' ++ [x] := List.getLast?_eq_some_iff.mp hx
  have hx' : x ∉ l' := fun h => (List.nodup_append.mp hl).2.2 x h x (by simp) rfl
  rw [nextIn_append, if_neg hx', nextIn_cons_self]
  rfl

/-- In a list without repeats, the first element has no previous one. -/
theorem prevIn_head {l : List α} (hl : l.Nodup) {x : α} (hx : l.head? = some x) :
    prevIn l x = none :=
  nextIn_getLast (List.nodup_reverse.mpr hl) (by simpa [List.getLast?_reverse] using hx)

/-- An element with no next one is the last of the list. -/
theorem getLast?_of_nextIn_eq_none {l : List α} {x : α} (hx : x ∈ l) (h : nextIn l x = none) :
    l.getLast? = some x := by
  induction l with
  | nil => cases hx
  | cons a rest ih =>
    rw [nextIn_cons] at h
    by_cases ha : a = x
    · subst ha
      rw [if_pos rfl, List.head?_eq_none_iff] at h
      subst h
      rfl
    · rw [if_neg ha] at h
      have hr : x ∈ rest := (List.mem_cons.mp hx).resolve_left (Ne.symm ha)
      rw [List.getLast?_cons, ih hr h]
      rfl

/-- Past the last element of the first part comes the head of the second. -/
theorem nextIn_append_of_getLast {l₁ l₂ : List α} (hl : l₁.Nodup) {x : α} (hx : l₁.getLast? = some x) :
    nextIn (l₁ ++ l₂) x = l₂.head? := by
  rw [nextIn_append, if_pos (List.mem_of_getLast? hx), nextIn_getLast hl hx]
  rfl

/-- Before the head of the second part comes the last element of the first. -/
theorem prevIn_append_of_head {l₁ l₂ : List α} (hl : l₂.Nodup) {x : α} (hx : l₂.head? = some x) :
    prevIn (l₁ ++ l₂) x = l₁.getLast? := by
  rw [prevIn_append, if_pos (List.mem_of_head? hx), prevIn_head hl hx]
  rfl

/-- Putting `x` between two parts: `x` links to the parts' ends, the end of the first part now
links to `x`, and every other element keeps its next one. -/
theorem nextIn_insert {l₁ l₂ : List α} {x : α} (hl : (l₁ ++ x :: l₂).Nodup) (y : α) :
    nextIn (l₁ ++ x :: l₂) y =
      if x = y then l₂.head? else if l₁.getLast? = some y then some x else nextIn (l₁ ++ l₂) y := by
  obtain ⟨hl₁, hxl₂, hdisj⟩ := List.nodup_append.mp hl
  have hx₁ : x ∉ l₁ := fun h => hdisj x h x (by simp) rfl
  rw [nextIn_append, nextIn_append l₁ l₂]
  by_cases hxy : x = y
  · subst hxy
    simp [hx₁, nextIn_cons_self]
  · rw [if_neg hxy]
    by_cases hy : y ∈ l₁
    · rw [if_pos hy, if_pos hy]
      by_cases hlast : l₁.getLast? = some y
      · rw [if_pos hlast, nextIn_getLast hl₁ hlast]
        rfl
      · rw [if_neg hlast]
        obtain ⟨z, hz⟩ : ∃ z, nextIn l₁ y = some z := by
          cases h : nextIn l₁ y with
          | none => exact absurd (getLast?_of_nextIn_eq_none hy h) hlast
          | some z => exact ⟨z, rfl⟩
        rw [hz]
        rfl
    · have hlast : l₁.getLast? ≠ some y := fun h => hy (List.mem_of_getLast? h)
      rw [if_neg hy, if_neg hy, if_neg hlast, nextIn_cons, if_neg hxy]

/-- The mirror image of `nextIn_insert`. -/
theorem prevIn_insert {l₁ l₂ : List α} {x : α} (hl : (l₁ ++ x :: l₂).Nodup) (y : α) :
    prevIn (l₁ ++ x :: l₂) y =
      if x = y then l₁.getLast? else if l₂.head? = some y then some x else prevIn (l₁ ++ l₂) y := by
  have hr : (l₂.reverse ++ x :: l₁.reverse).Nodup := by
    have := List.nodup_reverse.mpr hl
    simpa using this
  have h := nextIn_insert hr y
  simp only [List.head?_reverse, List.getLast?_reverse] at h
  simp only [prevIn, List.reverse_append, List.reverse_cons, List.append_assoc, List.singleton_append]
  rw [h]

end Neighbours

namespace Document

variable {d : Document} {f : Node → Node}

theorem contains_iff_exists_get? {x : NodeId} : d.contains x = true ↔ ∃ n, d.get? x = some n := by
  simp only [contains, get?, decide_eq_true_eq]
  constructor
  · intro h
    exact ⟨_, Array.getElem?_eq_getElem h⟩
  · rintro ⟨n, hn⟩
    exact (Array.getElem?_eq_some_iff.mp hn).1

theorem get?_push (n : Node) (y : NodeId) :
    (d.push n).1.get? y = if y = (d.push n).2 then some n else d.get? y := by
  cases y
  simp only [get?, push, Array.getElem?_push, NodeId.mk.injEq]

theorem get?_push_new (n : Node) : d.get? (d.push n).2 = none := by
  simp [get?, push]

/-! ### Links after one rewritten node -/

section Modify

variable {id y : NodeId}

/-! Every link accessor reads one field `F` of a node as `(d.get? y).bind F`. What rewriting one
node does to such a reader is proved once; each link then has its two cases by `exact`. -/

theorem bind_get?_modify (F : Node → Option NodeId) :
    ((d.modify id f).get? y).bind F =
      if id = y then (d.get? y).bind (F ∘ f) else (d.get? y).bind F := by
  rw [get?_modify]
  split
  · cases d.get? y <;> rfl
  · rfl

/-- A rewrite that keeps the field keeps the reader. -/
theorem bind_get?_modify_of {F : Node → Option NodeId} (hf : ∀ m, F (f m) = F m) :
    ((d.modify id f).get? y).bind F = (d.get? y).bind F := by
  rw [bind_get?_modify]
  split
  · cases d.get? y <;> simp [hf]
  · rfl

/-- A rewrite that sets the field of an existing node makes the reader give the new value there. -/
theorem bind_get?_modify_set {F : Node → Option NodeId} {v : Option NodeId} (hf : ∀ m, F (f m) = v)
    (hc : d.contains id = true) :
    ((d.modify id f).get? y).bind F = if id = y then v else (d.get? y).bind F := by
  obtain ⟨m, hm⟩ := contains_iff_exists_get?.mp hc
  rw [bind_get?_modify]
  split
  · next h =>
    subst h
    simp [hm, hf]
  · rfl

theorem firstChild?_modify_of (hf : ∀ m, (f m).firstChild = m.firstChild) :
    (d.modify id f).firstChild? y = d.firstChild? y :=
  bind_get?_modify_of hf

theorem lastChild?_modify_of (hf : ∀ m, (f m).lastChild = m.lastChild) :
    (d.modify id f).lastChild? y = d.lastChild? y :=
  bind_get?_modify_of hf

theorem nextSibling?_modify_of (hf : ∀ m, (f m).nextSibling = m.nextSibling) :
    (d.modify id f).nextSibling? y = d.nextSibling? y :=
  bind_get?_modify_of hf

theorem prevSibling?_modify_of (hf : ∀ m, (f m).prevSibling = m.prevSibling) :
    (d.modify id f).prevSibling? y = d.prevSibling? y :=
  bind_get?_modify_of hf

variable {v : Option NodeId}

theorem parent?_modify_set (hf : ∀ m, (f m).parent = v) (hc : d.contains id = true) :
    (d.modify id f).parent? y = if id = y then v else d.parent? y :=
  bind_get?_modify_set hf hc

theorem firstChild?_modify_set (hf : ∀ m, (f m).firstChild = v) (hc : d.contains id = true) :
    (d.modify id f).firstChild? y = if id = y then v else d.firstChild? y :=
  bind_get?_modify_set hf hc

theorem lastChild?_modify_set (hf : ∀ m, (f m).lastChild = v) (hc : d.contains id = true) :
    (d.modify id f).lastChild? y = if id = y then v else d.lastChild? y :=
  bind_get?_modify_set hf hc

theorem nextSibling?_modify_set (hf : ∀ m, (f m).nextSibling = v) (hc : d.contains id = true) :
    (d.modify id f).nextSibling? y = if id = y then v else d.nextSibling? y :=
  bind_get?_modify_set hf hc

theorem prevSibling?_modify_set (hf : ∀ m, (f m).prevSibling = v) (hc : d.contains id = true) :
    (d.modify id f).prevSibling? y = if id = y then v else d.prevSibling? y :=
  bind_get?_modify_set hf hc

end Modify

/-! ### Links after a detach -/

section Detach

variable {x p : NodeId} {n : Node}

@[simp] theorem contains_detach (x y : NodeId) : (d.detach x).contains y = d.contains y := by
  have h : (d.detach x).size = d.size := size_detach x
  simp only [size] at h
  simp [contains, h]

theorem parent?_detach (y : NodeId) : (d.detach x).parent? y = if x = y then none else d.parent? y := by
  unfold detach
  split
  · next hx =>
    split
    · next h => subst h; simp [parent?, hx]
    · rfl
  · next n hx =>
    split
    · next hp =>
      split
      · next h => subst h; simp [parent?, hx, hp]
      · rfl
    · next p hp =>
      dsimp only
      have hc : d.contains x = true := contains_iff_exists_get?.mpr ⟨n, hx⟩
      rw [parent?_modify_set (by intro; rfl) (by split <;> split <;> simpa using hc)]
      split
      · rfl
      · split <;> split <;> simp [parent?_modify_of]

theorem firstChild?_detach (hx : d.get? x = some n) (hp : n.parent = some p) (hpc : d.contains p = true)
    (y : NodeId) : (d.detach x).firstChild? y =
      if p = y ∧ n.prevSibling = none then n.nextSibling else d.firstChild? y := by
  unfold detach
  rw [hx]
  simp only [hp]
  rw [firstChild?_modify_of (by intro; rfl)]
  cases n.prevSibling with
  | some q => cases n.nextSibling <;> simp [firstChild?_modify_of]
  | none => cases n.nextSibling <;> simp [firstChild?_modify_of, firstChild?_modify_set, hpc]

theorem lastChild?_detach (hx : d.get? x = some n) (hp : n.parent = some p) (hpc : d.contains p = true)
    (y : NodeId) : (d.detach x).lastChild? y =
      if p = y ∧ n.nextSibling = none then n.prevSibling else d.lastChild? y := by
  unfold detach
  rw [hx]
  simp only [hp]
  rw [lastChild?_modify_of (by intro; rfl)]
  cases n.prevSibling <;> cases n.nextSibling <;> simp [lastChild?_modify_of, lastChild?_modify_set, hpc]

theorem nextSibling?_detach (hx : d.get? x = some n) (hp : n.parent = some p)
    (ha : ∀ q, n.prevSibling = some q → d.contains q = true) (y : NodeId) :
    (d.detach x).nextSibling? y =
      if x = y then none else if n.prevSibling = some y then n.nextSibling else d.nextSibling? y := by
  have hc : d.contains x = true := contains_iff_exists_get?.mpr ⟨n, hx⟩
  unfold detach
  rw [hx]
  simp only [hp]
  rw [nextSibling?_modify_set (by intro; rfl) (by split <;> split <;> simpa using hc)]
  cases hq : n.prevSibling with
  | none => cases n.nextSibling <;> simp [nextSibling?_modify_of]
  | some q => cases n.nextSibling <;> simp [nextSibling?_modify_of, nextSibling?_modify_set, ha q hq]

theorem prevSibling?_detach (hx : d.get? x = some n) (hp : n.parent = some p)
    (hb : ∀ q, n.nextSibling = some q → d.contains q = true) (y : NodeId) :
    (d.detach x).prevSibling? y =
      if x = y then none else if n.nextSibling = some y then n.prevSibling else d.prevSibling? y := by
  have hc : d.contains x = true := contains_iff_exists_get?.mpr ⟨n, hx⟩
  unfold detach
  rw [hx]
  simp only [hp]
  rw [prevSibling?_modify_set (by intro; rfl) (by split <;> split <;> simpa using hc)]
  cases hq : n.nextSibling with
  | none => cases n.prevSibling <;> simp [prevSibling?_modify_of]
  | some q => cases n.prevSibling <;> simp [prevSibling?_modify_of, prevSibling?_modify_set, hb q hq]

end Detach

/-! ### Child lists -/

/-- The siblings of a node under the child lists `kids`: the list of its parent, or none when
it has no parent. -/
def siblingsIn (d : Document) (kids : NodeId → List NodeId) (x : NodeId) : List NodeId :=
  match d.parent? x with
  | some p => kids p
  | none => []

theorem siblingsIn_of_parent? {kids : NodeId → List NodeId} {x p : NodeId} (h : d.parent? x = some p) :
    d.siblingsIn kids x = kids p := by
  rw [siblingsIn, h]

theorem siblingsIn_of_parent?_eq_none {kids : NodeId → List NodeId} {x : NodeId} (h : d.parent? x = none) :
    d.siblingsIn kids x = [] := by
  rw [siblingsIn, h]

/-- The links of `d` are those of the child lists `kids`: `kids p` holds the nodes whose parent
is `p`, each once, from `p`'s first child to its last, and a node's siblings are its neighbours
in its parent's list. No node is its own parent. -/
structure LinkedBy (d : Document) (kids : NodeId → List NodeId) : Prop where
  nodup : ∀ p, (kids p).Nodup
  mem_iff : ∀ x p, x ∈ kids p ↔ d.parent? x = some p
  firstChild : ∀ p, d.firstChild? p = (kids p).head?
  lastChild : ∀ p, d.lastChild? p = (kids p).getLast?
  nextSibling : ∀ x, d.nextSibling? x = nextIn (d.siblingsIn kids x) x
  prevSibling : ∀ x, d.prevSibling? x = prevIn (d.siblingsIn kids x) x
  parent_ne : ∀ x, d.parent? x ≠ some x

theorem contains_of_parent? {x p : NodeId} (h : d.parent? x = some p) : d.contains x = true := by
  refine contains_iff_exists_get?.mpr ?_
  cases hx : d.get? x with
  | none => simp [parent?, hx] at h
  | some n => exact ⟨n, rfl⟩

theorem contains_of_firstChild? {p x : NodeId} (h : d.firstChild? p = some x) : d.contains p = true := by
  refine contains_iff_exists_get?.mpr ?_
  cases hp : d.get? p with
  | none => simp [firstChild?, hp] at h
  | some n => exact ⟨n, rfl⟩

theorem detach_of_parent?_eq_none {x : NodeId} (h : d.parent? x = none) : d.detach x = d := by
  unfold detach
  split
  · rfl
  · next n hx =>
    have hn : n.parent = none := by simpa [parent?, hx] using h
    simp [hn]

namespace LinkedBy

variable {kids : NodeId → List NodeId}

theorem contains_of_mem (h : d.LinkedBy kids) {x p : NodeId} (hx : x ∈ kids p) : d.contains x = true :=
  contains_of_parent? ((h.mem_iff x p).mp hx)

/-- A node that has a child is a node of the document. -/
theorem contains_parent (h : d.LinkedBy kids) {x p : NodeId} (hx : d.parent? x = some p) :
    d.contains p = true := by
  have hmem : x ∈ kids p := (h.mem_iff x p).mpr hx
  obtain ⟨y, hy⟩ : ∃ y, (kids p).head? = some y := by
    cases hk : kids p with
    | nil => rw [hk] at hmem; cases hmem
    | cons y _ => exact ⟨y, rfl⟩
  exact contains_of_firstChild? (by rw [h.firstChild]; exact hy)

/-- A node with a parent sits in its parent's list between its previous and its next sibling. -/
theorem neighbours (h : d.LinkedBy kids) {x p : NodeId} {n : Node} (hx : d.get? x = some n)
    (hpx : d.parent? x = some p) :
    ∃ l₁ l₂, kids p = l₁ ++ x :: l₂ ∧ n.prevSibling = l₁.getLast? ∧ n.nextSibling = l₂.head? := by
  obtain ⟨l₁, l₂, hL⟩ := List.append_of_mem ((h.mem_iff x p).mpr hpx)
  have hnd : (l₁ ++ x :: l₂).Nodup := hL ▸ h.nodup p
  refine ⟨l₁, l₂, hL, ?_, ?_⟩
  · have := h.prevSibling x
    rw [siblingsIn_of_parent? hpx, hL, prevIn_insert hnd, if_pos rfl] at this
    simpa [prevSibling?, hx] using this
  · have := h.nextSibling x
    rw [siblingsIn_of_parent? hpx, hL, nextIn_insert hnd, if_pos rfl] at this
    simpa [nextSibling?, hx] using this

/-- Detaching a node takes it out of its parent's list. -/
theorem detach (h : d.LinkedBy kids) (x : NodeId) :
    (d.detach x).LinkedBy fun q => if d.parent? x = some q then (kids q).erase x else kids q := by
  cases hpx : d.parent? x with
  | none =>
    rw [detach_of_parent?_eq_none hpx]
    simpa using h
  | some p =>
    obtain ⟨n, hx⟩ := contains_iff_exists_get?.mp (contains_of_parent? hpx)
    have hp : n.parent = some p := by simpa [parent?, hx] using hpx
    obtain ⟨l₁, l₂, hL, hprev, hnext⟩ := h.neighbours hx hpx
    have hnd : (l₁ ++ x :: l₂).Nodup := hL ▸ h.nodup p
    obtain ⟨hl₁, hxl₂, hdisj⟩ := List.nodup_append.mp hnd
    have hx₁ : x ∉ l₁ := fun h' => hdisj x h' x (by simp) rfl
    have hl₂ : l₂.Nodup := (List.nodup_cons.mp hxl₂).2
    have hin : ∀ y, y ∈ l₁ ++ l₂ → d.parent? y = some p := fun y hy =>
      (h.mem_iff y p).mp (by rw [hL]; simp at hy ⊢; tauto)
    have hpc : d.contains p = true := h.contains_parent hpx
    have hac : ∀ q, n.prevSibling = some q → d.contains q = true := fun q hq =>
      contains_of_parent? (hin q (by rw [hprev] at hq; simp [List.mem_of_getLast? hq]))
    have hbc : ∀ q, n.nextSibling = some q → d.contains q = true := fun q hq =>
      contains_of_parent? (hin q (by rw [hnext] at hq; simp [List.mem_of_head? hq]))
    have herase : (kids p).erase x = l₁ ++ l₂ := by
      rw [hL, List.erase_append_right _ hx₁, List.erase_cons_head]
    -- the new parent of a node, and its new siblings
    have hsib : ∀ y, x ≠ y → (d.detach x).siblingsIn
        (fun q => if some p = some q then (kids q).erase x else kids q) y =
        if d.parent? y = some p then l₁ ++ l₂ else d.siblingsIn kids y := by
      intro y hxy
      rw [siblingsIn, parent?_detach, if_neg hxy, siblingsIn]
      cases hpy : d.parent? y with
      | none => simp
      | some q =>
        by_cases hq : p = q
        · subst hq
          simp [herase]
        · simp [hq, Ne.symm hq]
    have hout : ∀ y, y ∈ l₁ ++ l₂ → x ≠ y := fun y hy hxy => by
      subst hxy
      simp only [List.mem_append] at hy
      exact hy.elim hx₁ (List.nodup_cons.mp hxl₂).1
    refine ⟨fun q => ?_, fun y q => ?_, fun q => ?_, fun q => ?_, fun y => ?_, fun y => ?_, fun y => ?_⟩
    · simp only [Option.some.injEq]
      split
      · exact (h.nodup q).erase x
      · exact h.nodup q
    · rw [parent?_detach]
      by_cases hxy : x = y
      · subst hxy
        simp only [if_true, reduceCtorEq, iff_false, Option.some.injEq]
        split
        · exact fun hm => hout x (herase ▸ ‹p = q› ▸ hm) rfl
        · next hq => exact fun hm => hq (Option.some.inj ((h.mem_iff x q).mp hm ▸ hpx).symm)
      · rw [if_neg hxy, ← h.mem_iff]
        simp only [Option.some.injEq]
        split
        · next hq =>
          subst hq
          rw [herase, hL]
          simp [Ne.symm hxy]
        · rfl
    · rw [firstChild?_detach hx hp hpc, hprev, hnext]
      by_cases hq : p = q
      · subst hq
        have hk : (kids p).head? = (l₁ ++ x :: l₂).head? := by rw [hL]
        simp only [if_true, herase, h.firstChild, hk, true_and, List.getLast?_eq_none_iff]
        cases l₁ <;> simp
      · simp [hq, h.firstChild]
    · rw [lastChild?_detach hx hp hpc, hprev, hnext]
      by_cases hq : p = q
      · subst hq
        have hk : (kids p).getLast? = (l₁ ++ x :: l₂).getLast? := by rw [hL]
        simp only [if_true, herase, h.lastChild, hk, true_and, List.head?_eq_none_iff]
        cases l₂ <;> simp [List.getLast?_append]
      · simp [hq, h.lastChild]
    · rw [nextSibling?_detach hx hp hac, hprev, hnext]
      by_cases hxy : x = y
      · subst hxy
        simp [siblingsIn, parent?_detach]
      · rw [if_neg hxy, hsib y hxy, h.nextSibling]
        by_cases hpy : d.parent? y = some p
        · rw [if_pos hpy, siblingsIn_of_parent? hpy, hL, nextIn_insert hnd, if_neg hxy]
          by_cases hl : l₁.getLast? = some y
          · rw [if_pos hl, nextIn_append_of_getLast hl₁ hl]
          · simp only [if_neg hl]
        · have hl : l₁.getLast? ≠ some y := fun hl =>
            hpy (hin y (List.mem_append_left _ (List.mem_of_getLast? hl)))
          rw [if_neg hpy, if_neg hl]
    · rw [prevSibling?_detach hx hp hbc, hprev, hnext]
      by_cases hxy : x = y
      · subst hxy
        simp [siblingsIn, parent?_detach]
      · rw [if_neg hxy, hsib y hxy, h.prevSibling]
        by_cases hpy : d.parent? y = some p
        · rw [if_pos hpy, siblingsIn_of_parent? hpy, hL, prevIn_insert hnd, if_neg hxy]
          by_cases hl : l₂.head? = some y
          · rw [if_pos hl, prevIn_append_of_head hl₂ hl]
          · simp only [if_neg hl]
        · have hl : l₂.head? ≠ some y := fun hl =>
            hpy (hin y (List.mem_append_right _ (List.mem_of_head? hl)))
          rw [if_neg hpy, if_neg hl]
    · rw [parent?_detach]
      split
      · simp
      · exact h.parent_ne y

end LinkedBy

/-- How the links of `d₂` put a parentless node `child` of `d₁` into `parent`'s list between
`l₁` and `l₂`: `child` gets the parent and the two neighbours, the end of `l₁` (or `parent`'s
first child) and the head of `l₂` (or `parent`'s last child) now point to it, and nothing else
changes. -/
structure LinksInto (d₁ d₂ : Document) (parent child : NodeId) (l₁ l₂ : List NodeId) : Prop where
  parent? : ∀ y, d₂.parent? y = if child = y then some parent else d₁.parent? y
  firstChild? : ∀ y, d₂.firstChild? y = if parent = y ∧ l₁ = [] then some child else d₁.firstChild? y
  lastChild? : ∀ y, d₂.lastChild? y = if parent = y ∧ l₂ = [] then some child else d₁.lastChild? y
  nextSibling? : ∀ y, d₂.nextSibling? y =
    if l₁.getLast? = some y then some child else if child = y then l₂.head? else d₁.nextSibling? y
  prevSibling? : ∀ y, d₂.prevSibling? y =
    if l₂.head? = some y then some child else if child = y then l₁.getLast? else d₁.prevSibling? y

/-! ### Links after an insertion -/

section Insert

variable {parent child : NodeId} {ref : Option NodeId}

/-- The reference an insertion honours: a child of the new parent other than the node itself. -/
abbrev honouredRef (d : Document) (parent child : NodeId) (ref : Option NodeId) : Option NodeId :=
  ref.filter fun r => r != child && d.parent? r == some parent

theorem insertBefore_of_guard (hp : d.contains parent = true) (hc : d.contains child = true)
    (hne : parent ≠ child) : d.insertBefore parent child ref =
      match honouredRef d parent child ref with
      | some r =>
        let d₁ := d.detach child
        let prev := d₁.prevSibling? r
        let d₂ := d₁.modify child fun m =>
          { m with parent := some parent, prevSibling := prev, nextSibling := some r }
        let d₃ := d₂.modify r fun m => { m with prevSibling := some child }
        match prev with
        | some q => d₃.modify q fun m => { m with nextSibling := some child }
        | none => d₃.modify parent fun m => { m with firstChild := some child }
      | none =>
        let d₁ := d.detach child
        let last := d₁.lastChild? parent
        let d₂ := d₁.modify child fun m =>
          { m with parent := some parent, prevSibling := last, nextSibling := none }
        let d₃ := match last with
          | some q => d₂.modify q fun m => { m with nextSibling := some child }
          | none => d₂.modify parent fun m => { m with firstChild := some child }
        d₃.modify parent fun m => { m with lastChild := some child } := by
  have hguard : (!d.contains parent || !d.contains child || parent == child) = false := by
    simp [hp, hc, hne]
  unfold insertBefore
  exact if_neg (by simp [hguard])

/-- Inserting before an honoured reference links the node in front of the reference. -/
theorem linksInto_insertBefore_ref (hp : d.contains parent = true) (hc : d.contains child = true)
    (hne : parent ≠ child) {r : NodeId} (hr : honouredRef d parent child ref = some r)
    {l₁ l₂ : List NodeId} (hprev : (d.detach child).prevSibling? r = l₁.getLast?)
    (hrc : d.contains r = true) (hqc : ∀ q, l₁.getLast? = some q → d.contains q = true) :
    (d.detach child).LinksInto (d.insertBefore parent child ref) parent child l₁ (r :: l₂) := by
  have hc₁ : (d.detach child).contains child = true := by
    simpa [contains_detach] using hc
  rw [insertBefore_of_guard hp hc hne, hr]
  dsimp only
  rw [hprev]
  refine ⟨fun y => ?_, fun y => ?_, fun y => ?_, fun y => ?_, fun y => ?_⟩
  · cases l₁.getLast? <;>
      simp [parent?_modify_of, parent?_modify_set, hc₁]
  · cases hq : l₁.getLast? with
    | none =>
      rw [firstChild?_modify_set (by intro; rfl) (by simpa [contains_detach] using hp)]
      simp [firstChild?_modify_of, List.getLast?_eq_none_iff.mp hq]
    | some q =>
      have hne₁ : l₁ ≠ [] := by rintro rfl; cases hq
      simp [firstChild?_modify_of, hne₁]
  · cases l₁.getLast? <;> simp [lastChild?_modify_of]
  · cases hq : l₁.getLast? with
    | none => simp [nextSibling?_modify_of, nextSibling?_modify_set, hc₁]
    | some q =>
      have hq₁ : (d.detach child).contains q = true := by
        simpa [contains_detach] using hqc q hq
      simp [nextSibling?_modify_of, nextSibling?_modify_set, hc₁, hq₁]
  · have hr₁ : (d.detach child).contains r = true := by simpa [contains_detach] using hrc
    cases l₁.getLast? <;>
      simp [prevSibling?_modify_of, prevSibling?_modify_set, hc₁, hr₁]

/-- Inserting with no honoured reference links the node at the end of its new parent's list. -/
theorem linksInto_insertBefore_last (hp : d.contains parent = true) (hc : d.contains child = true)
    (hne : parent ≠ child) (hr : honouredRef d parent child ref = none) {l : List NodeId}
    (hlast : (d.detach child).lastChild? parent = l.getLast?)
    (hqc : ∀ q, l.getLast? = some q → d.contains q = true) :
    (d.detach child).LinksInto (d.insertBefore parent child ref) parent child l [] := by
  have hc₁ : (d.detach child).contains child = true := by
    simpa [contains_detach] using hc
  have hp₁ : (d.detach child).contains parent = true := by
    simpa [contains_detach] using hp
  rw [insertBefore_of_guard hp hc hne, hr]
  dsimp only
  rw [hlast]
  refine ⟨fun y => ?_, fun y => ?_, fun y => ?_, fun y => ?_, fun y => ?_⟩
  · cases l.getLast? <;>
      simp [parent?_modify_of, parent?_modify_set, hc₁]
  · cases hq : l.getLast? with
    | none =>
      simp [firstChild?_modify_of, firstChild?_modify_set, hp₁, List.getLast?_eq_none_iff.mp hq]
    | some q =>
      have hne₁ : l ≠ [] := by rintro rfl; cases hq
      simp [firstChild?_modify_of, hne₁]
  · cases l.getLast? <;> simp [lastChild?_modify_of, lastChild?_modify_set, hp₁]
  · cases hq : l.getLast? with
    | none => simp [nextSibling?_modify_of, nextSibling?_modify_set, hc₁]
    | some q =>
      have hq₁ : (d.detach child).contains q = true := by
        simpa [contains_detach] using hqc q hq
      simp [nextSibling?_modify_of, nextSibling?_modify_set, hc₁, hq₁]
  · cases l.getLast? <;> simp [prevSibling?_modify_of, prevSibling?_modify_set, hc₁]

end Insert

namespace LinkedBy

variable {kids : NodeId → List NodeId}

/-- Linking a parentless node into a list between two of its parts keeps the lists linked, with
the node in its new parent's list. -/
theorem link (h : d.LinkedBy kids) {d₂ : Document} {parent child : NodeId} {l₁ l₂ : List NodeId}
    (hl : d.LinksInto d₂ parent child l₁ l₂) (hkids : kids parent = l₁ ++ l₂)
    (hchild : d.parent? child = none) (hne : parent ≠ child) :
    d₂.LinkedBy (Function.update kids parent (l₁ ++ child :: l₂)) := by
  have hnot : ∀ q, child ∉ kids q := fun q hm => by
    rw [h.mem_iff, hchild] at hm
    cases hm
  have hnd : (l₁ ++ child :: l₂).Nodup := by
    have h₀ := h.nodup parent
    rw [hkids] at h₀
    refine List.nodup_middle.mpr (List.nodup_cons.mpr ⟨fun hm => hnot parent ?_, h₀⟩)
    rw [hkids]
    exact hm
  have hin : ∀ y, y ∈ l₁ ++ l₂ ↔ d.parent? y = some parent := fun y => by
    rw [← hkids]
    exact h.mem_iff y parent
  -- the new siblings of a node other than `child`
  have hsib : ∀ y, child ≠ y → d₂.siblingsIn (Function.update kids parent (l₁ ++ child :: l₂)) y =
      if d.parent? y = some parent then l₁ ++ child :: l₂ else d.siblingsIn kids y := by
    intro y hy
    rw [siblingsIn, hl.parent? y, if_neg hy, siblingsIn]
    cases hpy : d.parent? y with
    | none => simp
    | some q =>
      by_cases hq : q = parent
      · subst hq
        simp
      · simp [hq]
  have hsib_child : d₂.siblingsIn (Function.update kids parent (l₁ ++ child :: l₂)) child =
      l₁ ++ child :: l₂ := by
    rw [siblingsIn, hl.parent? child, if_pos rfl]
    simp
  have hl₁ : ∀ y, l₁.getLast? = some y → d.parent? y = some parent := fun y hy =>
    (hin y).mp (List.mem_append_left _ (List.mem_of_getLast? hy))
  have hl₂ : ∀ y, l₂.head? = some y → d.parent? y = some parent := fun y hy =>
    (hin y).mp (List.mem_append_right _ (List.mem_of_head? hy))
  refine ⟨fun q => ?_, fun y q => ?_, fun q => ?_, fun q => ?_, fun y => ?_, fun y => ?_, fun y => ?_⟩
  · by_cases hq : q = parent
    · subst hq
      simpa using hnd
    · simpa [hq] using h.nodup q
  · rw [hl.parent? y]
    by_cases hq : q = parent
    · subst hq
      by_cases hy : child = y
      · subst hy
        simp
      · simp [hy, Ne.symm hy, ← hin]
    · by_cases hy : child = y
      · subst hy
        simp [hq, hnot q, Ne.symm hq]
      · simp [hq, hy, h.mem_iff]
  · rw [hl.firstChild? q]
    by_cases hq : q = parent
    · subst hq
      cases l₁ <;> simp [h.firstChild, hkids]
    · simp [hq, Ne.symm hq, h.firstChild]
  · rw [hl.lastChild? q]
    by_cases hq : q = parent
    · subst hq
      cases l₂ <;> simp [h.lastChild, hkids, List.getLast?_append]
    · simp [hq, Ne.symm hq, h.lastChild]
  · rw [hl.nextSibling? y]
    by_cases hy : child = y
    · subst hy
      have hlast : l₁.getLast? ≠ some child := fun hc => by
        have := hl₁ child hc
        rw [hchild] at this
        cases this
      rw [if_neg hlast, if_pos rfl, hsib_child, nextIn_insert hnd, if_pos rfl]
    · rw [if_neg hy, hsib y hy, h.nextSibling]
      by_cases hpy : d.parent? y = some parent
      · rw [if_pos hpy, nextIn_insert hnd, if_neg hy, siblingsIn_of_parent? hpy, hkids]
      · have hlast : l₁.getLast? ≠ some y := fun hc => hpy (hl₁ y hc)
        rw [if_neg hpy, if_neg hlast]
  · rw [hl.prevSibling? y]
    by_cases hy : child = y
    · subst hy
      have hhead : l₂.head? ≠ some child := fun hc => by
        have := hl₂ child hc
        rw [hchild] at this
        cases this
      rw [if_neg hhead, if_pos rfl, hsib_child, prevIn_insert hnd, if_pos rfl]
    · rw [if_neg hy, hsib y hy, h.prevSibling]
      by_cases hpy : d.parent? y = some parent
      · rw [if_pos hpy, prevIn_insert hnd, if_neg hy, siblingsIn_of_parent? hpy, hkids]
      · have hhead : l₂.head? ≠ some y := fun hc => hpy (hl₂ y hc)
        rw [if_neg hpy, if_neg hhead]
  · rw [hl.parent? y]
    split
    · next hy =>
      subst hy
      exact fun he => hne (Option.some.inj he)
    · exact h.parent_ne y

end LinkedBy

theorem insertBefore_of_not_guard {parent child : NodeId} {ref : Option NodeId}
    (h : ¬(d.contains parent = true ∧ d.contains child = true ∧ parent ≠ child)) :
    d.insertBefore parent child ref = d := by
  unfold insertBefore
  rw [if_pos]
  by_cases hp : d.contains parent = true
  · by_cases hc : d.contains child = true
    · have hpc : parent = child := by
        by_contra hne
        exact h ⟨hp, hc, hne⟩
      simp [hpc]
    · simp [hc]
  · simp [hp]

namespace LinkedBy

variable {kids : NodeId → List NodeId}

/-- Inserting a node keeps the lists linked: the node leaves its old parent's list and enters its
new parent's list before the honoured reference, or at its end. -/
theorem insertBefore (h : d.LinkedBy kids) (parent child : NodeId) (ref : Option NodeId) :
    ∃ kids', (d.insertBefore parent child ref).LinkedBy kids' := by
  by_cases hg : d.contains parent = true ∧ d.contains child = true ∧ parent ≠ child
  · obtain ⟨hp, hc, hne⟩ := hg
    -- the lists once the node has left its old parent
    let kids₁ : NodeId → List NodeId := fun q =>
      if d.parent? child = some q then (kids q).erase child else kids q
    have h₁ : (d.detach child).LinkedBy kids₁ := h.detach child
    have hchild : (d.detach child).parent? child = none := by simp [parent?_detach]
    have hqc : ∀ (l₁ l₂ : List NodeId) q, kids₁ parent = l₁ ++ l₂ → l₁.getLast? = some q →
        d.contains q = true :=
      fun l₁ l₂ q hk hq => by
        rw [← contains_detach child q]
        exact h₁.contains_of_mem (hk ▸ List.mem_append_left _ (List.mem_of_getLast? hq))
    cases hr : honouredRef d parent child ref with
    | some r =>
      obtain ⟨-, hr'⟩ := Option.filter_eq_some_iff.mp hr
      simp only [Bool.and_eq_true, bne_iff_ne, ne_eq, beq_iff_eq] at hr'
      have hpr : (d.detach child).parent? r = some parent := by
        rw [parent?_detach, if_neg (Ne.symm hr'.1), hr'.2]
      obtain ⟨l₁, l₂, hL⟩ := List.append_of_mem ((h₁.mem_iff r parent).mpr hpr)
      have hprev : (d.detach child).prevSibling? r = l₁.getLast? := by
        rw [h₁.prevSibling, siblingsIn_of_parent? hpr, hL, prevIn_insert (hL ▸ h₁.nodup parent),
          if_pos rfl]
      exact ⟨_, h₁.link (linksInto_insertBefore_ref hp hc hne hr hprev
        (contains_of_parent? hr'.2) (hqc l₁ (r :: l₂) · hL)) hL hchild hne⟩
    | none =>
      have hk : kids₁ parent = kids₁ parent ++ [] := (List.append_nil _).symm
      exact ⟨_, h₁.link (linksInto_insertBefore_last hp hc hne hr (h₁.lastChild parent)
        (hqc _ [] · hk)) hk hchild hne⟩
  · exact ⟨kids, by rw [insertBefore_of_not_guard hg]; exact h⟩

/-- Inserting a node at a chosen point of its new parent's list, given by the part `l₂` after
the point: the reference is the head of `l₂`, or absent when `l₂` is empty. The lists are the
ones the node leaves when it is detached, with the node put in at that point. -/
theorem insertBefore_at (h : d.LinkedBy kids) {parent child : NodeId} {ref : Option NodeId}
    (hp : d.contains parent = true) (hc : d.contains child = true) (hne : parent ≠ child)
    {l₁ l₂ : List NodeId}
    (hk : (if d.parent? child = some parent then (kids parent).erase child else kids parent) = l₁ ++ l₂)
    (href : ref = l₂.head?) (hrc : ref ≠ some child) :
    (d.insertBefore parent child ref).LinkedBy
      (Function.update (fun q => if d.parent? child = some q then (kids q).erase child else kids q)
        parent (l₁ ++ child :: l₂)) := by
  have h₁ := h.detach child
  have hchild : (d.detach child).parent? child = none := by simp [parent?_detach]
  have hqc : ∀ q, l₁.getLast? = some q → d.contains q = true := fun q hq => by
    rw [← contains_detach child q]
    exact h₁.contains_of_mem (hk ▸ List.mem_append_left _ (List.mem_of_getLast? hq))
  cases l₂ with
  | nil =>
    have hlast : (d.detach child).lastChild? parent = l₁.getLast? := by
      rw [h₁.lastChild parent]
      exact congrArg List.getLast? (hk.trans (List.append_nil l₁))
    exact h₁.link (linksInto_insertBefore_last hp hc hne (by rw [href]; rfl) hlast hqc) hk hchild hne
  | cons r l₂ =>
    subst href
    have hr : r ≠ child := fun he => hrc (by rw [he]; rfl)
    have hpr : (d.detach child).parent? r = some parent :=
      (h₁.mem_iff r parent).mp (by simp only [hk]; simp)
    have hpr₀ : d.parent? r = some parent := by
      rw [parent?_detach, if_neg (Ne.symm hr)] at hpr
      exact hpr
    -- the reference is a child of the new parent other than the node, so it is honoured
    have hhon : honouredRef d parent child (some r) = some r := by
      simp [honouredRef, Option.filter, hr, hpr₀]
    have hnd : (l₁ ++ r :: l₂).Nodup := hk ▸ h₁.nodup parent
    have hprev : (d.detach child).prevSibling? r = l₁.getLast? := by
      rw [h₁.prevSibling, siblingsIn_of_parent? hpr]
      simp only [hk]
      rw [prevIn_insert hnd, if_pos rfl]
    exact h₁.link (linksInto_insertBefore_ref hp hc hne hhon hprev (contains_of_parent? hpr₀) hqc) hk
      hchild hne

/-- Lists that link a document link any document with the same links. -/
theorem congr (h : d.LinkedBy kids) {d' : Document} (hp : ∀ y, d'.parent? y = d.parent? y)
    (hf : ∀ y, d'.firstChild? y = d.firstChild? y) (hl : ∀ y, d'.lastChild? y = d.lastChild? y)
    (hn : ∀ y, d'.nextSibling? y = d.nextSibling? y) (hv : ∀ y, d'.prevSibling? y = d.prevSibling? y) :
    d'.LinkedBy kids := by
  have hs : ∀ y, d'.siblingsIn kids y = d.siblingsIn kids y := fun y => by
    rw [siblingsIn, siblingsIn, hp]
  exact ⟨h.nodup, fun x p => by rw [hp]; exact h.mem_iff x p, fun p => by rw [hf]; exact h.firstChild p,
    fun p => by rw [hl]; exact h.lastChild p, fun x => by rw [hn, hs]; exact h.nextSibling x,
    fun x => by rw [hv, hs]; exact h.prevSibling x, fun x => by rw [hp]; exact h.parent_ne x⟩

/-- An edit of one node that keeps its links keeps the lists. -/
theorem modify (h : d.LinkedBy kids) (id : NodeId) {f : Node → Node} (hf : ∀ m, (f m).parent = m.parent ∧
    (f m).firstChild = m.firstChild ∧ (f m).lastChild = m.lastChild ∧
    (f m).prevSibling = m.prevSibling ∧ (f m).nextSibling = m.nextSibling) :
    (d.modify id f).LinkedBy kids :=
  h.congr (parent?_modify_of (fun m => (hf m).1) id)
    (fun _ => firstChild?_modify_of fun m => (hf m).2.1)
    (fun _ => lastChild?_modify_of fun m => (hf m).2.2.1)
    (fun _ => nextSibling?_modify_of fun m => (hf m).2.2.2.2)
    (fun _ => prevSibling?_modify_of fun m => (hf m).2.2.2.1)

/-- A created node comes detached and childless, so the lists stay as they are. -/
theorem push (h : d.LinkedBy kids) {n : Node} (hp : n.parent = none) (hf : n.firstChild = none)
    (hl : n.lastChild = none) (hv : n.prevSibling = none) (hn : n.nextSibling = none) :
    (d.push n).1.LinkedBy kids := by
  -- the new node's id held no node before, so every link of it read `none`
  refine h.congr (fun y => ?_) (fun y => ?_) (fun y => ?_) (fun y => ?_) (fun y => ?_) <;>
    · simp only [parent?, firstChild?, lastChild?, nextSibling?, prevSibling?, get?_push]
      split
      · next he => subst he; simp [get?_push_new, hp, hf, hl, hv, hn]
      · rfl

/-- Walking from a parent's first child along next siblings lists its children, each once, and
stops on its own: the arena's size is more steps than the walk needs. -/
theorem siblingChain_eq (h : d.LinkedBy kids) (p : NodeId) {fuel : Nat} (hfuel : (kids p).length ≤ fuel) :
    d.siblingChain fuel (d.firstChild? p) = kids p := by
  -- every suffix of the list is walked from its head
  suffices hsuf : ∀ l₁ l₂ fuel, kids p = l₁ ++ l₂ → l₂.length ≤ fuel →
      d.siblingChain fuel l₂.head? = l₂ by
    rw [h.firstChild]
    exact hsuf [] (kids p) fuel rfl hfuel
  intro l₁ l₂
  induction l₂ generalizing l₁ with
  | nil => intro fuel _ _; cases fuel <;> rfl
  | cons x rest ih =>
    intro fuel hk hlen
    obtain ⟨k, rfl⟩ : ∃ k, fuel = k + 1 := ⟨fuel - 1, by simp at hlen; omega⟩
    have hpx : d.parent? x = some p := (h.mem_iff x p).mp (by rw [hk]; simp)
    have hnext : d.nextSibling? x = rest.head? := by
      rw [h.nextSibling, siblingsIn_of_parent? hpx, hk, nextIn_insert (hk ▸ h.nodup p), if_pos rfl]
    simp only [List.head?_cons, siblingChain, hnext]
    rw [ih (l₁ ++ [x]) k (by simp [hk]) (by simp at hlen; omega)]

theorem length_le_size (h : d.LinkedBy kids) (p : NodeId) : (kids p).length ≤ d.size := by
  have hsub : (kids p).map NodeId.idx ⊆ List.range d.size := fun i hi => by
    obtain ⟨x, hx, rfl⟩ := List.mem_map.mp hi
    have := h.contains_of_mem hx
    simp only [contains, decide_eq_true_eq] at this
    simpa [size] using this
  have hinj : Function.Injective NodeId.idx := fun a b hab => by cases a; cases b; simp_all
  have := ((h.nodup p).map hinj).length_le_of_subset hsub
  simpa using this

/-- The children of a node are its list. -/
theorem children_eq (h : d.LinkedBy kids) (p : NodeId) : d.children p = kids p :=
  h.siblingChain_eq p (h.length_le_size p)

/-- Every node in a sibling list has that list as its own. -/
theorem siblingsIn_of_mem (h : d.LinkedBy kids) {x z : NodeId} (hx : x ∈ d.siblingsIn kids z) :
    d.siblingsIn kids x = d.siblingsIn kids z := by
  cases hpz : d.parent? z with
  | none =>
    rw [siblingsIn_of_parent?_eq_none hpz] at hx
    cases hx
  | some p =>
    rw [siblingsIn_of_parent? hpz] at hx ⊢
    exact siblingsIn_of_parent? ((h.mem_iff x p).mp hx)

theorem siblingsIn_nodup (h : d.LinkedBy kids) (z : NodeId) : (d.siblingsIn kids z).Nodup := by
  rw [siblingsIn]
  split
  · exact h.nodup _
  · exact List.nodup_nil

/-- Next-sibling links and previous-sibling links mirror each other. -/
theorem nextSibling?_eq_some_iff (h : d.LinkedBy kids) {x y : NodeId} :
    d.nextSibling? x = some y ↔ d.prevSibling? y = some x := by
  -- both links put the two nodes in one sibling list, where the neighbour functions mirror
  rw [h.nextSibling, h.prevSibling]
  constructor
  · intro hn
    obtain ⟨-, hyl⟩ := mem_of_nextIn_eq_some hn
    rw [h.siblingsIn_of_mem hyl, ← nextIn_eq_some_iff_prevIn (h.siblingsIn_nodup x)]
    exact hn
  · intro hv
    obtain ⟨hxl, -⟩ := mem_of_prevIn_eq_some hv
    rw [h.siblingsIn_of_mem hxl, nextIn_eq_some_iff_prevIn (h.siblingsIn_nodup y)]
    exact hv

/-- A node without a parent has no siblings. -/
theorem siblings_of_parent?_eq_none (h : d.LinkedBy kids) {x : NodeId} (hx : d.parent? x = none) :
    d.prevSibling? x = none ∧ d.nextSibling? x = none := by
  rw [h.prevSibling, h.nextSibling, siblingsIn_of_parent?_eq_none hx]
  exact ⟨rfl, rfl⟩

/-- Detaching nodes one after another keeps the document linked. -/
theorem foldl_detach (h : d.LinkedBy kids) (l : List NodeId) :
    ∃ kids', (l.foldl Document.detach d).LinkedBy kids' := by
  induction l generalizing d kids with
  | nil => exact ⟨kids, h⟩
  | cons x rest ih => exact ih (h.detach x)

theorem clearChildren (h : d.LinkedBy kids) (p : NodeId) :
    ∃ kids', (d.clearChildren p).LinkedBy kids' :=
  h.foldl_detach _

theorem setData (h : d.LinkedBy kids) (id : NodeId) (value : String) :
    (d.setData id value).LinkedBy kids :=
  h.modify id fun m => by by_cases hm : m.isElement <;> simp [hm]

theorem setAttribute (h : d.LinkedBy kids) (id : NodeId) (key value : String) :
    (d.setAttribute id key value).LinkedBy kids :=
  h.modify id fun m => by by_cases hm : m.isElement <;> simp [hm]

theorem removeAttribute (h : d.LinkedBy kids) (id : NodeId) (key : String) :
    (d.removeAttribute id key).LinkedBy kids :=
  h.modify id fun _ => ⟨rfl, rfl, rfl, rfl, rfl⟩

/-- The empty document has no links and empty child lists. -/
theorem empty : ({} : Document).LinkedBy fun _ => [] where
  nodup _ := List.nodup_nil
  mem_iff _ _ := by simp [parent?, get?]
  firstChild _ := by simp [firstChild?, get?]
  lastChild _ := by simp [lastChild?, get?]
  nextSibling _ := by simp [nextSibling?, get?, siblingsIn]; split <;> rfl
  prevSibling _ := by simp [prevSibling?, get?, siblingsIn]; split <;> rfl
  parent_ne _ := by simp [parent?, get?]

end LinkedBy

end Document

end ViewHydration
