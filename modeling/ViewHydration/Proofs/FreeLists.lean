import ViewHydration.View.Registry

/-!
# Free lists of the view and container arenas

Live views and view containers sit in arenas of optional entries. Releasing a live entry empties
it and puts its index on the free list; allocating takes the index freed last, or appends an entry
when nothing is free. The free list stays exact under any sequence of these requests, releases of
stale or never-issued handles included: it names, once each, exactly the empty entries. Hence
every allocation hands out a handle that is not live, a handle is handed out again only after a
release that returned its entry, and the number of live entries grows by one with each allocation
and shrinks by one with each release that found an entry.

## Main definitions

- `Arena` — the entries of one arena together with its free list
- `Arena.Exact` — the free list names, once each, exactly the empty entries
- `ArenaOp`, `Registry.serveAll` — requests to the two arenas of a registry, served in order

## Main statements

- `Arena.Exact.allocate`, `Arena.Exact.release` — each request keeps the free list exact
- `Registry.ArenasExact.serveAll` — so does every sequence of requests
- `Registry.ArenasExact.viewArena_get?_serveAll` — a live view stays live until a release returns it
-/

namespace ViewHydration

/-- The entries of one arena of a registry, with the indices released into its free list. -/
structure Arena (α : Type) where
  slots : Array (Option α)
  free : List Nat

namespace Arena

variable {α : Type} {a : Arena α} {i j : Nat}

/-- The live entry at an index. -/
def get? (a : Arena α) (i : Nat) : Option α := a.slots[i]?.join

/-- Stores an entry at the index freed last, or appends it when nothing is free. -/
def allocate (a : Arena α) (x : α) : Arena α × Nat :=
  match a.free with
  | i :: rest => (⟨a.slots.setIfInBounds i (some x), rest⟩, i)
  | [] => (⟨a.slots.push (some x), []⟩, a.slots.size)

/-- Empties a live entry and puts its index on the free list; `none` when it was not live. -/
def release (a : Arena α) (i : Nat) : Arena α × Option α :=
  match a.slots[i]? with
  | some (some x) => (⟨a.slots.setIfInBounds i none, i :: a.free⟩, some x)
  | _ => (a, none)

/-- Number of live entries. -/
def liveCount (a : Arena α) : Nat := a.slots.toList.countP Option.isSome

/-- The free list names, once each, exactly the indices of empty entries. -/
structure Exact (a : Arena α) : Prop where
  nodup : a.free.Nodup
  mem_free : ∀ i, i ∈ a.free ↔ a.slots[i]? = some none

theorem exact_empty : (⟨#[], []⟩ : Arena α).Exact :=
  ⟨List.nodup_nil, fun i => by simp⟩

theorem Exact.lt_size (h : a.Exact) (hi : i ∈ a.free) : i < a.slots.size :=
  (Array.getElem?_eq_some_iff.1 ((h.mem_free i).1 hi)).1

/-- Allocation keeps the free list exact: it takes the head, whose entry it fills, or appends a
new entry when the list is empty. -/
theorem Exact.allocate (h : a.Exact) (x : α) : (a.allocate x).1.Exact := by
  unfold Arena.allocate
  split
  · rename_i i rest hfree
    have hnd : (i :: rest).Nodup := hfree ▸ h.nodup
    have hi : i < a.slots.size := h.lt_size (hfree ▸ List.mem_cons_self)
    refine ⟨(List.nodup_cons.1 hnd).2, fun j => ?_⟩
    by_cases hij : i = j
    · subst hij
      simp [Array.getElem?_setIfInBounds_self_of_lt hi, (List.nodup_cons.1 hnd).1]
    · rw [Array.getElem?_setIfInBounds_ne hij, ← h.mem_free, hfree, List.mem_cons]
      simp [Ne.symm hij]
  · rename_i hfree
    refine ⟨List.nodup_nil, fun j => ?_⟩
    rw [Array.getElem?_push]
    split
    · simp
    · simp [← h.mem_free, hfree]

theorem release_of_get? {x : α} (hx : a.get? i = some x) :
    a.release i = (⟨a.slots.setIfInBounds i none, i :: a.free⟩, some x) := by
  simp [Arena.release, Option.join_eq_some_iff.1 hx]

theorem release_of_get?_none (hx : a.get? i = none) : a.release i = (a, none) := by
  rcases Option.join_eq_none_iff.1 hx with hs | hs <;> simp [Arena.release, hs]

/-- Release keeps the free list exact: a live index is not yet on it, and a release that finds no
live entry changes nothing. -/
theorem Exact.release (h : a.Exact) (i : Nat) : (a.release i).1.Exact := by
  cases hx : a.get? i with
  | none => rwa [release_of_get?_none hx]
  | some x =>
    rw [release_of_get? hx]
    have hs : a.slots[i]? = some (some x) := Option.join_eq_some_iff.1 hx
    have hi : i < a.slots.size := (Array.getElem?_eq_some_iff.1 hs).1
    have hnot : i ∉ a.free := by simp [h.mem_free, hs]
    refine ⟨List.nodup_cons.2 ⟨hnot, h.nodup⟩, fun j => ?_⟩
    by_cases hij : i = j
    · subst hij
      simp [Array.getElem?_setIfInBounds_self_of_lt hi]
    · rw [Array.getElem?_setIfInBounds_ne hij, ← h.mem_free, List.mem_cons]
      simp [Ne.symm hij]

/-- An allocation hands out an index whose entry is empty. -/
theorem Exact.get?_allocate_snd (h : a.Exact) (x : α) : a.get? (a.allocate x).2 = none := by
  unfold Arena.allocate get?
  split
  · rename_i i rest hfree
    simp [(h.mem_free i).1 (hfree ▸ List.mem_cons_self)]
  · simp

/-- After an allocation the handed-out index holds the new entry and every other entry is as it
was. -/
theorem Exact.get?_allocate (h : a.Exact) (x : α) (j : Nat) :
    (a.allocate x).1.get? j = if j = (a.allocate x).2 then some x else a.get? j := by
  unfold Arena.allocate get?
  split
  · rename_i i rest hfree
    have hi : i < a.slots.size := h.lt_size (hfree ▸ List.mem_cons_self)
    by_cases hij : i = j
    · subst hij
      simp [Array.getElem?_setIfInBounds_self_of_lt hi]
    · simp [Array.getElem?_setIfInBounds_ne hij, Ne.symm hij]
  · simp only [Array.getElem?_push]
    split <;> simp

@[simp] theorem release_snd (a : Arena α) (i : Nat) : (a.release i).2 = a.get? i := by
  cases hx : a.get? i with
  | none => rw [release_of_get?_none hx]
  | some x => rw [release_of_get? hx]

/-- After a release the released index is empty and every other entry is as it was. -/
theorem get?_release (a : Arena α) (i j : Nat) :
    (a.release i).1.get? j = if j = i then none else a.get? j := by
  cases hx : a.get? i with
  | none =>
    rw [release_of_get?_none hx]
    split
    · subst j
      exact hx
    · rfl
  | some x =>
    rw [release_of_get? hx]
    have hi : i < a.slots.size :=
      (Array.getElem?_eq_some_iff.1 (Option.join_eq_some_iff.1 hx)).1
    by_cases hij : i = j
    · subst hij
      simp [get?, Array.getElem?_setIfInBounds_self_of_lt hi]
    · simp [get?, Array.getElem?_setIfInBounds_ne hij, Ne.symm hij]

/-- An allocation adds one live entry: the entry it fills was empty. -/
theorem Exact.liveCount_allocate (h : a.Exact) (x : α) :
    (a.allocate x).1.liveCount = a.liveCount + 1 := by
  unfold Arena.allocate liveCount
  split
  · rename_i i rest hfree
    have hi : i < a.slots.toList.length := by
      simpa using h.lt_size (hfree ▸ List.mem_cons_self)
    have hnone : a.slots.toList[i] = none := by
      have := (h.mem_free i).1 (hfree ▸ List.mem_cons_self)
      rw [Array.getElem?_eq_getElem (by simpa using hi)] at this
      simpa using this
    simp [Array.toList_setIfInBounds, List.countP_set hi, hnone]
  · simp [Array.toList_push]

/-- A release takes one live entry away exactly when it returns one. -/
theorem liveCount_release (a : Arena α) (i : Nat) :
    (a.release i).1.liveCount + (if (a.release i).2.isSome then 1 else 0) = a.liveCount := by
  cases hx : a.get? i with
  | none => simp [release_of_get?_none hx]
  | some x =>
    rw [release_of_get? hx]
    have hs : a.slots[i]? = some (some x) := Option.join_eq_some_iff.1 hx
    have hi : i < a.slots.toList.length := by
      simpa using (Array.getElem?_eq_some_iff.1 hs).1
    have hsome : a.slots.toList[i] = some x := by
      rw [Array.getElem?_eq_getElem (by simpa using hi)] at hs
      simpa using hs
    have hpos : 0 < a.slots.toList.countP Option.isSome :=
      List.countP_pos_iff.2 ⟨some x, hsome ▸ List.getElem_mem hi, rfl⟩
    simp only [liveCount, Array.toList_setIfInBounds, List.countP_set hi, hsome]
    simp only [Option.isSome_some, if_true, Option.isSome_none, Bool.false_eq_true, if_false]
    omega

end Arena

namespace Registry

variable {r : Registry}

/-- The arena of live views. -/
def viewArena (r : Registry) : Arena LView := ⟨r.lviews, r.freeLViews⟩

/-- The arena of view containers. -/
def containerArena (r : Registry) : Arena LContainer := ⟨r.containers, r.freeContainers⟩

/-- Both free lists of a registry are exact. -/
structure ArenasExact (r : Registry) : Prop where
  views : r.viewArena.Exact
  containers : r.containerArena.Exact

/-- A registry with no live view or container, whatever templates it holds. -/
theorem arenasExact_fresh (ts : Array TView) : ArenasExact { tviews := ts } :=
  ⟨Arena.exact_empty, Arena.exact_empty⟩

theorem lviewCount_eq (r : Registry) : r.lviewCount = r.viewArena.liveCount :=
  List.countP_eq_length_filter.symm

theorem lview_eq_ok_iff {id : LViewId} {v : LView} :
    r.lview id = .ok v ↔ r.viewArena.get? id.idx = some v := by
  unfold lview
  rcases hs : r.lviews[id.idx]? with _ | _ | x <;> simp [viewArena, Arena.get?, hs]

theorem container_eq_ok_iff {id : ContainerId} {c : LContainer} :
    r.container id = .ok c ↔ r.containerArena.get? id.idx = some c := by
  unfold container
  rcases hs : r.containers[id.idx]? with _ | _ | x <;> simp [containerArena, Arena.get?, hs]

theorem lview_isOk (id : LViewId) : (r.lview id).isOk = (r.viewArena.get? id.idx).isSome := by
  unfold lview
  rcases hs : r.lviews[id.idx]? with _ | _ | x <;>
    simp [viewArena, Arena.get?, hs, Except.isOk, Except.toBool]

theorem container_isOk (id : ContainerId) :
    (r.container id).isOk = (r.containerArena.get? id.idx).isSome := by
  unfold container
  rcases hs : r.containers[id.idx]? with _ | _ | x <;>
    simp [containerArena, Arena.get?, hs, Except.isOk, Except.toBool]

/-! Each request of the registry is the arena's own request on one arena and leaves the other
alone. -/

section Requests

variable (r : Registry) (v : LView) (c : LContainer) (vid : LViewId) (cid : ContainerId)

@[simp] theorem viewArena_allocateLView :
    (r.allocateLView v).1.viewArena = (r.viewArena.allocate v).1 := by
  rcases r with ⟨ts, lvs, cs, fl, fc⟩
  cases fl <;> rfl

@[simp] theorem idx_allocateLView : (r.allocateLView v).2.idx = (r.viewArena.allocate v).2 := by
  rcases r with ⟨ts, lvs, cs, fl, fc⟩
  cases fl <;> rfl

@[simp] theorem containerArena_allocateLView :
    (r.allocateLView v).1.containerArena = r.containerArena := by
  rcases r with ⟨ts, lvs, cs, fl, fc⟩
  cases fl <;> rfl

@[simp] theorem viewArena_releaseLView :
    (r.releaseLView vid).1.viewArena = (r.viewArena.release vid.idx).1 := by
  rcases hs : r.lviews[vid.idx]? with _ | _ | x <;>
    simp [releaseLView, viewArena, Arena.release, hs]

@[simp] theorem releaseLView_snd : (r.releaseLView vid).2 = (r.viewArena.release vid.idx).2 := by
  rcases hs : r.lviews[vid.idx]? with _ | _ | x <;>
    simp [releaseLView, viewArena, Arena.release, hs]

@[simp] theorem containerArena_releaseLView :
    (r.releaseLView vid).1.containerArena = r.containerArena := by
  rcases hs : r.lviews[vid.idx]? with _ | _ | x <;> simp [releaseLView, containerArena, hs]

@[simp] theorem containerArena_allocateContainer :
    (r.allocateContainer c).1.containerArena = (r.containerArena.allocate c).1 := by
  rcases r with ⟨ts, lvs, cs, fl, fc⟩
  cases fc <;> rfl

@[simp] theorem idx_allocateContainer :
    (r.allocateContainer c).2.idx = (r.containerArena.allocate c).2 := by
  rcases r with ⟨ts, lvs, cs, fl, fc⟩
  cases fc <;> rfl

@[simp] theorem viewArena_allocateContainer :
    (r.allocateContainer c).1.viewArena = r.viewArena := by
  rcases r with ⟨ts, lvs, cs, fl, fc⟩
  cases fc <;> rfl

@[simp] theorem containerArena_releaseContainer :
    (r.releaseContainer cid).1.containerArena = (r.containerArena.release cid.idx).1 := by
  rcases hs : r.containers[cid.idx]? with _ | _ | x <;>
    simp [releaseContainer, containerArena, Arena.release, hs]

@[simp] theorem releaseContainer_snd :
    (r.releaseContainer cid).2 = (r.containerArena.release cid.idx).2 := by
  rcases hs : r.containers[cid.idx]? with _ | _ | x <;>
    simp [releaseContainer, containerArena, Arena.release, hs]

@[simp] theorem viewArena_releaseContainer :
    (r.releaseContainer cid).1.viewArena = r.viewArena := by
  rcases hs : r.containers[cid.idx]? with _ | _ | x <;> simp [releaseContainer, viewArena, hs]

end Requests

end Registry

/-- A request to the arenas of a registry. -/
inductive ArenaOp
  | allocateLView (v : LView)
  | releaseLView (id : LViewId)
  | allocateContainer (c : LContainer)
  | releaseContainer (id : ContainerId)

/-- What a request returns: the handle an allocation hands out, or what a release took out. -/
inductive ArenaReply
  | lview (id : LViewId)
  | releasedLView (v : Option LView)
  | container (id : ContainerId)
  | releasedContainer (c : Option LContainer)

namespace ArenaOp

/-- The request allocates a view. -/
def allocatesLView : ArenaOp → Bool
  | .allocateLView _ => true
  | _ => false

/-- The request allocates a container. -/
def allocatesContainer : ArenaOp → Bool
  | .allocateContainer _ => true
  | _ => false

end ArenaOp

namespace ArenaReply

/-- The reply of a view release that found a live view. -/
def tookLView : ArenaReply → Bool
  | .releasedLView (some _) => true
  | _ => false

/-- The reply of a container release that found a live container. -/
def tookContainer : ArenaReply → Bool
  | .releasedContainer (some _) => true
  | _ => false

end ArenaReply

namespace Registry

variable {r : Registry}

/-- Serves one request. -/
def serve (r : Registry) : ArenaOp → Registry × ArenaReply
  | .allocateLView v => ((r.allocateLView v).1, .lview (r.allocateLView v).2)
  | .releaseLView id => ((r.releaseLView id).1, .releasedLView (r.releaseLView id).2)
  | .allocateContainer c => ((r.allocateContainer c).1, .container (r.allocateContainer c).2)
  | .releaseContainer id => ((r.releaseContainer id).1, .releasedContainer (r.releaseContainer id).2)

/-- Serves requests in order and collects their replies. -/
def serveAll (r : Registry) : List ArenaOp → Registry × List ArenaReply
  | [] => (r, [])
  | op :: ops =>
    let s := (r.serve op).1.serveAll ops
    (s.1, (r.serve op).2 :: s.2)

@[simp] theorem serveAll_nil : r.serveAll [] = (r, []) := rfl

@[simp] theorem serveAll_cons (op : ArenaOp) (ops : List ArenaOp) :
    r.serveAll (op :: ops) =
      (((r.serve op).1.serveAll ops).1, (r.serve op).2 :: ((r.serve op).1.serveAll ops).2) := rfl

/-- Every request keeps both free lists exact. -/
theorem ArenasExact.serve (h : r.ArenasExact) (op : ArenaOp) : (r.serve op).1.ArenasExact := by
  cases op with
  | allocateLView v =>
    exact ⟨by simpa [Registry.serve] using h.views.allocate v, by simpa [Registry.serve] using h.containers⟩
  | releaseLView id =>
    exact ⟨by simpa [Registry.serve] using h.views.release id.idx, by simpa [Registry.serve] using h.containers⟩
  | allocateContainer c =>
    exact ⟨by simpa [Registry.serve] using h.views, by simpa [Registry.serve] using h.containers.allocate c⟩
  | releaseContainer id =>
    exact ⟨by simpa [Registry.serve] using h.views, by simpa [Registry.serve] using h.containers.release id.idx⟩

/-- Every sequence of requests keeps both free lists exact. -/
theorem ArenasExact.serveAll (h : r.ArenasExact) (ops : List ArenaOp) :
    (r.serveAll ops).1.ArenasExact := by
  induction ops generalizing r with
  | nil => exact h
  | cons op ops ih => exact ih (h.serve op)

/-- One request moves each live count by one for an allocation of its kind and back by one for a
release of its kind that found an entry. -/
theorem ArenasExact.liveCount_serve (h : r.ArenasExact) (op : ArenaOp) :
    (r.serve op).1.viewArena.liveCount + (if (r.serve op).2.tookLView then 1 else 0) =
        r.viewArena.liveCount + (if op.allocatesLView then 1 else 0) ∧
      (r.serve op).1.containerArena.liveCount + (if (r.serve op).2.tookContainer then 1 else 0) =
        r.containerArena.liveCount + (if op.allocatesContainer then 1 else 0) := by
  cases op with
  | allocateLView v =>
    simp [Registry.serve, ArenaOp.allocatesLView, ArenaOp.allocatesContainer, ArenaReply.tookLView,
      ArenaReply.tookContainer, h.views.liveCount_allocate]
  | releaseLView id =>
    have hc := Arena.liveCount_release r.viewArena id.idx
    refine ⟨?_, by simp [Registry.serve, ArenaOp.allocatesContainer, ArenaReply.tookContainer]⟩
    cases hx : r.viewArena.get? id.idx <;>
      simp_all [Registry.serve, ArenaOp.allocatesLView, ArenaReply.tookLView]
  | allocateContainer c =>
    simp [Registry.serve, ArenaOp.allocatesLView, ArenaOp.allocatesContainer, ArenaReply.tookLView,
      ArenaReply.tookContainer, h.containers.liveCount_allocate]
  | releaseContainer id =>
    have hc := Arena.liveCount_release r.containerArena id.idx
    refine ⟨by simp [Registry.serve, ArenaOp.allocatesLView, ArenaReply.tookLView], ?_⟩
    cases hx : r.containerArena.get? id.idx <;>
      simp_all [Registry.serve, ArenaOp.allocatesContainer, ArenaReply.tookContainer]

/-- Over a run, the live counts move by the allocations less the releases that found an entry. -/
theorem ArenasExact.liveCount_serveAll (h : r.ArenasExact) (ops : List ArenaOp) :
    (r.serveAll ops).1.viewArena.liveCount + (r.serveAll ops).2.countP ArenaReply.tookLView =
        r.viewArena.liveCount + ops.countP ArenaOp.allocatesLView ∧
      (r.serveAll ops).1.containerArena.liveCount +
          (r.serveAll ops).2.countP ArenaReply.tookContainer =
        r.containerArena.liveCount + ops.countP ArenaOp.allocatesContainer := by
  induction ops generalizing r with
  | nil => simp
  | cons op ops ih =>
    -- the step moves the counts of `r`, the rest of the run those of the state it leaves
    obtain ⟨hv, hc⟩ := h.liveCount_serve op
    obtain ⟨ihv, ihc⟩ := ih (h.serve op)
    simp only [serveAll_cons, List.countP_cons]
    omega

/-- A live view stays live, with the same entry, through one request unless that request is a
release of it, which then returns the view. -/
theorem ArenasExact.viewArena_get?_serve (h : r.ArenasExact) {i : Nat} {x : LView}
    (hx : r.viewArena.get? i = some x) (op : ArenaOp)
    (hop : (op, (r.serve op).2) ≠ (.releaseLView ⟨i⟩, .releasedLView (some x))) :
    (r.serve op).1.viewArena.get? i = some x := by
  cases op with
  | allocateLView v =>
    have hfresh := h.views.get?_allocate_snd v
    have hne : i ≠ (r.viewArena.allocate v).2 := fun he => by simp_all
    simp [Registry.serve, h.views.get?_allocate, hne, hx]
  | releaseLView id =>
    by_cases hid : id.idx = i
    · obtain rfl : id = ⟨i⟩ := by cases id; simp_all
      simp [Registry.serve, hx] at hop
    · simp [Registry.serve, Arena.get?_release, Ne.symm hid, hx]
  | allocateContainer c => simpa [Registry.serve] using hx
  | releaseContainer id => simpa [Registry.serve] using hx

/-- A live container stays live, with the same entry, through one request unless that request
is a release of it, which then returns the container. -/
theorem ArenasExact.containerArena_get?_serve (h : r.ArenasExact) {i : Nat} {x : LContainer}
    (hx : r.containerArena.get? i = some x) (op : ArenaOp)
    (hop : (op, (r.serve op).2) ≠ (.releaseContainer ⟨i⟩, .releasedContainer (some x))) :
    (r.serve op).1.containerArena.get? i = some x := by
  cases op with
  | allocateLView v => simpa [Registry.serve] using hx
  | releaseLView id => simpa [Registry.serve] using hx
  | allocateContainer c =>
    have hfresh := h.containers.get?_allocate_snd c
    have hne : i ≠ (r.containerArena.allocate c).2 := fun he => by simp_all
    simp [Registry.serve, h.containers.get?_allocate, hne, hx]
  | releaseContainer id =>
    by_cases hid : id.idx = i
    · obtain rfl : id = ⟨i⟩ := by cases id; simp_all
      simp [Registry.serve, hx] at hop
    · simp [Registry.serve, Arena.get?_release, Ne.symm hid, hx]

/-- A live view stays live through a run in which no release returns it. -/
theorem ArenasExact.viewArena_get?_serveAll (h : r.ArenasExact) {i : Nat} {x : LView}
    (hx : r.viewArena.get? i = some x) (ops : List ArenaOp)
    (hops : (.releaseLView ⟨i⟩, .releasedLView (some x)) ∉ ops.zip (r.serveAll ops).2) :
    (r.serveAll ops).1.viewArena.get? i = some x := by
  induction ops generalizing r with
  | nil => exact hx
  | cons op ops ih =>
    simp only [serveAll_cons, List.zip_cons_cons, List.mem_cons, not_or] at hops ⊢
    exact ih (h.serve op) (h.viewArena_get?_serve hx op (Ne.symm hops.1)) hops.2

/-- A live container stays live through a run in which no release returns it. -/
theorem ArenasExact.containerArena_get?_serveAll (h : r.ArenasExact) {i : Nat} {x : LContainer}
    (hx : r.containerArena.get? i = some x) (ops : List ArenaOp)
    (hops : (.releaseContainer ⟨i⟩, .releasedContainer (some x)) ∉ ops.zip (r.serveAll ops).2) :
    (r.serveAll ops).1.containerArena.get? i = some x := by
  induction ops generalizing r with
  | nil => exact hx
  | cons op ops ih =>
    simp only [serveAll_cons, List.zip_cons_cons, List.mem_cons, not_or] at hops ⊢
    exact ih (h.serve op) (h.containerArena_get?_serve hx op (Ne.symm hops.1)) hops.2

/-- An allocation from exact arenas hands out a view handle that is not live. -/
theorem ArenasExact.lview_allocateLView_snd (h : r.ArenasExact) (v : LView) :
    (r.lview (r.allocateLView v).2).isOk = false := by
  rw [lview_isOk, idx_allocateLView, h.views.get?_allocate_snd]
  rfl

/-- An allocation from exact arenas hands out a container handle that is not live. -/
theorem ArenasExact.container_allocateContainer_snd (h : r.ArenasExact) (c : LContainer) :
    (r.container (r.allocateContainer c).2).isOk = false := by
  rw [container_isOk, idx_allocateContainer, h.containers.get?_allocate_snd]
  rfl

/-- A view handle is handed out again only after a release that returned the view it was first
handed out for: until then the view stays live, and allocation never hands out a live handle. -/
theorem ArenasExact.releaseLView_before_reissue (h : r.ArenasExact) (v w : LView)
    (mid : List ArenaOp)
    (hsame : (((r.allocateLView v).1.serveAll mid).1.allocateLView w).2 = (r.allocateLView v).2) :
    (ArenaOp.releaseLView (r.allocateLView v).2, ArenaReply.releasedLView (some v)) ∈
      mid.zip ((r.allocateLView v).1.serveAll mid).2 := by
  have h₁ : (r.allocateLView v).1.ArenasExact := h.serve (.allocateLView v)
  have hlive : (r.allocateLView v).1.viewArena.get? (r.allocateLView v).2.idx = some v := by
    simp [h.views.get?_allocate]
  refine Classical.byContradiction fun hno => ?_
  have hstill := h₁.viewArena_get?_serveAll hlive mid hno
  have hfresh := (h₁.serveAll mid).views.get?_allocate_snd w
  rw [← idx_allocateLView, hsame, hstill] at hfresh
  exact Option.some_ne_none v hfresh

/-- A container handle is handed out again only after a release that returned the container it
was first handed out for. -/
theorem ArenasExact.releaseContainer_before_reissue (h : r.ArenasExact) (c d : LContainer)
    (mid : List ArenaOp)
    (hsame : (((r.allocateContainer c).1.serveAll mid).1.allocateContainer d).2 =
      (r.allocateContainer c).2) :
    (ArenaOp.releaseContainer (r.allocateContainer c).2, ArenaReply.releasedContainer (some c)) ∈
      mid.zip ((r.allocateContainer c).1.serveAll mid).2 := by
  have h₁ : (r.allocateContainer c).1.ArenasExact := h.serve (.allocateContainer c)
  have hlive :
      (r.allocateContainer c).1.containerArena.get? (r.allocateContainer c).2.idx = some c := by
    simp [h.containers.get?_allocate]
  refine Classical.byContradiction fun hno => ?_
  have hstill := h₁.containerArena_get?_serveAll hlive mid hno
  have hfresh := (h₁.serveAll mid).containers.get?_allocate_snd d
  rw [← idx_allocateContainer, hsame, hstill] at hfresh
  exact Option.some_ne_none c hfresh

/-- The free lists of the view and container arenas are exact after any sequence of requests,
releases of stale or never-issued handles included. Every allocation then hands out a handle
that is not live; a handle is handed out again only after a release that returned the entry it
was handed out for; and each live count moves by the allocations of its kind less the releases
of its kind that returned an entry. -/
theorem arena_free_lists_exact (h : r.ArenasExact) (ops : List ArenaOp) :
    let s := (r.serveAll ops).1
    s.ArenasExact ∧
      s.lviewCount + (r.serveAll ops).2.countP ArenaReply.tookLView =
        r.lviewCount + ops.countP ArenaOp.allocatesLView ∧
      s.containerArena.liveCount + (r.serveAll ops).2.countP ArenaReply.tookContainer =
        r.containerArena.liveCount + ops.countP ArenaOp.allocatesContainer ∧
      (∀ v, (s.lview (s.allocateLView v).2).isOk = false) ∧
      (∀ c, (s.container (s.allocateContainer c).2).isOk = false) ∧
      (∀ v w mid,
        (((s.allocateLView v).1.serveAll mid).1.allocateLView w).2 = (s.allocateLView v).2 →
          (ArenaOp.releaseLView (s.allocateLView v).2, ArenaReply.releasedLView (some v)) ∈
            mid.zip ((s.allocateLView v).1.serveAll mid).2) ∧
      (∀ c d mid,
        (((s.allocateContainer c).1.serveAll mid).1.allocateContainer d).2 =
            (s.allocateContainer c).2 →
          (ArenaOp.releaseContainer (s.allocateContainer c).2,
              ArenaReply.releasedContainer (some c)) ∈
            mid.zip ((s.allocateContainer c).1.serveAll mid).2) := by
  intro s
  have hs : s.ArenasExact := h.serveAll ops
  obtain ⟨hv, hc⟩ := h.liveCount_serveAll ops
  refine ⟨hs, ?_, hc, hs.lview_allocateLView_snd, hs.container_allocateContainer_snd,
    fun v w mid => hs.releaseLView_before_reissue v w mid,
    fun c d mid => hs.releaseContainer_before_reissue c d mid⟩
  rw [lviewCount_eq, lviewCount_eq]
  exact hv

/-- Two views allocated, then the first released twice: the first release returns its view, the
second finds nothing, and the next allocation reuses the released index. -/
def reuseRequests : List ArenaOp :=
  [.allocateLView (.create ⟨0⟩ 1), .allocateLView (.create ⟨0⟩ 1), .releaseLView ⟨0⟩,
    .releaseLView ⟨0⟩]

theorem released_view_handed_out_again :
    ({} : Registry).ArenasExact ∧
      (({} : Registry).serveAll reuseRequests).1.lviewCount + 1 = 0 + 2 ∧
      ((({} : Registry).serveAll reuseRequests).1.allocateLView (.create ⟨0⟩ 1)).2 = ⟨0⟩ ∧
      ((({} : Registry).serveAll reuseRequests).1.lview
        ((({} : Registry).serveAll reuseRequests).1.allocateLView (.create ⟨0⟩ 1)).2).isOk =
        false := by
  have h := arena_free_lists_exact (arenasExact_fresh #[]) reuseRequests
  refine ⟨arenasExact_fresh #[], ?_, rfl, h.2.2.2.1 _⟩
  have hcount := h.2.1
  -- the four requests hold two allocations and one release that found its view
  have hreplies : (({} : Registry).serveAll reuseRequests).2.countP ArenaReply.tookLView = 1 := rfl
  rw [hreplies] at hcount
  exact hcount

end Registry

end ViewHydration
