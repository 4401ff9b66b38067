import ViewHydration.Proofs.RenderSteps
import ViewHydration.Proofs.DocumentLinks
import ViewHydration.Proofs.DocumentForest

/-!
# Translated blocks lay their nodes out in message order

`i18nEnd` closes a translated block in two loops. The first detaches the node of every element
opened inside the block whose template node is marked detached; on the template's first pass it
first marks every such element that the message does not mention. The second loop takes the
nodes of the block in message order and puts each one where a child of its planned parent goes:
at the end of an element, before the view's insertion anchor, or before an `<ng-container>`'s
comment.

Nodes put one after another at the same place end up side by side, in the order they were put
there, as long as nothing else is put at that place in between. Each parent of the block has its
own place when the parents other than the block's root are elements. A parent `<ng-container>`
would put its nodes before its comment, and so inside the run of nodes of its own parent.

## Main definitions

- `I18nNode.nativesUnder` — the document nodes of the block nodes planned under a parent
- `LaidAt` — nodes stand side by side at the place of a parent
- `BlockPlaces` — the facts about a block's places that the layout rests on

## Main results

- `i18nEnd_lays_out_block` — after `i18nEnd`, the nodes planned under each parent stand side by
  side at its place in message order, and the unmentioned elements are detached
- `containerMessage_splits_root` — with an `<ng-container>` holding text of the message, the
  block's root does not get its nodes side by side
-/

namespace ViewHydration

/-- Two entries of a list whose `filterMap` repeats nothing are one entry when they map to the
same value. -/
theorem index_eq_of_nodup_filterMap {α β : Type} {f : α → Option β} {l : List α}
    (h : (l.filterMap f).Nodup) {i j : Nat} {a b : α} {x : β} (hi : l[i]? = some a)
    (hj : l[j]? = some b) (ha : f a = some x) (hb : f b = some x) : i = j := by
  induction l generalizing i j with
  | nil => simp at hi
  | cons c l ih =>
    -- the head's value, if any, does not come back in the tail
    have hhead : ∀ (k : Nat) (d : α), l[k]? = some d → f d = some x → f c ≠ some x := by
      intro k d hk hd hc
      rw [List.filterMap_cons, hc] at h
      exact (List.nodup_cons.mp h).1 (List.mem_filterMap.mpr ⟨d, List.mem_of_getElem? hk, hd⟩)
    have htail : (l.filterMap f).Nodup := by
      rw [List.filterMap_cons] at h
      cases hfc : f c with
      | none => rwa [hfc] at h
      | some y =>
        rw [hfc] at h
        exact (List.nodup_cons.mp h).2
    cases i with
    | zero =>
      cases j with
      | zero => rfl
      | succ j =>
        simp only [List.getElem?_cons_zero, Option.some.injEq] at hi
        exact absurd (hi ▸ ha) (hhead j b hj hb)
    | succ i =>
      cases j with
      | zero =>
        simp only [List.getElem?_cons_zero, Option.some.injEq] at hj
        exact absurd (hj ▸ hb) (hhead i a hi ha)
      | succ j => exact congrArg (· + 1) (ih htail hi hj)

namespace LView

variable {v : LView} {i j : Nat} {x : NodeId}

theorem native?_eq_some_iff : v.native? i = some x ↔ ∃ s, v.data[i]? = some s ∧ s.native? = some x := by
  unfold native? slot
  cases v.data[i]? with
  | none => simp [Slot.native?]
  | some s => simp

/-- In a view whose slots hold distinct nodes, a node is held by one slot only. -/
theorem native?_injective (h : v.natives.Nodup) (hi : v.native? i = some x) (hj : v.native? j = some x) :
    i = j := by
  obtain ⟨s, hs, hsx⟩ := native?_eq_some_iff.mp hi
  obtain ⟨s', hs', hsx'⟩ := native?_eq_some_iff.mp hj
  rw [← Array.getElem?_toList] at hs hs'
  exact index_eq_of_nodup_filterMap h hs hs' hsx hsx'

theorem mem_natives (hi : v.native? i = some x) : x ∈ v.natives := by
  obtain ⟨s, hs, hsx⟩ := native?_eq_some_iff.mp hi
  rw [← Array.getElem?_toList] at hs
  exact List.mem_filterMap.mpr ⟨s, List.mem_of_getElem? hs, hsx⟩

end LView

namespace TNodeFlags

theorem union_detached_union_detached (a : TNodeFlags) :
    (a.union .detached).union .detached = a.union .detached := by
  simp only [union, detached, Nat.or_assoc, Nat.or_self]

theorem has_union_detached (a : TNodeFlags) : (a.union .detached).has .detached = true := by
  simp only [has, union, detached, beq_iff_eq]
  rw [Nat.and_or_distrib_right, Nat.and_self]
  apply Nat.eq_of_testBit_eq
  intro i
  simp only [Nat.testBit_or, Nat.testBit_and]
  cases Nat.testBit 4 i <;> simp

end TNodeFlags

namespace TView

/-- The template once every element of `elements` that `block` does not mention is marked
detached, as `i18nEnd` marks them on the template's first pass. -/
def markUnmentioned (t : TView) (block : I18nBlock) (elements : List Nat) : TView :=
  elements.foldl (fun t e => if block.nodes.any (·.index == e) then t
    else t.modifyTNode e fun n => { n with flags := n.flags.union .detached }) t

theorem id_modifyTNode (t : TView) (i : Nat) (f : TNode → TNode) : (t.modifyTNode i f).id = t.id := by
  unfold modifyTNode
  split <;> rfl

theorem id_markUnmentioned (t : TView) (block : I18nBlock) (elements : List Nat) :
    (t.markUnmentioned block elements).id = t.id := by
  induction elements generalizing t with
  | nil => rfl
  | cons e rest ih =>
    rw [markUnmentioned, List.foldl_cons, ← markUnmentioned, ih]
    split
    · rfl
    · exact id_modifyTNode t e _

/-- An element is marked when the list names it and the block does not; marking twice is
marking once. -/
theorem tnode?_markUnmentioned (t : TView) (block : I18nBlock) (elements : List Nat) (j : Nat) :
    (t.markUnmentioned block elements).tnode? j =
      if j ∈ elements ∧ j ∉ block.nodes.map (·.index) then
        (t.tnode? j).map fun n => { n with flags := n.flags.union .detached }
      else t.tnode? j := by
  induction elements generalizing t with
  | nil => simp [markUnmentioned]
  | cons e rest ih =>
    rw [markUnmentioned, List.foldl_cons, ← markUnmentioned, ih]
    have hany : (block.nodes.any (·.index == e)) = true ↔ e ∈ block.nodes.map (·.index) := by
      simp [List.any_eq_true, List.mem_map]
    by_cases hm : e ∈ block.nodes.map (·.index)
    · rw [if_pos (hany.mpr hm)]
      by_cases hj : j = e
      · subst hj
        simp [hm]
      · simp [hj]
    · rw [if_neg (fun h => hm (hany.mp h))]
      simp only [tnode?_modifyTNode, List.mem_cons]
      by_cases hj : j = e
      · subst hj
        cases t.tnode? j <;> simp [hm, TNodeFlags.union_detached_union_detached]
      · simp [hj, Ne.symm hj]

theorem type_markUnmentioned (t : TView) (block : I18nBlock) (elements : List Nat) (j : Nat) :
    ((t.markUnmentioned block elements).tnode? j).map TNode.type = (t.tnode? j).map TNode.type := by
  rw [tnode?_markUnmentioned]
  split
  · cases t.tnode? j <;> rfl
  · rfl

/-- After the marking, every element of the list that the block leaves out and the template has
reads as detached. -/
theorem detached_markUnmentioned {t : TView} {block : I18nBlock} {elements : List Nat} {e : Nat}
    (he : e ∈ elements) (hm : e ∉ block.nodes.map (·.index)) (hn : (t.tnode? e).isSome) :
    (((t.markUnmentioned block elements).tnode? e).map (·.has .detached)).getD false = true := by
  obtain ⟨n, hn⟩ := Option.isSome_iff_exists.mp hn
  rw [tnode?_markUnmentioned, if_pos ⟨he, hm⟩, hn]
  exact TNodeFlags.has_union_detached n.flags

end TView

/-- The document nodes of the block nodes among `nodes` planned under `p`, in order. -/
def I18nNode.nativesUnder (v : LView) (p : Option Nat) (nodes : List I18nNode) : List NodeId :=
  (nodes.filter (·.parent == p)).filterMap fun n => v.native? n.index

theorem I18nNode.nativesUnder_append_single (v : LView) (p : Option Nat) (nodes : List I18nNode)
    (n : I18nNode) : nativesUnder v p (nodes ++ [n]) =
      nativesUnder v p nodes ++ if n.parent = p then (v.native? n.index).toList else [] := by
  unfold nativesUnder
  rw [List.filter_append, List.filterMap_append]
  by_cases h : n.parent = p
  · cases hx : v.native? n.index <;> simp [h, hx]
  · simp [h]

theorem I18nNode.mem_nativesUnder {v : LView} {p : Option Nat} {nodes : List I18nNode} {x : NodeId}
    (h : x ∈ nativesUnder v p nodes) : ∃ n ∈ nodes, n.parent = p ∧ v.native? n.index = some x := by
  obtain ⟨n, hn, hx⟩ := List.mem_filterMap.mp h
  obtain ⟨hn, hp⟩ := List.mem_filter.mp hn
  exact ⟨n, hn, by simpa using hp, hx⟩

/-- The nodes `xs` stand side by side where a child of `p` goes: right before the reference of the
insertion point of `p`, or at the end of its parent node when there is none. -/
def LaidAt (d : Document) (t : TView) (v : LView) (p : Option Nat) (xs : List NodeId) : Prop :=
  ∃ P ref, RenderM.insertionPoint d t v p 0 = .ok (P, ref) ∧
    ∃ A B, d.children P = A ++ xs ++ B ∧ B.head? = ref

/-- At a place without a reference, the run ends the children of the parent node. -/
theorem LaidAt.suffix {d : Document} {t : TView} {v : LView} {p : Option Nat} {xs : List NodeId}
    {P : NodeId} (h : LaidAt d t v p xs) (hpl : RenderM.insertionPoint d t v p 0 = .ok (P, none)) :
    xs <:+ d.children P := by
  obtain ⟨P', ref, hpl', A, B, hch, hB⟩ := h
  obtain ⟨rfl, rfl⟩ : P = P' ∧ none = ref := by simpa [hpl] using hpl'
  rw [List.head?_eq_none_iff.mp hB, List.append_nil] at hch
  exact ⟨A, hch.symm⟩

/-- Taking a node out of a list keeps a run `G` that does not hold it, and the head of what
follows the run when the node is not that head. -/
theorem exists_erase_around {A G B : List NodeId} {x : NodeId} (hG : x ∉ G) (hB : B.head? ≠ some x) :
    ∃ A' B', (A ++ G ++ B).erase x = A' ++ G ++ B' ∧ B'.head? = B.head? := by
  by_cases hA : x ∈ A
  · exact ⟨A.erase x, B, by rw [List.append_assoc, List.erase_append_left _ hA, List.append_assoc], rfl⟩
  · refine ⟨A, B.erase x, ?_, ?_⟩
    · rw [List.append_assoc, List.erase_append_right _ hA, List.erase_append_right _ hG,
        List.append_assoc]
    · cases B with
      | nil => rfl
      | cons b B =>
        have hb : b ≠ x := fun he => hB (by rw [he]; rfl)
        rw [List.erase_cons_tail (by simpa using hb)]
        rfl

namespace RenderM

variable {d d' : Document} {t t' : TView} {v : LView} {p : Option Nat} {i j : Nat}

/-- The slot passed to `insertionPoint` only names the slot in its errors. -/
theorem insertionPoint_index {a : NodeId × Option NodeId} (h : insertionPoint d t v p i = .ok a) (j : Nat) :
    insertionPoint d t v p j = .ok a := by
  cases p with
  | none =>
    cases hh : v.host <;> simp_all [insertionPoint]
  | some g =>
    cases hn : t.tnode? g with
    | none => simp_all [insertionPoint, TView.expectTNode, bind, Except.bind]
    | some m =>
      cases hx : v.native? g with
      | none =>
        simp_all [insertionPoint, TView.expectTNode, bind, Except.bind, throw, throwThe,
          MonadExceptOf.throw]
      | some x =>
        by_cases hty : m.type = .elementContainer <;> cases hp : d.parent? x <;>
          simp_all [insertionPoint, TView.expectTNode, bind, Except.bind, pure, Except.pure, throw,
            throwThe, MonadExceptOf.throw]

/-- The place of a child of `p` reads the document only for the parent of an `<ng-container>`'s
comment. -/
theorem insertionPoint_congr_doc (h : ∀ g x, p = some g → v.native? g = some x → d'.parent? x = d.parent? x) :
    insertionPoint d' t v p i = insertionPoint d t v p i := by
  cases p with
  | none => rfl
  | some g =>
    cases hn : t.tnode? g with
    | none => simp [insertionPoint, TView.expectTNode, hn, bind, Except.bind]
    | some m =>
      cases hx : v.native? g with
      | none =>
        simp [insertionPoint, TView.expectTNode, hn, hx, bind, Except.bind, throw, throwThe,
          MonadExceptOf.throw]
      | some x =>
        simp [insertionPoint, TView.expectTNode, hn, hx, h g x rfl hx, bind, Except.bind, pure,
          Except.pure]

/-- The place of a child reads only the kinds of the template's nodes. -/
theorem insertionPoint_congr_tview (h : ∀ k, (t'.tnode? k).map TNode.type = (t.tnode? k).map TNode.type) :
    insertionPoint d t' v p i = insertionPoint d t v p i := by
  cases p with
  | none => rfl
  | some g =>
    have hg := h g
    cases h₁ : t'.tnode? g with
    | none =>
      cases h₂ : t.tnode? g with
      | none => simp [insertionPoint, TView.expectTNode, h₁, h₂]
      | some m => rw [h₁, h₂] at hg; cases hg
    | some m' =>
      cases h₂ : t.tnode? g with
      | none => rw [h₁, h₂] at hg; cases hg
      | some m =>
        rw [h₁, h₂] at hg
        have hty : m'.type = m.type := Option.some.inj hg
        simp only [insertionPoint, TView.expectTNode, h₁, h₂, bind, Except.bind, hty]

/-- A child of an element goes at the end of the element's node. -/
theorem insertionPoint_element {g : Nat} {m : TNode} {y : NodeId} (hm : t.tnode? g = some m)
    (hty : m.type = .element) (hy : v.native? g = some y) :
    insertionPoint d t v (some g) i = .ok (y, none) := by
  simp [insertionPoint, TView.expectTNode, hm, hy, hty, bind, Except.bind, pure, Except.pure]

/-- The place found for a child of an element is the end of the element's node. -/
theorem eq_of_insertionPoint_element {g : Nat} {m : TNode} {y P : NodeId} {ref : Option NodeId}
    (hm : t.tnode? g = some m) (hty : m.type = .element) (hy : v.native? g = some y)
    (h : insertionPoint d t v (some g) i = .ok (P, ref)) : y = P ∧ none = ref := by
  rw [insertionPoint_element hm hty hy] at h
  simpa using h

end RenderM

/-- A parent node of a template holds the node its place is computed from: the parent node
itself for an element, the reference for an `<ng-container>`. -/
theorem RenderM.insertionPoint_native {d : Document} {t : TView} {v : LView} {g i : Nat} {P : NodeId}
    {ref : Option NodeId} (h : RenderM.insertionPoint d t v (some g) i = .ok (P, ref)) {x : NodeId}
    (hx : v.native? g = some x) : x = P ∨ ref = some x := by
  cases hn : t.tnode? g with
  | none => simp [RenderM.insertionPoint, TView.expectTNode, hn, bind, Except.bind] at h
  | some m =>
    by_cases hty : m.type = .elementContainer
    · right
      cases hp : d.parent? x <;>
        simp_all [RenderM.insertionPoint, TView.expectTNode, bind, Except.bind, pure, Except.pure,
          throw, throwThe, MonadExceptOf.throw]
    · left
      simp_all [RenderM.insertionPoint, TView.expectTNode, bind, Except.bind, pure, Except.pure]

/-- What the layout of a block rests on. The view's slots hold distinct nodes of the document and
the block's nodes have distinct slots. Each node's planned parent is the block's root or another
node of the block, an element with a node of its own. The root has a place whose reference, if
any, is a child of its parent node, and neither is the node of a block node or of an element
opened in the block. -/
structure BlockPlaces (d : Document) (t : TView) (v : LView) (bf : I18nFrame) (block : I18nBlock) :
    Prop where
  natives : v.natives.Nodup
  contains : ∀ x ∈ v.natives, d.contains x = true
  slots : (block.nodes.map (·.index)).Nodup
  parents : ∀ n ∈ block.nodes, n.parent = bf.parent ∨ ∃ m ∈ block.nodes, m ≠ n ∧
    n.parent = some m.index ∧ (t.tnode? m.index).map TNode.type = some .element ∧
    (v.native? m.index).isSome
  root : ∃ P ref, RenderM.insertionPoint d t v bf.parent 0 = .ok (P, ref) ∧ d.contains P = true ∧
    (∀ x, ref = some x → d.parent? x = some P) ∧
    ∀ i ∈ block.nodes.map (·.index) ++ bf.elements, v.native? i ≠ some P ∧
      ∀ x, ref = some x → v.native? i ≠ some x

namespace BlockPlaces

variable {d : Document} {t : TView} {v : LView} {bf : I18nFrame} {block : I18nBlock}

/-- Distinct nodes of the block hold distinct document nodes. -/
theorem native_ne (h : BlockPlaces d t v bf block) {m n : I18nNode} (hm : m ∈ block.nodes)
    (hn : n ∈ block.nodes) (hne : m ≠ n) {x : NodeId} (hx : v.native? n.index = some x) :
    v.native? m.index ≠ some x := fun hmx =>
  hne (List.inj_on_of_nodup_map h.slots hm hn (LView.native?_injective h.natives hmx hx))

/-- A node of a slot outside the block is not the node of a block node. -/
theorem native_ne_of_not_mem (h : BlockPlaces d t v bf block) {e : Nat}
    (he : e ∉ block.nodes.map (·.index)) {x : NodeId} (hx : v.native? e = some x) :
    ∀ n ∈ block.nodes, v.native? n.index ≠ some x := fun _ hn hnx =>
  he (LView.native?_injective h.natives hnx hx ▸ List.mem_map_of_mem hn)

/-- A parent of the block is its root or an element of the block with a node. -/
theorem parent_cases (h : BlockPlaces d t v bf block) {p : Option Nat}
    (hp : p = bf.parent ∨ ∃ n ∈ block.nodes, n.parent = p) :
    p = bf.parent ∨ ∃ m ∈ block.nodes, p = some m.index ∧ (∃ tm, t.tnode? m.index = some tm ∧
      tm.type = .element) ∧ ∃ y, v.native? m.index = some y := by
  rcases hp with hp | ⟨n, hn, rfl⟩
  · exact .inl hp
  · rcases h.parents n hn with hr | ⟨m, hm, -, hpm, hty, hy⟩
    · exact .inl hr
    · obtain ⟨tm, htm, htmty⟩ := Option.map_eq_some_iff.mp hty
      exact .inr ⟨m, hm, hpm, ⟨tm, htm, htmty⟩, Option.isSome_iff_exists.mp hy⟩

/-- The place of the root, as the hypotheses give it. -/
theorem root_place (h : BlockPlaces d t v bf block) {P : NodeId} {ref : Option NodeId}
    (hpl : RenderM.insertionPoint d t v bf.parent 0 = .ok (P, ref)) :
    d.contains P = true ∧ (∀ x, ref = some x → d.parent? x = some P) ∧
      ∀ i ∈ block.nodes.map (·.index) ++ bf.elements, v.native? i ≠ some P ∧
        ∀ x, ref = some x → v.native? i ≠ some x := by
  obtain ⟨P₀, ref₀, hpl₀, hrest⟩ := h.root
  rw [hpl] at hpl₀
  obtain ⟨rfl, rfl⟩ : P = P₀ ∧ ref = ref₀ := by simpa using hpl₀
  exact hrest

/-- The node the root's place is read from is the node of no block node and of no element opened
in the block. -/
theorem root_native_outside (h : BlockPlaces d t v bf block) {g : Nat} {x : NodeId}
    (hg : bf.parent = some g) (hx : v.native? g = some x) :
    ∀ i ∈ block.nodes.map (·.index) ++ bf.elements, v.native? i ≠ some x := by
  obtain ⟨P, ref, hpl, -, -, hout⟩ := h.root
  rw [hg] at hpl
  intro i hi hix
  rcases RenderM.insertionPoint_native hpl hx with rfl | rfl
  · exact (hout i hi).1 hix
  · exact (hout i hi).2 x rfl hix

/-- The place of a parent of the block: its parent node is a node of the document, its reference
is a child of it, and its reference is no block node's. -/
theorem place_facts (h : BlockPlaces d t v bf block) {p : Option Nat}
    (hp : p = bf.parent ∨ ∃ n ∈ block.nodes, n.parent = p) {P : NodeId} {ref : Option NodeId}
    (hpl : RenderM.insertionPoint d t v p 0 = .ok (P, ref)) :
    d.contains P = true ∧ (∀ x, ref = some x → d.parent? x = some P) ∧
      ∀ m ∈ block.nodes, ∀ x, ref = some x → v.native? m.index ≠ some x := by
  rcases h.parent_cases hp with rfl | ⟨m', -, rfl, ⟨tm, htm, hty⟩, y, hy⟩
  · obtain ⟨hc, href, hout⟩ := h.root_place hpl
    exact ⟨hc, href, fun m hm x hx => (hout m.index (List.mem_append_left _ (List.mem_map_of_mem hm))).2 x hx⟩
  · obtain ⟨rfl, rfl⟩ := RenderM.eq_of_insertionPoint_element htm hty hy hpl
    exact ⟨h.contains y (LView.mem_natives hy), nofun, fun _ _ _ hx => by cases hx⟩

/-- Distinct parents of the block have distinct places. -/
theorem place_inj (h : BlockPlaces d t v bf block) {p p' : Option Nat}
    (hp : p = bf.parent ∨ ∃ n ∈ block.nodes, n.parent = p)
    (hp' : p' = bf.parent ∨ ∃ n ∈ block.nodes, n.parent = p') {P : NodeId} {ref ref' : Option NodeId}
    (hpl : RenderM.insertionPoint d t v p 0 = .ok (P, ref))
    (hpl' : RenderM.insertionPoint d t v p' 0 = .ok (P, ref')) : p = p' := by
  rcases h.parent_cases hp with rfl | ⟨m, hm, rfl, ⟨tm, htm, hty⟩, y, hy⟩ <;>
    rcases h.parent_cases hp' with rfl | ⟨m', hm', rfl, ⟨tm', htm', hty'⟩, y', hy'⟩
  · rfl
  · -- the root's parent node is no node of the block
    obtain ⟨rfl, -⟩ := RenderM.eq_of_insertionPoint_element htm' hty' hy' hpl'
    exact absurd hy' ((h.root_place hpl).2.2 m'.index (List.mem_append_left _ (List.mem_map_of_mem hm'))).1
  · obtain ⟨rfl, -⟩ := RenderM.eq_of_insertionPoint_element htm hty hy hpl
    exact absurd hy ((h.root_place hpl').2.2 m.index (List.mem_append_left _ (List.mem_map_of_mem hm))).1
  · obtain ⟨rfl, -⟩ := RenderM.eq_of_insertionPoint_element htm hty hy hpl
    obtain ⟨rfl, -⟩ := RenderM.eq_of_insertionPoint_element htm' hty' hy' hpl'
    rw [LView.native?_injective h.natives hy hy']

end BlockPlaces

/-- Detaching a node keeps a run of a list that does not hold it, and the head after the run. -/
theorem exists_detached_around {kids : NodeId → List NodeId} (par : Option NodeId) {x P : NodeId}
    {A G B : List NodeId} (hk : kids P = A ++ G ++ B) (hG : x ∉ G) (hB : B.head? ≠ some x) :
    ∃ A' B', (if par = some P then (kids P).erase x else kids P) = A' ++ G ++ B' ∧
      B'.head? = B.head? := by
  split
  · rw [hk]
    exact exists_erase_around hG hB
  · exact ⟨A, B, hk, rfl⟩

/-- The state of the second loop of `i18nEnd` once the nodes `done` are in place, against the
context `c₁` it started from: only the document has changed, and only in the parents of block
nodes; the nodes done under each parent stand side by side at the parent's place. -/
structure MoveInv (c₁ : Context) (t : TView) (v : LView) (bf : I18nFrame) (block : I18nBlock)
    (done : List I18nNode) (c : Context) : Prop where
  same : c = { c₁ with doc := c.doc }
  contains : ∀ y, c.doc.contains y = c₁.doc.contains y
  parents : ∀ y, (∀ n ∈ block.nodes, v.native? n.index ≠ some y) → c.doc.parent? y = c₁.doc.parent? y
  runs : ∃ kids, c.doc.LinkedBy kids ∧ ∀ p P ref, (p = bf.parent ∨ ∃ n ∈ block.nodes, n.parent = p) →
    RenderM.insertionPoint c₁.doc t v p 0 = .ok (P, ref) →
    ∃ A B, kids P = A ++ I18nNode.nativesUnder v p done ++ B ∧ B.head? = ref

namespace MoveInv

variable {c₁ c : Context} {t : TView} {v : LView} {bf : I18nFrame} {block : I18nBlock}
  {pre post : List I18nNode} {n : I18nNode}

/-- Before the loop, no node is done: the run of each parent is empty and stands right before
the parent's reference. -/
theorem start (hb : BlockPlaces c₁.doc t v bf block) {kids : NodeId → List NodeId}
    (hl : c₁.doc.LinkedBy kids) : MoveInv c₁ t v bf block [] c₁ := by
  refine ⟨rfl, fun _ => rfl, fun _ _ => rfl, kids, hl, fun p P ref hp hpl => ?_⟩
  obtain ⟨-, href, -⟩ := hb.place_facts hp hpl
  cases ref with
  | none => exact ⟨kids P, [], by simp [I18nNode.nativesUnder], rfl⟩
  | some x =>
    obtain ⟨A, B, hAB⟩ := List.append_of_mem ((hl.mem_iff x P).mpr (href x rfl))
    exact ⟨A, x :: B, by simp [hAB, I18nNode.nativesUnder], rfl⟩

/-- A node of the block without a document node is passed over. -/
theorem skip (h : MoveInv c₁ t v bf block pre c) (hx : v.native? n.index = none) :
    MoveInv c₁ t v bf block (pre ++ [n]) c := by
  obtain ⟨kids, hl, hruns⟩ := h.runs
  refine { h with runs := ⟨kids, hl, fun p P ref hp hpl => ?_⟩ }
  rw [I18nNode.nativesUnder_append_single, hx]
  simpa using hruns p P ref hp hpl

/-- Where a child of a parent of the block goes, read as the loop reads it: the place the
parent had when the loop started. -/
theorem place (hb : BlockPlaces c₁.doc t v bf block) (h : MoveInv c₁ t v bf block pre c)
    {p : Option Nat} (hp : p = bf.parent ∨ ∃ n ∈ block.nodes, n.parent = p) (i : Nat) :
    ∃ P ref, RenderM.insertionPoint c.doc t v p i = .ok (P, ref) ∧
      RenderM.insertionPoint c₁.doc t v p 0 = .ok (P, ref) := by
  rcases hb.parent_cases hp with rfl | ⟨m, -, rfl, ⟨tm, htm, hty⟩, y, hy⟩
  · obtain ⟨P, ref, hpl, -⟩ := hb.root
    -- the root's place reads the parent of a node outside the block, which the loop keeps
    have hkeep : ∀ g x, bf.parent = some g → v.native? g = some x →
        c.doc.parent? x = c₁.doc.parent? x := fun g x hg hx =>
      h.parents x fun m hm => hb.root_native_outside hg hx m.index
        (List.mem_append_left _ (List.mem_map_of_mem hm))
    refine ⟨P, ref, ?_, hpl⟩
    rw [RenderM.insertionPoint_congr_doc hkeep]
    exact RenderM.insertionPoint_index hpl _
  · exact ⟨y, none, RenderM.insertionPoint_element htm hty hy, RenderM.insertionPoint_element htm hty hy⟩

/-- Putting a node of the block at its parent's place appends it to the run of its parent and
leaves the runs of the other parents alone. -/
theorem step (hb : BlockPlaces c₁.doc t v bf block) (h : MoveInv c₁ t v bf block pre c)
    (hsplit : block.nodes = pre ++ n :: post) {x : NodeId} (hx : v.native? n.index = some x)
    {P : NodeId} {ref : Option NodeId}
    (hpl : RenderM.insertionPoint c.doc t v n.parent n.index = .ok (P, ref)) :
    MoveInv c₁ t v bf block (pre ++ [n]) { c with doc := c.doc.insertBefore P x ref } := by
  have hn : n ∈ block.nodes := hsplit ▸ List.mem_append_right _ List.mem_cons_self
  -- the node is none of the nodes done, so its node is not among theirs
  have hnpre : n ∉ pre := by
    intro hm
    have hslots := hb.slots
    rw [hsplit, List.map_append, List.map_cons] at hslots
    exact (List.nodup_append.mp hslots).2.2 _ (List.mem_map_of_mem hm) _ List.mem_cons_self rfl
  have hxdone : ∀ p, x ∉ I18nNode.nativesUnder v p pre := by
    intro p hmem
    obtain ⟨m, hm, -, hmx⟩ := I18nNode.mem_nativesUnder hmem
    exact hb.native_ne (hsplit ▸ List.mem_append_left _ hm) hn (fun he => hnpre (he ▸ hm)) hx hmx
  have hparent : n.parent = bf.parent ∨ ∃ m ∈ block.nodes, m.parent = n.parent := .inr ⟨n, hn, rfl⟩
  obtain ⟨P₀, ref₀, hpl₀, hpl₁⟩ := h.place hb hparent n.index
  rw [hpl] at hpl₀
  obtain ⟨rfl, rfl⟩ : P = P₀ ∧ ref = ref₀ := by simpa using hpl₀
  obtain ⟨hPc, -, hrefx⟩ := hb.place_facts hparent hpl₁
  -- the parent node is not the node itself
  have hPx : P ≠ x := by
    rcases hb.parents n hn with hr | ⟨m, hm, hmn, hpm, hty, hy⟩
    · rw [hr] at hpl₁
      intro he
      exact ((hb.root_place hpl₁).2.2 n.index (List.mem_append_left _ (List.mem_map_of_mem hn))).1
        (he ▸ hx)
    · obtain ⟨tm, htm, htmty⟩ := Option.map_eq_some_iff.mp hty
      obtain ⟨y, hy⟩ := Option.isSome_iff_exists.mp hy
      rw [hpm] at hpl₁
      obtain ⟨rfl, -⟩ := RenderM.eq_of_insertionPoint_element htm htmty hy hpl₁
      exact fun he => hb.native_ne hm hn hmn hx (he ▸ hy)
  obtain ⟨kids, hl, hruns⟩ := h.runs
  obtain ⟨A, B, hk, hB⟩ := hruns n.parent P ref hparent hpl₁
  have hrefx' : ref ≠ some x := fun he => hrefx n hn x he hx
  obtain ⟨A₁, B₁, hk₁, hB₁⟩ :=
    exists_detached_around (c.doc.parent? x) hk (hxdone _) (hB ▸ hrefx')
  have hcx : c.doc.contains x = true := by
    rw [h.contains]
    exact hb.contains x (LView.mem_natives hx)
  have hcP : c.doc.contains P = true := by
    rw [h.contains]
    exact hPc
  have hl' := hl.insertBefore_at hcP hcx hPx hk₁ (hB₁.trans hB).symm hrefx'
  refine ⟨by rw [h.same], fun y => ?_, fun y hy => ?_, _, hl', fun p P' ref' hp hpl' => ?_⟩
  · rw [Document.contains_insertBefore]
    exact h.contains y
  · have hyx : y ≠ x := fun he => hy n hn (he ▸ hx)
    rw [Document.parent?_insertBefore_of_ne _ hyx]
    exact h.parents y hy
  · rw [I18nNode.nativesUnder_append_single]
    by_cases hpq : n.parent = p
    · -- the node's own parent: its run grows by the node
      subst hpq
      rw [hpl₁] at hpl'
      obtain ⟨rfl, rfl⟩ : P = P' ∧ ref = ref' := by simpa using hpl'
      refine ⟨A₁, B₁, ?_, hB₁.trans hB⟩
      rw [Function.update_self, if_pos rfl, hx]
      simp
    · -- another parent: its place is another node, whose run loses nothing
      have hPP : P' ≠ P := fun he => hpq (hb.place_inj hparent hp hpl₁ (he ▸ hpl'))
      obtain ⟨A', B', hk', hB'⟩ := hruns p P' ref' hp hpl'
      have hrefx'' : ref' ≠ some x := fun he => (hb.place_facts hp hpl').2.2 n hn x he hx
      obtain ⟨A₂, B₂, hk₂, hB₂⟩ :=
        exists_detached_around (c.doc.parent? x) hk' (hxdone p) (hB' ▸ hrefx'')
      refine ⟨A₂, B₂, ?_, hB₂.trans hB'⟩
      rw [Function.update_of_ne hPP, if_neg hpq, List.append_nil]
      exact hk₂

end MoveInv

/-- The state of the first loop of `i18nEnd` once the elements `done` are handled, against the
context `c₀` it started from: only the document has changed, by detaching the nodes of the
elements done that the template marks detached. -/
structure DetachInv (c₀ : Context) (t : TView) (v : LView) (done : List Nat) (c : Context) : Prop where
  same : c = { c₀ with doc := c.doc }
  linked : ∃ kids, c.doc.LinkedBy kids
  contains : ∀ y, c.doc.contains y = c₀.doc.contains y
  parents : ∀ y, (∀ e ∈ done, v.native? e ≠ some y) → c.doc.parent? y = c₀.doc.parent? y
  detached : ∀ e ∈ done, ((t.tnode? e).map (·.has .detached)).getD false = true →
    ∀ x, v.native? e = some x → c.doc.parent? x = none

namespace DetachInv

variable {c₀ c : Context} {t : TView} {v : LView} {done : List Nat} {e : Nat}

theorem start (h : ∃ kids, c₀.doc.LinkedBy kids) : DetachInv c₀ t v [] c₀ :=
  ⟨rfl, h, fun _ => rfl, fun _ _ => rfl, nofun⟩

/-- Detaching the node of the next element. -/
theorem detach (h : DetachInv c₀ t v done c) {x : NodeId} (hx : v.native? e = some x) :
    DetachInv c₀ t v (done ++ [e]) { c with doc := c.doc.detach x } := by
  obtain ⟨kids, hl⟩ := h.linked
  refine ⟨by rw [h.same], ⟨_, hl.detach x⟩, fun y => ?_, fun y hy => ?_, fun e' he' hm x' hx' => ?_⟩
  · rw [Document.contains_detach]
    exact h.contains y
  · have hxy : x ≠ y := fun he => hy e (List.mem_append_right _ List.mem_cons_self) (he ▸ hx)
    rw [Document.parent?_detach, if_neg hxy]
    exact h.parents y fun e' he' => hy e' (List.mem_append_left _ he')
  · rw [Document.parent?_detach]
    split
    · rfl
    · next hxx' =>
      rcases List.mem_append.mp he' with he' | he'
      · exact h.detached e' he' hm x' hx'
      · rw [List.mem_singleton.mp he', hx] at hx'
        exact absurd (Option.some.inj hx') hxx'

/-- Passing over the next element, which is not marked or has no node. -/
theorem skip (h : DetachInv c₀ t v done c)
    (hskip : ((t.tnode? e).map (·.has .detached)).getD false = true → v.native? e = none) :
    DetachInv c₀ t v (done ++ [e]) c := by
  refine { h with parents := fun y hy => h.parents y fun e' he' => hy e' (List.mem_append_left _ he'),
                  detached := fun e' he' hm x hx => ?_ }
  rcases List.mem_append.mp he' with he' | he'
  · exact h.detached e' he' hm x hx
  · rw [List.mem_singleton.mp he'] at hm hx
    rw [hskip hm] at hx
    cases hx

end DetachInv

namespace BlockPlaces

variable {d d' : Document} {t t' : TView} {v : LView} {bf : I18nFrame} {block : I18nBlock}

/-- The facts carry over to a template with the same kinds of nodes and a document with the same
nodes, where only nodes of elements opened in the block changed their parents. -/
theorem transfer (h : BlockPlaces d t v bf block)
    (ht : ∀ k, (t'.tnode? k).map TNode.type = (t.tnode? k).map TNode.type)
    (hc : ∀ y, d'.contains y = d.contains y)
    (hp : ∀ y, (∀ e ∈ bf.elements, v.native? e ≠ some y) → d'.parent? y = d.parent? y) :
    BlockPlaces d' t' v bf block := by
  obtain ⟨P, ref, hpl, hPc, href, hout⟩ := h.root
  -- the root's place reads nodes outside the elements opened in the block
  have hkeep : ∀ g x, bf.parent = some g → v.native? g = some x → d'.parent? x = d.parent? x :=
    fun g x hg hx => hp x fun e he => h.root_native_outside hg hx e (List.mem_append_right _ he)
  refine ⟨h.natives, fun x hx => (hc x).trans (h.contains x hx), h.slots, fun n hn => ?_,
    P, ref, ?_, (hc P).trans hPc, fun x hx => ?_, hout⟩
  · rcases h.parents n hn with hr | ⟨m, hm, hmn, hpm, hty, hy⟩
    · exact .inl hr
    · exact .inr ⟨m, hm, hmn, hpm, (ht m.index).trans hty, hy⟩
  · rw [RenderM.insertionPoint_congr_tview ht, RenderM.insertionPoint_congr_doc hkeep]
    exact hpl
  · rw [hp x fun e he => (hout e (List.mem_append_right _ he)).2 x hx]
    exact href x hx

end BlockPlaces

section I18nEnd

open RenderM

variable {c : Context} {f : Frame} {rest : List Frame} {bf : I18nFrame} {t : TView} {v : LView}
  {block : I18nBlock}

/-- The first loop of `i18nEnd` detaches the node of every element of the list that the template
marks detached, and changes nothing else. -/
theorem detachLoop_ok (elements : List Nat) (hlinked : ∃ kids, c.doc.LinkedBy kids) :
    Ok (forIn elements PUnit.unit fun e _ => do
      if ((t.tnode? e).map (·.has .detached)).getD false then
        if let some native := v.native? e then modifyDoc (·.detach native)
      pure (ForInStep.yield PUnit.unit)) c fun _ c' => DetachInv c t v elements c' := by
  refine Ok.forIn_inv (DetachInv c t v) (fun pre e post _ cm hinv => ?_) (DetachInv.start hlinked)
  split
  · next hm =>
    cases hx : v.native? e with
    | none => exact Ok.pure ⟨rfl, hinv.skip fun _ => hx⟩
    | some x =>
      refine Ok.bind ((modifyDoc_ok _).mono ?_)
      rintro _ _ rfl
      exact Ok.pure ⟨rfl, hinv.detach hx⟩
  · next hm => exact Ok.pure ⟨rfl, hinv.skip fun hm' => absurd hm' hm⟩

/-- The second loop of `i18nEnd` puts every node of the block at its parent's place, in message
order, when no node of the block is claimed. -/
theorem moveLoop_ok (hb : BlockPlaces c.doc t v bf block) {kids : NodeId → List NodeId}
    (hl : c.doc.LinkedBy kids)
    (hfree : ∀ n ∈ block.nodes, ∀ x, v.native? n.index = some x → c.claims.isClaimed x = false) :
    Ok (forIn block.nodes PUnit.unit fun node _ => do
      if let some native := v.native? node.index then
        if !(← get).claims.isClaimed native then
          let (parent, before) ← ofStructural (insertionPoint (← get).doc t v node.parent node.index)
          modifyDoc (·.insertBefore parent native before)
      pure (ForInStep.yield PUnit.unit)) c fun _ c' => MoveInv c t v bf block block.nodes c' := by
  refine Ok.forIn_inv (MoveInv c t v bf block) (fun pre n post hsplit cm hinv => ?_)
    (MoveInv.start hb hl)
  have hn : n ∈ block.nodes := hsplit ▸ List.mem_append_right _ List.mem_cons_self
  cases hx : v.native? n.index with
  | none => exact Ok.pure ⟨rfl, hinv.skip hx⟩
  | some x =>
    -- the loop leaves the claims alone, so the node is still free
    have hfree' : cm.claims.isClaimed x = false := by
      rw [hinv.same]
      exact hfree n hn x hx
    refine Ok.bind (Ok.get ?_)
    rw [hfree', Bool.not_false, if_pos rfl]
    refine Ok.bind (Ok.get ?_)
    obtain ⟨P, ref, hpl, -⟩ := hinv.place hb (.inr ⟨n, hn, rfl⟩) n.index
    refine Ok.bind ((ofStructural_ok hpl).mono ?_)
    rintro _ _ ⟨rfl, rfl⟩
    refine Ok.bind ((modifyDoc_ok _).mono ?_)
    rintro _ _ rfl
    exact Ok.pure ⟨rfl, hinv.step hb hsplit hx hpl⟩

/-- On the template's first pass `i18nEnd` stores the template with the elements the message
leaves out marked detached; only the registry changes, and the view stays as it was. -/
theorem markUnmentioned_ok {tv : TViewId} {lv : LViewId} {elements : List Nat}
    (ht : c.registry.tview tv = .ok t) (htid : t.id = tv) (hv : c.registry.lview lv = .ok v) :
    Ok (if t.firstCreatePass = true then setTView (t.markUnmentioned block elements) else pure ⟨⟩) c
      fun _ c' => c' = { c with registry := c'.registry } ∧
        c'.registry.tview tv = .ok (if t.firstCreatePass then t.markUnmentioned block elements else t) ∧
        c'.registry.lview lv = .ok v := by
  have hid : (t.markUnmentioned block elements).id = tv :=
    (TView.id_markUnmentioned t block elements).trans htid
  refine Ok.ite (fun h => Ok.modify ⟨rfl, ?_, ?_⟩) (fun h => Ok.pure ⟨rfl, ?_, hv⟩)
  · rw [if_pos h, ← hid]
    exact Registry.tview_setTView_self (by rw [hid]; exact ht)
  · rw [Registry.lview_setTView]
    exact hv
  · rw [if_neg h]
    exact ht

/-- What `i18nEnd` leaves when the block's places are as `BlockPlaces` says and no node of the
block is claimed. Under each parent of the block, the block's nodes stand side by side at the
parent's place, in message order. Every element opened in the block that the message leaves out
is off the document: on the first pass, and on every later pass that reads the template the first
pass marked. The view's template holds those marks. -/
theorem i18nEnd_lays_out_block (hfr : c.frames = f :: rest) (hbf : f.i18n = some bf)
    (ht : c.registry.tview f.tview = .ok t) (htid : t.id = f.tview)
    (hv : c.registry.lview f.lview = .ok v) (hvt : v.tview = f.tview)
    (hblock : t.data[bf.index]? = some (.i18n block)) (hlinked : ∃ kids, c.doc.LinkedBy kids)
    (hfree : ∀ n ∈ block.nodes, ∀ x, v.native? n.index = some x → c.claims.isClaimed x = false)
    (hplaces : BlockPlaces c.doc t v bf block) :
    Ok i18nEnd c fun _ c' =>
      (∀ p, (p = bf.parent ∨ ∃ n ∈ block.nodes, n.parent = p) →
        LaidAt c'.doc t v p (I18nNode.nativesUnder v p block.nodes)) ∧
      (∀ e ∈ bf.elements, e ∉ block.nodes.map (·.index) → (t.tnode? e).isSome →
        (t.firstCreatePass = true ∨ (t.tnode? e).map (·.has .detached) = some true) →
        ∀ x, v.native? e = some x → c'.doc.parent? x = none) ∧
      c'.registry.tview f.tview =
        .ok (if t.firstCreatePass then t.markUnmentioned block bf.elements else t) := by
  -- the template both loops read: marked on the first pass, as it was on later ones
  set t' := if t.firstCreatePass then t.markUnmentioned block bf.elements else t with ht'
  have htype : ∀ k, (t'.tnode? k).map TNode.type = (t.tnode? k).map TNode.type := by
    intro k
    rw [ht']
    split
    · exact TView.type_markUnmentioned t block bf.elements k
    · rfl
  unfold i18nEnd
  refine Ok.bind ((active_ok hfr).mono ?_)
  rintro _ _ ⟨rfl, rfl⟩
  refine Ok.bind ((frame_ok hfr).mono ?_)
  rintro _ _ ⟨rfl, rfl⟩
  simp only [hbf]
  refine Ok.bind ((modifyFrame_ok hfr _).mono ?_)
  rintro _ c₁ hc₁
  have ht₁ : c₁.registry.tview f.tview = .ok t := by rw [hc₁]; exact ht
  refine Ok.bind ((tview_ok ht₁).mono ?_)
  rintro _ _ ⟨rfl, rfl⟩
  simp only [blockAt, hblock]
  refine Ok.bind (Ok.pure ?_)
  rw [RenderM.ite_bind_unit]
  -- the first pass stores the marked template; nothing else changes before the loops
  refine Ok.bind ((markUnmentioned_ok ht₁ htid (by rw [hc₁]; exact hv)).mono ?_)
  rintro _ c₂ ⟨hc₂, hRt, hRv⟩
  rw [← ht'] at hRt
  refine Ok.bind ((viewPair_ok (Registry.viewPair_eq_ok.mpr ⟨hRv, hvt ▸ hRt⟩)).mono ?_)
  rintro _ _ ⟨rfl, rfl⟩
  dsimp only
  have hdoc₂ : c₂.doc = c.doc := by rw [hc₂, hc₁]
  have hclaims₂ : c₂.claims = c.claims := by rw [hc₂, hc₁]
  -- the first loop takes the marked elements off the document
  refine Ok.bind ((detachLoop_ok bf.elements (hdoc₂ ▸ hlinked)).mono ?_)
  rintro _ c₃ hinv₃
  -- the places the second loop reads are those the block had before the first loop
  have hb₃ : BlockPlaces c₃.doc t' v bf block :=
    hplaces.transfer htype (fun y => (hinv₃.contains y).trans (by rw [hdoc₂]))
      (fun y hy => (hinv₃.parents y hy).trans (by rw [hdoc₂]))
  have hclaims₃ : c₃.claims = c.claims := by rw [hinv₃.same]; exact hclaims₂
  obtain ⟨kids₃, hl₃⟩ := hinv₃.linked
  -- the second loop puts each node of the block at its parent's place
  refine Ok.bind ((moveLoop_ok hb₃ hl₃ fun n hn x hx => hclaims₃ ▸ hfree n hn x hx).mono ?_)
  rintro _ c₄ hinv₄
  refine Ok.pure ⟨fun p hp => ?_, fun e he hm hn hcase x hx => ?_, ?_⟩
  · -- each parent's run, read at the place it had before the loop
    obtain ⟨P, ref, hpl₄, hpl₃⟩ := hinv₄.place hb₃ hp 0
    obtain ⟨kids, hl, hruns⟩ := hinv₄.runs
    obtain ⟨A, B, hk, hB⟩ := hruns p P ref hp hpl₃
    refine ⟨P, ref, (insertionPoint_congr_tview htype).symm.trans hpl₄, A, B, ?_, hB⟩
    rw [hl.children_eq]
    exact hk
  · -- the element is marked in the template the first loop read, and the second leaves it be
    have hmarked : ((t'.tnode? e).map (·.has .detached)).getD false = true := by
      rw [ht']
      split
      · exact TView.detached_markUnmentioned he hm hn
      · next hfirst =>
        rcases hcase with h | h
        · exact absurd h hfirst
        · rw [h]
          rfl
    rw [hinv₄.parents x (hb₃.native_ne_of_not_mem hm hx)]
    exact hinv₃.detached e he hmarked x hx
  · have hreg : c₄.registry = c₂.registry := by rw [hinv₄.same, hinv₃.same]
    rw [hreg]
    exact hRt

/-! The block of the message `Y�#2�X�/#2�` in a `<div>` (slot 0), as the pass leaves it just
before `i18nEnd`: slot 1 holds the block, element 2 is opened inside it, and the texts `Y` and `X`
are in slots 3 and 4, not yet placed. Element 2 is a `<b>` or an `<ng-container>`. -/

def divMessageBlock : I18nBlock where
  nodes := [⟨.text, 3, some 0⟩, ⟨.element, 2, some 0⟩, ⟨.text, 4, some 2⟩]

def divMessageTView (ty : TNodeType) : TView where
  id := ⟨0⟩
  kind := .root
  ssrId := none
  data := #[.node { type := .element, index := 0, parent := none, child := some 2 },
    .i18n divMessageBlock, .node { type := ty, index := 2, parent := some 0 },
    .node { type := .text, index := 3, parent := some 0 },
    .node { type := .text, index := 4, parent := some 2 }]
  consts := []
  decls := 3
  vars := 0
  program := {}

def divMessageView : LView where
  tview := ⟨0⟩
  host := some ⟨0⟩
  data := #[.node ⟨1⟩, .empty, .node ⟨4⟩, .node ⟨2⟩, .node ⟨3⟩]

def divMessageFrame : I18nFrame where
  index := 1
  parent := some 0
  elements := [2]

def divMessageTop : Frame :=
  { lview := ⟨0⟩, tview := ⟨0⟩, current := some 2, bindingIndex := 3, elementDepth := 1,
    i18n := some divMessageFrame }

/-- The context before `i18nEnd`: the host `app` (node 0) holds the `<div>` (node 1), which holds
element 2's node (node 4, made by `node`); `Y` and `X` are nodes 2 and 3. -/
def divMessage (ty : TNodeType) (node : DomEdit) : Context where
  doc := DomEdit.run [.createElement "app", .createElement "div", .createText "Y", .createText "X",
    node, .appendChild ⟨0⟩ ⟨1⟩, .appendChild ⟨1⟩ ⟨4⟩]
  config := {}
  registry := { tviews := #[divMessageTView ty], lviews := #[some divMessageView] }
  frames := [divMessageTop]

/-- With a `<b>` as element 2 the block's places are as `BlockPlaces` says, and `i18nEnd` lays `Y`
and then the `<b>` at the end of the `<div>`. -/
theorem elementMessage_laid_in_order :
    BlockPlaces (divMessage .element (.createElement "b")).doc (divMessageTView .element)
        divMessageView divMessageFrame divMessageBlock ∧
      Ok i18nEnd (divMessage .element (.createElement "b")) fun _ c' =>
        LaidAt c'.doc (divMessageTView .element) divMessageView (some 0) [⟨2⟩, ⟨4⟩] := by
  have hplaces : BlockPlaces (divMessage .element (.createElement "b")).doc
      (divMessageTView .element) divMessageView divMessageFrame divMessageBlock := by
    refine ⟨by decide, by decide, by decide, by decide, ⟨1⟩, none, rfl, by decide, nofun, ?_⟩
    intro i hi
    refine ⟨?_, nofun⟩
    revert i
    decide
  refine ⟨hplaces, (i18nEnd_lays_out_block rfl rfl rfl rfl rfl rfl rfl
    ⟨_, (DomEdit.childLists_linked_after_edits _).1⟩ (fun _ _ _ _ => rfl) hplaces).mono ?_⟩
  rintro _ c' ⟨hlaid, -, -⟩
  exact hlaid (some 0) (.inl rfl)

/-- With an `<ng-container>` as element 2, `i18nEnd` puts `X` before the container's comment,
which is the root's node after `Y`: the `<div>` holds `Y`, `X` and the comment, so the root's
nodes `Y` and the comment do not stand side by side at the root's place. -/
theorem containerMessage_splits_root :
    Ok i18nEnd (divMessage .elementContainer (.createComment "ng-container")) fun _ c' =>
      c'.doc.children ⟨1⟩ = [⟨2⟩, ⟨3⟩, ⟨4⟩] ∧
        ¬ LaidAt c'.doc (divMessageTView .elementContainer) divMessageView (some 0) [⟨2⟩, ⟨4⟩] := by
  refine @Ok.of_fst _ _ _ _ () (by decide +kernel) ⟨by decide +kernel, fun hlaid => ?_⟩
  -- the root is the `<div>`, whose place is the end of its children
  have hsuffix := hlaid.suffix
    (show RenderM.insertionPoint _ _ _ _ 0 = .ok (⟨1⟩, none) by decide +kernel)
  revert hsuffix
  decide +kernel

end I18nEnd

end ViewHydration
