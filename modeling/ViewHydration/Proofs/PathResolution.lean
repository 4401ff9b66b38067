import ViewHydration.Proofs.PathGrammar
import ViewHydration.Proofs.DocumentForest
import ViewHydration.Hydration.Serialize

/-!
# Recorded paths lead back to their nodes

A hydration record names a node by a path from its closest ancestor that can serve as an
anchor: the view's host, or an element of the view outside translated blocks and skip-hydration
subtrees. The path is found by climbing parent links from the node up to that ancestor and
turning each level into a first-child step and as many next-sibling steps as the node's position
among its parent's children (`NodePath.between`); it is followed by walking those links down
again (`NodePath.walk`). In a document whose child lists are linked and whose parent links form
a forest the two agree, and the printed path reads back as itself, so resolving the recorded
text finds the node.

## Main definitions

- `Document.Climbs` — a list of nodes that climbs parent links up to a given node
- `Document.Descends` — a list of nodes that leads down from a node, each a child of the one
  before

## Main results

- `Document.ancestorChain_of_ancestor` — in a forest, the climb from a node to one of its
  ancestors ends within the arena's size
- `NodePath.walk_between` — the path between an ancestor and a node walks to the node
- `Serializer.recorded_paths_resolve` — every node below the host or an anchor element gets a
  recorded path, and resolving its text gives the node back
-/

namespace ViewHydration

namespace Document

variable {d : Document}

/-- `chain` climbs through parent links to `top`: each node's parent is the next one, and the
last is `top`. -/
def Climbs (d : Document) (top : NodeId) : List NodeId → Prop
  | [] => False
  | [x] => x = top
  | x :: y :: rest => d.parent? x = some y ∧ d.Climbs top (y :: rest)

/-- `l` leads down from `top`: its first node is a child of `top`, and each later node a child of
the one before it. -/
def Descends (d : Document) : NodeId → List NodeId → Prop
  | _, [] => True
  | top, c :: rest => d.parent? c = some top ∧ d.Descends c rest

/-- `a` is `x` or one of its ancestors. -/
abbrev AncestorOrSelf (d : Document) (a x : NodeId) : Prop :=
  Relation.ReflTransGen (ParentLinks.IsParent d.parent?) a x

/-! ### Climbing -/

/-- Every node of a climb is its first node or one of its ancestors. -/
theorem Climbs.ancestorOrSelf_of_mem {top x : NodeId} {rest : List NodeId}
    (h : d.Climbs top (x :: rest)) {y : NodeId} (hy : y ∈ x :: rest) : d.AncestorOrSelf y x := by
  induction rest generalizing x with
  | nil =>
    rw [List.mem_singleton] at hy
    subst hy
    exact .refl
  | cons z rest ih =>
    obtain ⟨hxz, hz⟩ := h
    rcases List.mem_cons.mp hy with rfl | hy
    · exact .refl
    · exact (ih hz hy).tail hxz

theorem Climbs.top_mem {top : NodeId} {chain : List NodeId} (h : d.Climbs top chain) :
    top ∈ chain := by
  induction chain with
  | nil => exact h.elim
  | cons x rest ih =>
    cases rest with
    | nil =>
      rw [show x = top from h]
      exact List.mem_singleton_self _
    | cons y rest => exact List.mem_cons_of_mem x (ih h.2)

/-- Every node of a climb but the last has a parent, so it is a node of the document. -/
theorem Climbs.contains_of_mem_dropLast {top : NodeId} {chain : List NodeId}
    (h : d.Climbs top chain) {z : NodeId} (hz : z ∈ chain.dropLast) : d.contains z = true := by
  induction chain with
  | nil => exact h.elim
  | cons x rest ih =>
    cases rest with
    | nil => cases hz
    | cons y rest =>
      obtain ⟨hxy, hrest⟩ := h
      rw [List.dropLast_cons_cons] at hz
      rcases List.mem_cons.mp hz with rfl | hz
      · exact contains_of_parent? hxy
      · exact ih hrest hz

/-- A climb that visits no node twice is at most one longer than the arena. -/
theorem Climbs.length_le {top : NodeId} {chain : List NodeId} (h : d.Climbs top chain)
    (hnd : chain.Nodup) : chain.length ≤ d.size + 1 := by
  have hsub : (chain.dropLast.map NodeId.idx) ⊆ List.range d.size := fun i hi => by
    obtain ⟨z, hz, rfl⟩ := List.mem_map.mp hi
    have := h.contains_of_mem_dropLast hz
    simp only [contains, decide_eq_true_eq] at this
    simpa [size] using this
  have hinj : Function.Injective NodeId.idx := fun a b hab => by cases a; cases b; simp_all
  have hdrop : (chain.dropLast.map NodeId.idx).Nodup :=
    (hnd.sublist (List.dropLast_sublist chain)).map hinj
  have := hdrop.length_le_of_subset hsub
  simp only [List.length_map, List.length_dropLast, List.length_range] at this
  omega

/-- In a forest, a node and any of its ancestors are joined by a climb that visits no node
twice. -/
theorem exists_climbs (hd : d.Acyclic) {top x : NodeId} (h : d.AncestorOrSelf top x) :
    ∃ rest, d.Climbs top (x :: rest) ∧ (x :: rest).Nodup := by
  induction h with
  | refl => exact ⟨[], rfl, List.nodup_singleton _⟩
  | @tail b c _ hbc ih =>
    obtain ⟨rest, hclimb, hnd⟩ := ih
    refine ⟨b :: rest, ⟨hbc, hclimb⟩, List.nodup_cons.mpr ⟨fun hc => ?_, hnd⟩⟩
    -- `c` on the climb from its own parent would be its own ancestor
    exact hd c (Relation.TransGen.tail' (hclimb.ancestorOrSelf_of_mem hc) hbc)

/-- The climb `NodePath.ancestorChain` computes is the climb from the node to the top, when
the fuel covers it. -/
theorem ancestorChain_of_climbs {top x : NodeId} {rest : List NodeId} (h : d.Climbs top (x :: rest))
    (hnd : (x :: rest).Nodup) {fuel : Nat} (hfuel : (x :: rest).length ≤ fuel) :
    NodePath.ancestorChain d top fuel x = some (x :: rest) := by
  induction rest generalizing x fuel with
  | nil =>
    obtain rfl : x = top := h
    obtain ⟨f, rfl⟩ : ∃ f, fuel = f + 1 := ⟨fuel - 1, by simp at hfuel; omega⟩
    simp [NodePath.ancestorChain]
  | cons y rest ih =>
    obtain ⟨hxy, hrest⟩ := h
    obtain ⟨f, rfl⟩ : ∃ f, fuel = f + 1 := ⟨fuel - 1, by simp at hfuel; omega⟩
    -- the top lies further up the climb, so the climb does not stop at `x`
    have hxtop : x ≠ top := fun hx =>
      (List.nodup_cons.mp hnd).1 (hx ▸ hrest.top_mem)
    rw [NodePath.ancestorChain, if_neg (by simpa using hxtop), hxy]
    dsimp only
    rw [ih hrest (List.nodup_cons.mp hnd).2 (by simp at hfuel ⊢; omega)]
    rfl

/-- In a forest, climbing from a node to one of its ancestors reaches it within the arena's
size. -/
theorem ancestorChain_of_ancestor (hd : d.Acyclic) {top x : NodeId} (h : d.AncestorOrSelf top x) :
    ∃ rest, NodePath.ancestorChain d top (d.size + 1) x = some (x :: rest) ∧
      d.Climbs top (x :: rest) := by
  obtain ⟨rest, hclimb, hnd⟩ := exists_climbs hd h
  exact ⟨rest, ancestorChain_of_climbs hclimb hnd (hclimb.length_le hnd), hclimb⟩

/-! ### Descending -/

theorem descends_append_singleton {top x : NodeId} {l : List NodeId} :
    d.Descends top (l ++ [x]) ↔ d.Descends top l ∧ d.parent? x = some (l.getLastD top) := by
  induction l generalizing top with
  | nil => simp [Descends]
  | cons c rest ih =>
    rw [List.cons_append, Descends, Descends, ih, and_assoc]
    cases rest <;> rfl

/-- Read from the top, a climb leads down to its first node. -/
theorem Climbs.reverse {top x : NodeId} {rest : List NodeId} (h : d.Climbs top (x :: rest)) :
    ∃ l, (x :: rest).reverse = top :: l ∧ d.Descends top l ∧ l.getLastD top = x := by
  induction rest generalizing x with
  | nil =>
    obtain rfl : x = top := h
    exact ⟨[], rfl, trivial, rfl⟩
  | cons y rest ih =>
    obtain ⟨hxy, hrest⟩ := h
    obtain ⟨l, hrev, hdesc, hlast⟩ := ih hrest
    refine ⟨l ++ [x], ?_, descends_append_singleton.mpr ⟨hdesc, hlast ▸ hxy⟩, by simp⟩
    rw [List.reverse_cons, hrev, List.cons_append]

end Document

section Neighbours

variable {α : Type} [DecidableEq α]

/-- In a list without repeats, the element after the one at `j` is the one at `j + 1`. -/
theorem nextIn_getElem {l : List α} (hl : l.Nodup) {j : Nat} (hj : j + 1 < l.length) :
    nextIn l l[j] = some l[j + 1] := by
  induction l generalizing j with
  | nil => simp at hj
  | cons a rest ih =>
    cases j with
    | zero =>
      cases rest with
      | nil => simp at hj
      | cons b rest => simp [nextIn_cons]
    | succ j =>
      have hj' : j < rest.length := by simp at hj; omega
      have hne : a ≠ rest[j] := fun h => (List.nodup_cons.mp hl).1 (h ▸ List.getElem_mem _)
      rw [List.getElem_cons_succ, nextIn_cons, if_neg hne, ih (List.nodup_cons.mp hl).2]
      rfl

end Neighbours

namespace NodePath

variable {d : Document} {kids : NodeId → List NodeId}

/-- A step that succeeds leads to one node, whatever steps come after it. -/
theorem walkFrom_cons_of_ok (p : NodePath) {k : Nat} {node mid : NodeId} {st : PathStep}
    {rest : List PathStep} (h : walkFrom d p k node (st :: rest) = .ok mid) :
    ∃ n, (∀ tail, walkFrom d p k node (st :: tail) = walkFrom d p (k + 1) n tail) ∧
      walkFrom d p (k + 1) n rest = .ok mid := by
  cases st with
  | firstChild =>
    cases hn : d.firstChild? node with
    | none => simp [walkFrom, hn] at h
    | some n =>
      simp only [walkFrom, hn] at h ⊢
      exact ⟨n, fun _ => rfl, h⟩
  | nextSibling =>
    cases hn : d.nextSibling? node with
    | none => simp [walkFrom, hn] at h
    | some n =>
      simp only [walkFrom, hn] at h ⊢
      exact ⟨n, fun _ => rfl, h⟩

/-- Walking two step lists one after the other walks the second from where the first ended. -/
theorem walkFrom_append (p : NodePath) {k : Nat} {node mid : NodeId} {s₁ : List PathStep}
    (h : walkFrom d p k node s₁ = .ok mid) (s₂ : List PathStep) :
    walkFrom d p k node (s₁ ++ s₂) = walkFrom d p (k + s₁.length) mid s₂ := by
  induction s₁ generalizing k node with
  | nil =>
    cases h
    rfl
  | cons st rest ih =>
    obtain ⟨n, hstep, hrest⟩ := walkFrom_cons_of_ok p h
    rw [List.cons_append, hstep, ih hrest, List.length_cons, Nat.add_assoc, Nat.add_comm 1]

/-- Along a parent's children, `m` next-sibling steps move `m` places. -/
theorem walkFrom_nextSiblings (hl : d.LinkedBy kids) (p : NodePath) (q : NodeId) {j : Nat} (m : Nat)
    (hjm : j + m < (kids q).length) (k : Nat) :
    walkFrom d p k (kids q)[j] (List.replicate m .nextSibling) = .ok (kids q)[j + m] := by
  induction m generalizing j k with
  | zero => rfl
  | succ m ih =>
    -- the next sibling of a child is the following one in its parent's list
    have hpar : d.parent? (kids q)[j] = some q := (hl.mem_iff _ q).mp (List.getElem_mem _)
    have hnext : d.nextSibling? (kids q)[j] = some (kids q)[j + 1] := by
      rw [hl.nextSibling, Document.siblingsIn_of_parent? hpar]
      exact nextIn_getElem (hl.nodup q) (by omega)
    rw [List.replicate_succ]
    simp only [walkFrom, hnext]
    rw [ih (by omega)]
    simp only [Nat.add_right_comm j 1 m, Nat.add_assoc]

/-- From its parent, a node is reached by a first-child step and as many next-sibling steps as
its position among the parent's children. -/
theorem walkFrom_child (hl : d.LinkedBy kids) (p : NodePath) {q c : NodeId}
    (hc : d.parent? c = some q) (k : Nat) :
    ∃ i, d.childPosition? c = some i ∧
      walkFrom d p k q (.firstChild :: List.replicate i .nextSibling) = .ok c := by
  have hmem : c ∈ kids q := (hl.mem_iff c q).mpr hc
  obtain ⟨i, hi⟩ : ∃ i, (kids q).idxOf? c = some i :=
    Option.isSome_iff_exists.mp (List.isSome_idxOf?.mpr hmem)
  obtain ⟨hlt, hget, -⟩ := List.idxOf?_eq_some_iff.mp hi
  have hpos : d.childPosition? c = some i := by
    rw [Document.childPosition?, hc]
    dsimp only
    rw [hl.children_eq]
    exact hi
  have hfirst : d.firstChild? q = some (kids q)[0] := by
    rw [hl.firstChild, List.head?_eq_getElem?, List.getElem?_eq_getElem (by omega)]
  refine ⟨i, hpos, ?_⟩
  simp only [walkFrom, hfirst]
  rw [walkFrom_nextSiblings hl p q i (by omega), ← hget]
  simp

/-- The steps of a descent walk from its top to its last node. -/
theorem walk_chainSteps (hl : d.LinkedBy kids) {top : NodeId} {l : List NodeId}
    (hdesc : d.Descends top l) :
    ∃ steps, chainSteps d l = some steps ∧
      ∀ p k, walkFrom d p k top steps = .ok (l.getLastD top) := by
  induction l generalizing top with
  | nil => exact ⟨[], rfl, fun _ _ => rfl⟩
  | cons c rest ih =>
    obtain ⟨hc, hrest⟩ := hdesc
    obtain ⟨i, hpos, -⟩ := walkFrom_child hl ⟨.host, []⟩ hc 0
    obtain ⟨steps, hsteps, hwalk⟩ := ih hrest
    refine ⟨.firstChild :: List.replicate i .nextSibling ++ steps, ?_, fun p k => ?_⟩
    · simp [chainSteps, hpos, hsteps]
    · obtain ⟨i', hpos', hchild⟩ := walkFrom_child hl p hc k
      obtain rfl : i' = i := Option.some.inj (hpos'.symm.trans hpos)
      rw [walkFrom_append p hchild, List.getLastD_cons]
      exact hwalk p _

/-- In a linked forest, the path `between` computes from an ancestor of a node walks from the
ancestor to the node. -/
theorem walk_between (hl : d.LinkedBy kids) (hd : d.Acyclic) (anchor : PathAnchor) {top x : NodeId}
    (h : d.AncestorOrSelf top x) :
    ∃ q, between d anchor top x = some q ∧ q.anchor = anchor ∧ q.walk d top = .ok x := by
  obtain ⟨rest, hchain, hclimb⟩ := Document.ancestorChain_of_ancestor hd h
  obtain ⟨l, hrev, hdesc, hlast⟩ := hclimb.reverse
  obtain ⟨steps, hsteps, hwalk⟩ := walk_chainSteps hl hdesc
  have hdrop : (x :: rest).reverse.drop 1 = l := by rw [hrev]; rfl
  refine ⟨⟨anchor, steps⟩, ?_, rfl, ?_⟩
  · simp only [between, hchain, Option.bind_eq_bind, Option.bind_some, hdrop, hsteps]
    rfl
  · rw [walk, ← hlast]
    exact hwalk _ 1

end NodePath

namespace LView

/-- The node a path anchor stands for in a view: the view's host, or the node of the anchor's
slot. -/
def AnchorAt (v : LView) : PathAnchor → NodeId → Prop
  | .host, n => v.host = some n
  | .slot i, n => v.native? i = some n

/-- Only a slot inside the view's data holds a node. -/
theorem lt_size_of_native? {v : LView} {i : Nat} {n : NodeId} (h : v.native? i = some n) :
    i < v.data.size := by
  unfold native? slot at h
  cases hi : v.data[i]? with
  | none => rw [hi] at h; cases h
  | some s => exact (Array.getElem?_eq_some_iff.mp hi).1

end LView

/-- Resolving a text that reads as a path walks the path from the node its anchor stands for. -/
theorem findExistingNode_of_parse {d : Document} {v : LView} {path : String} {p : NodePath}
    {start : NodeId} (hp : NodePath.parse path = .ok p) (hstart : v.AnchorAt p.anchor start) :
    findExistingNode d v path = p.walk d start := by
  obtain ⟨anchor, steps⟩ := p
  cases anchor with
  | host =>
    have hhost : v.host = some start := hstart
    rw [findExistingNode, hp]
    simp only [bind, Except.bind, hhost]
    rfl
  | slot i =>
    have hslot : v.native? i = some start := hstart
    rw [findExistingNode, hp]
    simp only [bind, Except.bind, hslot]
    rfl

namespace Serializer

variable {d : Document} {kids : NodeId → List NodeId} {v : LView} {anchors : List (NodeId × Nat)}

/-- A node that can anchor a path in a view: the view's host, or a node of the anchor list. -/
def CanAnchor (v : LView) (anchors : List (NodeId × Nat)) (node : NodeId) : Prop :=
  v.host = some node ∨ ∃ i, (node, i) ∈ anchors

/-- Every entry of the anchor list pairs an element's node with its slot. -/
theorem native?_of_mem_anchorElements {t : TView} {node : NodeId} {i : Nat}
    (h : (node, i) ∈ anchorElements t v) : v.native? i = some node := by
  unfold anchorElements at h
  obtain ⟨n, -, hn⟩ := List.mem_filterMap.mp h
  split at hn
  · obtain ⟨native, hnat, heq⟩ := Option.map_eq_some_iff.mp hn
    cases heq
    exact hnat
  · cases hn

/-- A node that can anchor a path ends the search with the path from it. -/
theorem pathTo_go_of_canAnchor (hl : d.LinkedBy kids) (hd : d.Acyclic)
    (hanchors : ∀ node i, (node, i) ∈ anchors → v.native? i = some node) {target y : NodeId}
    (hcan : CanAnchor v anchors y) (hy : d.Ancestor y target) (fuel : Nat) :
    ∃ start p, pathTo.go d v anchors target (fuel + 1) (some y) = .ok p ∧
      v.AnchorAt p.anchor start ∧ p.walk d start = .ok target := by
  by_cases hh : v.host = some y
  · obtain ⟨q, hq, hqa, hwalk⟩ := NodePath.walk_between hl hd .host hy.to_reflTransGen
    refine ⟨y, q, ?_, by rw [hqa]; exact hh, hwalk⟩
    simp [pathTo.go, hh, hq]
  · -- not the host, so an entry of the anchor list; the search takes the last entry for it
    obtain ⟨i, hi⟩ : ∃ i, anchors.reverse.lookup y = some i := by
      obtain ⟨j, hj⟩ := hcan.resolve_left hh
      exact Option.isSome_iff_exists.mp
        (List.lookup_isSome_iff.mpr ⟨(y, j), List.mem_reverse.mpr hj, beq_self_eq_true y⟩)
    have hmem : (y, i) ∈ anchors := by
      obtain ⟨l₁, l₂, hsplit, -⟩ := List.lookup_eq_some_iff.mp hi
      exact List.mem_reverse.mp (by rw [hsplit]; simp)
    obtain ⟨q, hq, hqa, hwalk⟩ := NodePath.walk_between hl hd (.slot i) hy.to_reflTransGen
    refine ⟨y, q, ?_, by rw [hqa]; exact hanchors y i hmem, hwalk⟩
    simp [pathTo.go, hh, hi, hq]

/-- A node that cannot anchor a path passes the search on to its parent. -/
theorem pathTo_go_of_not_canAnchor {target y : NodeId} (hcan : ¬ CanAnchor v anchors y)
    (fuel : Nat) :
    pathTo.go d v anchors target (fuel + 1) (some y) = pathTo.go d v anchors target fuel (d.parent? y) := by
  have hh : v.host ≠ some y := fun h => hcan (.inl h)
  have hi : anchors.reverse.lookup y = none := by
    refine List.lookup_eq_none_iff.mpr fun e he => ?_
    have hne : y ≠ e.1 := fun hy => hcan (.inr ⟨e.2, by rw [hy]; exact List.mem_reverse.mp he⟩)
    simpa using hne
  simp [pathTo.go, hh, hi]

/-- Climbing from a proper ancestor of the target towards a node that can anchor a path, the
search stops at the first such node and answers the path from it. -/
theorem pathTo_go (hl : d.LinkedBy kids) (hd : d.Acyclic)
    (hanchors : ∀ node i, (node, i) ∈ anchors → v.native? i = some node)
    {target u y : NodeId} {rest : List NodeId} (hclimb : d.Climbs u (y :: rest))
    (hu : CanAnchor v anchors u) (hy : d.Ancestor y target) {fuel : Nat}
    (hfuel : (y :: rest).length ≤ fuel) :
    ∃ start p, pathTo.go d v anchors target fuel (some y) = .ok p ∧ v.AnchorAt p.anchor start ∧
      p.walk d start = .ok target := by
  obtain ⟨f, rfl⟩ : ∃ f, fuel = f + 1 := ⟨fuel - 1, by simp at hfuel; omega⟩
  induction rest generalizing y f with
  | nil =>
    obtain rfl : y = u := hclimb
    exact pathTo_go_of_canAnchor hl hd hanchors hu hy f
  | cons y' rest ih =>
    by_cases hcan : CanAnchor v anchors y
    · exact pathTo_go_of_canAnchor hl hd hanchors hcan hy f
    · -- the search climbs to the parent, which is still a proper ancestor of the target
      obtain ⟨hyy', hrest⟩ := hclimb
      obtain ⟨f', rfl⟩ : ∃ f', f = f' + 1 := ⟨f - 1, by simp at hfuel; omega⟩
      rw [pathTo_go_of_not_canAnchor hcan, hyy']
      exact ih hrest (Relation.TransGen.head hyy' hy) f' (by simp at hfuel ⊢; omega)

/-- Recorded paths lead back to their targets. Take a document whose child lists are linked and
whose parent links form a forest, a view whose slots are numbered by machine words, and the
view's anchor elements. Every node that has the view's host or an anchor element among its
proper ancestors gets a path from the closest of them, and resolving the printed path in the
view finds the node again. -/
theorem recorded_paths_resolve (hl : d.LinkedBy kids) (hd : d.Acyclic) (t : TView) (v : LView)
    (hslots : v.data.size ≤ Nat.pow 2 64) {target : NodeId}
    (hbelow : (∃ h, v.host = some h ∧ d.Ancestor h target) ∨
      ∃ a i, (a, i) ∈ anchorElements t v ∧ d.Ancestor a target) :
    ∃ p, pathTo d v (anchorElements t v) target = .ok p ∧
      findExistingNode d v p.render = .ok target := by
  have hanchors : ∀ node i, (node, i) ∈ anchorElements t v → v.native? i = some node :=
    fun _ _ h => native?_of_mem_anchorElements h
  obtain ⟨u, hu, hut⟩ : ∃ u, CanAnchor v (anchorElements t v) u ∧ d.Ancestor u target := by
    rcases hbelow with ⟨h, hh, hanc⟩ | ⟨a, i, hai, hanc⟩
    · exact ⟨h, .inl hh, hanc⟩
    · exact ⟨a, .inr ⟨i, hai⟩, hanc⟩
  -- the search starts at the target's parent and climbs towards `u`
  obtain ⟨y, hy, huy⟩ := ParentLinks.Ancestor.exists_parent hut
  obtain ⟨rest, hclimb, hnd⟩ := Document.exists_climbs hd huy
  obtain ⟨start, p, hgo, hstart, hwalk⟩ := pathTo_go hl hd hanchors hclimb hu
    (Relation.TransGen.single hy) (hclimb.length_le hnd)
  -- a slot anchor is a slot of the view, so its index prints and reads back
  have hfits : p.anchor.Fits := by
    cases ha : p.anchor with
    | host => trivial
    | slot i =>
      rw [ha] at hstart
      exact Nat.lt_of_lt_of_le (LView.lt_size_of_native? hstart) hslots
  refine ⟨p, ?_, ?_⟩
  · rw [pathTo, hy]
    exact hgo
  · rw [findExistingNode_of_parse (NodePath.parse_render hfits) hstart]
    exact hwalk

end Serializer

/-- The document `<app><div>a</div></app>`. -/
def pathDocument : Document :=
  DomEdit.run [.createElement "app", .createElement "div", .createText "a",
    .appendChild ⟨0⟩ ⟨1⟩, .appendChild ⟨1⟩ ⟨2⟩]

/-- A template whose one slot is an element. -/
def pathTView : TView :=
  { TView.ofDef ⟨0⟩ { decls := 1 } with
    data := #[.node { type := .element, index := 0, parent := none }] }

/-- A view hosted by `<app>` whose slot holds the `<div>`. -/
def pathView : LView := { tview := ⟨0⟩, host := some ⟨0⟩, data := #[.node ⟨1⟩] }

/-- The text `a` lies below the `<div>` of slot 0, which anchors its path: the record reads
`0.firstChild`, and resolving it finds the text. -/
theorem slotPath_resolves_text :
    pathDocument.LinkedBy pathDocument.children ∧ pathDocument.Acyclic ∧
      pathView.data.size ≤ Nat.pow 2 64 ∧
      (⟨1⟩, 0) ∈ Serializer.anchorElements pathTView pathView ∧ pathDocument.Ancestor ⟨1⟩ ⟨2⟩ ∧
      ∃ p, Serializer.pathTo pathDocument pathView (Serializer.anchorElements pathTView pathView) ⟨2⟩ = .ok p ∧
        findExistingNode pathDocument pathView p.render = .ok ⟨2⟩ := by
  have hl : pathDocument.LinkedBy pathDocument.children :=
    (DomEdit.childLists_linked_after_edits _).1
  -- neither append puts a node under one of its descendants: above the new parent there is
  -- only `<app>`
  have hd : pathDocument.Acyclic := by
    refine DomEdit.acyclic_run ⟨nofun, nofun, nofun, ?_, ?_, trivial⟩
    · rintro ⟨-, -, hanc⟩
      refine absurd (ParentLinks.ancestor_mem_of_chain ?_
        (rfl : [(⟨0⟩ : NodeId)].head? = some ⟨0⟩) hanc) (by decide)
      exact ⟨by decide, trivial⟩
    · rintro ⟨-, -, hanc⟩
      refine absurd (ParentLinks.ancestor_mem_of_chain ?_
        (rfl : [(⟨1⟩ : NodeId), ⟨0⟩].head? = some ⟨1⟩) hanc) (by decide)
      exact ⟨by decide, by decide, trivial⟩
  have hmem : (⟨1⟩, 0) ∈ Serializer.anchorElements pathTView pathView := by decide
  have hanc : pathDocument.Ancestor ⟨1⟩ ⟨2⟩ :=
    Relation.TransGen.single (show pathDocument.parent? ⟨2⟩ = some ⟨1⟩ by decide)
  exact ⟨hl, hd, by decide, hmem, hanc,
    Serializer.recorded_paths_resolve hl hd pathTView pathView (by decide) (.inr ⟨⟨1⟩, 0, hmem, hanc⟩)⟩

end ViewHydration
