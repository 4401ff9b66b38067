import ViewHydration.Proofs.Threading
import ViewHydration.Proofs.Footprint
import ViewHydration.Proofs.BlockPlacement

/-!
# The links a template holds during its first pass

During its first creation pass a template holds the tree links the pass has threaded so far.
`TView.Mirrors t s` says that `t` holds the links of the abstract state `s`: its first child,
and at each slot `s` registered a node sitting at its own index with the parent, first child and
next sibling `s` gives it. Every other node of `t` (a text node of a translated block) links to
nothing.

Registering a node with the frame's position is the abstract registration
(`Mirrors.register`). The other edits a first pass makes to a template (a translated block or
attribute list stored at its slot, text nodes of a block put into new expando slots, flags set on
nodes) keep the links at every other slot (`TView.KeepsLinks`), hence what the template mirrors
(`Mirrors.keepsLinks`). What a mirrored template links is what the abstract state links
(`Mirrors.threaded`).
-/

namespace ViewHydration

namespace TNode

/-- The tree links of a node. -/
def links (n : TNode) : Links := ⟨n.parent, n.child, n.next⟩

/-- The node with slot `i` registered after it, as registration edits the current node. -/
def linkNext (isParent : Bool) (i : Nat) (p : TNode) : TNode :=
  if isParent then (if p.child.isNone then { p with child := some i } else p)
  else { p with next := some i }

@[simp] theorem index_linkNext (isParent : Bool) (i : Nat) (p : TNode) :
    (p.linkNext isParent i).index = p.index := by
  unfold linkNext
  split
  · split <;> rfl
  · rfl

theorem links_linkNext (isParent : Bool) (i : Nat) (p : TNode) :
    (p.linkNext isParent i).links = p.links.attach isParent i := by
  unfold linkNext Links.attach links
  split
  · split <;> rfl
  · rfl

end TNode

namespace TView

variable {t t' t'' : TView} {n p : TNode} {current : Option Nat} {isParent : Bool} {i j : Nat}
  {k : Option Nat}

/-- The slot index and tree links of the node at a slot. -/
def linksAt (t : TView) (j : Nat) : Option (Nat × Links) :=
  (t.tnode? j).map fun n => (n.index, n.links)

/-- The tree links of the template, slot by slot. -/
def treeLinks (t : TView) (j : Nat) : Option Links := (t.tnode? j).map TNode.links

theorem treeLinks_of_tnode? (h : t.tnode? j = some n) : t.treeLinks j = some n.links := by
  rw [treeLinks, h, Option.map_some]

/-- The node at a slot, if any, sits at its own index and links to nothing. -/
def Bare (t : TView) (j : Nat) : Prop :=
  ∀ n, t.tnode? j = some n → n.index = j ∧ n.child = none ∧ n.next = none

/-- Writing a node into a slot inside the data. -/
theorem tnode?_setIfInBounds {u : TView} (hi : i < u.data.size) (n : TNode) (j : Nat) :
    ({ u with data := u.data.setIfInBounds i (.node n) } : TView).tnode? j =
      if i = j then some n else u.tnode? j := by
  split
  · next hij =>
    subst hij
    simp [tnode?, Array.getElem?_setIfInBounds_self_of_lt hi]
  · next hij =>
    simp only [tnode?, Array.getElem?_setIfInBounds_ne hij]

/-- Registration writes the node at its slot and links it from the current node. -/
theorem tnode?_registerTNode (h : t.registerTNode n current isParent = .ok t') (j : Nat) :
    t'.tnode? j = if n.index = j then some n
      else if current = some j then (t.tnode? j).map (TNode.linkNext isParent n.index)
      else t.tnode? j := by
  unfold registerTNode at h
  split at h
  · cases h
  · cases h
    have hlen : n.index < (t.ensureLen (n.index + 1)).data.size :=
      Nat.lt_of_succ_le (size_ensureLen _)
    rw [tnode?_setIfInBounds]
    · split
      · rfl
      · cases current with
        | none =>
          -- only the first child may change, which is not data
          simp only [reduceCtorEq, if_false]
          split <;> exact tnode?_ensureLen _ _
        | some c =>
          simp only [Option.some.injEq]
          rw [tnode?_modifyTNode, tnode?_ensureLen]
          rfl
    · split
      · rw [size_modifyTNode]
        exact hlen
      · split <;> exact hlen

/-- Registration with nothing current makes the node the first child, unless there is one. -/
theorem firstChild_registerTNode (h : t.registerTNode n current isParent = .ok t') :
    t'.firstChild = if current.isNone && t.firstChild.isNone then some n.index else t.firstChild := by
  unfold registerTNode at h
  split at h
  · cases h
  · cases h
    have hfirst : (t.ensureLen (n.index + 1)).firstChild = t.firstChild := by
      unfold ensureLen
      split <;> rfl
    cases current with
    | none =>
      simp only [Option.isNone_none, Bool.true_and]
      rw [← hfirst]
      split <;> simp_all
    | some c =>
      simp only [modifyTNode, Option.isNone_some, Bool.false_and, Bool.false_eq_true, if_false]
      rw [← hfirst]
      split <;> rfl

theorem firstCreatePass_registerTNode (h : t.registerTNode n current isParent = .ok t') :
    t'.firstCreatePass = t.firstCreatePass :=
  (registerTNode_fields h).2.2.2

theorem id_registerTNode (h : t.registerTNode n current isParent = .ok t') : t'.id = t.id :=
  (registerTNode_fields h).2.2.1

/-! ### Mirroring the abstract links -/

/-- `t` holds the links of the abstract state `s`. -/
structure Mirrors (t : TView) (s : Threads) : Prop where
  first : t.firstChild = s.first
  links : ∀ j l, s.links j = some l → t.linksAt j = some (j, l)
  bare : ∀ j, s.links j = none → t.Bare j

namespace Mirrors

variable {s : Threads}

/-- A mirroring template links a registered slot as the abstract state does. -/
theorem treeLinks_of_links (hm : t.Mirrors s) (hs : s.links j = some l) :
    t.treeLinks j = some l := by
  have hl := hm.links j l hs
  unfold linksAt at hl
  obtain ⟨n, hn, hnl⟩ := Option.map_eq_some_iff.mp hl
  simp only [Prod.mk.injEq] at hnl
  rw [treeLinks_of_tnode? hn, hnl.2]

/-- The parent that registration gives the next node, read from a mirroring template, is the
abstract innermost open node. -/
theorem parentForNext_eq (hm : t.Mirrors s) (hcur : ∀ c, s.current = some c → s.links c ≠ none) :
    (if s.isParent then s.current else (s.current.bind t.tnode?).bind (·.parent)) = s.innermost := by
  unfold Threads.innermost
  cases hp : s.isParent
  · cases hc : s.current with
    | none => rfl
    | some c =>
      obtain ⟨l, hl⟩ := Option.ne_none_iff_exists'.mp (hcur c hc)
      have ht := hm.treeLinks_of_links hl
      unfold treeLinks at ht
      obtain ⟨n, hn, hnl⟩ := Option.map_eq_some_iff.mp ht
      simp only [Option.bind_some, hn, parentIn, hl, ← hnl]
      rfl
  · rfl

/-- Registering a fresh node with the position of the abstract state is the abstract
registration. -/
theorem register (hm : t.Mirrors s) (hcur : ∀ c, s.current = some c → s.links c ≠ none)
    (h : t.registerTNode n s.current s.isParent = .ok t') (hpar : n.parent = s.innermost)
    (hchild : n.child = none) (hnext : n.next = none) : t'.Mirrors (s.register n.index) where
  first := by
    rw [firstChild_registerTNode h, hm.first]
    rfl
  links := by
    intro j l hl
    unfold Threads.register at hl
    unfold linksAt
    rw [tnode?_registerTNode h]
    by_cases hji : j = n.index
    · subst hji
      simp only [↓reduceIte, Option.some.injEq] at hl
      subst hl
      rw [if_pos rfl]
      simp only [Option.map_some, TNode.links, hpar, hchild, hnext]
    · simp only [if_neg hji] at hl
      rw [if_neg (Ne.symm hji)]
      split at hl
      · next hc =>
        rw [if_pos hc]
        obtain ⟨l₀, hl₀, rfl⟩ := Option.map_eq_some_iff.mp hl
        have hl₁ := hm.links j l₀ hl₀
        unfold linksAt at hl₁
        obtain ⟨q, hq, hql⟩ := Option.map_eq_some_iff.mp hl₁
        simp only [Prod.mk.injEq] at hql
        simp only [hq, Option.map_some, TNode.index_linkNext, TNode.links_linkNext, hql]
      · next hc =>
        rw [if_neg hc]
        exact hm.links j l hl
  bare := by
    intro j hj q hq
    unfold Threads.register at hj
    rw [tnode?_registerTNode h] at hq
    by_cases hji : j = n.index
    · simp [hji] at hj
    · simp only [if_neg hji] at hj
      rw [if_neg (Ne.symm hji)] at hq
      split at hj
      · next hc =>
        obtain ⟨l₀, hl₀⟩ := Option.ne_none_iff_exists'.mp (hcur j hc)
        simp [hl₀] at hj
      · next hc =>
        rw [if_neg hc] at hq
        exact hm.bare j hj q hq

end Mirrors

/-! ### Edits that keep the links -/

/-- `t'` is `t` with the same handle, pass and first child, the links of every slot but `k`
kept, and every slot that linked to nothing still linking to nothing. -/
structure KeepsLinks (k : Option Nat) (t t' : TView) : Prop where
  id : t'.id = t.id
  firstCreatePass : t'.firstCreatePass = t.firstCreatePass
  first : t'.firstChild = t.firstChild
  links : ∀ j, k ≠ some j → (t.linksAt j).isSome → t'.linksAt j = t.linksAt j
  bare : ∀ j, t.Bare j → t'.Bare j

namespace KeepsLinks

theorem refl (k : Option Nat) (t : TView) : t.KeepsLinks k t :=
  ⟨rfl, rfl, rfl, fun _ _ _ => rfl, fun _ h => h⟩

theorem trans (h₁ : t.KeepsLinks k t') (h₂ : t'.KeepsLinks k t'') : t.KeepsLinks k t'' where
  id := h₂.id.trans h₁.id
  firstCreatePass := h₂.firstCreatePass.trans h₁.firstCreatePass
  first := h₂.first.trans h₁.first
  links j hk hj := by
    rw [h₂.links j hk (by rw [h₁.links j hk hj]; exact hj), h₁.links j hk hj]
  bare j hj := h₂.bare j (h₁.bare j hj)

/-- An edit that keeps the links of every slot keeps them of every slot but `k`. -/
theorem weaken (h : t.KeepsLinks none t') (k : Option Nat) : t.KeepsLinks k t' :=
  ⟨h.id, h.firstCreatePass, h.first, fun j _ hj => h.links j (by simp) hj, h.bare⟩

end KeepsLinks

/-- A mirroring template edited away from the abstract state's registered slots still mirrors
it. -/
theorem Mirrors.keepsLinks {s : Threads} (hm : t.Mirrors s) (hk : t.KeepsLinks k t')
    (hfree : ∀ j, k = some j → s.links j = none) : t'.Mirrors s where
  first := hk.first.trans hm.first
  links j l hl := by
    have hj := hm.links j l hl
    rw [hk.links j (fun hkj => by simp [hfree j hkj] at hl) (by simp [hj]), hj]
  bare j hj := hk.bare j (hm.bare j hj)

/-! ### The edits of a first pass -/

/-- Storing an entry changes the data only. -/
theorem setData_eq (t : TView) (i : Nat) (d : TData) :
    t.setData i d = { t with data := (t.setData i d).data } := by
  unfold setData ensureLen
  split <;> rfl

/-- Editing a node changes the data only. -/
theorem modifyTNode_eq (t : TView) (i : Nat) (g : TNode → TNode) :
    t.modifyTNode i g = { t with data := (t.modifyTNode i g).data } := by
  unfold modifyTNode
  split <;> rfl

theorem tnode?_setData_of_ne (h : i ≠ j) (d : TData) : (t.setData i d).tnode? j = t.tnode? j := by
  refine Eq.trans ?_ (tnode?_ensureLen (i + 1) j)
  simp only [setData, tnode?, Array.getElem?_setIfInBounds_ne h]

theorem tnode?_setData_self (i : Nat) (d : TData) :
    (t.setData i d).tnode? i = match d with
      | .node n => some n
      | _ => none := by
  simp only [tnode?, getElem?_setData_self]
  cases d <;> rfl

/-- An expando slot is added empty, so every slot holds the node it held. -/
theorem tnode?_allocateExpando (j : Nat) : t.allocateExpando.1.tnode? j = t.tnode? j := by
  simp only [allocateExpando, tnode?]
  rcases Nat.lt_or_ge j t.data.size with hj | hj
  · rw [Array.getElem?_push_lt hj, Array.getElem?_eq_getElem hj]
  · rw [Array.getElem?_eq_none hj]
    rcases Nat.lt_or_ge t.data.size j with hlt | hle
    · rw [Array.getElem?_eq_none (by simp; omega)]
    · rw [Nat.le_antisymm hle hj, Array.getElem?_push_size]

/-- An edit that keeps the node of every slot, the handle, the pass and the first child keeps
every link. -/
theorem keepsLinks_of_tnode? (h : ∀ j, t'.tnode? j = t.tnode? j) (hid : t'.id = t.id)
    (hpass : t'.firstCreatePass = t.firstCreatePass) (hfirst : t'.firstChild = t.firstChild)
    (k : Option Nat) : t.KeepsLinks k t' :=
  ⟨hid, hpass, hfirst, fun j _ _ => by simp only [linksAt, h],
    fun j hj n hn => hj n (h j ▸ hn)⟩

/-- Storing an entry that is not a linked node at slot `i` keeps the links of every other slot. -/
theorem keepsLinks_setData (d : TData)
    (hd : ∀ n, d = .node n → n.index = i ∧ n.child = none ∧ n.next = none) :
    t.KeepsLinks (some i) (t.setData i d) := by
  refine ⟨by rw [setData_eq], by rw [setData_eq], by rw [setData_eq], fun j hk _ => ?_,
    fun j hj n hn => ?_⟩
  · have hij : i ≠ j := fun h => hk (h ▸ rfl)
    simp only [linksAt, tnode?_setData_of_ne hij]
  · by_cases hij : i = j
    · subst hij
      rw [tnode?_setData_self] at hn
      cases d with
      | node m =>
        cases hn
        exact hd n rfl
      | _ => cases hn
    · rw [tnode?_setData_of_ne hij] at hn
      exact hj n hn

/-- Storing at a slot that holds no node keeps every link. -/
theorem keepsLinks_setData_of_none (hnone : t.tnode? i = none) (d : TData)
    (hd : ∀ n, d = .node n → n.index = i ∧ n.child = none ∧ n.next = none) :
    t.KeepsLinks none (t.setData i d) := by
  have h : t.KeepsLinks (some i) (t.setData i d) := keepsLinks_setData d hd
  refine ⟨h.id, h.firstCreatePass, h.first, fun j _ hj => ?_, h.bare⟩
  by_cases hji : j = i
  · subst hji
    simp [linksAt, hnone] at hj
  · exact h.links j (fun he => hji (Option.some.inj he).symm) hj

/-- A text node of a translated block, linked to nothing, put into a new expando slot keeps
every link. -/
theorem keepsLinks_addText (n : TNode) (hidx : n.index = t.allocateExpando.2)
    (hchild : n.child = none) (hnext : n.next = none) :
    t.KeepsLinks none (t.allocateExpando.1.setData t.allocateExpando.2 (.node n)) := by
  have hfresh : t.allocateExpando.1.tnode? t.allocateExpando.2 = none := by
    rw [tnode?_allocateExpando]
    show t.tnode? t.data.size = none
    cases h : t.tnode? t.data.size with
    | none => rfl
    | some m => exact absurd (lt_size_of_tnode? h) (Nat.lt_irrefl _)
  refine (keepsLinks_of_tnode? tnode?_allocateExpando rfl rfl rfl none).trans ?_
  exact keepsLinks_setData_of_none hfresh _ fun m hm => by
    cases hm
    exact ⟨hidx, hchild, hnext⟩

/-- An edit of a node that keeps its index and links keeps every link. -/
theorem keepsLinks_modifyTNode {g : TNode → TNode}
    (hg : ∀ n, (g n).index = n.index ∧ (g n).links = n.links) (e : Nat) :
    t.KeepsLinks none (t.modifyTNode e g) := by
  refine ⟨by rw [modifyTNode_eq], by rw [modifyTNode_eq], by rw [modifyTNode_eq],
    fun j _ _ => ?_, fun j hj n hn => ?_⟩
  · simp only [linksAt, tnode?_modifyTNode]
    split
    · cases t.tnode? j with
      | none => rfl
      | some m => simp [hg m]
    · rfl
  · rw [tnode?_modifyTNode] at hn
    split at hn
    · obtain ⟨m, hm, rfl⟩ := Option.map_eq_some_iff.mp hn
      obtain ⟨hidx, hl⟩ := hg m
      have hc : (g m).child = m.child := congrArg Links.child hl
      have hx : (g m).next = m.next := congrArg Links.next hl
      rw [hidx, hc, hx]
      exact hj m hm
    · exact hj n hn

/-- Marking the elements a message leaves out detached keeps every link. -/
theorem keepsLinks_markUnmentioned (block : I18nBlock) (elements : List Nat) :
    t.KeepsLinks none (t.markUnmentioned block elements) := by
  induction elements generalizing t with
  | nil => exact KeepsLinks.refl none t
  | cons e rest ih =>
    rw [markUnmentioned, List.foldl_cons, ← markUnmentioned]
    split
    · exact ih
    · refine KeepsLinks.trans ?_ ih
      apply keepsLinks_modifyTNode
      exact fun _ => ⟨rfl, rfl⟩

end TView

end ViewHydration
