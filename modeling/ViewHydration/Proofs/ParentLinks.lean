import Mathlib.Logic.Relation

/-!
# Parent links and their cycles

Documents and templates both give each node at most one parent. This file studies such a parent
function on its own: the ancestors of a node, the absence of cycles, and what one edit of the
function does to them. The edit that matters is a move: one node gets a new parent and every
other node keeps its own. A move keeps the links acyclic exactly when the new parent is not a
descendant of the moved node.

## Main definitions

- `ParentLinks.Ancestor`: the transitive closure of the parent links.
- `ParentLinks.Acyclic`: no node is its own ancestor.

## Main results

- `ParentLinks.Acyclic.relink`: a move under a node that is not a descendant keeps the links
  acyclic.
- `ParentLinks.not_acyclic_of_relink`: a move under a descendant closes a cycle.
- `ParentLinks.ancestor_mem_of_chain`: the ancestors of the head of a chain of parent links are
  the rest of the chain.
-/

namespace ViewHydration

namespace ParentLinks

variable {α : Type} (par : α → Option α)

/-- `a` is the parent of `b`. -/
def IsParent (a b : α) : Prop := par b = some a

/-- `a` is a proper ancestor of `x`: a chain of parent links leads from `x` up to `a`. -/
def Ancestor (a x : α) : Prop := Relation.TransGen (IsParent par) a x

/-- No node is its own ancestor, so the parent links form a forest. -/
def Acyclic : Prop := ∀ x, ¬ Ancestor par x x

/-- Each node of the list has the next one as parent, and the last has none. -/
def IsChain : List α → Prop
  | [] => True
  | x :: rest => par x = rest.head? ∧ IsChain rest

variable {par} {par' : α → Option α}

/-- An edit that only removes or keeps parent links adds no ancestors. -/
theorem Ancestor.mono (h : ∀ a b, par' b = some a → par b = some a) {a x : α}
    (hx : Ancestor par' a x) : Ancestor par a x :=
  Relation.TransGen.mono (fun a b hab => h a b hab) a x hx

theorem Acyclic.mono (hd : Acyclic par) (h : ∀ a b, par' b = some a → par b = some a) :
    Acyclic par' :=
  fun x hx => hd x (hx.mono h)

/-- The last link of a chain up to `a` is the parent of its lower end. -/
theorem Ancestor.exists_parent {a x : α} (h : Ancestor par a x) :
    ∃ b, par x = some b ∧ Relation.ReflTransGen (IsParent par) a b := by
  obtain ⟨b, hab, hbx⟩ := Relation.TransGen.tail'_iff.mp h
  exact ⟨b, hbx, hab⟩

/-! ### Moving one node under a new parent

The lemmas of this section speak of a parent function `par'` that agrees with `par`, except
that `child` now hangs under `parent`. -/

section Relink

variable [DecidableEq α] {parent child : α}

theorem isParent_relink (hd' : ∀ y, par' y = if child = y then some parent else par y) {a b : α} :
    IsParent par' a b ↔ if child = b then parent = a else IsParent par a b := by
  rw [IsParent, hd']
  split
  · exact Option.some_inj
  · rfl

/-- A chain after the move either avoids the new link, or reaches `parent` by old links and then
continues from `child`. -/
theorem reflTransGen_of_relink (hd' : ∀ y, par' y = if child = y then some parent else par y)
    {a b : α} (hab : Relation.ReflTransGen (IsParent par') a b) :
    Relation.ReflTransGen (IsParent par) a b ∨
      (Relation.ReflTransGen (IsParent par) a parent ∧ Relation.ReflTransGen (IsParent par') child b) := by
  induction hab with
  | refl => exact .inl .refl
  | @tail b c _ hbc ih =>
    have hbc' := (isParent_relink hd').mp hbc
    split at hbc'
    · next hc =>
      -- the last link is the new one: the chain before it reached `parent`
      have hap : Relation.ReflTransGen (IsParent par) a parent := by
        rcases ih with h | ⟨h, -⟩
        · exact hbc' ▸ h
        · exact h
      exact .inr ⟨hap, hc ▸ Relation.ReflTransGen.refl⟩
    · rcases ih with h | ⟨h₁, h₂⟩
      · exact .inl (h.tail hbc')
      · exact .inr ⟨h₁, h₂.tail hbc⟩

/-- A chain of old links survives the move, or its part from `child` on does. -/
theorem reflTransGen_relink_of (hd' : ∀ y, par' y = if child = y then some parent else par y)
    {a b : α} (hab : Relation.ReflTransGen (IsParent par) a b) :
    Relation.ReflTransGen (IsParent par') a b ∨ Relation.ReflTransGen (IsParent par') child b := by
  induction hab with
  | refl => exact .inl .refl
  | @tail b c _ hbc ih =>
    by_cases hc : child = c
    · subst hc
      exact .inr .refl
    · have hbc' : IsParent par' b c := (isParent_relink hd').mpr (by rw [if_neg hc]; exact hbc)
      exact ih.imp (·.tail hbc') (·.tail hbc')

/-- Moving a node that is not an ancestor of its new parent keeps the links acyclic. -/
theorem Acyclic.relink (hd : Acyclic par) (hd' : ∀ y, par' y = if child = y then some parent else par y)
    (hne : parent ≠ child) (hpc : ¬ Ancestor par child parent) : Acyclic par' := by
  have hcp : ¬ Relation.ReflTransGen (IsParent par) child parent := fun h => by
    rcases Relation.reflTransGen_iff_eq_or_transGen.mp h with h | h
    · exact hne h
    · exact hpc h
  intro x hx
  obtain ⟨b, hxb, hbx⟩ := Relation.TransGen.tail'_iff.mp hx
  have hbx' := (isParent_relink hd').mp hbx
  rcases reflTransGen_of_relink hd' hxb with hxb | ⟨hxp, hcb⟩
  · -- the cycle's links are old but its last, which is new or closes an old cycle
    split at hbx'
    · next hc =>
      subst hc hbx'
      exact hcp hxb
    · exact hd x (Relation.TransGen.tail' hxb hbx')
  · -- the cycle runs through the new link, so `child` reaches `parent` by old links
    rcases reflTransGen_of_relink hd' (hcb.tail hbx) with hcx | ⟨hcp', -⟩
    · exact hcp (hcx.trans hxp)
    · exact hcp hcp'

/-- Moving a node under one of its descendants closes a cycle. -/
theorem not_acyclic_of_relink (hd' : ∀ y, par' y = if child = y then some parent else par y)
    (hpc : Ancestor par child parent) : ¬ Acyclic par' := by
  have hnew : IsParent par' parent child := (isParent_relink hd').mpr (by rw [if_pos rfl])
  have hpath : Relation.ReflTransGen (IsParent par') child parent := by
    rcases reflTransGen_relink_of hd' hpc.to_reflTransGen with h | h <;> exact h
  exact fun hd => hd child (Relation.TransGen.tail' hpath hnew)

/-- Removing a node's parent link keeps the links acyclic. -/
theorem Acyclic.unlink (hd : Acyclic par)
    (hd' : ∀ y, par' y = if child = y then none else par y) : Acyclic par' :=
  hd.mono fun a b hab => by
    rw [hd'] at hab
    split at hab
    · cases hab
    · exact hab

end Relink

/-! ### Chains of parent links -/

/-- The ancestors of the head of a chain are the rest of the chain. -/
theorem ancestor_mem_of_chain {chain : List α} (hc : IsChain par chain) {a q : α}
    (hq : chain.head? = some q) (ha : Ancestor par a q) : a ∈ chain.tail := by
  induction chain generalizing a q with
  | nil => cases hq
  | cons x rest ih =>
    obtain ⟨hx, hrest⟩ := hc
    obtain rfl : x = q := Option.some.inj hq
    obtain ⟨b, hb, hab⟩ := ha.exists_parent
    rw [hx] at hb
    -- the parent of the head is the head of the rest; above it, the rest's own ancestors
    have hbm : b ∈ rest := List.mem_of_mem_head? hb
    rcases Relation.reflTransGen_iff_eq_or_transGen.mp hab with rfl | hab
    · exact hbm
    · exact List.mem_of_mem_tail (ih hrest hb hab)

end ParentLinks

end ViewHydration
