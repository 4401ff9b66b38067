import ViewHydration.Proofs.DocumentLinks
import ViewHydration.Proofs.ParentLinks

/-!
# Documents built by public edits

A document is built by a sequence of public edits: creating nodes, inserting, appending,
removing and clearing children, and rewriting attributes and character data. Every such
sequence leaves the child lists linked: walking a node's first child and next siblings lists
its children once each and ends on its own, the ends and back links agree with the walk, and a
node without a parent has no siblings.

The parent relation is another matter. Insertion refuses only a node inserted into itself, so
appending a node under one of its own descendants closes a cycle of parent links. Apart from
that one edit, acyclicity is kept: the parent relation stays a forest.

## Main definitions

- `DomEdit`, `DomEdit.apply`, `DomEdit.run`: the public edits and their runs from an empty
  document.
- `Document.Ancestor`, `Document.Acyclic`: the transitive closure of the parent links, and the
  absence of cycles in it.
- `DomEdit.ClosesCycle`: the edits that insert a node under one of its descendants.

## Main results

- `DomEdit.childLists_linked_after_edits`: every run leaves the child lists linked.
- `Document.insertBefore_acyclic_iff`: an insertion keeps an acyclic document acyclic exactly
  when it does not insert a node under one of its descendants.
- `DomEdit.acyclic_run`: a run in which no edit closes a cycle builds a forest.
-/

namespace ViewHydration

/-- The public edits of a document. Creation hands back the new node's id; a sequence of edits
does not need it, since ids are handed out in creation order. -/
inductive DomEdit where
  | createElement (tag : String)
  | createText (data : String)
  | createComment (data : String)
  | appendChild (parent child : NodeId)
  | insertBefore (parent child : NodeId) (ref : Option NodeId)
  | remove (id : NodeId)
  | clearChildren (id : NodeId)
  | setAttribute (id : NodeId) (key value : String)
  | removeAttribute (id : NodeId) (key : String)
  | setData (id : NodeId) (value : String)
  deriving Repr, DecidableEq

namespace DomEdit

/-- Applies one edit. -/
def apply : DomEdit → Document → Document
  | .createElement tag, d => (d.createElement tag).1
  | .createText data, d => (d.createText data).1
  | .createComment data, d => (d.createComment data).1
  | .appendChild parent child, d => d.appendChild parent child
  | .insertBefore parent child ref, d => d.insertBefore parent child ref
  | .remove id, d => d.detach id
  | .clearChildren id, d => d.clearChildren id
  | .setAttribute id key value, d => d.setAttribute id key value
  | .removeAttribute id key, d => d.removeAttribute id key
  | .setData id value, d => d.setData id value

/-- Applies edits one after another. -/
def runFrom : Document → List DomEdit → Document
  | d, [] => d
  | d, e :: es => runFrom (e.apply d) es

/-- The document that a sequence of edits builds from an empty one. -/
def run (es : List DomEdit) : Document := runFrom {} es

end DomEdit

namespace Document

/-! ### Parent links after each edit -/

variable {d : Document}

theorem parent?_push (n : Node) (y : NodeId) :
    (d.push n).1.parent? y = if y = (d.push n).2 then n.parent else d.parent? y := by
  rw [parent?, parent?, get?_push]
  split
  · rfl
  · rfl

/-- The only parent link an insertion changes is the inserted node's. -/
theorem parent?_insertBefore (parent child : NodeId) (ref : Option NodeId) (y : NodeId) :
    (d.insertBefore parent child ref).parent? y =
      if (d.contains parent = true ∧ d.contains child = true ∧ parent ≠ child) ∧ child = y then
        some parent
      else d.parent? y := by
  by_cases hg : d.contains parent = true ∧ d.contains child = true ∧ parent ≠ child
  · obtain ⟨hp, hc, hne⟩ := hg
    by_cases hy : child = y
    · subst hy
      rw [if_pos ⟨⟨hp, hc, hne⟩, rfl⟩, parent?_insertBefore_self ref hp hc hne]
    · rw [if_neg (fun h => hy h.2), parent?_insertBefore_of_ne ref (Ne.symm hy)]
  · rw [if_neg (fun h => hg h.1), insertBefore_of_not_guard hg]

/-! ### Ancestors -/

/-- `a` is a proper ancestor of `x` in the document. -/
def Ancestor (d : Document) (a x : NodeId) : Prop := ParentLinks.Ancestor d.parent? a x

/-- No node of the document is its own ancestor, so its parent links form a forest. -/
def Acyclic (d : Document) : Prop := ParentLinks.Acyclic d.parent?

variable {d' : Document}

theorem Acyclic.mono (hd : d.Acyclic) (h : ∀ a b, d'.parent? b = some a → d.parent? b = some a) :
    d'.Acyclic :=
  ParentLinks.Acyclic.mono hd h

theorem Acyclic.detach (hd : d.Acyclic) (x : NodeId) : (d.detach x).Acyclic :=
  ParentLinks.Acyclic.unlink hd fun y => parent?_detach y

theorem Acyclic.clearChildren (hd : d.Acyclic) (p : NodeId) : (d.clearChildren p).Acyclic := by
  rw [Document.clearChildren]
  -- clearing detaches the children one at a time
  induction d.children p generalizing d with
  | nil => exact hd
  | cons x rest ih => exact ih (hd.detach x)

/-- A created node has no parent, and the old nodes keep theirs. -/
theorem Acyclic.push (hd : d.Acyclic) {n : Node} (hn : n.parent = none) : (d.push n).1.Acyclic :=
  hd.mono fun a b hab => by
    rw [parent?_push] at hab
    split at hab
    · rw [hn] at hab
      cases hab
    · exact hab

theorem Acyclic.modify (hd : d.Acyclic) (id : NodeId) {f : Node → Node}
    (hf : ∀ m, (f m).parent = m.parent) : (d.modify id f).Acyclic :=
  hd.mono fun a b hab => by rwa [parent?_modify_of hf] at hab

/-- An insertion keeps an acyclic document acyclic exactly when it does not insert a node under
one of its own descendants. Insertion checks only that a node is not inserted into itself, so
the other case is not refused and leaves a cycle of parent links. -/
theorem insertBefore_acyclic_iff (hd : d.Acyclic) (parent child : NodeId) (ref : Option NodeId) :
    (d.insertBefore parent child ref).Acyclic ↔
      ¬ (d.contains parent = true ∧ d.contains child = true ∧ d.Ancestor child parent) := by
  by_cases hg : d.contains parent = true ∧ d.contains child = true ∧ parent ≠ child
  · obtain ⟨hp, hc, hne⟩ := hg
    have hd' : ∀ y, (d.insertBefore parent child ref).parent? y =
        if child = y then some parent else d.parent? y := fun y => by
      rw [parent?_insertBefore]
      simp only [hp, hc, ne_eq, hne, not_false_eq_true, and_self, true_and]
    constructor
    · rintro hacy ⟨-, -, hanc⟩
      exact ParentLinks.not_acyclic_of_relink hd' hanc hacy
    · intro h
      exact ParentLinks.Acyclic.relink hd hd' hne fun hanc => h ⟨hp, hc, hanc⟩
  · rw [insertBefore_of_not_guard hg]
    -- nothing moves; a node inserted into itself would be its own ancestor
    refine ⟨fun _ ⟨hp, hc, hanc⟩ => ?_, fun _ => hd⟩
    have hpc : parent = child := by
      by_contra hne
      exact hg ⟨hp, hc, hne⟩
    subst hpc
    exact hd parent hanc

end Document

namespace DomEdit

open Document

/-! ### Child lists after a run -/

variable {d : Document} {kids : NodeId → List NodeId}

theorem linkedBy_apply (h : d.LinkedBy kids) (e : DomEdit) : ∃ kids', (e.apply d).LinkedBy kids' := by
  cases e with
  | createElement tag => exact ⟨kids, h.push rfl rfl rfl rfl rfl⟩
  | createText data => exact ⟨kids, h.push rfl rfl rfl rfl rfl⟩
  | createComment data => exact ⟨kids, h.push rfl rfl rfl rfl rfl⟩
  | appendChild parent child => exact h.insertBefore parent child none
  | insertBefore parent child ref => exact h.insertBefore parent child ref
  | remove id => exact ⟨_, h.detach id⟩
  | clearChildren id => exact h.clearChildren id
  | setAttribute id key value => exact ⟨kids, h.setAttribute id key value⟩
  | removeAttribute id key => exact ⟨kids, h.removeAttribute id key⟩
  | setData id value => exact ⟨kids, h.setData id value⟩

theorem linkedBy_runFrom (h : d.LinkedBy kids) (es : List DomEdit) :
    ∃ kids', (runFrom d es).LinkedBy kids' := by
  induction es generalizing d kids with
  | nil => exact ⟨kids, h⟩
  | cons e es ih =>
    obtain ⟨kids', h'⟩ := linkedBy_apply h e
    exact ih h'

/-- Every sequence of edits leaves the child lists linked. Each node's children, read by walking
its first child and next siblings, are listed once each, and a longer walk lists the same nodes,
so the walk ends. They are exactly the nodes whose parent it is. The list starts at the first
child and ends at the last. Back links mirror next links, and a node without a parent has no
siblings. -/
theorem childLists_linked_after_edits (es : List DomEdit) :
    (run es).LinkedBy (run es).children ∧
      (∀ p fuel, (run es).size ≤ fuel →
        (run es).siblingChain fuel ((run es).firstChild? p) = (run es).children p) ∧
      (∀ x y, (run es).nextSibling? x = some y ↔ (run es).prevSibling? y = some x) ∧
      (∀ x, (run es).parent? x = none →
        (run es).prevSibling? x = none ∧ (run es).nextSibling? x = none) := by
  obtain ⟨kids, h⟩ := linkedBy_runFrom LinkedBy.empty es
  have hkids : (run es).children = kids := funext h.children_eq
  rw [hkids]
  refine ⟨h, fun p fuel hfuel => h.siblingChain_eq p (Nat.le_trans (h.length_le_size p) hfuel),
    fun x y => h.nextSibling?_eq_some_iff, fun x hx => h.siblings_of_parent?_eq_none hx⟩

example : (run [.createElement "ul", .createText "a", .createText "b", .appendChild ⟨0⟩ ⟨1⟩,
    .insertBefore ⟨0⟩ ⟨2⟩ (some ⟨1⟩)]).children ⟨0⟩ = [⟨2⟩, ⟨1⟩] := by decide

/-! ### Acyclicity after a run -/

/-- An edit that inserts a node under one of its own descendants. -/
def ClosesCycle (d : Document) : DomEdit → Prop
  | .appendChild parent child | .insertBefore parent child _ =>
    d.contains parent = true ∧ d.contains child = true ∧ d.Ancestor child parent
  | _ => False

/-- Applied to a forest, an edit leaves a forest exactly when it closes no cycle. -/
theorem acyclic_apply_iff (hd : d.Acyclic) (e : DomEdit) : (e.apply d).Acyclic ↔ ¬ e.ClosesCycle d := by
  cases e with
  | appendChild parent child => exact insertBefore_acyclic_iff hd parent child none
  | insertBefore parent child ref => exact insertBefore_acyclic_iff hd parent child ref
  | createElement tag => exact iff_of_true (hd.push rfl) not_false
  | createText data => exact iff_of_true (hd.push rfl) not_false
  | createComment data => exact iff_of_true (hd.push rfl) not_false
  | remove id => exact iff_of_true (hd.detach id) not_false
  | clearChildren id => exact iff_of_true (hd.clearChildren id) not_false
  | setAttribute id key value =>
    exact iff_of_true (hd.modify id fun m => by by_cases hm : m.isElement <;> simp [hm]) not_false
  | removeAttribute id key => exact iff_of_true (hd.modify id fun _ => rfl) not_false
  | setData id value =>
    exact iff_of_true (hd.modify id fun m => by by_cases hm : m.isElement <;> simp [hm]) not_false

/-- Appending a parent under its own child is not refused: each becomes the other's parent. -/
example : let d := run [.createElement "p", .createElement "c", .appendChild ⟨0⟩ ⟨1⟩,
    .appendChild ⟨1⟩ ⟨0⟩]
    d.parent? ⟨0⟩ = some ⟨1⟩ ∧ d.parent? ⟨1⟩ = some ⟨0⟩ := by decide

/-- Applying the edits one after another from `d`, none inserts a node under one of its own
descendants. -/
def NeverClosesCycle : Document → List DomEdit → Prop
  | _, [] => True
  | d, e :: es => ¬ e.ClosesCycle d ∧ NeverClosesCycle (e.apply d) es

theorem acyclic_runFrom (hd : d.Acyclic) {es : List DomEdit} (h : NeverClosesCycle d es) :
    (runFrom d es).Acyclic := by
  induction es generalizing d with
  | nil => exact hd
  | cons e es ih => exact ih ((acyclic_apply_iff hd e).mpr h.1) h.2

/-- A run in which no edit inserts a node under one of its descendants builds a forest. -/
theorem acyclic_run {es : List DomEdit} (h : NeverClosesCycle {} es) : (run es).Acyclic :=
  acyclic_runFrom (fun _ hx => by
    obtain ⟨b, -, hb⟩ := Relation.TransGen.tail'_iff.mp hx
    simp [ParentLinks.IsParent, parent?, get?] at hb) h

end DomEdit

end ViewHydration
