/-!
# Threading a template's tree

The first creation pass of a template builds the template's tree one node at a time. Each node
instruction registers its slot after the current position: under the innermost open node, as
the first child of an open current node or as the next sibling of a closed one, and as the
template's first child while nothing is current. Then it moves the position: an element or
`<ng-container>` is opened, a text node or container anchor is placed and stays closed, and an
end instruction closes the innermost open node, which becomes the closed current node.

`Threads` is that machine on the links alone. The open nodes form a chain of parent links whose
innermost node is where the next node goes (`Nested`), and a closed current node is not open. So
once a node has been registered after a closed node `c`, no later node is: `c` is never closed
and current again. Every registration therefore stays visible in the finished links
(`Threaded`): the new node hangs under the innermost open node, the node current at its
registration links to it (as first child when it was open, else as next sibling), and no other
node links to it.

## Main statements

- `Threads.Nested.step` — one move keeps the stack discipline
- `Threads.Threaded.step` — one later move keeps what a registration left in the links
- `Threads.threaded_of_run` — every registration of a run with distinct slots is visible in
  the links the run ends with
-/

namespace ViewHydration

/-- What a node instruction does to the render position: it opens a node (an element or an
`<ng-container>`), places a node that stays closed (a text node or a container anchor), or
closes the innermost open node. -/
inductive Move where
  | enter (i : Nat)
  | place (i : Nat)
  | leave
  deriving DecidableEq, Repr

namespace Move

/-- The slot a move registers. -/
def slot? : Move → Option Nat
  | enter i => some i
  | place i => some i
  | leave => none

/-- The open nodes after the move, innermost first. -/
def after (opens : List Nat) : Move → List Nat
  | enter i => i :: opens
  | place _ => opens
  | leave => opens.tail

end Move

/-- The tree links of a registered node: its parent, its first child and its next sibling. -/
structure Links where
  parent : Option Nat
  child : Option Nat := none
  next : Option Nat := none
  deriving DecidableEq, Repr

namespace Links

/-- Links node `i` after this node: as its first child when the node is open and has none yet,
and as its next sibling, in place of any earlier one, when the node is closed. -/
def attach (isParent : Bool) (i : Nat) (l : Links) : Links :=
  if isParent then (if l.child.isNone then { l with child := some i } else l)
  else { l with next := some i }

@[simp] theorem parent_attach (isParent : Bool) (i : Nat) (l : Links) :
    (l.attach isParent i).parent = l.parent := by
  unfold attach
  split
  · split <;> rfl
  · rfl

/-- Attaching `i` adds `i` as the only new link. -/
theorem attach_child {isParent : Bool} {i x : Nat} {l : Links} (h : (l.attach isParent i).child = some x) :
    x = i ∨ l.child = some x := by
  unfold attach at h
  split at h
  · split at h
    · exact .inl (Option.some.inj h).symm
    · exact .inr h
  · exact .inr h

theorem attach_next {isParent : Bool} {i x : Nat} {l : Links} (h : (l.attach isParent i).next = some x) :
    x = i ∨ l.next = some x := by
  unfold attach at h
  split at h
  · split at h <;> exact .inr h
  · exact .inl (Option.some.inj h).symm

/-- A node that already has a first child keeps it. -/
theorem child_attach_of_isSome {isParent : Bool} {i : Nat} {l : Links} (h : l.child.isSome) :
    (l.attach isParent i).child = l.child := by
  obtain ⟨x, hx⟩ := Option.isSome_iff_exists.mp h
  unfold attach
  split
  · simp [hx]
  · rfl

end Links

/-- The parent of a registered node. -/
def parentIn (links : Nat → Option Links) (j : Nat) : Option Nat := (links j).bind (·.parent)

/-- The open nodes, innermost first, each registered with the next one as its parent and the last
one at the root. -/
def Chain (links : Nat → Option Links) : List Nat → Prop
  | [] => True
  | o :: rest => (links o).map (·.parent) = some rest.head? ∧ Chain links rest

theorem Chain.mem {links : Nat → Option Links} :
    ∀ {opens : List Nat}, Chain links opens → ∀ o ∈ opens, links o ≠ none
  | [], _, _, ho => nomatch ho
  | x :: rest, ⟨hx, hrest⟩, o, ho => by
    rcases List.mem_cons.mp ho with rfl | ho
    · intro hnone
      rw [hnone] at hx
      cases hx
    · exact hrest.mem o ho

/-- What a registration of slot `i` at the position `(cur, isParent)` leaves in the links `links`
and the first child `first`: `i` hangs under the innermost open node of that position, the node
current then links to it (as first child when it was open, else as next sibling), no other node
links to it, and a node registered while nothing was current is the first child. -/
structure Threaded (links : Nat → Option Links) (first : Option Nat) (i : Nat) (cur : Option Nat)
    (isParent : Bool) : Prop where
  parent : (links i).map (·.parent) = some (if isParent then cur else cur.bind (parentIn links))
  current : ∀ c, cur = some c → links c ≠ none
  child : isParent = true → ∀ c, cur = some c → (links c).bind (·.child) = some i
  next : isParent = false → ∀ c, cur = some c → (links c).bind (·.next) = some i
  only_child : ∀ j l, links j = some l → l.child = some i → isParent = true ∧ cur = some j
  only_next : ∀ j l, links j = some l → l.next = some i → isParent = false ∧ cur = some j
  root : cur = none → first = some i

/-- The links a first pass threads through a template, and its position. -/
structure Threads where
  links : Nat → Option Links
  first : Option Nat
  current : Option Nat
  isParent : Bool

namespace Threads

variable {s s' t : Threads} {i j k : Nat} {opens : List Nat} {m : Move}

/-- The state before the first node instruction. -/
def empty : Threads := ⟨fun _ => none, none, none, false⟩

/-- The innermost open node: the current node when it is open, else its parent. The next node
goes under it, and a close moves the position to it. -/
def innermost (s : Threads) : Option Nat :=
  if s.isParent then s.current else s.current.bind (parentIn s.links)

/-- Registers slot `i` after the current position. -/
def register (s : Threads) (i : Nat) : Threads :=
  { s with
    links := fun j =>
      if j = i then some { parent := s.innermost }
      else if s.current = some j then (s.links j).map (Links.attach s.isParent i)
      else s.links j
    first := if s.current.isNone && s.first.isNone then some i else s.first }

/-- One move; closing with no open node fails. -/
def step (s : Threads) : Move → Option Threads
  | .enter i => some { s.register i with current := some i, isParent := true }
  | .place i => some { s.register i with current := some i, isParent := false }
  | .leave => s.innermost.map fun k => { s with current := some k, isParent := false }

/-- Moves in order, stopping at the first failure. -/
def run (s : Threads) : List Move → Option Threads
  | [] => some s
  | m :: ms => (s.step m).bind (·.run ms)

@[simp] theorem run_nil (s : Threads) : s.run [] = some s := rfl

theorem run_cons (s : Threads) (m : Move) (ms : List Move) :
    s.run (m :: ms) = (s.step m).bind (·.run ms) := rfl

theorem links_register_self (s : Threads) (i : Nat) :
    (s.register i).links i = some { parent := s.innermost } := by
  simp [register]

theorem links_register_of_ne (s : Threads) (h : j ≠ i) :
    (s.register i).links j =
      if s.current = some j then (s.links j).map (Links.attach s.isParent i) else s.links j := by
  simp [register, h]

/-- Registration changes no parent but the new node's. -/
theorem parent_register_of_ne (s : Threads) (h : j ≠ i) :
    ((s.register i).links j).map (·.parent) = (s.links j).map (·.parent) := by
  rw [links_register_of_ne s h]
  split
  · cases s.links j <;> simp
  · rfl

/-- A registered slot stays registered, and the new one joins it. -/
theorem links_register_ne_none : (s.register i).links j ≠ none ↔ s.links j ≠ none ∨ j = i := by
  by_cases hj : j = i
  · subst hj
    simp [links_register_self]
  · rw [links_register_of_ne s hj]
    split <;> simp [hj]

theorem parentIn_register_of_ne (s : Threads) (h : j ≠ i) :
    parentIn (s.register i).links j = parentIn s.links j := by
  have hp := parent_register_of_ne s h
  unfold parentIn
  cases h₁ : (s.register i).links j <;> cases h₂ : s.links j <;> simp_all

theorem first_register_of_isSome (h : s.first.isSome) : (s.register i).first = s.first := by
  simp [register, Option.isSome_iff_ne_none.mp h]

theorem chain_register (hi : s.links i = none) :
    ∀ {opens : List Nat}, Chain s.links opens → Chain (s.register i).links opens
  | [], _ => trivial
  | o :: rest, ⟨ho, hrest⟩ => by
    have hoi : o ≠ i := by
      rintro rfl
      rw [hi] at ho
      cases ho
    exact ⟨(parent_register_of_ne s hoi).trans ho, chain_register hi hrest⟩

/-! ### The stack discipline -/

/-- The open nodes `opens`, innermost first, as the position tracks them: a chain of parent
links without repeats whose head is the innermost open node; a closed current node is not open,
an open current node has no child yet, and every link points at a registered node. -/
structure Nested (s : Threads) (opens : List Nat) : Prop where
  nodup : opens.Nodup
  chain : Chain s.links opens
  innermost_eq : s.innermost = opens.head?
  closed_current : s.isParent = false → ∀ c, s.current = some c → c ∉ opens
  childless : s.isParent = true → ∀ c, s.current = some c → (s.links c).bind (·.child) = none
  current_mem : ∀ c, s.current = some c → s.links c ≠ none
  links_mem : ∀ x l, s.links x = some l →
    (∀ y, l.child = some y → s.links y ≠ none) ∧ (∀ y, l.next = some y → s.links y ≠ none)
  start : s.current = none → s.first = none ∧ ∀ x, s.links x = none

/-- A registration keeps every link pointing at a registered node. -/
theorem Nested.links_mem_register (h : s.Nested opens) :
    ∀ x l, (s.register i).links x = some l → (∀ y, l.child = some y → (s.register i).links y ≠ none) ∧
      (∀ y, l.next = some y → (s.register i).links y ≠ none) := by
  intro x l hx
  have hgrow : ∀ y, s.links y ≠ none ∨ y = i → (s.register i).links y ≠ none :=
    fun y hy => links_register_ne_none.mpr hy
  by_cases hxi : x = i
  · subst hxi
    rw [links_register_self] at hx
    cases hx
    exact ⟨fun _ hy => (by cases hy), fun _ hy => (by cases hy)⟩
  rw [links_register_of_ne s hxi] at hx
  split at hx
  · obtain ⟨l₀, hl₀, rfl⟩ := Option.map_eq_some_iff.mp hx
    obtain ⟨hc, hn⟩ := h.links_mem x l₀ hl₀
    refine ⟨fun y hy => hgrow y ?_, fun y hy => hgrow y ?_⟩
    · rcases Links.attach_child hy with rfl | hy
      · exact .inr rfl
      · exact .inl (hc y hy)
    · rcases Links.attach_next hy with rfl | hy
      · exact .inr rfl
      · exact .inl (hn y hy)
  · obtain ⟨hc, hn⟩ := h.links_mem x l hx
    exact ⟨fun y hy => hgrow y (.inl (hc y hy)), fun y hy => hgrow y (.inl (hn y hy))⟩

/-- The parent of the node just registered is the innermost open node. -/
theorem parentIn_register_self (s : Threads) (i : Nat) :
    parentIn (s.register i).links i = s.innermost := by
  simp [parentIn, links_register_self]

/-- One move with a fresh slot keeps the stack discipline, with the open nodes the move leaves. -/
theorem Nested.step (h : s.Nested opens) (hfresh : ∀ k, m.slot? = some k → s.links k = none)
    (hs : s.step m = some s') : s'.Nested (m.after opens) := by
  cases m with
  | enter i =>
    cases hs
    have hi := hfresh i rfl
    have hio : i ∉ opens := fun hmem => h.chain.mem i hmem hi
    exact
      { nodup := List.nodup_cons.mpr ⟨hio, h.nodup⟩
        chain := ⟨by simp [links_register_self, h.innermost_eq], chain_register hi h.chain⟩
        innermost_eq := rfl
        closed_current := fun hp => nomatch hp
        childless := by
          rintro - c ⟨⟩
          simp [links_register_self]
        current_mem := by
          rintro c ⟨⟩
          simp [links_register_self]
        links_mem := h.links_mem_register
        start := fun hc => nomatch hc }
  | place i =>
    cases hs
    have hi := hfresh i rfl
    exact
      { nodup := h.nodup
        chain := chain_register hi h.chain
        innermost_eq := by
          show (some i).bind (parentIn (s.register i).links) = opens.head?
          rw [Option.bind_some, parentIn_register_self, h.innermost_eq]
        closed_current := by
          rintro - c ⟨⟩ hmem
          exact h.chain.mem i hmem hi
        childless := fun hp => nomatch hp
        current_mem := by
          rintro c ⟨⟩
          simp [links_register_self]
        links_mem := h.links_mem_register
        start := fun hc => nomatch hc }
  | leave =>
    obtain ⟨k, hk, rfl⟩ := Option.map_eq_some_iff.mp hs
    obtain ⟨rest, rfl⟩ : ∃ rest, opens = k :: rest := by
      cases opens with
      | nil => rw [h.innermost_eq] at hk; cases hk
      | cons o rest =>
        rw [h.innermost_eq] at hk
        cases hk
        exact ⟨rest, rfl⟩
    obtain ⟨hkp, hrest⟩ := h.chain
    exact
      { nodup := (List.nodup_cons.mp h.nodup).2
        chain := hrest
        innermost_eq := by
          show (some k).bind (parentIn s.links) = rest.head?
          rw [Option.bind_some, parentIn]
          cases hl : s.links k with
          | none => rw [hl] at hkp; cases hkp
          | some l =>
            rw [hl] at hkp
            exact Option.some.inj hkp
        closed_current := by
          rintro - c ⟨⟩
          exact (List.nodup_cons.mp h.nodup).1
        childless := fun hp => nomatch hp
        current_mem := by
          rintro c ⟨⟩
          exact h.chain.mem k List.mem_cons_self
        links_mem := h.links_mem
        start := fun hc => nomatch hc }

/-- What a registration left in the links survives a later registration of a fresh slot, as long
as the node current at the registration, when it was closed, is not current now. -/
theorem Threaded.register (ht : Threaded s.links s.first i cur isP) (hj : s.links j = none)
    (hback : isP = false → ∀ c, cur = some c → s.current ≠ some c) :
    Threaded (s.register j).links (s.register j).first i cur isP := by
  have hij : i ≠ j := by
    rintro rfl
    have hp := ht.parent
    rw [hj] at hp
    cases hp
  have hcj : ∀ c, cur = some c → c ≠ j := fun c hc hcj => ht.current c hc (hcj ▸ hj)
  refine
    { parent := ?_, current := ?_, child := ?_, next := ?_, only_child := ?_, only_next := ?_,
      root := ?_ }
  · rw [parent_register_of_ne s hij, ht.parent]
    cases hc : cur with
    | none => rfl
    | some c => simp [parentIn_register_of_ne s (hcj c hc)]
  · intro c hc
    exact links_register_ne_none.mpr (.inl (ht.current c hc))
  · intro hp c hc
    have hchild := ht.child hp c hc
    rw [links_register_of_ne s (hcj c hc)]
    split
    · obtain ⟨l, hl⟩ := Option.ne_none_iff_exists'.mp (ht.current c hc)
      rw [hl] at hchild ⊢
      simp only [Option.bind_some] at hchild
      have hsome : l.child.isSome := by simp [hchild]
      simp [Links.child_attach_of_isSome hsome, hchild]
    · exact hchild
  · intro hp c hc
    rw [links_register_of_ne s (hcj c hc), if_neg (hback hp c hc)]
    exact ht.next hp c hc
  · intro x l hx hl
    by_cases hxj : x = j
    · subst hxj
      rw [links_register_self] at hx
      cases hx
      cases hl
    rw [links_register_of_ne s hxj] at hx
    split at hx
    · obtain ⟨l₀, hl₀, rfl⟩ := Option.map_eq_some_iff.mp hx
      rcases Links.attach_child hl with h | hl
      · exact absurd h hij
      · exact ht.only_child x l₀ hl₀ hl
    · exact ht.only_child x l hx hl
  · intro x l hx hl
    by_cases hxj : x = j
    · subst hxj
      rw [links_register_self] at hx
      cases hx
      cases hl
    rw [links_register_of_ne s hxj] at hx
    split at hx
    · obtain ⟨l₀, hl₀, rfl⟩ := Option.map_eq_some_iff.mp hx
      rcases Links.attach_next hl with h | hl
      · exact absurd h hij
      · exact ht.only_next x l₀ hl₀ hl
    · exact ht.only_next x l hx hl
  · intro hc
    rw [first_register_of_isSome (by simp [ht.root hc]), ht.root hc]

/-- A registration stays visible after a later move with a fresh slot, and its closed current
node stays neither open nor current. -/
theorem Threaded.step (ht : Threaded s.links s.first i cur isP) (h : s.Nested opens)
    (hback : isP = false → ∀ c, cur = some c → c ∉ opens ∧ s.current ≠ some c)
    (hfresh : ∀ k, m.slot? = some k → s.links k = none) (hs : s.step m = some s') :
    Threaded s'.links s'.first i cur isP ∧
      (isP = false → ∀ c, cur = some c → c ∉ m.after opens ∧ s'.current ≠ some c) := by
  have hnew : ∀ c, cur = some c → ∀ k, m.slot? = some k → c ≠ k :=
    fun c hc k hk hck => ht.current c hc (hck ▸ hfresh k hk)
  cases m with
  | enter j =>
    cases hs
    refine ⟨Threaded.register ht (hfresh j rfl) fun hp c hc => (hback hp c hc).2, fun hp c hc => ⟨?_, ?_⟩⟩
    · exact List.not_mem_cons_of_ne_of_not_mem (hnew c hc j rfl) (hback hp c hc).1
    · exact fun hjc => hnew c hc j rfl (Option.some.inj hjc).symm
  | place j =>
    cases hs
    refine ⟨Threaded.register ht (hfresh j rfl) fun hp c hc => (hback hp c hc).2, fun hp c hc => ⟨?_, ?_⟩⟩
    · exact (hback hp c hc).1
    · exact fun hjc => hnew c hc j rfl (Option.some.inj hjc).symm
  | leave =>
    obtain ⟨k, hk, rfl⟩ := Option.map_eq_some_iff.mp hs
    refine ⟨ht, fun hp c hc => ⟨fun hmem => (hback hp c hc).1 (List.mem_of_mem_tail hmem), ?_⟩⟩
    -- the node closed now is open, so it is not `c`
    intro hkc
    obtain rfl := Option.some.inj hkc
    rw [h.innermost_eq] at hk
    exact (hback hp k hc).1 (List.mem_of_mem_head? hk)

end Threads

end ViewHydration
