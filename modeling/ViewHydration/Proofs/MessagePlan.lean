import Mathlib.Data.List.Basic
import Mathlib.Data.List.Induction
import ViewHydration.I18n.Plan

/-!
# The plan of a translated block

`planBlock` reads the parts of a message once, left to right, with a stack of the open element
placeholders and a buffer for the text run being collected. This module says what it computes
in terms of positions in the part list alone, with no stack and no buffer:

* the element placeholders open in front of a position are read off the parts before it
  (`openAfter`), and a node planned there has the innermost of them as parent, else the root;
* the parts are *nested* when every element close names the innermost open element and no
  element is open at the end;
* the plan lists, for each placeholder in order, the text run that ends at it and then the node
  it opens, and last the text run at the end of the message (`planOf`).

The main statement, `planBlock_faithful`: planning succeeds exactly for nested part lists and
then returns that plan. Hence its element and template nodes are the opening placeholders in
order, and its text nodes hold the text and expression parts in order, in runs that are never
empty.

## Main definitions

- `I18nPlan.openAfter`, `I18nPlan.parentAfter` — the open elements after some parts, and the
  parent of a node planned there
- `I18nPlan.Nested` — element placeholders nest
- `I18nPlan.planOf` — the plan of a part list, position by position
-/

namespace ViewHydration

namespace MessagePart

/-- Text and expressions continue a text run; every element or template placeholder ends it. -/
def isRun : MessagePart → Bool
  | .text _ | .expression _ => true
  | _ => false

/-- The piece of a text run that a text or expression part adds. -/
def runPiece? : MessagePart → Option I18nPart
  | .text s => some (.literal s)
  | .expression n => some (.binding n)
  | _ => none

/-- The node a placeholder opens under `parent`: an element for an element start or a void
element, a template for a template start. -/
def opened? (parent : Option Nat) : MessagePart → Option PlannedNode
  | .elementStart n | .voidElement n => some (.element n parent)
  | .templateStart n => some (.template n parent)
  | _ => none

/-- The slot a placeholder opens a node at: an element slot (`inl`) or a template slot (`inr`). -/
def openedSlot? : MessagePart → Option (Nat ⊕ Nat)
  | .elementStart n | .voidElement n => some (.inl n)
  | .templateStart n => some (.inr n)
  | _ => none

theorem runPiece?_eq_none {p : MessagePart} (h : p.isRun = false) : p.runPiece? = none := by
  cases p <;> simp_all [isRun, runPiece?]

theorem opened?_eq_none {p : MessagePart} (h : p.isRun = true) (parent : Option Nat) :
    p.opened? parent = none := by
  cases p <;> simp_all [isRun, opened?]

theorem openedSlot?_eq_none {p : MessagePart} (h : p.isRun = true) : p.openedSlot? = none := by
  cases p <;> simp_all [isRun, openedSlot?]

end MessagePart

namespace PlannedNode

/-- The slot of an element node (`inl`) or a template node (`inr`). -/
def slot? : PlannedNode → Option (Nat ⊕ Nat)
  | .element n _ => some (.inl n)
  | .template n _ => some (.inr n)
  | .text _ _ => none

/-- The pieces of a text node; other nodes have none. -/
def pieces : PlannedNode → List I18nPart
  | .text _ parts => parts
  | _ => []

end PlannedNode

namespace I18nPlan

open MessagePart

/-- How a part changes the open element placeholders, innermost first: a start opens one and an
end closes the innermost. -/
def openStep (st : List Nat) : MessagePart → List Nat
  | .elementStart n => n :: st
  | .elementEnd _ => st.tail
  | _ => st

/-- The element placeholders open after a list of parts, innermost first. -/
def openAfter (xs : List MessagePart) : List Nat := xs.foldl openStep []

/-- The parent of a node planned after the parts `xs`: the innermost open element, else the
block's root. -/
def parentAfter (root : Option Nat) (xs : List MessagePart) : Option Nat :=
  (openAfter xs).head?.or root

/-- Every element close names the innermost element open in front of it. -/
def ClosesMatch (ps : List MessagePart) : Prop :=
  ∀ i n, ps[i]? = some (.elementEnd n) → (openAfter (ps.take i)).head? = some n

/-- The element placeholders of a part list nest: each close ends the innermost open element,
and none is open at the end. Template and void placeholders take no part in it. -/
def Nested (ps : List MessagePart) : Prop := ClosesMatch ps ∧ openAfter ps = []

/-- The text run at the end of a list of parts. -/
def trailingRun (xs : List MessagePart) : List I18nPart :=
  (xs.reverse.takeWhile isRun).reverse.filterMap runPiece?

/-- A text node for a run, when the run is not empty. -/
def runNode (parent : Option Nat) (run : List I18nPart) : List PlannedNode :=
  if run.isEmpty then [] else [.text parent run]

/-- What the plan holds for a part `p` that follows the parts `xs`: nothing for text and
expressions; for a placeholder, the text run it ends and then the node it opens, both under the
parent at that position. -/
def nodesAt (root : Option Nat) (xs : List MessagePart) (p : MessagePart) : List PlannedNode :=
  if p.isRun then []
  else runNode (parentAfter root xs) (trailingRun xs) ++ (p.opened? (parentAfter root xs)).toList

/-- What the plan holds for the parts of `ps`, position by position. -/
def emitted (root : Option Nat) (ps : List MessagePart) : List PlannedNode :=
  (List.range ps.length).flatMap fun i => (ps[i]?.map (nodesAt root (ps.take i))).getD []

/-- The plan of a part list: what it holds at each position, then the text run at the end. -/
def planOf (root : Option Nat) (ps : List MessagePart) : List PlannedNode :=
  emitted root ps ++ runNode (parentAfter root ps) (trailingRun ps)

/-! ### One more part -/

section Snoc

variable (root : Option Nat) (xs : List MessagePart) (x : MessagePart)

theorem openAfter_append_singleton : openAfter (xs ++ [x]) = openStep (openAfter xs) x := by
  simp only [openAfter, List.foldl_append, List.foldl_cons, List.foldl_nil]

theorem trailingRun_append_of_isRun (h : x.isRun = true) :
    trailingRun (xs ++ [x]) = trailingRun xs ++ x.runPiece?.toList := by
  simp only [trailingRun, List.reverse_append, List.reverse_cons, List.reverse_nil,
    List.nil_append, List.cons_append, List.takeWhile_cons, h, if_true, List.filterMap_append,
    List.filterMap_cons, List.filterMap_nil]
  cases x.runPiece? <;> rfl

theorem trailingRun_append_of_not_isRun (h : x.isRun = false) : trailingRun (xs ++ [x]) = [] := by
  simp only [trailingRun, List.reverse_append, List.reverse_cons, List.reverse_nil,
    List.nil_append, List.cons_append, List.takeWhile_cons, h]
  rfl

theorem emitted_append_singleton :
    emitted root (xs ++ [x]) = emitted root xs ++ nodesAt root xs x := by
  simp only [emitted, List.length_append, List.length_singleton, List.range_succ,
    List.flatMap_append]
  congr 1
  · -- the positions before `x` see the same parts as before
    refine List.flatMap_congr fun i hi => ?_
    have hi : i < xs.length := List.mem_range.mp hi
    rw [List.getElem?_append_left hi, List.take_append_of_le_length (Nat.le_of_lt hi)]
  · simp

theorem closesMatch_append_singleton :
    ClosesMatch (xs ++ [x]) ↔
      ClosesMatch xs ∧ ∀ n, x = .elementEnd n → (openAfter xs).head? = some n := by
  constructor
  · intro h
    refine ⟨fun i n hi => ?_, fun n hx => ?_⟩
    · have hlt : i < xs.length := (List.getElem?_eq_some_iff.mp hi).1
      have := h i n (by rw [List.getElem?_append_left hlt]; exact hi)
      rwa [List.take_append_of_le_length (Nat.le_of_lt hlt)] at this
    · have := h xs.length n (by simp [hx])
      rwa [List.take_left'] at this
      rfl
  · rintro ⟨h, hx⟩ i n hi
    rcases Nat.lt_or_ge i xs.length with hlt | hge
    · rw [List.getElem?_append_left hlt] at hi
      rw [List.take_append_of_le_length (Nat.le_of_lt hlt)]
      exact h i n hi
    · have heq : i = xs.length := by
        have := (List.getElem?_eq_some_iff.mp hi).1
        simp only [List.length_append, List.length_singleton] at this
        omega
      subst heq
      simp only [List.getElem?_append_right (Nat.le_refl _), Nat.sub_self,
        List.getElem?_cons_zero, Option.some.injEq] at hi
      rw [List.take_left' rfl]
      exact hx n hi

end Snoc

/-! ### The planner's state after a prefix -/

/-- The planner's state after the parts `xs`: what the plan holds for them, the open elements,
and the text run at their end. -/
def after (root : Option Nat) (xs : List MessagePart) : Planner :=
  { planned := emitted root xs, stack := openAfter xs, run := trailingRun xs }

theorem Planner.parent_eq (p : Planner) (root : Option Nat) : p.parent root = p.stack.head?.or root := by
  unfold Planner.parent
  split <;> simp_all

theorem Planner.flush_eq (p : Planner) (root : Option Nat) :
    p.flush root = { p with planned := p.planned ++ runNode (p.parent root) p.run, run := [] } := by
  obtain ⟨planned, stack, run⟩ := p
  unfold Planner.flush runNode
  cases run <;> simp

/-- After a text or expression part the run grows by its piece. -/
theorem after_append_of_isRun (root : Option Nat) (xs : List MessagePart) {x : MessagePart}
    (h : x.isRun = true) :
    after root (xs ++ [x]) = { after root xs with run := trailingRun xs ++ x.runPiece?.toList } := by
  have hopen : openStep (openAfter xs) x = openAfter xs := by
    cases x <;> simp_all [isRun, openStep]
  simp only [after, emitted_append_singleton, nodesAt, h, if_true, List.append_nil,
    openAfter_append_singleton, hopen, trailingRun_append_of_isRun xs x h]

/-- After a placeholder the run is empty, and the plan holds what the placeholder adds. -/
theorem after_append_of_not_isRun (root : Option Nat) (xs : List MessagePart) {x : MessagePart}
    (h : x.isRun = false) :
    after root (xs ++ [x]) =
      { planned := emitted root xs ++ nodesAt root xs x, stack := openStep (openAfter xs) x,
        run := [] } := by
  simp only [after, emitted_append_singleton, openAfter_append_singleton,
    trailingRun_append_of_not_isRun xs x h]

/-- One step of the planner from the state after `xs` ends in the state after `xs ++ [x]`, when
`x` is no element close that names another element than the innermost open one. -/
theorem step_after (root : Option Nat) (xs : List MessagePart) (x : MessagePart)
    (hx : ∀ n, x = .elementEnd n → (openAfter xs).head? = some n) :
    Planner.step root (after root xs) x = .ok (after root (xs ++ [x])) := by
  cases x with
  | text s =>
    rw [after_append_of_isRun root xs rfl]
    simp [Planner.step, runPiece?, after]
  | expression n =>
    rw [after_append_of_isRun root xs rfl]
    simp [Planner.step, runPiece?, after]
  | elementStart n =>
    rw [after_append_of_not_isRun root xs rfl]
    simp [Planner.step, Planner.flush_eq, Planner.parent_eq, nodesAt, isRun, opened?, openStep,
      after, parentAfter]
  | elementEnd n =>
    -- the close pops the innermost open element, which it names
    obtain ⟨rest, hst⟩ : ∃ rest, openAfter xs = n :: rest := by
      have h := hx n rfl
      cases hs : openAfter xs with
      | nil => simp [hs] at h
      | cons m rest =>
        simp only [hs, List.head?_cons, Option.some.injEq] at h
        exact ⟨rest, h ▸ rfl⟩
    rw [after_append_of_not_isRun root xs rfl]
    simp [Planner.step, Planner.flush_eq, Planner.parent_eq, nodesAt, isRun, opened?, openStep,
      after, parentAfter, hst]
  | voidElement n =>
    rw [after_append_of_not_isRun root xs rfl]
    simp [Planner.step, Planner.flush_eq, Planner.parent_eq, nodesAt, isRun, opened?, openStep,
      after, parentAfter]
  | templateStart n =>
    rw [after_append_of_not_isRun root xs rfl]
    simp [Planner.step, Planner.flush_eq, Planner.parent_eq, nodesAt, isRun, opened?, openStep,
      after, parentAfter]
  | templateEnd n =>
    rw [after_append_of_not_isRun root xs rfl]
    simp [Planner.step, Planner.flush_eq, Planner.parent_eq, nodesAt, isRun, opened?, openStep,
      after, parentAfter]

/-- A close that does not name the innermost open element stops the planner. -/
theorem step_after_error (root : Option Nat) (xs : List MessagePart) (n : Nat)
    (h : (openAfter xs).head? ≠ some n) :
    Planner.step root (after root xs) (.elementEnd n) = .error (.unbalancedElement n) := by
  cases hs : openAfter xs with
  | nil => simp [Planner.step, Planner.flush_eq, after, hs]
  | cons m rest =>
    have hmn : m ≠ n := fun hmn => h (by rw [hs, hmn]; rfl)
    simp [Planner.step, Planner.flush_eq, after, hs, hmn]

/-- The planner run over a part list whose element closes all match ends in the state after the
list; over any other list it fails. -/
theorem foldlM_step (root : Option Nat) (xs : List MessagePart) :
    (ClosesMatch xs → xs.foldlM (Planner.step root) {} = .ok (after root xs)) ∧
      (¬ ClosesMatch xs → ∃ e, xs.foldlM (Planner.step root) {} = .error e) := by
  induction xs using List.reverseRecOn with
  | nil => exact ⟨fun _ => rfl, fun h => absurd (fun i n hi => by simp at hi) h⟩
  | append_singleton xs x ih =>
    rw [List.foldlM_append, closesMatch_append_singleton]
    by_cases hxs : ClosesMatch xs
    · have hbind : (Except.ok (after root xs) >>= fun p => [x].foldlM (Planner.step root) p) =
          [x].foldlM (Planner.step root) (after root xs) := rfl
      rw [ih.1 hxs, hbind]
      by_cases hx : ∀ n, x = .elementEnd n → (openAfter xs).head? = some n
      · refine ⟨fun _ => ?_, fun h => absurd ⟨hxs, hx⟩ h⟩
        simp only [List.foldlM_cons, List.foldlM_nil, step_after root xs x hx]
        rfl
      · refine ⟨fun h => absurd h.2 hx, fun _ => ?_⟩
        -- the new part is a close naming another element
        simp only [not_forall] at hx
        obtain ⟨n, rfl, hn⟩ := hx
        refine ⟨.unbalancedElement n, ?_⟩
        simp only [List.foldlM_cons, List.foldlM_nil, step_after_error root xs n hn]
        rfl
    · refine ⟨fun h => absurd h.1 hxs, fun _ => ?_⟩
      obtain ⟨e, he⟩ := ih.2 hxs
      exact ⟨e, by rw [he]; rfl⟩

/-- Planning succeeds exactly on nested part lists, with the plan `planOf`. -/
theorem planBlock_eq_ok_iff (ps : List MessagePart) (root : Option Nat) (plan : List PlannedNode) :
    planBlock ps root = .ok plan ↔ Nested ps ∧ plan = planOf root ps := by
  by_cases hm : ClosesMatch ps
  · simp only [planBlock, (foldlM_step root ps).1 hm, bind, Except.bind, Planner.flush_eq]
    cases hs : openAfter ps with
    | nil =>
      simp [after, hs, Nested, hm, planOf, Planner.parent_eq, parentAfter, eq_comm]
    | cons top rest =>
      simp [after, hs, Nested]
  · obtain ⟨e, he⟩ := (foldlM_step root ps).2 hm
    simp only [planBlock, he, Nested, hm, false_and, iff_false]
    exact fun h => by cases h

/-! ### What the plan holds -/

theorem filterMap_slot?_runNode (parent : Option Nat) (run : List I18nPart) :
    (runNode parent run).filterMap PlannedNode.slot? = [] := by
  unfold runNode
  split <;> rfl

theorem flatMap_pieces_runNode (parent : Option Nat) (run : List I18nPart) :
    (runNode parent run).flatMap PlannedNode.pieces = run := by
  unfold runNode
  split
  · rename_i h
    exact (List.isEmpty_iff.mp h).symm
  · simp [PlannedNode.pieces]

theorem ne_nil_of_text_mem_runNode {parent p : Option Nat} {run parts : List I18nPart}
    (h : PlannedNode.text p parts ∈ runNode parent run) : parts ≠ [] := by
  unfold runNode at h
  split at h
  · cases h
  · rename_i hne
    simp only [List.mem_singleton, PlannedNode.text.injEq] at h
    rw [h.2]
    exact fun h' => hne (List.isEmpty_iff.mpr h')

theorem filterMap_slot?_nodesAt (root : Option Nat) (xs : List MessagePart) (x : MessagePart) :
    (nodesAt root xs x).filterMap PlannedNode.slot? = x.openedSlot?.toList := by
  unfold nodesAt
  split
  · rename_i h
    rw [openedSlot?_eq_none h]
    rfl
  · rw [List.filterMap_append, filterMap_slot?_runNode]
    cases x <;> rfl

theorem flatMap_pieces_nodesAt (root : Option Nat) (xs : List MessagePart) {x : MessagePart}
    (h : x.isRun = false) : (nodesAt root xs x).flatMap PlannedNode.pieces = trailingRun xs := by
  unfold nodesAt
  rw [if_neg (by simp [h]), List.flatMap_append, flatMap_pieces_runNode]
  cases x <;> simp [opened?, PlannedNode.pieces]

theorem ne_nil_of_text_mem_nodesAt {root p : Option Nat} {xs : List MessagePart} {x : MessagePart}
    {parts : List I18nPart} (h : PlannedNode.text p parts ∈ nodesAt root xs x) : parts ≠ [] := by
  unfold nodesAt at h
  split at h
  · cases h
  · rcases List.mem_append.mp h with h | h
    · exact ne_nil_of_text_mem_runNode h
    · cases x <;> simp [opened?] at h

/-- The element and template nodes planned for some parts are their opening placeholders. -/
theorem filterMap_slot?_emitted (root : Option Nat) (xs : List MessagePart) :
    (emitted root xs).filterMap PlannedNode.slot? = xs.filterMap openedSlot? := by
  induction xs using List.reverseRecOn with
  | nil => rfl
  | append_singleton xs x ih =>
    rw [emitted_append_singleton, List.filterMap_append, ih, filterMap_slot?_nodesAt,
      List.filterMap_append, List.filterMap_cons, List.filterMap_nil]
    cases x.openedSlot? <;> rfl

/-- The text nodes planned for some parts, with the run still being collected at their end,
hold the parts' text and expressions in order. -/
theorem flatMap_pieces_emitted (root : Option Nat) (xs : List MessagePart) :
    (emitted root xs).flatMap PlannedNode.pieces ++ trailingRun xs = xs.filterMap runPiece? := by
  induction xs using List.reverseRecOn with
  | nil => rfl
  | append_singleton xs x ih =>
    rw [emitted_append_singleton, List.flatMap_append, List.filterMap_append, ← ih,
      List.filterMap_cons, List.filterMap_nil]
    cases hx : x.isRun
    · rw [flatMap_pieces_nodesAt root xs hx, trailingRun_append_of_not_isRun xs x hx,
        runPiece?_eq_none hx]
    · rw [trailingRun_append_of_isRun xs x hx, nodesAt, if_pos hx, List.flatMap_nil,
        List.append_nil, List.append_assoc]
      cases x.runPiece? <;> rfl

theorem ne_nil_of_text_mem_emitted {root p : Option Nat} {ps : List MessagePart}
    {parts : List I18nPart} (h : PlannedNode.text p parts ∈ emitted root ps) : parts ≠ [] := by
  obtain ⟨i, -, hi⟩ := List.mem_flatMap.mp h
  cases hp : ps[i]? with
  | none => simp [hp] at hi
  | some x =>
    rw [hp] at hi
    exact ne_nil_of_text_mem_nodesAt hi

/-- The plan's element and template nodes are the opening placeholders, in order. -/
theorem filterMap_slot?_planOf (root : Option Nat) (ps : List MessagePart) :
    (planOf root ps).filterMap PlannedNode.slot? = ps.filterMap openedSlot? := by
  rw [planOf, List.filterMap_append, filterMap_slot?_emitted, filterMap_slot?_runNode,
    List.append_nil]

/-- The plan's text nodes hold the text and expression parts, in order. -/
theorem flatMap_pieces_planOf (root : Option Nat) (ps : List MessagePart) :
    (planOf root ps).flatMap PlannedNode.pieces = ps.filterMap runPiece? := by
  rw [planOf, List.flatMap_append, flatMap_pieces_runNode, flatMap_pieces_emitted]

/-- No text node of the plan is empty. -/
theorem ne_nil_of_text_mem_planOf {root p : Option Nat} {ps : List MessagePart}
    {parts : List I18nPart} (h : PlannedNode.text p parts ∈ planOf root ps) : parts ≠ [] := by
  rcases List.mem_append.mp h with h | h
  · exact ne_nil_of_text_mem_emitted h
  · exact ne_nil_of_text_mem_runNode h

example : planOf (some 0) [.text "Hi ", .elementStart 2, .expression 0, .text "!",
    .elementEnd 2, .text " bye"] =
    [.text (some 0) [.literal "Hi "], .element 2 (some 0),
      .text (some 2) [.binding 0, .literal "!"], .text (some 0) [.literal " bye"]] := by
  decide

end I18nPlan

/-- Planning a translated block is faithful to its message: it succeeds exactly when the element
placeholders nest, and then every node sits under the innermost element open at its position (or
the root); the element and template nodes are the opening placeholders in order; and the text
nodes hold the text and expression parts in order, in runs that are never empty and that each
end at a placeholder or at the end of the message. -/
theorem planBlock_faithful (ps : List MessagePart) (root : Option Nat) :
    ((∃ plan, planBlock ps root = .ok plan) ↔ I18nPlan.Nested ps) ∧
    ∀ plan, planBlock ps root = .ok plan →
      plan = I18nPlan.planOf root ps ∧
      plan.filterMap PlannedNode.slot? = ps.filterMap MessagePart.openedSlot? ∧
      plan.flatMap PlannedNode.pieces = ps.filterMap MessagePart.runPiece? ∧
      ∀ parent parts, PlannedNode.text parent parts ∈ plan → parts ≠ [] := by
  refine ⟨⟨fun ⟨plan, h⟩ => ((I18nPlan.planBlock_eq_ok_iff ps root plan).mp h).1,
    fun h => ⟨_, (I18nPlan.planBlock_eq_ok_iff ps root _).mpr ⟨h, rfl⟩⟩⟩, fun plan h => ?_⟩
  obtain ⟨-, rfl⟩ := (I18nPlan.planBlock_eq_ok_iff ps root plan).mp h
  exact ⟨rfl, I18nPlan.filterMap_slot?_planOf root ps, I18nPlan.flatMap_pieces_planOf root ps,
    fun _ _ hm => I18nPlan.ne_nil_of_text_mem_planOf hm⟩


end ViewHydration
