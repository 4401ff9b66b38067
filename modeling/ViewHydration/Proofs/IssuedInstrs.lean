import ViewHydration.Proofs.Threading
import ViewHydration.Proofs.Monad

/-!
# The instructions a pass issues

A template's program nests instructions in conditions and loops. Run in a scope, it issues a
flat sequence of instructions, each with the scope it runs in: a condition issues the branch its
variable selects, and a loop issues its body once per round, with the round number bound.
Running a block is running the instructions it issues, in order (`runBlock_eq_runIssued`), so a
pass can be followed one issued instruction at a time.

An issued node instruction moves the render position (`Instr.moves`), and an instruction that
declares a slot names it (`Instr.slots`).
-/

namespace ViewHydration

namespace Instr

mutual

/-- The instructions an instruction issues in a scope, each with the scope it runs in. -/
def issue (scope : Scope) : Instr → List (Scope × Instr)
  | .cond var thenBranch elseBranch =>
    if (scope.lookup var).isEmpty then issueAll scope elseBranch else issueAll scope thenBranch
  | .loop count var body =>
    (List.range (min (scope.count count) 1000)).flatMap fun k =>
      issueAll (scope.bind var (toString k)) body
  | i => [(scope, i)]

/-- The instructions a block issues in a scope, in order. -/
def issueAll (scope : Scope) : List Instr → List (Scope × Instr)
  | [] => []
  | i :: rest => issue scope i ++ issueAll scope rest

end

/-- Whether an instruction is a condition or a loop, which issue other instructions. -/
def isFlow : Instr → Bool
  | .cond .. => true
  | .loop .. => true
  | _ => false

theorem issue_of_isFlow_eq_false {i : Instr} (h : i.isFlow = false) (scope : Scope) :
    i.issue scope = [(scope, i)] := by
  cases i <;> first | rfl | cases h

mutual

/-- An issued instruction is neither a condition nor a loop, and runs with the outside variables
of the scope it was issued in. -/
theorem issued_of_mem_issue : ∀ {scope : Scope} {i : Instr} {p : Scope × Instr},
    p ∈ i.issue scope → p.2.isFlow = false ∧ p.1.vars = scope.vars
  | _, .cond .., _, h => by
    rw [issue] at h
    split at h
    · exact issued_of_mem_issueAll h
    · exact issued_of_mem_issueAll h
  | _, .loop .., _, h => by
    rw [issue, List.mem_flatMap] at h
    obtain ⟨_, -, hk⟩ := h
    -- a round binds a loop variable, which leaves the outside variables as they are
    have hround := issued_of_mem_issueAll hk
    exact hround
  | _, .elementStart .., _, h | _, .element .., _, h | _, .elementEnd, _, h
  | _, .elementContainerStart .., _, h | _, .elementContainer .., _, h
  | _, .elementContainerEnd, _, h | _, .text .., _, h | _, .textInterpolate .., _, h
  | _, .template .., _, h | _, .createEmbeddedView .., _, h | _, .removeEmbeddedView .., _, h
  | _, .clearContainer .., _, h | _, .containerLength .., _, h | _, .createContainerRef .., _, h
  | _, .i18nStart .., _, h | _, .i18n .., _, h | _, .i18nEnd, _, h | _, .i18nAttributes .., _, h
  | _, .i18nExp .., _, h | _, .i18nApply .., _, h | _, .localRef .., _, h
  | _, .removeLocalRef .., _, h | _, .removeSlotNode .., _, h | _, .probe, _, h => by
    rw [issue_of_isFlow_eq_false rfl, List.mem_singleton] at h
    subst h
    exact ⟨rfl, rfl⟩

theorem issued_of_mem_issueAll : ∀ {scope : Scope} {instrs : List Instr} {p : Scope × Instr},
    p ∈ issueAll scope instrs → p.2.isFlow = false ∧ p.1.vars = scope.vars
  | _, [], _, h => nomatch h
  | _, _ :: _, _, h => by
    rw [issueAll, List.mem_append] at h
    rcases h with h | h
    · exact issued_of_mem_issue h
    · exact issued_of_mem_issueAll h

end

theorem isFlow_of_mem_issueAll {scope : Scope} {instrs : List Instr} {p : Scope × Instr}
    (h : p ∈ issueAll scope instrs) : p.2.isFlow = false :=
  (issued_of_mem_issueAll h).1

theorem vars_of_mem_issueAll {scope : Scope} {instrs : List Instr} {p : Scope × Instr}
    (h : p ∈ issueAll scope instrs) : p.1.vars = scope.vars :=
  (issued_of_mem_issueAll h).2

/-- The moves of the render position that a node instruction makes. -/
def moves (scope : Scope) : Instr → List Move
  | .elementStart index .. => [.enter (scope.count index)]
  | .element index .. => [.enter (scope.count index), .leave]
  | .elementEnd => [.leave]
  | .elementContainerStart index .. => [.enter (scope.count index)]
  | .elementContainer index .. => [.enter (scope.count index), .leave]
  | .elementContainerEnd => [.leave]
  | .text index _ => [.place (scope.count index)]
  | .template index .. => [.place (scope.count index)]
  | _ => []

/-- The slots an instruction declares: its node's, its translated block's or its translated
attributes'. -/
def slots (scope : Scope) : Instr → List Nat
  | .i18nStart index .. => [scope.count index]
  | .i18n index .. => [scope.count index]
  | .i18nAttributes index .. => [scope.count index]
  | i => (i.moves scope).filterMap Move.slot?

/-- Whether an instruction creates an embedded view, which runs passes of its own. -/
def startsView : Instr → Bool
  | .createEmbeddedView .. => true
  | _ => false

end Instr

namespace RenderM

theorem runInstr_eq_simpleInstr {fuel : Nat} {scope : Scope} {i : Instr} (hflow : i.isFlow = false)
    (hview : i.startsView = false) : runInstr fuel scope i = simpleInstr scope i := by
  apply runInstr.eq_4 <;> rintro _ _ _ rfl
  · exact absurd hflow (by simp [Instr.isFlow])
  · exact absurd hflow (by simp [Instr.isFlow])
  · exact absurd hview (by simp [Instr.startsView])

/-- Runs issued instructions in order, stopping at the first failure. -/
def runIssued (fuel : Nat) : List (Scope × Instr) → RenderM Unit
  | [] => pure ()
  | p :: rest => do
    runInstr fuel p.1 p.2
    runIssued fuel rest

@[simp] theorem runIssued_nil (fuel : Nat) : runIssued fuel [] = pure () := rfl

theorem runIssued_cons (fuel : Nat) (p : Scope × Instr) (rest : List (Scope × Instr)) :
    runIssued fuel (p :: rest) = runInstr fuel p.1 p.2 >>= fun _ => runIssued fuel rest := rfl

theorem runIssued_append (fuel : Nat) (xs ys : List (Scope × Instr)) :
    runIssued fuel (xs ++ ys) = runIssued fuel xs >>= fun _ => runIssued fuel ys := by
  induction xs with
  | nil => simp
  | cons p xs ih => rw [List.cons_append, runIssued_cons, runIssued_cons, ih, bind_assoc]

/-- A loop whose rounds each run what a list issues runs what the lists issue one after the
other. -/
theorem forIn_runIssued (fuel : Nat) (g : Nat → List (Scope × Instr)) :
    ∀ xs : List Nat, forIn xs PUnit.unit (fun k _ => do
        runIssued fuel (g k)
        pure (ForInStep.yield PUnit.unit)) = runIssued fuel (xs.flatMap g)
  | [] => rfl
  | k :: xs => by
    rw [List.forIn_cons, List.flatMap_cons, runIssued_append, bind_assoc, ← forIn_runIssued fuel g xs]
    simp

mutual

theorem runInstr_eq_runIssued (fuel : Nat) (scope : Scope) :
    ∀ i : Instr, runInstr fuel scope i = runIssued fuel (i.issue scope)
  | .cond var thenBranch elseBranch => by
    rw [runInstr, Instr.issue]
    split
    · exact runBlock_eq_runIssued fuel scope elseBranch
    · exact runBlock_eq_runIssued fuel scope thenBranch
  | .loop count var body => by
    have hbody : ∀ s, runBlock fuel s body = runIssued fuel (Instr.issueAll s body) :=
      fun s => runBlock_eq_runIssued fuel s body
    rw [runInstr, Instr.issue, ← forIn_runIssued]
    simp only [hbody, bind_pure_unit]
  | .elementStart .. | .element .. | .elementEnd | .elementContainerStart .. | .elementContainer ..
  | .elementContainerEnd | .text .. | .textInterpolate .. | .template .. | .createEmbeddedView ..
  | .removeEmbeddedView .. | .clearContainer .. | .containerLength .. | .createContainerRef ..
  | .i18nStart .. | .i18n .. | .i18nEnd | .i18nAttributes .. | .i18nExp .. | .i18nApply ..
  | .localRef .. | .removeLocalRef .. | .removeSlotNode .. | .probe => by
    rw [Instr.issue_of_isFlow_eq_false rfl, runIssued_cons, runIssued_nil, bind_pure]

theorem runBlock_eq_runIssued (fuel : Nat) (scope : Scope) :
    ∀ instrs : List Instr, runBlock fuel scope instrs = runIssued fuel (Instr.issueAll scope instrs)
  | [] => by
    rw [runBlock, Instr.issueAll]
    rfl
  | i :: rest => by
    rw [runBlock, Instr.issueAll, runIssued_append, runInstr_eq_runIssued fuel scope i,
      runBlock_eq_runIssued fuel scope rest]

end

end RenderM

end ViewHydration
