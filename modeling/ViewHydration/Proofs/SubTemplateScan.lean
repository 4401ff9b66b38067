import Mathlib.Data.List.Basic
import ViewHydration.I18n.SubTemplate

/-!
# Scanning for sub-template placeholders

`subTemplateMarks` is a transducer over characters: `scanStep` is its action on one character,
and scanning a concatenation scans its parts in turn (`scanMarks_append`). It finds placeholders
in order and without overlap (`marks_ordered`), and it starts afresh at every placeholder it finds
(`scanMarks_resync`), so a text cut at the edges of its placeholders scans piece by piece
(`marks_after`, `marks_from`, `marks_append_of_none`).
-/

namespace ViewHydration

namespace Message

/-! ### The scanner one character at a time -/

/-- What the scanner does at one character: the placeholder it completes there, if any, and the
candidate it holds afterwards. -/
def scanStep (pos : Nat) (cand : Option MarkCandidate) (c : Char) :
    Option SubTemplateMark × Option MarkCandidate :=
  let restart : Option MarkCandidate := if c == marker then some ⟨pos, .opened, ""⟩ else none
  match cand with
  | none => (none, restart)
  | some k =>
    match k.phase with
    | .opened =>
      if c == '/' then (none, some { k with phase := .slash })
      else if c == '*' then (none, some { k with phase := .slot false })
      else (none, restart)
    | .slash =>
      if c == '*' then (none, some { k with phase := .slot false }) else (none, restart)
    | .slot seen =>
      if Text.isDecimalDigit c then
        (none, some { k with phase := .slot true, tag := k.tag.push c })
      else if c == ':' && seen then
        (none, some { k with phase := .sub false, tag := k.tag.push c })
      else (none, restart)
    | .sub seen =>
      if Text.isDecimalDigit c then
        (none, some { k with phase := .sub true, tag := k.tag.push c })
      else if c == marker && seen then (some ⟨k.start, pos + 1, k.tag⟩, none)
      else (none, restart)

/-- The candidate the scanner holds after reading `cs`. -/
def scanState (pos : Nat) (cand : Option MarkCandidate) : List Char → Option MarkCandidate
  | [] => cand
  | c :: rest => scanState (pos + 1) (scanStep pos cand c).2 rest

theorem scanMarks_cons (pos : Nat) (cand : Option MarkCandidate) (c : Char) (rest : List Char) :
    scanMarks pos cand (c :: rest) =
      (scanStep pos cand c).1.toList ++ scanMarks (pos + 1) (scanStep pos cand c).2 rest := by
  have hrestart : (if c == marker then scanMarks (pos + 1) (some ⟨pos, .opened, ""⟩) rest
      else scanMarks (pos + 1) none rest) =
      scanMarks (pos + 1) (if c == marker then some ⟨pos, .opened, ""⟩ else none) rest := by
    split <;> rfl
  rcases cand with _ | ⟨start, phase, tag⟩
  · simp only [scanMarks, scanStep, hrestart]
    rfl
  · cases phase <;> simp only [scanMarks, scanStep, hrestart] <;> split_ifs <;> rfl

/-- Scanning a concatenation scans its parts in turn. -/
theorem scanMarks_append (pos : Nat) (cand : Option MarkCandidate) (xs ys : List Char) :
    scanMarks pos cand (xs ++ ys) =
      scanMarks pos cand xs ++ scanMarks (pos + xs.length) (scanState pos cand xs) ys := by
  induction xs generalizing pos cand with
  | nil => simp [scanMarks, scanState]
  | cons c xs ih =>
    rw [List.cons_append, scanMarks_cons, scanMarks_cons, ih, scanState, List.length_cons,
      List.append_assoc, show pos + 1 + xs.length = pos + (xs.length + 1) by omega]

/-- A placeholder moved `d` characters to the right. -/
def SubTemplateMark.shift (d : Nat) (k : SubTemplateMark) : SubTemplateMark :=
  { k with start := k.start + d, stop := k.stop + d }

/-- A candidate moved `d` characters to the right. -/
def MarkCandidate.shift (d : Nat) (k : MarkCandidate) : MarkCandidate :=
  { k with start := k.start + d }

@[simp] theorem SubTemplateMark.start_shift (d : Nat) (k : SubTemplateMark) :
    (k.shift d).start = k.start + d := rfl

@[simp] theorem SubTemplateMark.stop_shift (d : Nat) (k : SubTemplateMark) :
    (k.shift d).stop = k.stop + d := rfl

@[simp] theorem SubTemplateMark.tag_shift (d : Nat) (k : SubTemplateMark) :
    (k.shift d).tag = k.tag := rfl

@[simp] theorem SubTemplateMark.shift_shift (d e : Nat) (k : SubTemplateMark) :
    (k.shift d).shift e = k.shift (d + e) := by
  simp only [SubTemplateMark.shift, Nat.add_assoc]

theorem scanStep_shift (pos d : Nat) (cand : Option MarkCandidate) (c : Char) :
    scanStep (pos + d) (cand.map (MarkCandidate.shift d)) c =
      ((scanStep pos cand c).1.map (SubTemplateMark.shift d),
        (scanStep pos cand c).2.map (MarkCandidate.shift d)) := by
  rcases cand with _ | ⟨start, phase, tag⟩
  · simp only [scanStep, Option.map]
    split <;> rfl
  · -- with the candidate moved first, both sides take the same branch
    cases phase <;> simp only [scanStep, Option.map, MarkCandidate.shift] <;> split_ifs <;>
      simp [SubTemplateMark.shift, Nat.add_right_comm]

/-- The scanner reads the same text the same way wherever it stands. -/
theorem scanMarks_shift (pos d : Nat) (cand : Option MarkCandidate) (cs : List Char) :
    scanMarks (pos + d) (cand.map (MarkCandidate.shift d)) cs =
      (scanMarks pos cand cs).map (SubTemplateMark.shift d) := by
  induction cs generalizing pos cand with
  | nil => simp [scanMarks]
  | cons c rest ih =>
    rw [scanMarks_cons, scanMarks_cons, scanStep_shift, List.map_append, ← ih,
      show pos + d + 1 = pos + 1 + d by omega]
    cases (scanStep pos cand c).1 <;> rfl

/-- A fresh scan from position `pos` finds the placeholders of a fresh scan from the start, moved
by `pos`. -/
theorem scanMarks_none (pos : Nat) (cs : List Char) :
    scanMarks pos none cs = (subTemplateMarks cs).map (SubTemplateMark.shift pos) := by
  have h := scanMarks_shift 0 pos none cs
  rw [Nat.zero_add] at h
  exact h

/-! ### Where the placeholders lie -/

/-- Every candidate the scanner holds started before the current position. -/
def StartsBefore (pos : Nat) (cand : Option MarkCandidate) : Prop :=
  ∀ k, cand = some k → k.start < pos

/-- At each character the scanner completes its candidate, keeps it under the same start, or does
what it does from no candidate. -/
theorem scanStep_cases (pos : Nat) (cand : Option MarkCandidate) (c : Char) :
    (∃ k, cand = some k ∧ scanStep pos cand c = (some ⟨k.start, pos + 1, k.tag⟩, none)) ∨
    (∃ k k', cand = some k ∧ k'.start = k.start ∧ scanStep pos cand c = (none, some k')) ∨
    scanStep pos cand c = scanStep pos none c := by
  rcases cand with _ | ⟨start, phase, tag⟩
  · exact Or.inr (Or.inr rfl)
  · cases phase <;> simp only [scanStep] <;> split_ifs <;> simp_all [marker]

theorem startsBefore_step {pos : Nat} {cand : Option MarkCandidate} (h : StartsBefore pos cand)
    (c : Char) : StartsBefore (pos + 1) (scanStep pos cand c).2 := by
  intro k' hk'
  rcases scanStep_cases pos cand c with ⟨k, -, hs⟩ | ⟨k, k'', hk, hstart, hs⟩ | hs
  · rw [hs] at hk'
    cases hk'
  · rw [hs] at hk'
    cases hk'
    have := h k hk
    omega
  · rw [hs] at hk'
    simp only [scanStep] at hk'
    split at hk'
    · cases hk'
      simp
    · cases hk'

theorem startsBefore_scanState {pos : Nat} {cand : Option MarkCandidate} (h : StartsBefore pos cand)
    (cs : List Char) : StartsBefore (pos + cs.length) (scanState pos cand cs) := by
  induction cs generalizing pos cand with
  | nil => exact h
  | cons c rest ih =>
    rw [scanState, List.length_cons, ← Nat.add_comm 1, ← Nat.add_assoc]
    exact ih (startsBefore_step h c)

/-- A placeholder found from `pos` starts at `pos` or later, or where the candidate held at `pos`
started. -/
theorem start_of_mem {pos : Nat} {cand : Option MarkCandidate} {cs : List Char}
    {k : SubTemplateMark} (hk : k ∈ scanMarks pos cand cs) :
    pos ≤ k.start ∨ ∃ k₀, cand = some k₀ ∧ k.start = k₀.start := by
  induction cs generalizing pos cand with
  | nil => simp [scanMarks] at hk
  | cons c rest ih =>
    rw [scanMarks_cons, List.mem_append] at hk
    rcases scanStep_cases pos cand c with ⟨k₀, hc, hs⟩ | ⟨k₀, k₁, hc, hstart, hs⟩ | hs <;>
      rw [hs] at hk
    · rcases hk with hk | hk
      · simp only [Option.toList_some, List.mem_singleton] at hk
        exact Or.inr ⟨k₀, hc, by rw [hk]⟩
      · rcases ih hk with h | ⟨_, h, _⟩
        · exact Or.inl (by omega)
        · cases h
    · rcases hk with hk | hk
      · simp at hk
      · rcases ih hk with h | ⟨k₂, h, hk₂⟩
        · exact Or.inl (by omega)
        · cases h
          exact Or.inr ⟨k₀, hc, by rw [hk₂, hstart]⟩
    · rcases hk with hk | hk
      · simp [scanStep] at hk
      · rcases ih hk with h | ⟨k₂, h, hk₂⟩
        · exact Or.inl (by omega)
        · simp only [scanStep] at h
          split at h
          · cases h
            exact Or.inl (Nat.le_of_eq hk₂.symm)
          · cases h

/-- Each placeholder found spans at least one character, and ends within the text read. -/
theorem mark_bounds {pos : Nat} {cand : Option MarkCandidate} (h : StartsBefore pos cand)
    {cs : List Char} {k : SubTemplateMark} (hk : k ∈ scanMarks pos cand cs) :
    k.start < k.stop ∧ pos + 1 ≤ k.stop ∧ k.stop ≤ pos + cs.length := by
  induction cs generalizing pos cand with
  | nil => simp [scanMarks] at hk
  | cons c rest ih =>
    rw [scanMarks_cons, List.mem_append] at hk
    rcases hk with hk | hk
    · rcases scanStep_cases pos cand c with ⟨k₀, hc, hs⟩ | ⟨k₀, k₁, hc, -, hs⟩ | hs <;>
        rw [hs] at hk
      · simp only [Option.toList_some, List.mem_singleton] at hk
        subst hk
        have := h k₀ hc
        simp only [List.length_cons]
        omega
      · simp at hk
      · simp [scanStep] at hk
    · have := ih (startsBefore_step h c) hk
      simp only [List.length_cons]
      omega

/-- The placeholders found come in order and do not overlap. -/
theorem marks_pairwise {pos : Nat} {cand : Option MarkCandidate} (h : StartsBefore pos cand)
    (cs : List Char) :
    (scanMarks pos cand cs).Pairwise fun a b => a.stop ≤ b.start := by
  induction cs generalizing pos cand with
  | nil => simp [scanMarks]
  | cons c rest ih =>
    rw [scanMarks_cons, List.pairwise_append]
    refine ⟨?_, ih (startsBefore_step h c), fun a ha b hb => ?_⟩
    · cases (scanStep pos cand c).1 <;> simp
    · -- a placeholder completed here leaves no candidate, so the next ones start later
      rcases scanStep_cases pos cand c with ⟨k₀, -, hs⟩ | ⟨k₀, k₁, -, -, hs⟩ | hs <;>
        rw [hs] at ha hb
      · simp only [Option.toList_some, List.mem_singleton] at ha
        subst ha
        rcases start_of_mem hb with h' | ⟨_, h', _⟩
        · exact h'
        · cases h'
      · simp at ha
      · simp [scanStep] at ha

/-- A placeholder that ends where the text ends was completed at its last character, which
leaves no candidate. -/
theorem scanState_eq_none {pos : Nat} {cand : Option MarkCandidate} {cs : List Char}
    {k : SubTemplateMark} (hk : k ∈ scanMarks pos cand cs) (hstop : k.stop = pos + cs.length) :
    scanState pos cand cs = none := by
  induction cs generalizing pos cand with
  | nil => simp [scanMarks] at hk
  | cons c rest ih =>
    rw [scanMarks_cons, List.mem_append] at hk
    rw [scanState]
    rcases hk with hk | hk
    · rcases scanStep_cases pos cand c with ⟨k₀, -, hs⟩ | ⟨k₀, k₁, -, -, hs⟩ | hs <;>
        rw [hs] at hk ⊢
      · simp only [Option.toList_some, List.mem_singleton] at hk
        subst hk
        simp only [List.length_cons] at hstop
        have hrest : rest = [] := List.eq_nil_of_length_eq_zero (by omega)
        subst hrest
        rfl
      · simp at hk
      · simp [scanStep] at hk
    · exact ih hk (by simp only [List.length_cons] at hstop; omega)

/-- Where a placeholder it finds starts, the scanner holds no candidate that matters: from there
it reads as it would from no candidate. -/
theorem scanMarks_resync {pos : Nat} {cand : Option MarkCandidate} (h : StartsBefore pos cand)
    {cs : List Char} {k : SubTemplateMark} {rest : List SubTemplateMark}
    (hcs : scanMarks pos cand cs = k :: rest) (hk : k.start = pos) :
    scanMarks pos cand cs = scanMarks pos none cs := by
  cases cs with
  | nil => simp [scanMarks] at hcs
  | cons c cs =>
    rw [scanMarks_cons] at hcs ⊢
    rcases scanStep_cases pos cand c with ⟨k₀, hc, hs⟩ | ⟨k₀, k₁, hc, hstart, hs⟩ | hs
    · -- a placeholder completed here started before `pos`
      rw [hs] at hcs
      simp only [Option.toList_some, List.singleton_append, List.cons.injEq] at hcs
      obtain ⟨rfl, -⟩ := hcs
      have := h k₀ hc
      dsimp only at hk
      omega
    · -- a kept candidate started before `pos`, and new ones start after it
      rw [hs] at hcs
      simp only [Option.toList_none, List.nil_append] at hcs
      have hmem : k ∈ scanMarks (pos + 1) (some k₁) cs := by
        rw [hcs]
        exact List.mem_cons_self
      have := h k₀ hc
      rcases start_of_mem hmem with h' | ⟨k₂, h', hk₂⟩
      · omega
      · cases h'
        omega
    · rw [hs, scanMarks_cons]

/-! ### Cutting a text at its placeholders -/

theorem startsBefore_none (pos : Nat) : StartsBefore pos none := fun _ h => by cases h

/-- The placeholders of a text come in order, do not overlap, and are not empty. -/
theorem marks_ordered (xs : List Char) :
    (subTemplateMarks xs).Pairwise (fun a b => a.stop ≤ b.start) ∧
      ∀ k ∈ subTemplateMarks xs, k.start < k.stop :=
  ⟨marks_pairwise (startsBefore_none 0) xs, fun _ hk => (mark_bounds (startsBefore_none 0) hk).1⟩

/-- A placeholder found ends within the text. -/
theorem stop_le_length {xs : List Char} {k : SubTemplateMark} (hk : k ∈ subTemplateMarks xs) :
    k.stop ≤ xs.length := by
  have := (mark_bounds (startsBefore_none 0) hk).2.2
  omega

theorem stop_le_of_mem_take {xs : List Char} {p : Nat} {k : SubTemplateMark}
    (hk : k ∈ subTemplateMarks (xs.take p)) : k.stop ≤ p :=
  Nat.le_trans (stop_le_length hk) (List.length_take_le _ _)

/-- Placeholders found from position `d` end after it. -/
theorem lt_stop_of_mem_shift {d : Nat} {ys : List Char} {k : SubTemplateMark}
    (hk : k ∈ (subTemplateMarks ys).map (SubTemplateMark.shift d)) : d < k.stop := by
  obtain ⟨j, hj, rfl⟩ := List.mem_map.mp hk
  have := (mark_bounds (startsBefore_none 0) hj).2.1
  simp only [SubTemplateMark.shift]
  omega

/-- Two cuts of one list of placeholders, each between those that end by `b` and those that end
after it, are the same cut. -/
theorem cut_unique {P Q P' Q' : List SubTemplateMark} {b : Nat} (h : P ++ Q = P' ++ Q')
    (hP : ∀ k ∈ P, k.stop ≤ b) (hQ : ∀ k ∈ Q, b < k.stop) (hP' : ∀ k ∈ P', k.stop ≤ b)
    (hQ' : ∀ k ∈ Q', b < k.stop) : P = P' ∧ Q = Q' := by
  induction P generalizing P' with
  | nil =>
    cases P' with
    | nil => exact ⟨rfl, h⟩
    | cons k P' =>
      have hk : k ∈ Q := by
        rw [List.nil_append] at h
        rw [h]
        exact List.mem_cons_self
      have h₁ := hQ k hk
      have h₂ := hP' k List.mem_cons_self
      omega
  | cons k P ih =>
    cases P' with
    | nil =>
      have hk : k ∈ Q' := by
        rw [List.nil_append] at h
        rw [← h]
        exact List.mem_cons_self
      have h₁ := hQ' k hk
      have h₂ := hP k List.mem_cons_self
      omega
    | cons k' P' =>
      simp only [List.cons_append, List.cons.injEq] at h
      obtain ⟨rfl, h⟩ := h
      obtain ⟨h₁, h₂⟩ := ih h (fun j hj => hP j (List.mem_cons_of_mem _ hj))
        (fun j hj => hP' j (List.mem_cons_of_mem _ hj))
      exact ⟨by rw [h₁], h₂⟩

/-- Cut at a position inside the text, the scan reads the first part, then the rest from the
candidate the first part leaves, which started before the cut. -/
theorem marks_split {xs : List Char} {p : Nat} (hp : p ≤ xs.length) :
    subTemplateMarks xs = subTemplateMarks (xs.take p) ++
        scanMarks p (scanState 0 none (xs.take p)) (xs.drop p) ∧
      StartsBefore p (scanState 0 none (xs.take p)) := by
  have hlen : (xs.take p).length = p := List.length_take_of_le hp
  have hsplit := scanMarks_append 0 none (xs.take p) (xs.drop p)
  rw [List.take_append_drop, hlen, Nat.zero_add] at hsplit
  have hs := startsBefore_scanState (startsBefore_none 0) (xs.take p)
  rw [hlen, Nat.zero_add] at hs
  exact ⟨hsplit, hs⟩

/-- Cut after a placeholder it found, a text scans as its two parts, and the first part leaves no
candidate. -/
theorem marks_cut_stop {xs : List Char} {k : SubTemplateMark} (hk : k ∈ subTemplateMarks xs) :
    subTemplateMarks xs = subTemplateMarks (xs.take k.stop) ++
        (subTemplateMarks (xs.drop k.stop)).map (SubTemplateMark.shift k.stop) ∧
      scanState 0 none (xs.take k.stop) = none := by
  have hlen : (xs.take k.stop).length = k.stop := List.length_take_of_le (stop_le_length hk)
  obtain ⟨hsplit, hs⟩ := marks_split (stop_le_length hk)
  -- what the second part finds ends after `k.stop`, so `k` is found in the first
  have hfirst : k ∈ subTemplateMarks (xs.take k.stop) := by
    rw [hsplit, List.mem_append] at hk
    rcases hk with h | h
    · exact h
    · have := (mark_bounds hs h).2.1
      omega
  have hnone := scanState_eq_none hfirst (by rw [hlen, Nat.zero_add])
  refine ⟨?_, hnone⟩
  rw [hsplit, hnone, scanMarks_none]

/-- Around a placeholder found, those before it end by its start, and those after it start
after its end. -/
theorem marks_around {xs : List Char} {pre post : List SubTemplateMark} {k : SubTemplateMark}
    (h : subTemplateMarks xs = pre ++ k :: post) :
    (∀ j ∈ pre, j.stop ≤ k.start) ∧ k.start < k.stop ∧
      ∀ j ∈ post, k.stop ≤ j.start ∧ j.start < j.stop := by
  obtain ⟨hord, hlt⟩ := marks_ordered xs
  rw [h] at hord hlt
  refine ⟨fun j hj => (List.pairwise_append.mp hord).2.2 j hj k List.mem_cons_self,
    hlt k List.mem_append_cons_self, fun j hj => ⟨?_, ?_⟩⟩
  · exact (List.pairwise_cons.mp (List.pairwise_append.mp hord).2.1).1 j hj
  · exact hlt j (List.mem_append_right _ (List.mem_cons_of_mem _ hj))

/-- The placeholders after one found are those of the text after it. -/
theorem marks_after {xs : List Char} {pre post : List SubTemplateMark} {k : SubTemplateMark}
    (h : subTemplateMarks xs = pre ++ k :: post) :
    post = (subTemplateMarks (xs.drop k.stop)).map (SubTemplateMark.shift k.stop) := by
  have hk : k ∈ subTemplateMarks xs := by
    rw [h]
    exact List.mem_append_cons_self
  obtain ⟨hcut, -⟩ := marks_cut_stop hk
  obtain ⟨hpre, hlt, hpost⟩ := marks_around h
  have heq : (pre ++ [k]) ++ post = subTemplateMarks (xs.take k.stop) ++
      (subTemplateMarks (xs.drop k.stop)).map (SubTemplateMark.shift k.stop) := by
    rw [List.append_assoc, List.singleton_append, ← h]
    exact hcut
  refine (cut_unique (b := k.stop) heq ?_ ?_ ?_ ?_).2
  · intro j hj
    rcases List.mem_append.mp hj with hj | hj
    · have := hpre j hj
      omega
    · obtain rfl := List.mem_singleton.mp hj
      exact Nat.le_refl _
  · intro j hj
    have := hpost j hj
    omega
  · exact fun j hj => stop_le_of_mem_take hj
  · exact fun j hj => lt_stop_of_mem_shift hj

/-- Read from where a placeholder found starts, the text finds that placeholder and all after it. -/
theorem marks_from {xs : List Char} {pre post : List SubTemplateMark} {k : SubTemplateMark}
    (h : subTemplateMarks xs = pre ++ k :: post) :
    (subTemplateMarks (xs.drop k.start)).map (SubTemplateMark.shift k.start) = k :: post := by
  obtain ⟨hpre, hlt, hpost⟩ := marks_around h
  have hb := stop_le_length (show k ∈ subTemplateMarks xs by
    rw [h]
    exact List.mem_append_cons_self)
  obtain ⟨hsplit, hs⟩ := marks_split (show k.start ≤ xs.length by omega)
  -- the text before `k.start` finds what ends by then, which is what comes before `k`; the
  -- rest finds what ends after it
  have hcut := cut_unique (b := k.start) (hsplit.symm.trans h)
    (fun j hj => stop_le_of_mem_take hj)
    (fun j hj => by have := (mark_bounds hs hj).2.1; omega) hpre
    (fun j hj => by
      rcases List.mem_cons.mp hj with rfl | hj
      · exact hlt
      · have := hpost j hj
        omega)
  rw [← scanMarks_none]
  exact (scanMarks_resync hs hcut.2 rfl).symm.trans hcut.2

/-- The text up to the end of the first placeholder scans as that placeholder alone, and leaves
no candidate. -/
theorem marks_take_first {ys : List Char} {k : SubTemplateMark} {tail : List SubTemplateMark}
    (h : subTemplateMarks ys = k :: tail) :
    subTemplateMarks (ys.take k.stop) = [k] ∧ scanState 0 none (ys.take k.stop) = none := by
  have hk : k ∈ subTemplateMarks ys := by
    rw [h]
    exact List.mem_cons_self
  obtain ⟨hcut, hnone⟩ := marks_cut_stop hk
  have hafter := marks_after (show subTemplateMarks ys = [] ++ k :: tail from h)
  refine ⟨List.append_cancel_right (hcut.symm.trans ?_), hnone⟩
  rw [h, hafter]
  rfl

/-- The text of a placeholder found scans as that placeholder alone, and leaves no candidate. -/
theorem marks_of_markText {xs : List Char} {k : SubTemplateMark} (hk : k ∈ subTemplateMarks xs) :
    subTemplateMarks (slice xs k.start k.stop) = [⟨0, k.stop - k.start, k.tag⟩] ∧
      scanState 0 none (slice xs k.start k.stop) = none := by
  obtain ⟨pre, post, h⟩ := List.append_of_mem hk
  obtain ⟨⟨s, e, t⟩, post₀, hk₀, hshift, -⟩ := List.map_eq_cons_iff.mp (marks_from h)
  have hstart := congrArg SubTemplateMark.start hshift
  have hstop := congrArg SubTemplateMark.stop hshift
  have htag := congrArg SubTemplateMark.tag hshift
  simp only [SubTemplateMark.start_shift, SubTemplateMark.stop_shift,
    SubTemplateMark.tag_shift] at hstart hstop htag
  have hk₀' : (⟨s, e, t⟩ : SubTemplateMark) = ⟨0, k.stop - k.start, k.tag⟩ := by
    simp only [SubTemplateMark.mk.injEq]
    exact ⟨by omega, by omega, htag⟩
  have hfirst := marks_take_first hk₀
  rw [hk₀'] at hfirst
  exact hfirst

/-- A text that leaves no candidate scans its continuation afresh. -/
theorem marks_append_of_none {xs ys : List Char} (h : scanState 0 none xs = none) :
    subTemplateMarks (xs ++ ys) =
      subTemplateMarks xs ++ (subTemplateMarks ys).map (SubTemplateMark.shift xs.length) := by
  rw [subTemplateMarks, scanMarks_append, h, Nat.zero_add, scanMarks_none xs.length]
  rfl

end Message

end ViewHydration
