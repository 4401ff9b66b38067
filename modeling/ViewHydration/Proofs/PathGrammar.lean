import ViewHydration.Hydration.Path
import ViewHydration.Proofs.MessageGrammar

/-!
# The language of node paths

A node path is written as its anchor followed, for each step, by a dot and the step's name. The
anchor is `host` or a slot index: ASCII digits after an optional `+`, of value below `2 ^ 64`.
This module states that language without reference to how a path is read (`NodePath.Spells`)
and shows that reading accepts exactly it:

- `NodePath.parse_eq_ok_iff` — a text reads as `p` exactly when it spells `p`;
- `NodePath.parse_error` — a text that does not read fails with an invalid-path error about the
  text itself, naming its first segment when that is no anchor, and otherwise the first later
  segment that is no step;
- `NodePath.parse_render` — a printed path whose slot index is below `2 ^ 64` reads back as
  itself, so printing what was read is idempotent: it only normalises how the anchor is written;
- `NodePath.path_language_round_trip` — these together.
-/

namespace ViewHydration

namespace PathAnchor

/-- The anchor's slot index, when it has one, is below `2 ^ 64`: a slot index is a machine word,
so these are the anchors a path names. -/
def Fits : PathAnchor → Prop
  | .host => True
  | .slot n => n < Nat.pow 2 64

end PathAnchor

namespace NodePath

/-! ### The language -/

/-- How an anchor may be written: `host`, or a slot index as ASCII digits after an optional
`+`, of value below `2 ^ 64`. -/
inductive AnchorSpelling : List Char → PathAnchor → Prop
  | host : AnchorSpelling "host".toList .host
  | slot (plus : Bool) (ds : List Char) : ds ≠ [] → (∀ c ∈ ds, Text.isAsciiDigit c) →
      Message.decimalValue ds < Nat.pow 2 64 →
      AnchorSpelling ((if plus then ['+'] else []) ++ ds) (.slot (Message.decimalValue ds))

/-- The steps as written after the anchor: a dot and the step's name for each. -/
def stepsText (steps : List PathStep) : List Char :=
  steps.flatMap fun s => '.' :: s.name.toList

/-- A text spells a path when it is a spelling of the path's anchor followed by its steps. -/
def Spells (s : String) (p : NodePath) : Prop :=
  ∃ a, AnchorSpelling a p.anchor ∧ s.toList = a ++ stepsText p.steps

/-- A segment names a step. -/
def IsStepName (seg : String) : Prop := ∃ st : PathStep, seg = st.name

/-- A segment spells an anchor. -/
def IsAnchor (seg : String) : Prop := ∃ x, AnchorSpelling seg.toList x

theorem AnchorSpelling.fits {a : List Char} {x : PathAnchor} (h : AnchorSpelling a x) : x.Fits := by
  cases h with
  | host => trivial
  | slot plus ds _ _ hlt => exact hlt

theorem AnchorSpelling.dot_not_mem {a : List Char} {x : PathAnchor} (h : AnchorSpelling a x) :
    '.' ∉ a := by
  cases h with
  | host => decide
  | slot plus ds _ hdig _ =>
    intro hmem
    rcases List.mem_append.mp hmem with hsign | hds
    · cases plus <;> simp at hsign
    · have := hdig '.' hds
      revert this
      decide

theorem dot_not_mem_name (st : PathStep) : '.' ∉ st.name.toList := by
  cases st <;> decide

theorem stepsText_nil : stepsText [] = [] := rfl

theorem stepsText_cons (st : PathStep) (steps : List PathStep) :
    stepsText (st :: steps) = '.' :: st.name.toList ++ stepsText steps := by
  simp [stepsText]

/-- The text of an anchor and steps is the anchor and the step names joined by dots. -/
theorem intercalate_eq_stepsText (a : List Char) (steps : List PathStep) :
    ['.'].intercalate (a :: steps.map (·.name.toList)) = a ++ stepsText steps := by
  induction steps generalizing a with
  | nil => simp [stepsText_nil]
  | cons st steps ih =>
    rw [List.map_cons, List.intercalate_cons_cons, ih, stepsText_cons]
    simp

/-! ### Reading the anchor -/

/-- How the first segment of a path is read. -/
def readAnchor (path first : String) : Except HydrationError PathAnchor :=
  if first == "host" then pure PathAnchor.host
  else match readCount? first with
    | some n => pure (PathAnchor.slot n)
    | none => throw (.invalidPath path (.badAnchor first))

theorem segments_ne_nil (path : String) : segments path ≠ [] := by
  simp [segments, List.splitOn_ne_nil]

/-- A path is read by reading its first segment as the anchor and each later one as a step. -/
theorem parse_of_segments {path first : String} {rest : List String}
    (h : segments path = first :: rest) :
    parse path = (do
      let anchor ← readAnchor path first
      let steps ← rest.mapM (readStep path)
      pure { anchor := anchor, steps := steps }) := by
  unfold parse readAnchor
  rw [h]
  dsimp only
  split
  · rfl
  · cases readCount? first <;> rfl

/-- The digits after the optional sign are read as a count when there is at least one, all are
ASCII digits, and their value is below `2 ^ 64`. -/
theorem count_of_digits {n : Nat} (cs : List Char) :
    (if (cs.isEmpty || !cs.all Text.isAsciiDigit) = true then none else
      let n := cs.foldl (fun n c => n * 10 + (c.toNat - 48)) 0
      if n < Nat.pow 2 64 then some n else none) = some n ↔
    cs ≠ [] ∧ (∀ c ∈ cs, Text.isAsciiDigit c) ∧ Message.decimalValue cs < Nat.pow 2 64 ∧
      n = Message.decimalValue cs := by
  cases cs with
  | nil => simp
  | cons c r =>
    have hslot := @Message.slotNumber?_eq_some_iff (c :: r) n
    unfold Message.slotNumber? at hslot
    by_cases hall : (c :: r).all Text.isAsciiDigit = true
    · rw [if_pos hall] at hslot
      simp only [List.isEmpty_cons, hall, Bool.not_true, Bool.or_self, Bool.false_eq_true, if_false]
      rw [hslot]
      simp
    · constructor
      · intro h
        simp [hall] at h
      · rintro ⟨-, hdig, -⟩
        exact absurd (List.all_eq_true.mpr hdig) hall

theorem readCount?_eq_some_iff {s : String} {n : Nat} :
    readCount? s = some n ↔ ∃ (plus : Bool) (ds : List Char),
      s.toList = (if plus then ['+'] else []) ++ ds ∧ ds ≠ [] ∧ (∀ c ∈ ds, Text.isAsciiDigit c) ∧
        Message.decimalValue ds < Nat.pow 2 64 ∧ n = Message.decimalValue ds := by
  unfold readCount?
  split
  · -- a leading `+` is dropped, and cannot be read as a digit instead
    rename_i r hs
    refine (count_of_digits r).trans ⟨fun h => ⟨true, r, by simp [hs], h⟩, ?_⟩
    rintro ⟨plus, ds, hds, h⟩
    rw [hs] at hds
    cases plus with
    | true =>
      obtain rfl : r = ds := by simpa using hds
      exact h
    | false =>
      simp only [Bool.false_eq_true, if_false, List.nil_append] at hds
      exact absurd (h.2.1 '+' (by rw [← hds]; exact List.mem_cons_self)) (by decide)
  · rename_i r hnot
    refine (count_of_digits s.toList).trans ⟨fun h => ⟨false, s.toList, by simp, h⟩, ?_⟩
    rintro ⟨plus, ds, hds, h⟩
    cases plus with
    | true => exact absurd hds (by simpa using hnot ds)
    | false =>
      obtain rfl : s.toList = ds := by simpa using hds
      exact h

theorem readCount?_host : readCount? "host" = none := by decide

theorem readAnchor_eq_ok_iff {path first : String} {x : PathAnchor} :
    readAnchor path first = .ok x ↔ AnchorSpelling first.toList x := by
  unfold readAnchor
  constructor
  · intro h
    split at h
    · next hh =>
      cases h
      rw [beq_iff_eq.mp hh]
      exact .host
    · split at h
      · next n hn =>
        cases h
        obtain ⟨plus, ds, hds, hne, hdig, hlt, rfl⟩ := readCount?_eq_some_iff.mp hn
        rw [hds]
        exact .slot plus ds hne hdig hlt
      · cases h
  · intro h
    generalize hfl : first.toList = a at h
    cases h with
    | host =>
      have hfirst : first = "host" := String.toList_inj.mp hfl
      subst hfirst
      rfl
    | slot plus ds hne hdig hlt =>
      have hn : readCount? first = some (Message.decimalValue ds) :=
        readCount?_eq_some_iff.mpr ⟨plus, ds, hfl, hne, hdig, hlt, rfl⟩
      -- `host` is read as no count, so the first segment is not `host`
      have hhost : (first == "host") = false := by
        refine beq_false_of_ne fun he => ?_
        rw [he, readCount?_host] at hn
        cases hn
      rw [hhost, if_neg Bool.false_ne_true, hn]
      rfl

theorem readAnchor_error {path first : String} {e : HydrationError}
    (h : readAnchor path first = .error e) :
    ¬ IsAnchor first ∧ e = .invalidPath path (.badAnchor first) := by
  refine ⟨fun hanchor => ?_, ?_⟩
  · obtain ⟨x, hx⟩ := hanchor
    rw [readAnchor_eq_ok_iff.mpr hx] at h
    cases h
  · unfold readAnchor at h
    split at h
    · cases h
    · split at h
      · cases h
      · cases h
        rfl

/-! ### Reading the steps -/

theorem readStep_eq_ok_iff {path seg : String} {st : PathStep} :
    readStep path seg = .ok st ↔ seg = st.name := by
  unfold readStep
  constructor
  · intro h
    split at h
    · next hf =>
      cases h
      exact beq_iff_eq.mp hf
    · split at h
      · next hn =>
        cases h
        exact beq_iff_eq.mp hn
      · cases h
  · rintro rfl
    cases st <;> rfl

theorem readStep_error {path seg : String} {e : HydrationError} (h : readStep path seg = .error e) :
    ¬ IsStepName seg ∧ e = .invalidPath path (.unknownStep seg) := by
  refine ⟨fun hname => ?_, ?_⟩
  · obtain ⟨st, hst⟩ := hname
    rw [readStep_eq_ok_iff.mpr hst] at h
    cases h
  · unfold readStep at h
    split at h
    · cases h
    · split at h
      · cases h
      · cases h
        rfl

/-- The names of steps read back as the steps. -/
theorem mapM_readStep_names (path : String) (steps : List PathStep) :
    (steps.map PathStep.name).mapM (readStep path) = .ok steps := by
  induction steps with
  | nil => rfl
  | cons st steps ih =>
    rw [List.map_cons, List.mapM_cons, readStep_eq_ok_iff.mpr rfl, ih]
    rfl

/-- The later segments read as steps exactly when they are the steps' names. -/
theorem mapM_readStep_eq_ok_iff (path : String) {rest : List String} {steps : List PathStep} :
    rest.mapM (readStep path) = .ok steps ↔ rest = steps.map PathStep.name := by
  refine ⟨fun h => ?_, fun h => h ▸ mapM_readStep_names path steps⟩
  -- each segment that reads is the name of the step it reads as
  induction rest generalizing steps with
  | nil =>
    cases h
    rfl
  | cons seg rest ih =>
    rw [List.mapM_cons] at h
    cases hs : readStep path seg with
    | error e =>
      rw [hs] at h
      cases h
    | ok st =>
      cases hr : rest.mapM (readStep path) with
      | error e =>
        rw [hs, hr] at h
        cases h
      | ok sts =>
        rw [hs, hr] at h
        cases h
        rw [readStep_eq_ok_iff.mp hs, ih hr, List.map_cons]

/-- Later segments that do not all read fail at the first that names no step. -/
theorem mapM_readStep_error (path : String) {rest : List String} {e : HydrationError}
    (h : rest.mapM (readStep path) = .error e) :
    ∃ pre seg post, rest = pre ++ seg :: post ∧ (∀ x ∈ pre, IsStepName x) ∧ ¬ IsStepName seg ∧
      e = .invalidPath path (.unknownStep seg) := by
  induction rest with
  | nil => cases h
  | cons seg rest ih =>
    rw [List.mapM_cons] at h
    cases hs : readStep path seg with
    | error e' =>
      rw [hs] at h
      cases h
      obtain ⟨hbad, rfl⟩ := readStep_error hs
      exact ⟨[], seg, rest, rfl, fun _ h => (by cases h), hbad, rfl⟩
    | ok st =>
      have hseg : IsStepName seg := ⟨st, readStep_eq_ok_iff.mp hs⟩
      cases hr : rest.mapM (readStep path) with
      | ok sts => rw [hs, hr] at h; cases h
      | error e' =>
        rw [hs, hr] at h
        cases h
        obtain ⟨pre, bad, post, rfl, hpre, hbad, rfl⟩ := ih hr
        exact ⟨seg :: pre, bad, post, rfl, List.forall_mem_cons.mpr ⟨hseg, hpre⟩, hbad, rfl⟩

/-! ### Reading a path -/

theorem map_toList_segments (s : String) : (segments s).map String.toList = s.toList.splitOn '.' := by
  simp [segments, Function.comp_def]

/-- A text is its segments joined by dots. -/
theorem toList_eq_intercalate {s first : String} {rest : List String}
    (h : segments s = first :: rest) :
    s.toList = ['.'].intercalate (first.toList :: rest.map String.toList) := by
  rw [← List.map_cons, ← h, map_toList_segments, List.intercalate_splitOn]

/-- The segments of a spelled path are the anchor's spelling and the steps' names. -/
theorem segments_of_spelling {s : String} {a : List Char} {x : PathAnchor} {steps : List PathStep}
    (ha : AnchorSpelling a x) (hs : s.toList = a ++ stepsText steps) :
    segments s = String.ofList a :: steps.map PathStep.name := by
  have hfree : ∀ l ∈ a :: steps.map (·.name.toList), '.' ∉ l := by
    intro l hl
    rcases List.mem_cons.mp hl with rfl | hl
    · exact ha.dot_not_mem
    · obtain ⟨st, -, rfl⟩ := List.mem_map.mp hl
      exact dot_not_mem_name st
  unfold segments
  rw [hs, ← intercalate_eq_stepsText, List.splitOn_intercalate '.' hfree (List.cons_ne_nil _ _)]
  simp [Function.comp_def]

theorem spells_of_parse {s : String} {p : NodePath} (h : parse s = .ok p) : Spells s p := by
  obtain ⟨first, rest, hseg⟩ := List.exists_cons_of_ne_nil (segments_ne_nil s)
  rw [parse_of_segments hseg] at h
  cases ha : readAnchor s first with
  | error e => rw [ha] at h; cases h
  | ok x =>
    cases hr : rest.mapM (readStep s) with
    | error e => rw [ha, hr] at h; cases h
    | ok steps =>
      rw [ha, hr] at h
      cases h
      refine ⟨first.toList, readAnchor_eq_ok_iff.mp ha, ?_⟩
      rw [toList_eq_intercalate hseg, (mapM_readStep_eq_ok_iff s).mp hr, List.map_map]
      exact intercalate_eq_stepsText _ _

theorem parse_of_spells {s : String} {p : NodePath} (h : Spells s p) : parse s = .ok p := by
  obtain ⟨a, ha, hs⟩ := h
  have hanchor : readAnchor s (String.ofList a) = .ok p.anchor :=
    readAnchor_eq_ok_iff.mpr (by rw [String.toList_ofList]; exact ha)
  have hsteps : (p.steps.map PathStep.name).mapM (readStep s) = .ok p.steps :=
    (mapM_readStep_eq_ok_iff s).mpr rfl
  rw [parse_of_segments (segments_of_spelling ha hs), hanchor, hsteps]
  rfl

/-- A text reads as a path exactly when it spells that path. -/
theorem parse_eq_ok_iff {s : String} {p : NodePath} : parse s = .ok p ↔ Spells s p :=
  ⟨spells_of_parse, parse_of_spells⟩

/-- A text that does not read fails with an invalid-path error about the text: at its first
segment when that spells no anchor, and otherwise at the first later segment that names no
step. -/
theorem parse_error {s : String} {e : HydrationError} (h : parse s = .error e) :
    ∃ first rest, segments s = first :: rest ∧
      ((¬ IsAnchor first ∧ e = .invalidPath s (.badAnchor first)) ∨
        (IsAnchor first ∧ ∃ pre seg post, rest = pre ++ seg :: post ∧ (∀ x ∈ pre, IsStepName x) ∧
          ¬ IsStepName seg ∧ e = .invalidPath s (.unknownStep seg))) := by
  obtain ⟨first, rest, hseg⟩ := List.exists_cons_of_ne_nil (segments_ne_nil s)
  refine ⟨first, rest, hseg, ?_⟩
  rw [parse_of_segments hseg] at h
  cases ha : readAnchor s first with
  | error e' =>
    rw [ha] at h
    cases h
    exact .inl (readAnchor_error ha)
  | ok x =>
    cases hr : rest.mapM (readStep s) with
    | ok steps => rw [ha, hr] at h; cases h
    | error e' =>
      rw [ha, hr] at h
      cases h
      exact .inr ⟨⟨x, readAnchor_eq_ok_iff.mp ha⟩, mapM_readStep_error s hr⟩

/-! ### Printing a path -/

theorem toList_foldl_steps (steps : List PathStep) (acc : String) :
    (steps.foldl (fun acc s => acc ++ "." ++ s.name) acc).toList = acc.toList ++ stepsText steps := by
  induction steps generalizing acc with
  | nil => simp [stepsText_nil]
  | cons st steps ih =>
    rw [List.foldl_cons, ih, stepsText_cons]
    simp

/-- The value of the digits that print a number is the number. -/
theorem decimalValue_toDigits (n : Nat) : Message.decimalValue (Nat.toDigits 10 n) = n := by
  rw [← Message.foldl_digits_eq_decimalValue]
  induction n using Nat.strong_induction_on with
  | _ n ih =>
    rw [Nat.toDigits_eq_if (by decide)]
    split
    · next hn =>
      simp [Nat.toNat_digitChar_sub_48_of_lt_ten hn]
    · next hn =>
      rw [List.foldl_append, ih (n / 10) (by omega), List.foldl_cons, List.foldl_nil,
        Nat.toNat_digitChar_sub_48_of_lt_ten (Nat.mod_lt n (by decide))]
      omega

theorem isAsciiDigit_of_mem_toDigits {n : Nat} {c : Char} (hc : c ∈ Nat.toDigits 10 n) :
    Text.isAsciiDigit c := by
  have h := Nat.isDigit_of_mem_toDigits (by decide) (by decide) hc
  simp only [Char.isDigit, Bool.and_eq_true, decide_eq_true_eq] at h
  simp only [Text.isAsciiDigit, Bool.and_eq_true, decide_eq_true_eq, Char.le_def]
  exact h

/-- A printed path spells itself when its slot index is below `2 ^ 64`. -/
theorem render_spells {p : NodePath} (h : p.anchor.Fits) : Spells p.render p := by
  obtain ⟨anchor, steps⟩ := p
  cases anchor with
  | host => exact ⟨"host".toList, .host, toList_foldl_steps steps "host"⟩
  | slot n =>
    have hval := decimalValue_toDigits n
    have hspell := AnchorSpelling.slot false (Nat.toDigits 10 n) Nat.toDigits_ne_nil
      (fun _ hc => isAsciiDigit_of_mem_toDigits hc) (by rw [hval]; exact h)
    rw [hval] at hspell
    refine ⟨_, hspell, ?_⟩
    have htext : (toString n).toList = (if false = true then ['+'] else []) ++ Nat.toDigits 10 n := by
      simp
    rw [← htext]
    exact toList_foldl_steps steps (toString n)

/-- Every printed path whose slot index is below `2 ^ 64` reads back as itself. -/
theorem parse_render {p : NodePath} (h : p.anchor.Fits) : parse p.render = .ok p :=
  parse_of_spells (render_spells h)

/-- A path that was read prints to a text that reads back as it. -/
theorem parse_render_of_parse {s : String} {p : NodePath} (h : parse s = .ok p) :
    parse p.render = .ok p := by
  obtain ⟨_, ha, -⟩ := spells_of_parse h
  exact parse_render ha.fits

end NodePath

/-- The path language. A text reads as a path exactly when it is the spelling of an anchor
(`host`, or ASCII digits after an optional `+` of value below `2 ^ 64`) followed by a dot and a
step name (`firstChild` or `nextSibling`) for each step; every other text, such as the empty
text, one with an empty segment or one ending in a dot, fails with an invalid-path error about
that text. Every path whose slot index is below `2 ^ 64` prints to a text that reads back as
the path, so printing what was read and reading it again gives the same text. -/
theorem NodePath.path_language_round_trip :
    (∀ s p, NodePath.parse s = .ok p ↔ NodePath.Spells s p) ∧
    (∀ s e, NodePath.parse s = .error e → ∃ fault, e = .invalidPath s fault) ∧
    (∀ p : NodePath, p.anchor.Fits → NodePath.parse p.render = .ok p) ∧
    (∀ s t, NodePath.render <$> NodePath.parse s = .ok t →
      NodePath.render <$> NodePath.parse t = .ok t) := by
  refine ⟨fun s p => NodePath.parse_eq_ok_iff, fun s e h => ?_, fun p h => NodePath.parse_render h,
    fun s t h => ?_⟩
  · obtain ⟨first, rest, -, ⟨-, rfl⟩ | ⟨-, pre, seg, post, -, -, -, rfl⟩⟩ := NodePath.parse_error h
    · exact ⟨_, rfl⟩
    · exact ⟨_, rfl⟩
  · -- what was read prints to `t`, and `t` reads back as the same path
    cases hp : NodePath.parse s with
    | error e => rw [hp] at h; cases h
    | ok p =>
      rw [hp] at h
      cases h
      rw [NodePath.parse_render_of_parse hp]
      rfl

example : NodePath.render <$> NodePath.parse "+1" = .ok "1" := by decide

example : NodePath.render <$> NodePath.parse "01.firstChild" = .ok "1.firstChild" := by decide


end ViewHydration
