import Mathlib.Data.List.TakeWhile
import ViewHydration.Proofs.SubTemplateScan

/-!
# Sub-template regions

`removeInnerTemplates` walks the sub-template placeholders that `subTemplateMarks` finds. A walk
that ends outside a region (`Walk`) deletes the inside of each region and keeps everything else
(`dropRegions_of_walk`). The kept text is a subsequence of the message, and its own regions are
empty, so walking it again changes nothing (`kept_walks_again`).

The text of one sub-template starts after the first `:s` and marker and ends at the first close
placeholder of `s` from there on (`subTemplateText_of_first`).
-/

namespace ViewHydration

namespace Message

/-! ### Slices -/

theorem slice_zero (cs : List Char) (j : Nat) : slice cs 0 j = cs.take j := by
  simp [slice]

theorem length_slice {cs : List Char} {i j : Nat} (h : j ≤ cs.length) :
    (slice cs i j).length = j - i := by
  simp only [slice, List.length_take, List.length_drop]
  omega

theorem slice_append_drop (cs : List Char) {i j : Nat} (h : i ≤ j) :
    slice cs i j ++ cs.drop j = cs.drop i := by
  rw [slice, show cs.drop j = (cs.drop i).drop (j - i) by rw [List.drop_drop]; congr 1; omega,
    List.take_append_drop]

theorem slice_append_slice (cs : List Char) {i j k : Nat} (hij : i ≤ j) (hjk : j ≤ k) :
    slice cs i j ++ slice cs j k = slice cs i k := by
  rw [slice, slice, slice, show k - i = (j - i) + (k - j) by omega, List.take_add, List.drop_drop,
    show i + (j - i) = j by omega]

/-- Slices read the same after text is put in front, moved by its length. -/
theorem slice_shift (pre ys : List Char) (i j : Nat) :
    slice (pre ++ ys) (i + pre.length) (j + pre.length) = slice ys i j := by
  rw [slice, slice, Nat.add_comm i, List.drop_append, List.drop_eq_nil_of_le (by omega),
    List.nil_append, Nat.add_sub_cancel_left, show j + pre.length - (pre.length + i) = j - i by omega]

/-! ### Regions -/

/-- The close placeholder of a tag, with its markers. -/
def closeText (tag : String) : List Char := (marker :: '/' :: '*' :: tag.toList) ++ [marker]

/-- `Walk cs ms rs`: the walk of `dropRegions` over the placeholders `ms` of `cs` goes through the
regions `rs`, each given by its opening and its closing placeholder, and ends outside any region.
A region opens at the first placeholder after the previous region, open or close, and ends at the
first later placeholder that closes its tag. -/
inductive Walk (cs : List Char) :
    List SubTemplateMark → List (SubTemplateMark × SubTemplateMark) → Prop
  | nil : Walk cs [] []
  | region {o c : SubTemplateMark} {inside ms : List SubTemplateMark}
      {rs : List (SubTemplateMark × SubTemplateMark)}
      (hinside : ∀ k ∈ inside, slice cs k.start k.stop ≠ closeText o.tag)
      (hclose : slice cs c.start c.stop = closeText o.tag) (hrest : Walk cs ms rs) :
      Walk cs (o :: (inside ++ c :: ms)) ((o, c) :: rs)

/-- The text outside the regions `rs`, from position `index` on: up to the end of each region's
opening placeholder, then on from the start of its closing one. -/
def keepOutside (cs : List Char) : Nat → List (SubTemplateMark × SubTemplateMark) → List Char
  | index, [] => cs.drop index
  | index, (o, c) :: rs => slice cs index o.stop ++ keepOutside cs c.start rs

/-- Regions moved `d` characters to the right. -/
def shiftRegions (d : Nat) (rs : List (SubTemplateMark × SubTemplateMark)) :
    List (SubTemplateMark × SubTemplateMark) :=
  rs.map (Prod.map (SubTemplateMark.shift d) (SubTemplateMark.shift d))

@[simp] theorem shiftRegions_nil (d : Nat) : shiftRegions d [] = [] := rfl

@[simp] theorem shiftRegions_cons (d : Nat) (o c : SubTemplateMark)
    (rs : List (SubTemplateMark × SubTemplateMark)) :
    shiftRegions d ((o, c) :: rs) = (o.shift d, c.shift d) :: shiftRegions d rs := rfl

@[simp] theorem length_shiftRegions (d : Nat) (rs : List (SubTemplateMark × SubTemplateMark)) :
    (shiftRegions d rs).length = rs.length :=
  List.length_map _

theorem dropRegions_inside (cs : List Char) (tag : String) {inside : List SubTemplateMark}
    (h : ∀ k ∈ inside, slice cs k.start k.stop ≠ closeText tag) (ms : List SubTemplateMark)
    (kept : List Char) (index : Nat) :
    dropRegions cs (inside ++ ms) kept index (some tag) = dropRegions cs ms kept index (some tag) := by
  induction inside with
  | nil => rfl
  | cons k inside ih =>
    have hk : ¬ (slice cs k.start k.stop == (marker :: '/' :: '*' :: tag.toList) ++ [marker]) =
        true := by
      rw [beq_iff_eq]
      exact h k List.mem_cons_self
    rw [List.cons_append, dropRegions, if_neg hk]
    exact ih fun j hj => h j (List.mem_cons_of_mem _ hj)

/-- Over a region, the walk keeps the text up to the end of its opening placeholder and resumes
at the start of its closing one. -/
theorem dropRegions_region (cs : List Char) {o c : SubTemplateMark}
    {inside : List SubTemplateMark} (hinside : ∀ k ∈ inside, slice cs k.start k.stop ≠ closeText o.tag)
    (hclose : slice cs c.start c.stop = closeText o.tag) (ms : List SubTemplateMark)
    (kept : List Char) (index : Nat) :
    dropRegions cs (o :: (inside ++ c :: ms)) kept index none =
      dropRegions cs ms (kept ++ slice cs index o.stop) c.start none := by
  have hc : (slice cs c.start c.stop == (marker :: '/' :: '*' :: o.tag.toList) ++ [marker]) =
      true := by
    rw [beq_iff_eq]
    exact hclose
  rw [dropRegions, dropRegions_inside cs o.tag hinside, dropRegions, if_pos hc]

/-- A walk that ends outside any region keeps exactly the text outside the regions. -/
theorem dropRegions_of_walk {cs : List Char} {ms : List SubTemplateMark}
    {rs : List (SubTemplateMark × SubTemplateMark)} (h : Walk cs ms rs) (kept : List Char)
    (index : Nat) : dropRegions cs ms kept index none = kept ++ keepOutside cs index rs := by
  induction h generalizing kept index with
  | nil => rfl
  | region hinside hclose _ ih =>
    rw [dropRegions_region cs hinside hclose, ih, keepOutside, List.append_assoc]

/-- `WalkOpen cs last ms rs`: the walk goes through the regions `rs` and is then left inside the
region that `last` opens, which no later placeholder closes. -/
inductive WalkOpen (cs : List Char) (last : SubTemplateMark) :
    List SubTemplateMark → List (SubTemplateMark × SubTemplateMark) → Prop
  | last {inside : List SubTemplateMark}
      (hinside : ∀ k ∈ inside, slice cs k.start k.stop ≠ closeText last.tag) :
      WalkOpen cs last (last :: inside) []
  | region {o c : SubTemplateMark} {inside ms : List SubTemplateMark}
      {rs : List (SubTemplateMark × SubTemplateMark)}
      (hinside : ∀ k ∈ inside, slice cs k.start k.stop ≠ closeText o.tag)
      (hclose : slice cs c.start c.stop = closeText o.tag) (hrest : WalkOpen cs last ms rs) :
      WalkOpen cs last (o :: (inside ++ c :: ms)) ((o, c) :: rs)

/-- What a walk left inside the region of `last` keeps: the text outside the regions `rs` up to
the end of `last`, then everything again from where the walk last resumed. -/
def keepOpen (cs : List Char) (last : SubTemplateMark) :
    Nat → List (SubTemplateMark × SubTemplateMark) → List Char
  | index, [] => slice cs index last.stop ++ cs.drop index
  | index, (o, c) :: rs => slice cs index o.stop ++ keepOpen cs last c.start rs

/-- A walk left inside a region keeps the text through that region's opening placeholder, then
the text from where the walk last resumed a second time. -/
theorem dropRegions_of_walkOpen {cs : List Char} {last : SubTemplateMark}
    {ms : List SubTemplateMark} {rs : List (SubTemplateMark × SubTemplateMark)}
    (h : WalkOpen cs last ms rs) (kept : List Char) (index : Nat) :
    dropRegions cs ms kept index none = kept ++ keepOpen cs last index rs := by
  induction h generalizing kept index with
  | @last inside hinside =>
    have hpass := dropRegions_inside cs last.tag hinside [] (kept ++ slice cs index last.stop) index
    rw [List.append_nil] at hpass
    rw [dropRegions, hpass, dropRegions, keepOpen, List.append_assoc]
  | region hinside hclose _ ih =>
    rw [dropRegions_region cs hinside hclose, ih, keepOpen, List.append_assoc]

/-- Every walk either ends outside any region or is left inside one. -/
theorem walk_or_open (cs : List Char) (ms : List SubTemplateMark) :
    (∃ rs, Walk cs ms rs) ∨ ∃ last rs, WalkOpen cs last ms rs := by
  -- induction on a bound of the length: the walk goes on after a region's close
  obtain ⟨n, hn⟩ : ∃ n, ms.length ≤ n := ⟨_, Nat.le_refl _⟩
  induction n generalizing ms with
  | zero =>
    rw [List.length_eq_zero_iff.mp (Nat.le_zero.mp hn)]
    exact Or.inl ⟨[], Walk.nil⟩
  | succ n ih =>
    cases ms with
    | nil => exact Or.inl ⟨[], Walk.nil⟩
    | cons o rest =>
      cases hfind : rest.find? (fun k => slice cs k.start k.stop == closeText o.tag) with
      | none =>
        refine Or.inr ⟨o, [], WalkOpen.last fun k hk => ?_⟩
        simpa using List.find?_eq_none.mp hfind k hk
      | some c =>
        obtain ⟨hc, inside, ms', rfl, hinside⟩ := List.find?_eq_some_iff_append.mp hfind
        have hinside' : ∀ k ∈ inside, slice cs k.start k.stop ≠ closeText o.tag := by
          intro k hk
          simpa using hinside k hk
        have hc' : slice cs c.start c.stop = closeText o.tag := by simpa using hc
        have hlen : ms'.length ≤ n := by
          simp only [List.length_cons, List.length_append] at hn
          omega
        rcases ih ms' hlen with ⟨rs, hw⟩ | ⟨last, rs, hw⟩
        · exact Or.inl ⟨_, Walk.region hinside' hc' hw⟩
        · exact Or.inr ⟨last, _, WalkOpen.region hinside' hc' hw⟩

/-- The text outside regions that come in order is a subsequence of the text. -/
theorem keepOutside_sublist {cs : List Char} {ms : List SubTemplateMark}
    {rs : List (SubTemplateMark × SubTemplateMark)} (h : Walk cs ms rs)
    (hord : ms.Pairwise fun a b => a.stop ≤ b.start) (hlt : ∀ k ∈ ms, k.start < k.stop)
    (index : Nat) (hindex : ∀ k ∈ ms, index ≤ k.start) :
    (keepOutside cs index rs).Sublist (cs.drop index) := by
  induction h generalizing index with
  | nil => exact List.Sublist.refl _
  | @region o c inside ms rs hinside hclose _ ih =>
    rw [List.pairwise_cons, List.pairwise_append, List.pairwise_cons] at hord
    have hc : c ∈ o :: (inside ++ c :: ms) :=
      List.mem_cons_of_mem _ (List.mem_append_right _ List.mem_cons_self)
    have hoc : o.stop ≤ c.start := hord.1 c (List.mem_append_right _ List.mem_cons_self)
    have hio : index ≤ o.stop := by
      have h₁ := hindex o List.mem_cons_self
      have h₂ := hlt o List.mem_cons_self
      omega
    -- the rest of the walk starts after the closing placeholder
    have hrest := ih hord.2.2.1.2
      (fun k hk => hlt k (List.mem_cons_of_mem _ (List.mem_append_right _
        (List.mem_cons_of_mem _ hk))))
      c.start (fun k hk => by
        have h₁ := hord.2.2.1.1 k hk
        have h₂ := hlt c hc
        omega)
    rw [keepOutside, ← slice_append_drop cs hio]
    exact (hrest.trans (List.drop_sublist_drop_left cs hoc)).append_left _

/-- Where the first region opens after `j`, the kept text from `i` runs through `j`. -/
theorem keepOutside_cut (cs : List Char) {i j : Nat} (hij : i ≤ j)
    {rs : List (SubTemplateMark × SubTemplateMark)} (hrs : ∀ r ∈ rs.head?, j ≤ r.1.stop) :
    keepOutside cs i rs = slice cs i j ++ keepOutside cs j rs := by
  cases rs with
  | nil => exact (slice_append_drop cs hij).symm
  | cons r rs =>
    obtain ⟨o, c⟩ := r
    rw [keepOutside, keepOutside, ← List.append_assoc,
      slice_append_slice cs hij (hrs (o, c) rfl)]

theorem head_shiftRegions (d : Nat) (rs : List (SubTemplateMark × SubTemplateMark)) :
    ∀ r ∈ (shiftRegions d rs).head?, d ≤ r.1.stop := by
  cases rs with
  | nil => simp
  | cons r rs =>
    obtain ⟨o, c⟩ := r
    intro r hr
    rw [shiftRegions_cons, List.head?_cons, Option.mem_some_iff] at hr
    subst hr
    simp

/-- The kept text reads the same after text is put in front, with the regions moved by its
length. -/
theorem keepOutside_shift (pre ys : List Char) (index : Nat)
    (rs : List (SubTemplateMark × SubTemplateMark)) :
    keepOutside (pre ++ ys) (index + pre.length) (shiftRegions pre.length rs) =
      keepOutside ys index rs := by
  induction rs generalizing index with
  | nil =>
    rw [shiftRegions_nil, keepOutside, keepOutside, Nat.add_comm, List.drop_append,
      List.drop_eq_nil_of_le (by omega), List.nil_append, Nat.add_sub_cancel_left]
  | cons r rs ih =>
    obtain ⟨o, c⟩ := r
    rw [shiftRegions_cons, keepOutside, keepOutside, SubTemplateMark.stop_shift,
      SubTemplateMark.start_shift, slice_shift, ih]

theorem slice_shift_mark (pre ys : List Char) (k : SubTemplateMark) :
    slice (pre ++ ys) (k.shift pre.length).start (k.shift pre.length).stop =
      slice ys k.start k.stop :=
  slice_shift pre ys k.start k.stop

/-- A walk reads the same after text is put in front, moved by its length. -/
theorem Walk.shift {ys : List Char} {ms : List SubTemplateMark}
    {rs : List (SubTemplateMark × SubTemplateMark)} (h : Walk ys ms rs) (pre : List Char) :
    Walk (pre ++ ys) (ms.map (SubTemplateMark.shift pre.length)) (shiftRegions pre.length rs) := by
  induction h with
  | nil => exact Walk.nil
  | @region o c inside ms rs hinside hclose _ ih =>
    rw [List.map_cons, List.map_append, List.map_cons, shiftRegions_cons]
    refine Walk.region ?_ ?_ ih
    · intro k hk
      obtain ⟨j, hj, rfl⟩ := List.mem_map.mp hk
      rw [slice_shift_mark, SubTemplateMark.tag_shift]
      exact hinside j hj
    · rw [slice_shift_mark, SubTemplateMark.tag_shift]
      exact hclose

/-- A walk over placeholders moved past a prefix is a moved walk of the text after it. -/
theorem Walk.unshift {pre ys : List Char} {ms : List SubTemplateMark}
    {rs : List (SubTemplateMark × SubTemplateMark)} (h : Walk (pre ++ ys) ms rs) :
    ∀ {ms₀ : List SubTemplateMark}, ms = ms₀.map (SubTemplateMark.shift pre.length) →
      ∃ rs₀, Walk ys ms₀ rs₀ ∧ rs = shiftRegions pre.length rs₀ := by
  induction h with
  | nil =>
    intro ms₀ hms
    rw [List.map_eq_nil_iff.mp hms.symm]
    exact ⟨[], Walk.nil, rfl⟩
  | @region o c inside ms rs hinside hclose _ ih =>
    intro ms₀ hms
    obtain ⟨o₀, rest₀, rfl, rfl, hrest⟩ := List.map_eq_cons_iff.mp hms.symm
    obtain ⟨inside₀, tail₀, rfl, rfl, htail⟩ := List.map_eq_append_iff.mp hrest
    obtain ⟨c₀, ms₁, rfl, rfl, hms₁⟩ := List.map_eq_cons_iff.mp htail
    obtain ⟨rs₀, hw, rfl⟩ := ih hms₁.symm
    refine ⟨(o₀, c₀) :: rs₀, Walk.region ?_ ?_ hw, rfl⟩
    · intro k hk
      have hne := hinside (k.shift pre.length) (List.mem_map_of_mem hk)
      rwa [slice_shift_mark, SubTemplateMark.tag_shift] at hne
    · rwa [slice_shift_mark, SubTemplateMark.tag_shift] at hclose

/-! ### Walking the kept text again -/

/-- After a region's closing placeholder, the walk goes on over the rest of the text alone. -/
theorem walk_rest {cs : List Char} {pre ms : List SubTemplateMark} {c : SubTemplateMark}
    {rs : List (SubTemplateMark × SubTemplateMark)} (hms : subTemplateMarks cs = pre ++ c :: ms)
    (h : Walk cs ms rs) :
    ∃ rs₀, Walk (cs.drop c.stop) (subTemplateMarks (cs.drop c.stop)) rs₀ ∧
      rs₀.length = rs.length ∧
      keepOutside cs c.start rs =
        slice cs c.start c.stop ++ keepOutside (cs.drop c.stop) 0 rs₀ := by
  obtain ⟨-, hlt, -⟩ := marks_around hms
  have hlen : (cs.take c.stop).length = c.stop := List.length_take_of_le (stop_le_length
    (show c ∈ subTemplateMarks cs by rw [hms]; exact List.mem_append_cons_self))
  have hw : Walk (cs.take c.stop ++ cs.drop c.stop) ms rs := by
    rw [List.take_append_drop]
    exact h
  have hms' : ms = (subTemplateMarks (cs.drop c.stop)).map
      (SubTemplateMark.shift (cs.take c.stop).length) := by
    rw [hlen]
    exact marks_after hms
  obtain ⟨rs₀, hw₀, rfl⟩ := hw.unshift hms'
  refine ⟨rs₀, hw₀, (length_shiftRegions _ _).symm, ?_⟩
  have hshift := keepOutside_shift (cs.take c.stop) (cs.drop c.stop) 0 rs₀
  rw [List.take_append_drop, Nat.zero_add, hlen] at hshift
  rw [hlen, keepOutside_cut cs (Nat.le_of_lt hlt) (head_shiftRegions _ _), hshift]

/-- A text made of the text of an opening placeholder, a closing placeholder of its tag, and a
rest that walks again to itself, walks again to itself too. -/
theorem rewalk_region {A C r : List Char} {o : SubTemplateMark} {t : String}
    {rs : List (SubTemplateMark × SubTemplateMark)}
    (hA : subTemplateMarks A = [o]) (hAn : scanState 0 none A = none) (ho : o.stop = A.length)
    (hC : subTemplateMarks C = [⟨0, C.length, t⟩]) (hCn : scanState 0 none C = none)
    (hclose : C = closeText o.tag)
    (hr : Walk r (subTemplateMarks r) rs) (hkeep : keepOutside r 0 rs = r) :
    ∃ rs', Walk (A ++ (C ++ r)) (subTemplateMarks (A ++ (C ++ r))) rs' ∧
      keepOutside (A ++ (C ++ r)) 0 rs' = A ++ (C ++ r) := by
  have hL : (A ++ C).length = C.length + A.length := by
    rw [List.length_append, Nat.add_comm]
  -- the opening placeholder, then the closing one, then those of the rest
  have hmarks : subTemplateMarks (A ++ (C ++ r)) =
      o :: ([] ++ ⟨A.length, C.length + A.length, t⟩ ::
        (subTemplateMarks r).map (SubTemplateMark.shift (A ++ C).length)) := by
    rw [marks_append_of_none hAn, marks_append_of_none hCn, hA, hC, hL]
    simp [SubTemplateMark.shift, Function.comp_def, Nat.add_assoc]
  have hC' : slice (A ++ (C ++ r)) A.length (C.length + A.length) = C := by
    have h := slice_shift A (C ++ r) 0 C.length
    rw [Nat.zero_add] at h
    rw [h, slice_zero, List.take_left]
  have hrest := hr.shift (A ++ C)
  rw [List.append_assoc] at hrest
  refine ⟨(o, ⟨A.length, C.length + A.length, t⟩) :: shiftRegions (A ++ C).length rs, ?_, ?_⟩
  · rw [hmarks]
    exact Walk.region (fun k hk => absurd hk List.not_mem_nil) (hC'.trans hclose) hrest
  · have hshift := keepOutside_shift (A ++ C) r 0 rs
    rw [Nat.zero_add, hkeep, List.append_assoc] at hshift
    have hcut := keepOutside_cut (A ++ (C ++ r)) (i := A.length) (by rw [hL]; omega)
      (head_shiftRegions (A ++ C).length rs)
    rw [keepOutside]
    dsimp only
    rw [hcut, hshift, hL, hC', slice_zero, ho, List.take_left]

/-- The text a walk keeps walks again through regions that are now empty, and keeps itself. -/
theorem kept_walks_again {cs : List Char} {rs : List (SubTemplateMark × SubTemplateMark)}
    (h : Walk cs (subTemplateMarks cs) rs) :
    ∃ rs', Walk (keepOutside cs 0 rs) (subTemplateMarks (keepOutside cs 0 rs)) rs' ∧
      keepOutside (keepOutside cs 0 rs) 0 rs' = keepOutside cs 0 rs := by
  -- induction on the number of regions: the rest of the text after the first region walks
  -- through one region fewer, but is not a suffix of the regions' own list
  obtain ⟨n, hn⟩ : ∃ n, rs.length = n := ⟨_, rfl⟩
  induction n generalizing cs rs with
  | zero =>
    obtain rfl := List.length_eq_zero_iff.mp hn
    generalize hms : subTemplateMarks cs = ms at h
    cases h
    refine ⟨[], ?_, rfl⟩
    rw [keepOutside, List.drop_zero, hms]
    exact Walk.nil
  | succ n ih =>
    obtain ⟨⟨o, c⟩, rs₁, rfl⟩ := List.exists_cons_of_length_eq_add_one hn
    generalize hms : subTemplateMarks cs = ms at h
    cases h with
    | @region _ _ inside ms₁ _ hinside hclose hrest =>
      obtain ⟨rs₀, hw₀, hlen₀, hkeep⟩ :=
        walk_rest (show subTemplateMarks cs = (o :: inside) ++ c :: ms₁ from hms) hrest
      obtain ⟨rs₂, hw₂, hkeep₂⟩ := ih hw₀ (by
        rw [hlen₀]
        simpa using hn)
      have hc : c ∈ subTemplateMarks cs := by
        rw [hms]
        exact List.mem_cons_of_mem _ List.mem_append_cons_self
      have ho : o ∈ subTemplateMarks cs := by
        rw [hms]
        exact List.mem_cons_self
      obtain ⟨hA, hAn⟩ := marks_take_first hms
      obtain ⟨hC, hCn⟩ := marks_of_markText hc
      rw [← length_slice (stop_le_length hc)] at hC
      rw [keepOutside, slice_zero, hkeep]
      exact rewalk_region hA hAn (List.length_take_of_le (stop_le_length ho)).symm hC hCn hclose
        hw₂ hkeep₂

/-! ### The text of one sub-template -/

/-- `:s` and a marker, which end every placeholder of sub-template `s`. -/
def subSuffix (s : Nat) : List Char := (':' :: (toString s).toList) ++ [marker]

/-- `cs` starts with a close placeholder `/*D+:s` of sub-template `s`, markers included. -/
def StartsWithClose (s : Nat) (cs : List Char) : Prop :=
  ∃ ds : List Char, ds ≠ [] ∧ (∀ d ∈ ds, Text.isDecimalDigit d = true) ∧
    ((marker :: '/' :: '*' :: ds) ++ subSuffix s).IsPrefix cs

/-- `pat` occurs in `cs` at `i` and nowhere before. -/
def FirstAt (pat cs : List Char) (i : Nat) : Prop :=
  pat.IsPrefix (cs.drop i) ∧ ∀ j < i, ¬ pat.IsPrefix (cs.drop j)

/-- The first close placeholder of sub-template `s` that starts at `start` or later starts at
`stop`. -/
def FirstCloseFrom (s : Nat) (cs : List Char) (start stop : Nat) : Prop :=
  start ≤ stop ∧ StartsWithClose s (cs.drop stop) ∧
    ∀ j < stop, start ≤ j → ¬ StartsWithClose s (cs.drop j)

theorem length_subSuffix (s : Nat) :
    (subSuffix s).length = (toString s).toList.length + 2 := by
  simp [subSuffix]

/-- Searching positions `0..n` finds the first one where `p` holds, when `p` holds only below
`n`. -/
theorem find?_range_eq_some_iff {n : Nat} {p : Nat → Bool} (hn : ∀ i, p i = true → i < n)
    {i : Nat} : (List.range n).find? p = some i ↔ p i = true ∧ ∀ j < i, p j = false := by
  rw [List.find?_range_eq_some]
  constructor
  · rintro ⟨hp, -, h⟩
    exact ⟨hp, fun j hj => by simpa using h j hj⟩
  · rintro ⟨hp, h⟩
    exact ⟨hp, List.mem_range.mpr (hn i hp), fun j hj => by simp [h j hj]⟩

theorem find?_range_eq_none_iff {n : Nat} {p : Nat → Bool} (hn : ∀ i, p i = true → i < n) :
    (List.range n).find? p = none ↔ ∀ i, p i = false := by
  rw [List.find?_range_eq_none]
  constructor
  · intro h i
    cases hp : p i
    · rfl
    · simpa [hp] using h i (hn i hp)
  · intro h i _
    simp [h i]

theorem take_beq_iff_isPrefix {pat xs : List Char} :
    (xs.take pat.length == pat) = true ↔ pat.IsPrefix xs := by
  rw [beq_iff_eq, List.prefix_iff_eq_take, eq_comm]

/-- A pattern that is not empty occurs only at positions inside the text. -/
theorem lt_length_of_isPrefix_drop {pat cs : List Char} (hpat : pat ≠ []) {i : Nat}
    (h : pat.IsPrefix (cs.drop i)) : i < cs.length := by
  by_contra hle
  rw [List.drop_eq_nil_of_le (by omega), List.prefix_nil] at h
  exact hpat h

/-- Where the search for a pattern that is not empty may stop. -/
theorem lt_of_take_beq {pat cs : List Char} (hpat : pat ≠ []) {i : Nat}
    (h : ((cs.drop i).take pat.length == pat) = true) : i < cs.length + 1 :=
  Nat.lt_succ_of_lt (lt_length_of_isPrefix_drop hpat (take_beq_iff_isPrefix.mp h))

theorem endOfFirst?_eq_some {pat cs : List Char} (hpat : pat ≠ []) {e : Nat} :
    endOfFirst? pat cs = some e ↔ ∃ i, FirstAt pat cs i ∧ e = i + pat.length := by
  have hn := fun i => @lt_of_take_beq pat cs hpat i
  rw [endOfFirst?, Option.map_eq_some_iff]
  constructor
  · rintro ⟨i, hi, rfl⟩
    obtain ⟨hp, hbefore⟩ := (find?_range_eq_some_iff hn).mp hi
    refine ⟨i, ⟨take_beq_iff_isPrefix.mp hp, fun j hj h => ?_⟩, rfl⟩
    have := hbefore j hj
    rw [take_beq_iff_isPrefix.mpr h] at this
    cases this
  · rintro ⟨i, ⟨hp, hbefore⟩, rfl⟩
    refine ⟨i, (find?_range_eq_some_iff hn).mpr ⟨take_beq_iff_isPrefix.mpr hp, fun j hj => ?_⟩, rfl⟩
    cases h : ((cs.drop j).take pat.length == pat)
    · rfl
    · exact absurd (take_beq_iff_isPrefix.mp h) (hbefore j hj)

theorem endOfFirst?_eq_none {pat cs : List Char} (hpat : pat ≠ []) :
    endOfFirst? pat cs = none ↔ ∀ i, ¬ pat.IsPrefix (cs.drop i) := by
  rw [endOfFirst?, Option.map_eq_none_iff,
    find?_range_eq_none_iff fun i => @lt_of_take_beq pat cs hpat i]
  constructor
  · intro h i hp
    have := h i
    rw [take_beq_iff_isPrefix.mpr hp] at this
    cases this
  · intro h i
    cases hb : ((cs.drop i).take (pat.length) == pat)
    · rfl
    · exact absurd (take_beq_iff_isPrefix.mp hb) (h i)

/-- The check for a close placeholder reads one: a marker, `/*`, a run of digits, then `:s` and a
marker. -/
theorem closesSubTemplate_iff (s : Nat) (cs : List Char) :
    closesSubTemplate (toString s).toList cs = true ↔ StartsWithClose s cs := by
  have hcolon : Text.isDecimalDigit ':' = false := by decide
  constructor
  · intro h
    unfold closesSubTemplate at h
    split at h
    · rename_i m rest
      simp only [Bool.and_eq_true, beq_iff_eq, Bool.not_eq_true', List.isEmpty_eq_false_iff] at h
      obtain ⟨rfl, hne, htake⟩ := h
      refine ⟨rest.takeWhile Text.isDecimalDigit, hne,
        fun d hd => List.mem_takeWhile_imp hd, ?_⟩
      have hsuffix : (subSuffix s).IsPrefix (rest.dropWhile Text.isDecimalDigit) := by
        rw [List.prefix_iff_eq_take, length_subSuffix, subSuffix]
        exact htake.symm
      have hrest := (List.prefix_append_right_inj (rest.takeWhile Text.isDecimalDigit)).mpr hsuffix
      rw [List.takeWhile_append_dropWhile] at hrest
      simp only [List.cons_append, List.prefix_cons_inj]
      exact hrest
    · cases h
  · rintro ⟨ds, hne, hdig, tail, rfl⟩
    have hds : ∀ a ∈ ds, Text.isDecimalDigit a = true := hdig
    simp only [closesSubTemplate, subSuffix, List.cons_append, List.append_assoc,
      List.takeWhile_append_of_pos hds, List.dropWhile_append_of_pos hds, hcolon,
      List.takeWhile_cons_of_neg, List.dropWhile_cons_of_neg, Bool.false_eq_true, not_false_eq_true]
    simp [hne, List.take_append, List.take_of_length_le (Nat.le_succ _)]

theorem subSuffix_ne_nil (s : Nat) : subSuffix s ≠ [] := List.cons_ne_nil _ _

theorem FirstAt.unique {pat cs : List Char} {i j : Nat} (hi : FirstAt pat cs i)
    (hj : FirstAt pat cs j) : i = j := by
  rcases Nat.lt_trichotomy i j with h | h | h
  · exact absurd hi.1 (hj.2 i h)
  · exact h
  · exact absurd hj.1 (hi.2 j h)

section CloseSearch

variable {cs : List Char} {s start : Nat}

/-- Where the search for a close placeholder may stop. -/
theorem lt_of_closes {i : Nat}
    (h : (decide (start ≤ i) && closesSubTemplate (toString s).toList (cs.drop i)) = true) :
    i < cs.length + 1 := by
  rw [Bool.and_eq_true, closesSubTemplate_iff] at h
  obtain ⟨ds, -, -, hp⟩ := h.2
  exact Nat.lt_succ_of_lt (lt_length_of_isPrefix_drop (List.cons_ne_nil _ _) hp)

theorem findClose_eq_some {stop : Nat} :
    (List.range (cs.length + 1)).find?
        (fun i => decide (start ≤ i) && closesSubTemplate (toString s).toList (cs.drop i)) =
      some stop ↔ FirstCloseFrom s cs start stop := by
  rw [find?_range_eq_some_iff fun i => lt_of_closes]
  simp only [Bool.eq_false_iff, ne_eq, Bool.and_eq_true, decide_eq_true_eq, closesSubTemplate_iff,
    not_and, FirstCloseFrom, and_assoc]

theorem findClose_eq_none :
    (List.range (cs.length + 1)).find?
        (fun i => decide (start ≤ i) && closesSubTemplate (toString s).toList (cs.drop i)) = none ↔
      ∀ j, start ≤ j → ¬ StartsWithClose s (cs.drop j) := by
  rw [find?_range_eq_none_iff fun i => lt_of_closes]
  simp only [Bool.eq_false_iff, ne_eq, Bool.and_eq_true, decide_eq_true_eq, closesSubTemplate_iff,
    not_and]

end CloseSearch

/-- The text of sub-template `s` runs from just after the first `:s` and marker to the first
close placeholder of `s` from there on. -/
theorem subTemplateText_of_first {m : String} {s i stop : Nat}
    (hi : FirstAt (subSuffix s) m.toList i)
    (hstop : FirstCloseFrom s m.toList (i + (subSuffix s).length) stop) :
    subTemplateText m s = .ok (removeInnerTemplates
      (String.ofList (slice m.toList (i + (subSuffix s).length) stop))) := by
  have he := (endOfFirst?_eq_some (subSuffix_ne_nil s)).mpr ⟨i, hi, rfl⟩
  unfold subTemplateText
  dsimp only
  rw [show (':' :: (toString s).toList) ++ [marker] = subSuffix s from rfl, he]
  dsimp only
  rw [findClose_eq_some.mpr hstop]

/-- Sub-template `s` is missing exactly when `:s` and a marker never occur, or no close
placeholder of `s` follows their first occurrence. -/
theorem subTemplateText_missing_iff (m : String) (s : Nat) :
    subTemplateText m s = .error (.missingSubTemplate s) ↔
      (∀ i, ¬ (subSuffix s).IsPrefix (m.toList.drop i)) ∨
        ∃ i, FirstAt (subSuffix s) m.toList i ∧
          ∀ j, i + (subSuffix s).length ≤ j → ¬ StartsWithClose s (m.toList.drop j) := by
  unfold subTemplateText
  dsimp only
  rw [show (':' :: (toString s).toList) ++ [marker] = subSuffix s from rfl]
  cases he : endOfFirst? (subSuffix s) m.toList with
  | none =>
    exact iff_of_true rfl (Or.inl ((endOfFirst?_eq_none (subSuffix_ne_nil s)).mp he))
  | some start =>
    obtain ⟨i, hi, rfl⟩ := (endOfFirst?_eq_some (subSuffix_ne_nil s)).mp he
    dsimp only
    cases hf : (List.range (m.toList.length + 1)).find?
        (fun j => decide (i + (subSuffix s).length ≤ j) &&
          closesSubTemplate (toString s).toList (m.toList.drop j)) with
    | none => exact iff_of_true rfl (Or.inr ⟨i, hi, findClose_eq_none.mp hf⟩)
    | some stop =>
      -- the first `:s` and marker is followed by the close at `stop`
      have hstop := findClose_eq_some.mp hf
      refine iff_of_false (fun h => by cases h) ?_
      rintro (hnone | ⟨i', hi', hno⟩)
      · exact hnone i hi.1
      · obtain rfl := hi.unique hi'
        exact hno stop hstop.1 hstop.2.1

/-- The only error in finding the text of a sub-template is that it is missing. -/
theorem subTemplateText_error {m : String} {s : Nat} {e : I18nError}
    (h : subTemplateText m s = .error e) : e = .missingSubTemplate s := by
  unfold subTemplateText at h
  dsimp only at h
  split at h
  · cases h
    rfl
  · split at h
    · cases h
      rfl
    · cases h

/-! ### Removing the inner templates -/

/-- A message whose walk ends outside any region keeps exactly the text outside its regions. -/
theorem removeInnerTemplates_of_walk {m : String} {rs : List (SubTemplateMark × SubTemplateMark)}
    (h : Walk m.toList (subTemplateMarks m.toList) rs) :
    (removeInnerTemplates m).toList = keepOutside m.toList 0 rs := by
  simp only [removeInnerTemplates, String.toList_ofList]
  rw [dropRegions_of_walk h, List.nil_append]

/-- A message whose walk is left inside a region does not lose that region's text: the text from
where the walk last resumed is copied a second time, after the region's opening placeholder. -/
theorem removeInnerTemplates_of_walkOpen {m : String} {last : SubTemplateMark}
    {rs : List (SubTemplateMark × SubTemplateMark)}
    (h : WalkOpen m.toList last (subTemplateMarks m.toList) rs) :
    (removeInnerTemplates m).toList = keepOpen m.toList last 0 rs := by
  simp only [removeInnerTemplates, String.toList_ofList]
  rw [dropRegions_of_walkOpen h, List.nil_append]

/-- Every message falls in one of the two cases: its walk closes every region and the removal
keeps the text outside them, or its walk is left inside a region and the removal copies text a
second time. -/
theorem removeInnerTemplates_closed_or_repeats (m : String) :
    (∃ rs, Walk m.toList (subTemplateMarks m.toList) rs ∧
      (removeInnerTemplates m).toList = keepOutside m.toList 0 rs) ∨
    ∃ last rs, WalkOpen m.toList last (subTemplateMarks m.toList) rs ∧
      (removeInnerTemplates m).toList = keepOpen m.toList last 0 rs := by
  rcases walk_or_open m.toList (subTemplateMarks m.toList) with ⟨rs, hw⟩ | ⟨last, rs, hw⟩
  · exact Or.inl ⟨rs, hw, removeInnerTemplates_of_walk hw⟩
  · exact Or.inr ⟨last, rs, hw, removeInnerTemplates_of_walkOpen hw⟩

theorem removeInnerTemplates_sublist {m : String} {rs : List (SubTemplateMark × SubTemplateMark)}
    (h : Walk m.toList (subTemplateMarks m.toList) rs) :
    (removeInnerTemplates m).toList.Sublist m.toList := by
  obtain ⟨hord, hlt⟩ := marks_ordered m.toList
  have hsub := keepOutside_sublist h hord hlt 0 fun _ _ => Nat.zero_le _
  rw [List.drop_zero] at hsub
  rw [removeInnerTemplates_of_walk h]
  exact hsub

theorem removeInnerTemplates_idem {m : String} {rs : List (SubTemplateMark × SubTemplateMark)}
    (h : Walk m.toList (subTemplateMarks m.toList) rs) :
    removeInnerTemplates (removeInnerTemplates m) = removeInnerTemplates m := by
  obtain ⟨rs', hw, hkeep⟩ := kept_walks_again h
  rw [← removeInnerTemplates_of_walk h] at hw hkeep
  have htext := removeInnerTemplates_of_walk hw
  rw [hkeep] at htext
  rw [← String.ofList_toList (s := removeInnerTemplates (removeInnerTemplates m)), htext,
    String.ofList_toList]

/-- Removing the inner templates of a message whose walk closes every region it opens deletes
the text inside each region and keeps both its placeholders: the result is a subsequence of the
message, and removing again changes nothing. The text of sub-template `s` runs from just after
the first `:s` and marker to the first close placeholder of `s` from there on, with its own inner
templates removed; it is missing exactly when either is absent, and that is the only error. -/
theorem subTemplate_extraction_spec (m : String) :
    (∀ rs, Walk m.toList (subTemplateMarks m.toList) rs →
      (removeInnerTemplates m).toList = keepOutside m.toList 0 rs ∧
      (removeInnerTemplates m).toList.Sublist m.toList ∧
      removeInnerTemplates (removeInnerTemplates m) = removeInnerTemplates m) ∧
    ∀ s : Nat,
      (∀ i stop, FirstAt (subSuffix s) m.toList i →
        FirstCloseFrom s m.toList (i + (subSuffix s).length) stop →
        translationForTemplate m (some s) = .ok (removeInnerTemplates
          (String.ofList (slice m.toList (i + (subSuffix s).length) stop)))) ∧
      (translationForTemplate m (some s) = .error (.missingSubTemplate s) ↔
        (∀ i, ¬ (subSuffix s).IsPrefix (m.toList.drop i)) ∨
          ∃ i, FirstAt (subSuffix s) m.toList i ∧
            ∀ j, i + (subSuffix s).length ≤ j → ¬ StartsWithClose s (m.toList.drop j)) ∧
      ∀ e, translationForTemplate m (some s) = .error e → e = .missingSubTemplate s :=
  ⟨fun _ h => ⟨removeInnerTemplates_of_walk h, removeInnerTemplates_sublist h,
      removeInnerTemplates_idem h⟩,
    fun s => ⟨fun _ _ hi hstop => subTemplateText_of_first hi hstop,
      subTemplateText_missing_iff m s, fun _ h => subTemplateText_error h⟩⟩

/-- A nested template's text is dropped between its placeholders, and a sub-template's text is
found between the end of its opening placeholder and its close. -/
theorem nestedMessage_extracts :
    (∃ rs, Walk "a�*1:1�b�/*1:1�c".toList (subTemplateMarks "a�*1:1�b�/*1:1�c".toList) rs ∧
      (removeInnerTemplates "a�*1:1�b�/*1:1�c").toList =
        keepOutside "a�*1:1�b�/*1:1�c".toList 0 rs) ∧
    translationForTemplate "�*2:1�x�/*2:1�y" (some 1) =
      .ok (removeInnerTemplates (String.ofList (slice "�*2:1�x�/*2:1�y".toList 6 7))) := by
  have hmarks : subTemplateMarks "a�*1:1�b�/*1:1�c".toList =
      [⟨1, 7, "1:1"⟩, ⟨8, 15, "1:1"⟩] := by decide +kernel
  have hw : Walk "a�*1:1�b�/*1:1�c".toList (subTemplateMarks "a�*1:1�b�/*1:1�c".toList)
      [(⟨1, 7, "1:1"⟩, ⟨8, 15, "1:1"⟩)] := by
    rw [hmarks]
    exact @Walk.region _ ⟨1, 7, "1:1"⟩ ⟨8, 15, "1:1"⟩ [] [] [] (fun k hk => absurd hk List.not_mem_nil)
      (by decide +kernel) Walk.nil
  have hfirst : FirstAt (subSuffix 1) "�*2:1�x�/*2:1�y".toList 3 := by
    unfold FirstAt
    decide +kernel
  have hclose : FirstCloseFrom 1 "�*2:1�x�/*2:1�y".toList (3 + (subSuffix 1).length) 7 := by
    have hdigit : ∀ d ∈ ['2'], Text.isDecimalDigit d = true := fun d hd => by
      obtain rfl := List.mem_singleton.mp hd
      exact Text.isDecimalDigit_of_isAsciiDigit (by decide)
    refine ⟨by decide, ⟨['2'], List.cons_ne_nil _ _, hdigit, by decide +kernel⟩, ?_⟩
    intro j hj hle
    rw [← closesSubTemplate_iff]
    have hj6 : j = 6 := by
      rw [length_subSuffix] at hle
      have : (toString 1).toList.length = 1 := by decide
      omega
    subst hj6
    decide +kernel
  exact ⟨⟨_, hw, ((subTemplate_extraction_spec _).1 _ hw).1⟩,
    ((subTemplate_extraction_spec _).2 1).1 3 7 hfirst hclose⟩

/-- A close placeholder with no region open opens one that never closes: the text up to it is
kept, then everything from its start again. The sub-template of a placeholder ending in `:1` is
cut off at the next close of any template number. -/
theorem loneClose_repeats_text :
    removeInnerTemplates "a�/*1:1�b" = "a�/*1:1�a�/*1:1�b" ∧
      translationForTemplate "�*2:1�x�/*5:1�y" (some 1) = .ok "x" :=
  ⟨by decide +kernel, by rfl⟩

end Message

end ViewHydration
