import ViewHydration.Template.TNode

/-!
# Change masks of translated expressions

An update operation of a translated block reads some of the block's expressions, and its mask has
the bit of each of them: expression `n` owns bit `min n 31`, so expressions past the 31st share
the top bit. During an update pass the frame collects the bits of the expressions that changed,
and an operation runs again when its mask meets the collected bits. The facts here make that
sound: an operation whose mask misses every collected bit reads no changed expression, and an
operation renders the same text from any two lists of values that agree on what it reads.

## Main definitions

- `readsOf` — the expressions a part list reads
- `MaskHas` — a mask has the bit of an expression
- `I18nUpdateOp.Compiled` — an operation as the compiler builds it
-/

namespace ViewHydration

/-- The expressions a part list reads, in order. -/
def readsOf (parts : List I18nPart) : List Nat :=
  parts.filterMap fun
    | .binding n => some n
    | .literal _ => none

/-- A change mask has the bit of expression `n`. -/
def MaskHas (m : UInt32) (n : Nat) : Prop := m.toNat.testBit (min n 31) = true

section MaskHas

variable {a b : UInt32} {n : Nat}

theorem toNat_shiftLeft_one : ∀ k : Fin 32, ((1 : UInt32) <<< k.val.toUInt32).toNat = 1 <<< k.val := by
  decide

theorem toNat_expressionBit (n : Nat) : (expressionBit n).toNat = 1 <<< min n 31 :=
  toNat_shiftLeft_one ⟨min n 31, by omega⟩

theorem maskHas_expressionBit_self (n : Nat) : MaskHas (expressionBit n) n := by
  simp [MaskHas, toNat_expressionBit, Nat.one_shiftLeft]

theorem MaskHas.or_left (h : MaskHas a n) (b : UInt32) : MaskHas (a ||| b) n := by
  simp only [MaskHas, UInt32.toNat_or, Nat.testBit_or] at h ⊢
  simp [h]

theorem MaskHas.or_right (h : MaskHas b n) (a : UInt32) : MaskHas (a ||| b) n := by
  simp only [MaskHas, UInt32.toNat_or, Nat.testBit_or] at h ⊢
  simp [h]

/-- Two masks with the bit of one expression meet. -/
theorem and_ne_zero_of_maskHas (ha : MaskHas a n) (hb : MaskHas b n) : a &&& b ≠ 0 := by
  intro h0
  have hbit : (a &&& b).toNat.testBit (min n 31) = true := by
    simp only [MaskHas] at ha hb
    simp [UInt32.toNat_and, Nat.testBit_and, ha, hb]
  rw [h0] at hbit
  simp at hbit

theorem readsOf_append (xs ys : List I18nPart) : readsOf (xs ++ ys) = readsOf xs ++ readsOf ys :=
  List.filterMap_append

/-- The binding mask of a part list has the bit of every expression the parts read. -/
theorem maskHas_bindingMask {parts : List I18nPart} (h : n ∈ readsOf parts) :
    MaskHas (bindingMask parts) n := by
  -- the fold only adds bits: induction on the parts from the last one
  obtain ⟨rs, rfl⟩ : ∃ rs, parts = rs.reverse := ⟨parts.reverse, (List.reverse_reverse parts).symm⟩
  induction rs with
  | nil => simp [readsOf] at h
  | cons part rest ih =>
    rw [List.reverse_cons, readsOf_append, List.mem_append] at h
    unfold bindingMask at ih ⊢
    rw [List.reverse_cons, List.foldl_append, List.foldl_cons, List.foldl_nil]
    cases part with
    | literal s => exact ih (by simpa [readsOf] using h)
    | binding m =>
      rcases h with h | h
      · exact (ih h).or_left _
      · obtain rfl : n = m := by simpa [readsOf] using h
        exact (maskHas_expressionBit_self n).or_right _

end MaskHas

/-- A part list renders the same text from two value lists that agree on what it reads. -/
theorem renderParts_congr {parts : List I18nPart} {xs ys : List String}
    (h : ∀ n ∈ readsOf parts, xs[n]? = ys[n]?) : renderParts parts xs = renderParts parts ys := by
  -- the two folds take the same steps: induction on the parts from the last one
  obtain ⟨rs, rfl⟩ : ∃ rs, parts = rs.reverse := ⟨parts.reverse, (List.reverse_reverse parts).symm⟩
  induction rs with
  | nil => rfl
  | cons part rest ih =>
    rw [List.reverse_cons, readsOf_append] at h
    unfold renderParts at ih ⊢
    rw [List.reverse_cons, List.foldl_append, List.foldl_append,
      ih fun n hn => h n (List.mem_append_left _ hn), List.foldl_cons, List.foldl_cons]
    cases part with
    | literal s => rfl
    | binding m =>
      simp only [List.foldl_nil]
      rw [h m (List.mem_append_right _ (by simp [readsOf]))]

/-- An update operation as the compiler builds it: it reads at least one expression, and its mask
is the binding mask of its parts. -/
structure I18nUpdateOp.Compiled (op : I18nUpdateOp) : Prop where
  mask : op.mask = bindingMask op.parts
  reads : readsOf op.parts ≠ []

end ViewHydration
