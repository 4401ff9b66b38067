import ViewHydration.Proofs.BlockScan
import Mathlib.Data.List.Forall2

/-!
# Metadata blocks decode what they encode

The first part of a localized message carries a header block
`:meaning|description@@custom-id␟legacy-id…:` before its text, and every later part may carry a
placeholder block `:name@@associated-id:`. This module writes such blocks from their fields
and shows that reading the message gives the fields back: the metadata of the first part, the
placeholder of every later part, and the runtime message made of the texts with the
substitutions between them.

A field is written with single-character escapes only, holds no plain `:` and, once cooked,
none of the separators `|`, `@@` and `␟`. One more condition is needed where `@@` follows a
field, the description or a placeholder name: the field must not end with `@`, or the first
`@@` of the block starts one character early and the id gains a leading `@`
(`idAfterAt_reads_shifted`).

The shape of a message is checked first: cooked and raw parts must pair up and be at least
one, and there must be one substitution between each two parts.

## Main definitions

- `Localize.Field` — a field of a block, with the conditions that make it readable
- `Localize.HeaderBlock`, `Localize.PlaceholderName` — the blocks, written by `written`
- `Localize.encodeMessage` — a message with a header block and later parts

## Main results

- `localized_blocks_round_trip` — reading an encoded message gives its fields back, and the
  shape errors occur exactly when the parts or the substitutions do not fit
-/

namespace ViewHydration

namespace Localize

/-! ### Written characters inside a block -/

/-- Written characters that can stand inside a block: every backslash starts an escape, and no
plain `:` closes the block early. -/
def Inside (ws : List Written) : Prop := ∀ w ∈ ws, w.Valid ∧ w ≠ .plain ':'

instance : DecidablePred Written.Valid
  | .plain c => inferInstanceAs (Decidable (c ≠ '\\'))
  | .escape _ _ => inferInstanceAs (Decidable True)

instance (ws : List Written) : Decidable (Inside ws) :=
  inferInstanceAs (Decidable (∀ w ∈ ws, w.Valid ∧ w ≠ .plain ':'))

@[simp] theorem inside_nil : Inside [] := by simp [Inside]

@[simp] theorem inside_append {ws ws' : List Written} :
    Inside (ws ++ ws') ↔ Inside ws ∧ Inside ws' := by
  simp only [Inside, List.mem_append]
  exact ⟨fun h => ⟨fun w hw => h w (.inl hw), fun w hw => h w (.inr hw)⟩,
    fun h w hw => hw.elim (h.1 w) (h.2 w)⟩

/-- A separator is a plain character that neither escapes nor closes. -/
@[simp] theorem inside_plain_cons {c : Char} {ws : List Written} (hc : c ≠ '\\') (hcol : c ≠ ':') :
    Inside (.plain c :: ws) ↔ Inside ws := by
  simp only [Inside, List.mem_cons, forall_eq_or_imp, Written.Valid, ne_eq, Written.plain.injEq]
  exact ⟨And.right, fun h => ⟨⟨hc, hcol⟩, h⟩⟩

/-! ### Fields and blocks -/

/-- A field of a block: written inside the block, and free of the separators `|`, `@@` and `␟`
once cooked. -/
structure Field where
  chars : List Written
  inside : Inside chars
  no_bar : '|' ∉ cookedText chars
  no_pair : ¬ ['@', '@'] <:+: cookedText chars
  no_legacy : '␟' ∉ cookedText chars

/-- The value of a field: its cooked text. -/
def Field.text (f : Field) : String := String.ofList (cookedText f.chars)

/-- Written characters followed by `@@` and an id, when there is one. -/
def withId (ws : List Written) : Option Field → List Written
  | some i => ws ++ .plain '@' :: .plain '@' :: i.chars
  | none => ws

/-- Written characters followed by `@@` and an id do not end with `@`. -/
def EndsApart (ws : List Written) (i : Option Field) : Prop :=
  i.isSome → (cookedText ws).getLast? ≠ some '@'

instance (ws : List Written) (i : Option Field) : Decidable (EndsApart ws i) :=
  inferInstanceAs (Decidable (i.isSome → (cookedText ws).getLast? ≠ some '@'))

/-- The block of a first part: `meaning|description@@custom-id␟legacy-id…`, where the meaning,
the custom id and the legacy ids may be absent. -/
structure HeaderBlock where
  meaning : Option Field
  description : Field
  customId : Option Field
  legacyIds : List Field

namespace HeaderBlock

/-- The meaning and the description, joined by `|`. -/
def label (h : HeaderBlock) : List Written :=
  match h.meaning with
  | some m => m.chars ++ .plain '|' :: h.description.chars
  | none => h.description.chars

/-- The label, the custom id after `@@`, and each legacy id after `␟`. -/
def written (h : HeaderBlock) : List Written :=
  withId h.label h.customId ++ h.legacyIds.flatMap fun l => .plain '␟' :: l.chars

/-- The description does not end with `@` when a custom id follows it. -/
def Apart (h : HeaderBlock) : Prop := EndsApart h.description.chars h.customId

instance (h : HeaderBlock) : Decidable h.Apart := inferInstanceAs (Decidable (EndsApart _ _))

/-- The metadata the block stands for, with the text after the block; an empty description is
none. -/
def metadata (h : HeaderBlock) (text : String) : MessageMetadata where
  text := text
  meaning := h.meaning.map Field.text
  description := if h.description.chars = [] then none else some h.description.text
  customId := h.customId.map Field.text
  legacyIds := h.legacyIds.map Field.text

end HeaderBlock

/-- The block of a later part: `name@@associated-id`, where the associated id may be absent. -/
structure PlaceholderName where
  name : Field
  associatedId : Option Field

namespace PlaceholderName

/-- The name, and the associated id after `@@`. -/
def written (p : PlaceholderName) : List Written := withId p.name.chars p.associatedId

/-- The name does not end with `@` when an associated id follows it. -/
def Apart (p : PlaceholderName) : Prop := EndsApart p.name.chars p.associatedId

instance (p : PlaceholderName) : Decidable p.Apart := inferInstanceAs (Decidable (EndsApart _ _))

end PlaceholderName

/-! ### Parts and messages -/

/-- The text of a part after its block, cooked and as written. -/
structure PartText where
  cooked : List Char
  raw : List Char

/-- A part that opens with a block: `:block:text`, cooked and as written. -/
def blockPart (ws : List Written) (t : PartText) : String × String :=
  (String.ofList (':' :: cookedText ws ++ ':' :: t.cooked),
    String.ofList (':' :: rawText ws ++ ':' :: t.raw))

/-- A later part: a placeholder block, or none when the text as written does not open with
`:`. -/
structure LaterPart where
  placeholder : Option PlaceholderName
  text : PartText
  unmarked : placeholder = none → text.raw.head? ≠ some ':'

namespace LaterPart

/-- The part, cooked and as written. -/
def written (p : LaterPart) : String × String :=
  match p.placeholder with
  | some ph => blockPart ph.written p.text
  | none => (String.ofList p.text.cooked, String.ofList p.text.raw)

/-- The placeholder block the part stands for. -/
def block (p : LaterPart) : PlaceholderBlock where
  text := String.ofList p.text.cooked
  name := p.placeholder.map fun ph => ph.name.text
  associatedId := p.placeholder.bind fun ph => ph.associatedId.map Field.text

end LaterPart

/-- A localized message: a first part with a header block, then the later parts, with the
substitutions between them. -/
def encodeMessage (h : HeaderBlock) (t : PartText) (parts : List LaterPart) (subs : List String) :
    LocalizedMessage where
  cooked := (blockPart h.written t).1 :: parts.map fun p => p.written.1
  raw := (blockPart h.written t).2 :: parts.map fun p => p.written.2
  substitutions := subs

/-! ### Cooked texts of blocks -/

@[simp] theorem cookedText_withId_none (ws : List Written) :
    cookedText (withId ws none) = cookedText ws := rfl

@[simp] theorem cookedText_withId_some (ws : List Written) (i : Field) :
    cookedText (withId ws (some i)) = cookedText ws ++ '@' :: '@' :: cookedText i.chars := by
  simp [withId, Written.cooked]

@[simp] theorem cookedText_legacy (ls : List Field) :
    cookedText (ls.flatMap fun l => .plain '␟' :: l.chars) =
      (ls.map fun l => cookedText l.chars).flatMap ('␟' :: ·) := by
  induction ls with
  | nil => rfl
  | cons l ls ih => simp [ih, Written.cooked]

theorem inside_withId {ws : List Written} (hws : Inside ws) (i : Option Field) :
    Inside (withId ws i) := by
  cases i with
  | none => exact hws
  | some i => simp [withId, hws, i.inside]

theorem not_mem_withId {c : Char} {ws : List Written} {i : Option Field}
    (hws : c ∉ cookedText ws) (hat : c ≠ '@') (hi : ∀ f ∈ i, c ∉ cookedText f.chars) :
    c ∉ cookedText (withId ws i) := by
  cases i with
  | none => exact hws
  | some f => simp [hws, hat, hi f rfl]

/-- A separator holds no character that stands between two pieces free of it. -/
theorem not_infix_append_cons {sep a b : List Char} {c : Char} (hc : c ∉ sep)
    (ha : ¬ sep <:+: a) (hb : ¬ sep <:+: b) : ¬ sep <:+: a ++ c :: b := by
  rw [← List.singleton_append, ← List.append_assoc, List.infix_append_iff_ne_nil]
  rintro (h | h | ⟨l₁, l₂, hl₁, -, rfl, hsuf, -⟩)
  · rw [List.infix_concat_iff, List.suffix_concat_iff] at h
    rcases h with (rfl | ⟨t, rfl, -⟩) | h
    · exact ha List.nil_infix
    · exact hc (by simp)
    · exact ha h
  · exact hb h
  · -- a part of the separator before `c` ends with `c`
    rw [List.suffix_concat_iff] at hsuf
    rcases hsuf with rfl | ⟨t, rfl, -⟩
    · exact hl₁ rfl
    · exact hc (by simp)

/-- Characters free of `@@` and not ending with `@` stay free of it when `@` follows. -/
theorem not_pair_infix_append_at {l : List Char} (hl : ¬ ['@', '@'] <:+: l)
    (hlast : l.getLast? ≠ some '@') : ¬ ['@', '@'] <:+: l ++ ['@'] := by
  rw [List.infix_concat_iff, List.suffix_concat_iff]
  rintro ((h | ⟨t, ht, hsuf⟩) | h)
  · cases h
  · have hat : t = ['@'] := by simpa using (congrArg List.dropLast ht).symm
    subst hat
    exact hlast (List.singleton_suffix_iff_getLast?_eq_some.mp hsuf)
  · exact hl h

/-! ### Splitting blocks into fields -/

/-- Splitting at `@@` gives back the characters before it and the id. -/
theorem splitOn_withId {ws : List Written} {i : Option Field}
    (hws : ¬ ['@', '@'] <:+: cookedText ws) (hapart : EndsApart ws i) :
    splitOn ['@', '@'] (cookedText (withId ws i)) =
      cookedText ws :: (i.map fun f => cookedText f.chars).toList := by
  cases i with
  | none =>
    have h := @splitOn_pieces ['@', '@'] (by simp) (cookedText ws) [] (by simp) (by simpa using hws)
    simpa using h
  | some f =>
    have hend := not_pair_infix_append_at hws (hapart rfl)
    have h := @splitOn_pieces ['@', '@'] (by simp) (cookedText ws) [cookedText f.chars]
      (by simpa using hend) (by simpa using f.no_pair)
    simpa using h

namespace HeaderBlock

theorem inside_label (h : HeaderBlock) : Inside h.label := by
  obtain ⟨m, d, i, ls⟩ := h
  cases m with
  | none => exact d.inside
  | some m => simp [label, m.inside, d.inside]

theorem inside_written (h : HeaderBlock) : Inside h.written := by
  have hls : Inside (h.legacyIds.flatMap fun l => .plain '␟' :: l.chars) := by
    intro w hw
    obtain ⟨l, hl, hw⟩ := List.mem_flatMap.mp hw
    exact (inside_plain_cons (by decide) (by decide)).mpr l.inside w hw
  exact inside_append.mpr ⟨inside_withId h.inside_label _, hls⟩

/-- The label holds no `␟`: neither its fields nor `|` do. -/
theorem legacy_not_mem_label (h : HeaderBlock) : '␟' ∉ cookedText h.label := by
  obtain ⟨m, d, i, ls⟩ := h
  cases m with
  | none => exact d.no_legacy
  | some m => simp [label, Written.cooked, m.no_legacy, d.no_legacy]

/-- The label holds no `@@`: its fields do not, and `|` stands between them. -/
theorem not_pair_infix_label (h : HeaderBlock) : ¬ ['@', '@'] <:+: cookedText h.label := by
  obtain ⟨m, d, i, ls⟩ := h
  cases m with
  | none => exact d.no_pair
  | some m =>
    simpa [label, Written.cooked] using not_infix_append_cons (by decide) m.no_pair d.no_pair

/-- The label ends as the description does, or with `|` when the description is empty. -/
theorem label_ends_apart {h : HeaderBlock} (ha : h.Apart) : EndsApart h.label h.customId := by
  obtain ⟨m, d, i, ls⟩ := h
  intro hi
  have hd := ha hi
  cases m with
  | none => exact hd
  | some m =>
    simp only [label, cookedText_append, cookedText_cons, Written.cooked, List.getLast?_append,
      List.getLast?_cons]
    cases hdl : (cookedText d.chars).getLast? <;> simp_all

/-- Splitting the label at `|` gives the meaning, when there is one, and the description. -/
theorem splitOn_label (h : HeaderBlock) :
    splitOn ['|'] (cookedText h.label) =
      (h.meaning.map fun m => cookedText m.chars).toList ++ [cookedText h.description.chars] := by
  obtain ⟨m, d, i, ls⟩ := h
  cases m with
  | none =>
    have hs := @splitOn_singleton '|' (cookedText d.chars) [] (by simpa using d.no_bar)
    simpa [label] using hs
  | some m =>
    have hs := @splitOn_singleton '|' (cookedText m.chars) [cookedText d.chars]
      (by simp [m.no_bar, d.no_bar])
    simpa [label, Written.cooked] using hs

/-- Splitting the block at `␟` gives the head and the legacy ids. -/
theorem splitOn_written (h : HeaderBlock) :
    splitOn ['␟'] (cookedText h.written) =
      cookedText (withId h.label h.customId) :: h.legacyIds.map fun l => cookedText l.chars := by
  have hhead : '␟' ∉ cookedText (withId h.label h.customId) :=
    not_mem_withId h.legacy_not_mem_label (by decide) fun f _ => f.no_legacy
  rw [written, cookedText_append, cookedText_legacy]
  exact splitOn_singleton _ _ (by simp [hhead, Field.no_legacy])

end HeaderBlock

/-! ### Reading blocks back -/

@[simp] theorem cookedText_eq_nil {ws : List Written} : cookedText ws = [] ↔ ws = [] := by
  simp [cookedText]

theorem legacy_toList : "␟".toList = ['␟'] := rfl

theorem pair_toList : "@@".toList = ['@', '@'] := rfl

theorem bar_toList : "|".toList = ['|'] := rfl

/-- A string read as characters and split is the split of the characters. -/
theorem splitText_ofList (sep : String) (l : List Char) :
    splitText sep (String.ofList l) = (splitOn sep.toList l).map String.ofList := by
  simp [splitText]

end Localize

open Localize

/-- A part written with a block splits into its text and the cooked block. -/
theorem splitBlock_blockPart {ws : List Written} (hin : Inside ws) (t : PartText) :
    splitBlock (blockPart ws t).1 (blockPart ws t).2 =
      .ok (String.ofList t.cooked, some (String.ofList (cookedText ws))) :=
  splitBlock_of_marker (fun w hw => (hin w hw).1) (fun w hw => (hin w hw).2) t.cooked t.raw

/-- The first part of an encoded message reads back as its header block and text. -/
theorem parseMetadata_blockPart {h : HeaderBlock} (ha : h.Apart) (t : PartText) :
    parseMetadata (blockPart h.written t).1 (blockPart h.written t).2 =
      .ok (h.metadata (String.ofList t.cooked)) := by
  unfold parseMetadata
  rw [splitBlock_blockPart h.inside_written]
  simp only [bind, Except.bind]
  rw [splitText_ofList, legacy_toList, h.splitOn_written, List.map_cons]
  dsimp only
  rw [splitText_ofList, pair_toList, splitOn_withId h.not_pair_infix_label (HeaderBlock.label_ends_apart ha),
    List.map_cons]
  obtain ⟨m, d, i, ls⟩ := h
  cases i <;>
  · simp only [Option.map_none, Option.map_some, Option.toList_none, Option.toList_some,
      List.map_cons, List.map_nil]
    rw [splitText_ofList, bar_toList, HeaderBlock.splitOn_label]
    cases m <;> simp [HeaderBlock.metadata, Field.text, pure, Except.pure]

/-- A later part of an encoded message reads back as its placeholder block and text. -/
theorem parsePlaceholderBlock_written {p : LaterPart} (ha : ∀ ph ∈ p.placeholder, ph.Apart) :
    parsePlaceholderBlock p.written.1 p.written.2 = .ok p.block := by
  obtain ⟨ph, t, hun⟩ := p
  cases ph with
  | none =>
    have hhead : (String.ofList t.raw).toList.head? ≠ some ':' := by simpa using hun rfl
    unfold parsePlaceholderBlock
    simp only [LaterPart.written]
    rw [splitBlock_of_not_marker hhead]
    rfl
  | some ph =>
    have hin : Inside ph.written := inside_withId ph.name.inside _
    unfold parsePlaceholderBlock
    simp only [LaterPart.written]
    rw [splitBlock_blockPart hin]
    simp only [bind, Except.bind]
    rw [splitText_ofList, pair_toList, PlaceholderName.written,
      splitOn_withId ph.name.no_pair (ha ph rfl)]
    obtain ⟨n, i⟩ := ph
    cases i <;> simp [LaterPart.block, Field.text, pure, Except.pure]

/-! ### Failures -/

/-- A bound computation fails as its first step does, or as the rest does after it. -/
theorem except_bind_eq_error {ε α β : Type} {x : Except ε α} {f : α → Except ε β} {e : ε}
    (h : x >>= f = .error e) : x = .error e ∨ ∃ a, x = .ok a ∧ f a = .error e := by
  cases x with
  | error e' =>
    cases h
    exact .inl rfl
  | ok a => exact .inr ⟨a, rfl, h⟩

theorem findEndOfBlock_error {cooked raw : String} {e : I18nError}
    (h : findEndOfBlock cooked raw = .error e) : e = .unterminatedBlock raw := by
  unfold findEndOfBlock at h
  split at h
  · cases h
  · cases h
    rfl

theorem splitBlock_error {cooked raw : String} {e : I18nError}
    (h : splitBlock cooked raw = .error e) : e = .unterminatedBlock raw := by
  unfold splitBlock at h
  split at h
  · cases h
  · obtain hend | ⟨stop, -, hrest⟩ := except_bind_eq_error h
    · exact findEndOfBlock_error hend
    · cases hrest

/-- Reading a first part fails only on an unterminated block. -/
theorem parseMetadata_error {cooked raw : String} {e : I18nError}
    (h : parseMetadata cooked raw = .error e) : e = .unterminatedBlock raw := by
  unfold parseMetadata at h
  obtain hs | ⟨⟨text, block⟩, -, hrest⟩ := except_bind_eq_error h
  · exact splitBlock_error hs
  · cases block <;> simp only [pure, Except.pure, reduceCtorEq] at hrest

/-- Reading a later part fails only on an unterminated block. -/
theorem parsePlaceholderBlock_error {cooked raw : String} {e : I18nError}
    (h : parsePlaceholderBlock cooked raw = .error e) : e = .unterminatedBlock raw := by
  unfold parsePlaceholderBlock at h
  obtain hs | ⟨⟨text, block⟩, -, hrest⟩ := except_bind_eq_error h
  · exact splitBlock_error hs
  · cases block with
    | none => cases hrest
    | some block =>
      simp only at hrest
      split at hrest <;> cases hrest

/-! ### Folding over the later parts -/

section Fold

variable {α β ε : Type}

/-- A fold in which every step fails only with errors of a kind fails only with them. -/
theorem foldlM_error_of_steps {P : ε → Prop} {f : β → α → Except ε β}
    (hf : ∀ b a e, f b a = .error e → P e) :
    ∀ (xs : List α) (b : β) (e : ε), xs.foldlM f b = .error e → P e := by
  intro xs
  induction xs with
  | nil =>
    intro b e h
    cases h
  | cons x xs ih =>
    intro b e h
    rw [List.foldlM_cons] at h
    obtain hx | ⟨b', -, hrest⟩ := except_bind_eq_error h
    · exact hf b x e hx
    · exact ih b' e hrest

/-- A fold that appends a substitution and a text for each element appends them all. -/
theorem foldlM_append_zip {f : String → String × α → Except ε String} {ys : List α}
    {texts : List String}
    (hf : List.Forall₂ (fun y t => ∀ acc sub, f acc (sub, y) = .ok (acc ++ sub ++ t)) ys texts) :
    ∀ (subs : List String), subs.length = ys.length → ∀ acc,
      (subs.zip ys).foldlM f acc = .ok (acc ++ String.join (List.zipWith (· ++ ·) subs texts)) := by
  induction hf with
  | nil =>
    intro subs hlen acc
    rw [List.length_eq_zero_iff.mp hlen]
    simp [pure, Except.pure]
  | @cons y t ys texts hyt _ ih =>
    intro subs hlen acc
    obtain ⟨sub, subs, rfl⟩ := List.exists_cons_of_length_eq_add_one hlen
    rw [List.zip_cons_cons, List.foldlM_cons, hyt, List.zipWith_cons_cons, String.join_cons]
    simp only [bind, Except.bind]
    rw [ih subs (by simpa using hlen)]
    simp only [String.append_assoc]

end Fold

namespace LocalizedMessage

variable {m : LocalizedMessage} {e : I18nError}

theorem checkShape_eq_ok_iff : m.checkShape = .ok () ↔
    (m.cooked.length = m.raw.length ∧ m.cooked ≠ []) ∧
      m.substitutions.length + 1 = m.cooked.length := by
  unfold checkShape
  split_ifs <;> simp at * <;> tauto

theorem checkShape_parts_iff : (∃ a b, m.checkShape = .error (.partsMismatch a b)) ↔
    m.cooked.length ≠ m.raw.length ∨ m.cooked = [] := by
  unfold checkShape
  split_ifs <;> simp at * <;> tauto

theorem checkShape_substitutions_iff :
    (∃ a b, m.checkShape = .error (.substitutionsMismatch a b)) ↔
      (m.cooked.length = m.raw.length ∧ m.cooked ≠ []) ∧
        m.substitutions.length + 1 ≠ m.cooked.length := by
  unfold checkShape
  split_ifs <;> simp at * <;> tauto

/-- The metadata fails with the shape error, or else as reading the first part fails. -/
theorem metadata_error (h : m.metadata = .error e) :
    m.checkShape = .error e ∨ ∃ raw, e = .unterminatedBlock raw := by
  unfold metadata at h
  obtain hs | ⟨u, -, hread⟩ := except_bind_eq_error h
  · exact .inl hs
  · exact .inr ⟨_, parseMetadata_error hread⟩

theorem metadata_of_checkShape (h : m.checkShape = .error e) : m.metadata = .error e := by
  unfold metadata
  rw [h]
  rfl

/-- The runtime message fails as the metadata does, or else as reading a later part fails. -/
theorem toRuntimeMessage_error (h : m.toRuntimeMessage = .error e) :
    m.metadata = .error e ∨ ∃ raw, e = .unterminatedBlock raw := by
  unfold toRuntimeMessage at h
  obtain hm | ⟨header, -, hfold⟩ := except_bind_eq_error h
  · exact .inl hm
  -- each step of the fold reads a later part, then appends
  refine .inr (@foldlM_error_of_steps _ _ _ (fun e => ∃ raw, e = .unterminatedBlock raw) _
    (fun acc x e hx => ?_) _ _ _ hfold)
  obtain ⟨sub, cooked, raw⟩ := x
  obtain hb | ⟨block, -, hpure⟩ := except_bind_eq_error hx
  · exact ⟨raw, parsePlaceholderBlock_error hb⟩
  · cases hpure

theorem toRuntimeMessage_of_checkShape (h : m.checkShape = .error e) :
    m.toRuntimeMessage = .error e := by
  unfold toRuntimeMessage
  rw [metadata_of_checkShape h]
  rfl

/-- An error other than an unterminated block comes from the shape check. -/
theorem shape_error_iff {α : Type} {x : Except I18nError α}
    (hto : ∀ e, m.checkShape = .error e → x = .error e)
    (hfrom : ∀ e, x = .error e → m.checkShape = .error e ∨ ∃ raw, e = .unterminatedBlock raw) :
    ((∃ a b, x = .error (.partsMismatch a b)) ↔
      ∃ a b, m.checkShape = .error (.partsMismatch a b)) ∧
    ((∃ a b, x = .error (.substitutionsMismatch a b)) ↔
      ∃ a b, m.checkShape = .error (.substitutionsMismatch a b)) := by
  refine ⟨⟨?_, ?_⟩, ⟨?_, ?_⟩⟩
  · rintro ⟨a, b, hx⟩
    rcases hfrom _ hx with hc | ⟨raw, he⟩
    · exact ⟨a, b, hc⟩
    · cases he
  · rintro ⟨a, b, hc⟩
    exact ⟨a, b, hto _ hc⟩
  · rintro ⟨a, b, hx⟩
    rcases hfrom _ hx with hc | ⟨raw, he⟩
    · exact ⟨a, b, hc⟩
    · cases he
  · rintro ⟨a, b, hc⟩
    exact ⟨a, b, hto _ hc⟩

end LocalizedMessage

namespace Localize

theorem checkShape_encodeMessage (h : HeaderBlock) (t : PartText) (parts : List LaterPart)
    {subs : List String} (hsubs : subs.length = parts.length) :
    (encodeMessage h t parts subs).checkShape = .ok () := by
  rw [LocalizedMessage.checkShape_eq_ok_iff]
  simp [encodeMessage, hsubs]

theorem metadata_encodeMessage {h : HeaderBlock} (ha : h.Apart) (t : PartText)
    (parts : List LaterPart) {subs : List String} (hsubs : subs.length = parts.length) :
    (encodeMessage h t parts subs).metadata = .ok (h.metadata (String.ofList t.cooked)) := by
  unfold LocalizedMessage.metadata
  rw [checkShape_encodeMessage h t parts hsubs]
  simp only [bind, Except.bind, encodeMessage, List.headD_cons]
  exact parseMetadata_blockPart ha t

/-- The runtime message of an encoded message: the texts, with the substitutions between
them. -/
theorem toRuntimeMessage_encodeMessage {h : HeaderBlock} (ha : h.Apart) (t : PartText)
    {parts : List LaterPart} (hp : ∀ p ∈ parts, ∀ ph ∈ p.placeholder, ph.Apart)
    {subs : List String} (hsubs : subs.length = parts.length) :
    (encodeMessage h t parts subs).toRuntimeMessage =
      .ok (String.ofList t.cooked ++
        String.join (List.zipWith (· ++ ·) subs (parts.map fun p => String.ofList p.text.cooked))) := by
  unfold LocalizedMessage.toRuntimeMessage
  rw [metadata_encodeMessage ha t parts hsubs]
  dsimp only [bind, Except.bind]
  simp only [encodeMessage, List.drop_one, List.tail_cons, List.zip_map']
  refine foldlM_append_zip ?_ subs (by simpa using hsubs) _
  rw [List.forall₂_map_left_iff, List.forall₂_map_right_iff]
  refine List.forall₂_same.mpr fun p hmem acc sub => ?_
  dsimp only
  rw [parsePlaceholderBlock_written (hp p hmem)]
  rfl

end Localize

open Localize in
/-- Header and placeholder blocks decode what they encode: the metadata of an encoded message is
its header block with the text after it, each later part reads back as its placeholder block,
and the runtime message is the texts with the substitutions between them. A shape error
occurs exactly when the parts do not pair up or are none, and a substitution count error
exactly when the parts pair up but the substitutions do not fit between them. -/
theorem localized_blocks_round_trip (h : HeaderBlock) (ha : h.Apart) (t : PartText)
    (parts : List LaterPart) (hp : ∀ p ∈ parts, ∀ ph ∈ p.placeholder, ph.Apart)
    (subs : List String) (hsubs : subs.length = parts.length) :
    (encodeMessage h t parts subs).metadata = .ok (h.metadata (String.ofList t.cooked)) ∧
    (∀ p ∈ parts, parsePlaceholderBlock p.written.1 p.written.2 = .ok p.block) ∧
    (encodeMessage h t parts subs).toRuntimeMessage =
      .ok (String.ofList t.cooked ++
        String.join (List.zipWith (· ++ ·) subs (parts.map fun p => String.ofList p.text.cooked))) ∧
    ∀ m : LocalizedMessage,
      ((∃ a b, m.metadata = .error (.partsMismatch a b)) ↔
        m.cooked.length ≠ m.raw.length ∨ m.cooked = []) ∧
      ((∃ a b, m.toRuntimeMessage = .error (.partsMismatch a b)) ↔
        m.cooked.length ≠ m.raw.length ∨ m.cooked = []) ∧
      ((∃ a b, m.metadata = .error (.substitutionsMismatch a b)) ↔
        (m.cooked.length = m.raw.length ∧ m.cooked ≠ []) ∧
          m.substitutions.length + 1 ≠ m.cooked.length) ∧
      ((∃ a b, m.toRuntimeMessage = .error (.substitutionsMismatch a b)) ↔
        (m.cooked.length = m.raw.length ∧ m.cooked ≠ []) ∧
          m.substitutions.length + 1 ≠ m.cooked.length) := by
  refine ⟨metadata_encodeMessage ha t parts hsubs,
    fun p hmem => parsePlaceholderBlock_written (hp p hmem),
    toRuntimeMessage_encodeMessage ha t hp hsubs, fun m => ?_⟩
  have hmeta := @LocalizedMessage.shape_error_iff m _ m.metadata
    (fun _ => LocalizedMessage.metadata_of_checkShape) (fun _ => LocalizedMessage.metadata_error)
  have hrun := @LocalizedMessage.shape_error_iff m _ m.toRuntimeMessage
    (fun _ => LocalizedMessage.toRuntimeMessage_of_checkShape)
    (fun _ hx => (LocalizedMessage.toRuntimeMessage_error hx).elim LocalizedMessage.metadata_error .inr)
  rw [hmeta.1, hmeta.2, hrun.1, hrun.2, LocalizedMessage.checkShape_parts_iff,
    LocalizedMessage.checkShape_substitutions_iff]
  exact ⟨Iff.rfl, Iff.rfl, Iff.rfl, Iff.rfl⟩

namespace Localize

@[simp] theorem cookedText_map_plain (cs : List Char) : cookedText (cs.map .plain) = cs := by
  induction cs with
  | nil => rfl
  | cons c cs ih => simp [ih, Written.cooked]

/-- A field of plain characters, for the examples below. -/
def plainField (cs : List Char) (hin : Inside (cs.map .plain)) (hbar : '|' ∉ cs)
    (hpair : ¬ ['@', '@'] <:+: cs) (hlegacy : '␟' ∉ cs) : Field where
  chars := cs.map .plain
  inside := hin
  no_bar := by simpa using hbar
  no_pair := by simpa using hpair
  no_legacy := by simpa using hlegacy

end Localize

open Localize in
/-- A header with every field, a description that is an escaped `:`, a placeholder part with an
associated id and a part with no block. -/
def sampleMessage : HeaderBlock × PartText × List LaterPart :=
  ({ meaning := some (plainField ['m'] (by decide) (by decide) (by decide) (by decide))
     description := ⟨[.escape ':' ':'], by decide, by decide, by decide, by decide⟩
     customId := some (plainField ['i'] (by decide) (by decide) (by decide) (by decide))
     legacyIds := [plainField ['l'] (by decide) (by decide) (by decide) (by decide)] },
   ⟨['t'], ['t']⟩,
   [{ placeholder := some ⟨plainField ['n'] (by decide) (by decide) (by decide) (by decide),
        some (plainField ['a'] (by decide) (by decide) (by decide) (by decide))⟩
      text := ⟨['u'], ['u']⟩
      unmarked := nofun },
    { placeholder := none
      text := ⟨['v'], ['v']⟩
      unmarked := fun _ => by decide }])

open Localize in
theorem sampleMessage_reads_back :
    sampleMessage.1.Apart ∧ (∀ p ∈ sampleMessage.2.2, ∀ ph ∈ p.placeholder, ph.Apart) ∧
      ["S", "T"].length = sampleMessage.2.2.length ∧
      (encodeMessage sampleMessage.1 sampleMessage.2.1 sampleMessage.2.2 ["S", "T"]).metadata =
        .ok { text := "t", meaning := some "m", description := some ":", customId := some "i",
              legacyIds := ["l"] } := by
  have ha : sampleMessage.1.Apart := by decide
  have hp : ∀ p ∈ sampleMessage.2.2, ∀ ph ∈ p.placeholder, ph.Apart := by decide
  refine ⟨ha, hp, rfl, ?_⟩
  rw [(localized_blocks_round_trip sampleMessage.1 ha sampleMessage.2.1 sampleMessage.2.2 hp
    ["S", "T"] rfl).1]
  decide

open Localize in
/-- A description that ends with `@`, before a custom id. -/
def atHeader : HeaderBlock where
  meaning := none
  description := plainField ['a', '@'] (by decide) (by decide) (by decide) (by decide)
  customId := some (plainField ['x'] (by decide) (by decide) (by decide) (by decide))
  legacyIds := []

open Localize in
/-- The description ends with `@` before its custom id: the first `@@` of `a@@@x` starts at the
description's `@`, so the description loses it and the id gains it. -/
theorem idAfterAt_reads_shifted :
    ¬ atHeader.Apart ∧
      (encodeMessage atHeader ⟨['t'], ['t']⟩ [] []).metadata =
        .ok { text := "t", description := some "a", customId := some "@x" } ∧
      (encodeMessage atHeader ⟨['t'], ['t']⟩ [] []).metadata ≠ .ok (atHeader.metadata "t") := by
  refine ⟨by decide, by decide, by decide⟩

end ViewHydration
