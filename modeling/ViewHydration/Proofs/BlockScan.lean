import ViewHydration.I18n.Localize
import Mathlib.Data.List.Infix

/-!
# Finding and splitting metadata blocks

A part of a localized message is given twice: as written (`raw`) and with its escape sequences
resolved (`cooked`). The end of a block is searched in the cooked text while a second index
follows the raw text, stepping over two raw characters at every backslash. This module describes
a written part as a list of written characters, each a plain character or an escape of one
character after a backslash standing for one cooked character, and shows that over such a part
the two indices stay aligned: the block ends at the first plain `:`, and without one the block
is unterminated. An escape of more characters (`\xHH`, `\uHHHH`, `\u{…}`) breaks this alignment.

The text of a block is then split at separators. The splitting here is exact for pieces in which
the separator does not occur, also across the boundary to the separator that follows the piece.

## Main definitions

- `Localize.Written` — one written character: plain, or a single-character escape
- `Localize.rawText`, `Localize.cookedText` — the two texts of written characters

## Main results

- `Localize.blockEnd_step`, `Localize.blockEnd_skip` — one written character, then a run of
  them, moves the scan past it with the two indices aligned
- `findEndOfBlock_of_marker`, `findEndOfBlock_unterminated` — the block ends at the first plain
  `:`, and is unterminated without one
- `splitBlock_of_marker` — a part that opens with a block splits into the text after it and the
  cooked block
- `Localize.splitOn_pieces`, `Localize.splitOn_singleton` — splitting pieces joined by a separator
  gives the pieces back
-/

namespace ViewHydration

namespace Localize

/-! ### Written characters -/

/-- One character of a part as written: a plain character, or an escape of one character after a
backslash, which stands for one character of the cooked text. -/
inductive Written where
  | plain (c : Char)
  | escape (c value : Char)
  deriving DecidableEq, Repr

namespace Written

/-- The characters as written. -/
def raw : Written → List Char
  | .plain c => [c]
  | .escape c _ => ['\\', c]

/-- The character of the cooked text. -/
def cooked : Written → Char
  | .plain c => c
  | .escape _ value => value

/-- A plain character is not a backslash, which would start an escape. -/
def Valid : Written → Prop
  | .plain c => c ≠ '\\'
  | .escape _ _ => True

end Written

/-- The raw text of written characters. -/
def rawText (ws : List Written) : List Char := ws.flatMap Written.raw

/-- The cooked text of written characters. -/
def cookedText (ws : List Written) : List Char := ws.map Written.cooked

@[simp] theorem rawText_nil : rawText [] = [] := rfl

@[simp] theorem rawText_cons (w : Written) (ws : List Written) :
    rawText (w :: ws) = w.raw ++ rawText ws := rfl

@[simp] theorem rawText_append (ws ws' : List Written) :
    rawText (ws ++ ws') = rawText ws ++ rawText ws' := by
  simp [rawText]

@[simp] theorem cookedText_nil : cookedText [] = [] := rfl

@[simp] theorem cookedText_cons (w : Written) (ws : List Written) :
    cookedText (w :: ws) = w.cooked :: cookedText ws := rfl

@[simp] theorem cookedText_append (ws ws' : List Written) :
    cookedText (ws ++ ws') = cookedText ws ++ cookedText ws' := by
  simp [cookedText]

@[simp] theorem length_cookedText (ws : List Written) : (cookedText ws).length = ws.length := by
  simp [cookedText]

/-! ### The scan for the end of a block -/

/-- One written character that is not a plain `:` moves the scan past it: one raw character for
a plain one, two for an escape. -/
theorem blockEnd_step (raw : List Char) {w : Written} (hvalid : w.Valid) (hfree : w ≠ .plain ':')
    {ci ri : Nat} {rest : List Char} (hraw : raw.drop ri = w.raw ++ rest) (cs : List Char) :
    blockEnd raw ci ri (w.cooked :: cs) = blockEnd raw (ci + 1) (ri + w.raw.length) cs := by
  have hat : raw[ri]? = (w.raw ++ rest).head? := by rw [← List.head?_drop, hraw]
  rw [blockEnd, hat]
  cases w with
  | plain c =>
    have hc : c ≠ '\\' := hvalid
    have hcolon : c ≠ ':' := fun h => hfree (h ▸ rfl)
    simp [Written.raw, Written.cooked, hc, hcolon]
  | escape c v => simp [Written.raw]

/-- Over written characters with no plain `:`, the scan moves both indices past them. -/
theorem blockEnd_skip (raw : List Char) {ws : List Written} (hvalid : ∀ w ∈ ws, w.Valid)
    (hfree : ∀ w ∈ ws, w ≠ .plain ':') {ci ri : Nat} {rest : List Char}
    (hraw : raw.drop ri = rawText ws ++ rest) (cs : List Char) :
    blockEnd raw ci ri (cookedText ws ++ cs) =
      blockEnd raw (ci + ws.length) (ri + (rawText ws).length) cs := by
  induction ws generalizing ci ri with
  | nil => rfl
  | cons w ws ih =>
    have hhere : raw.drop ri = w.raw ++ (rawText ws ++ rest) := by
      rw [hraw, rawText_cons, List.append_assoc]
    have hnext : raw.drop (ri + w.raw.length) = rawText ws ++ rest := by
      rw [← List.drop_drop, hhere, List.drop_left]
    rw [cookedText_cons, List.cons_append,
      blockEnd_step raw (hvalid w List.mem_cons_self) (hfree w List.mem_cons_self) hhere,
      ih (fun w hw => hvalid w (List.mem_cons_of_mem _ hw))
        (fun w hw => hfree w (List.mem_cons_of_mem _ hw)) hnext]
    simp only [rawText_cons, List.length_append, List.length_cons]
    congr 1 <;> omega

/-- After written characters with no plain `:`, a plain `:` ends the block. -/
theorem blockEnd_marker (raw : List Char) {ws : List Written} (hvalid : ∀ w ∈ ws, w.Valid)
    (hfree : ∀ w ∈ ws, w ≠ .plain ':') {ci ri : Nat} {rest : List Char}
    (hraw : raw.drop ri = rawText ws ++ ':' :: rest) (cs : List Char) :
    blockEnd raw ci ri (cookedText ws ++ ':' :: cs) = some (ci + ws.length) := by
  rw [blockEnd_skip raw hvalid hfree hraw]
  have hat : raw[ri + (rawText ws).length]? = some ':' := by
    rw [← List.head?_drop, ← List.drop_drop, hraw, List.drop_left]
    rfl
  rw [blockEnd, hat]
  simp

/-! ### Splitting at a separator -/

section Split

variable {sep : List Char}

/-- Nothing left to read closes the piece read so far. -/
@[simp] theorem splitOn_go_nil (n : Nat) (cur : List Char) : splitOn.go sep n cur [] = [cur] := by
  cases n with
  | zero => simp [splitOn.go]
  | succ n =>
    by_cases hsep : sep = []
    · simp [splitOn.go, hsep]
    · simp [splitOn.go, hsep]

/-- Characters at which no separator starts join the piece read so far. -/
theorem splitOn_go_skip {p rest : List Char} (hp : ∀ j < p.length, ¬ sep <+: (p ++ rest).drop j)
    (n : Nat) (cur : List Char) :
    splitOn.go sep (n + p.length) cur (p ++ rest) = splitOn.go sep n (cur ++ p) rest := by
  induction p generalizing cur with
  | nil => simp
  | cons c p ih =>
    have hc : ¬ sep <+: c :: (p ++ rest) := hp 0 (by simp)
    have hsep : sep ≠ [] := by
      rintro rfl
      exact hc List.nil_prefix
    have htake : ¬ ((c :: (p ++ rest)).take sep.length == sep) = true := by
      rw [beq_iff_eq]
      exact fun h => hc (List.prefix_iff_eq_take.mpr h.symm)
    have hp' : ∀ j < p.length, ¬ sep <+: (p ++ rest).drop j :=
      fun j hj => hp (j + 1) (by simp [hj])
    rw [List.length_cons, ← Nat.add_assoc, List.cons_append, splitOn.go]
    simp only [List.isEmpty_iff, hsep, htake, Bool.false_eq_true, if_false]
    rw [ih hp', List.append_assoc, List.singleton_append]

/-- A separator closes the piece read so far. -/
theorem splitOn_go_sep (hsep : sep ≠ []) (n : Nat) (cur rest : List Char) :
    splitOn.go sep (n + 1) cur (sep ++ rest) = cur :: splitOn.go sep n [] rest := by
  simp [splitOn.go, hsep]

/-- If a separator does not occur in a piece followed by all but the last character of the
separator, it starts at no character of the piece, whatever follows the separator after it. -/
theorem not_prefix_drop_of_separated {p : List Char} (h : ¬ sep <:+: p ++ sep.dropLast)
    (rest : List Char) : ∀ j < p.length, ¬ sep <+: (p ++ (sep ++ rest)).drop j := by
  intro j hj hpre
  rw [List.drop_append_of_le_length hj.le] at hpre
  -- an occurrence starting inside the piece ends before the last character of the separator
  have hlong : p.drop j ++ sep.dropLast <+: p.drop j ++ (sep ++ rest) :=
    (List.prefix_append_right_inj _).mpr ((List.dropLast_prefix sep).trans (List.prefix_append _ _))
  have hle : sep.length ≤ (p.drop j ++ sep.dropLast).length := by
    simp only [List.length_append, List.length_drop, List.length_dropLast]
    omega
  have hsuf : p.drop j ++ sep.dropLast <:+ p ++ sep.dropLast :=
    ⟨p.take j, by rw [← List.append_assoc, List.take_append_drop]⟩
  exact h ((List.prefix_of_prefix_length_le hpre hlong hle).isInfix.trans hsuf.isInfix)

/-- Splitting pieces joined by a separator gives the pieces back, when the separator occurs in
no piece, nor across a piece and the separator after it. -/
theorem splitOn_go_pieces (hsep : sep ≠ []) (p : List Char) (ps : List (List Char))
    (hinit : ∀ q ∈ (p :: ps).dropLast, ¬ sep <:+: q ++ sep.dropLast)
    (hlast : ¬ sep <:+: (p :: ps).getLast (List.cons_ne_nil p ps)) (n : Nat) (cur : List Char) :
    splitOn.go sep (n + (p ++ ps.flatMap (sep ++ ·)).length) cur (p ++ ps.flatMap (sep ++ ·)) =
      (cur ++ p) :: ps := by
  induction ps generalizing p n cur with
  | nil =>
    have hp : ∀ j < p.length, ¬ sep <+: (p ++ []).drop j := fun j _ hpre =>
      hlast (by simpa using hpre.isInfix.trans (List.drop_suffix j (p ++ [])).isInfix)
    rw [List.flatMap_nil, List.length_append, List.length_nil, Nat.add_zero, splitOn_go_skip hp,
      splitOn_go_nil]
  | cons q qs ih =>
    have hp : ¬ sep <:+: p ++ sep.dropLast := hinit p (by simp)
    have hinit' : ∀ x ∈ (q :: qs).dropLast, ¬ sep <:+: x ++ sep.dropLast :=
      fun x hx => hinit x (by rw [List.dropLast_cons_cons]; exact List.mem_cons_of_mem _ hx)
    have hlast' : ¬ sep <:+: (q :: qs).getLast (List.cons_ne_nil q qs) := by
      rwa [List.getLast_cons_cons] at hlast
    have hsep1 : 0 < sep.length := List.length_pos_iff.mpr hsep
    -- the fuel covers the piece, then the separator, then what follows it
    have hfuel : n + (p ++ (q :: qs).flatMap (sep ++ ·)).length =
        (n + (sep.length - 1) + (q ++ qs.flatMap (sep ++ ·)).length + 1) + p.length := by
      simp only [List.flatMap_cons, List.length_append]
      omega
    rw [hfuel, List.flatMap_cons, List.append_assoc,
      splitOn_go_skip (not_prefix_drop_of_separated hp _), splitOn_go_sep hsep,
      ih q hinit' hlast', List.nil_append]

/-- Splitting pieces joined by a separator gives the pieces back, when the separator occurs in
no piece, nor across a piece and the separator after it. -/
theorem splitOn_pieces (hsep : sep ≠ []) (p : List Char) (ps : List (List Char))
    (hinit : ∀ q ∈ (p :: ps).dropLast, ¬ sep <:+: q ++ sep.dropLast)
    (hlast : ¬ sep <:+: (p :: ps).getLast (List.cons_ne_nil p ps)) :
    splitOn sep (p ++ ps.flatMap (sep ++ ·)) = p :: ps := by
  have h := splitOn_go_pieces hsep p ps hinit hlast 0 []
  rwa [Nat.zero_add, List.nil_append] at h

/-- Splitting at a character gives back pieces that do not contain it. -/
theorem splitOn_singleton {c : Char} (p : List Char) (ps : List (List Char))
    (h : ∀ q ∈ p :: ps, c ∉ q) : splitOn [c] (p ++ ps.flatMap (c :: ·)) = p :: ps := by
  have hfree : ∀ q ∈ p :: ps, ¬ [c] <:+: q := fun q hq => by
    rw [List.singleton_infix_iff]
    exact h q hq
  refine splitOn_pieces (List.cons_ne_nil c []) p ps (fun q hq => ?_) (hfree _ (List.getLast_mem _))
  rw [List.dropLast_singleton, List.append_nil]
  exact hfree q (List.dropLast_subset _ hq)

end Split

end Localize

open Localize

/-- A part that opens with a block of written characters, then a plain `:`, has its block end at
that `:`, whatever follows. -/
theorem findEndOfBlock_of_marker {ws : List Written} (hvalid : ∀ w ∈ ws, w.Valid)
    (hfree : ∀ w ∈ ws, w ≠ .plain ':') (cookedTail rawTail : List Char) :
    findEndOfBlock (String.ofList (':' :: cookedText ws ++ ':' :: cookedTail))
      (String.ofList (':' :: rawText ws ++ ':' :: rawTail)) = .ok (ws.length + 1) := by
  have hraw : (':' :: (rawText ws ++ ':' :: rawTail)).drop 1 = rawText ws ++ ':' :: rawTail :=
    rfl
  unfold findEndOfBlock
  simp only [String.toList_ofList, List.cons_append, List.drop_one, List.tail_cons]
  rw [blockEnd_marker _ hvalid hfree hraw]
  simp [Nat.add_comm]

/-- A part written with no plain `:` after the opening one has an unterminated block. -/
theorem findEndOfBlock_unterminated {ws : List Written} (hvalid : ∀ w ∈ ws, w.Valid)
    (hfree : ∀ w ∈ ws, w ≠ .plain ':') :
    findEndOfBlock (String.ofList (':' :: cookedText ws)) (String.ofList (':' :: rawText ws)) =
      .error (.unterminatedBlock (String.ofList (':' :: rawText ws))) := by
  have hraw : (':' :: rawText ws).drop 1 = rawText ws ++ [] := by simp
  have hscan := @blockEnd_skip (':' :: rawText ws) ws hvalid hfree 1 1 [] hraw []
  rw [List.append_nil] at hscan
  unfold findEndOfBlock
  simp only [String.toList_ofList, List.drop_one, List.tail_cons]
  rw [hscan]
  rfl

/-- A part that opens with a block splits into the cooked text after the block and the cooked
block. -/
theorem splitBlock_of_marker {ws : List Written} (hvalid : ∀ w ∈ ws, w.Valid)
    (hfree : ∀ w ∈ ws, w ≠ .plain ':') (cookedTail rawTail : List Char) :
    splitBlock (String.ofList (':' :: cookedText ws ++ ':' :: cookedTail))
      (String.ofList (':' :: rawText ws ++ ':' :: rawTail)) =
      .ok (String.ofList cookedTail, some (String.ofList (cookedText ws))) := by
  have hend := findEndOfBlock_of_marker hvalid hfree cookedTail rawTail
  rw [List.cons_append, List.cons_append] at hend
  unfold splitBlock
  simp only [String.toList_ofList, List.cons_append, List.head?_cons, bne_self_eq_false,
    Bool.false_eq_true, if_false]
  rw [hend]
  simp only [bind, Except.bind, pure, Except.pure]
  have hlen := length_cookedText ws
  congr 3
  · -- the text after the block starts past both markers
    rw [List.drop_succ_cons, ← hlen, List.drop_append]
    simp
  · rw [List.drop_one, ← hlen, List.take_succ_cons, List.tail_cons, List.take_left]

/-- A part whose raw text does not open with `:` has no block; its text is the cooked part. -/
theorem splitBlock_of_not_marker {cooked raw : String} (h : raw.toList.head? ≠ some ':') :
    splitBlock cooked raw = .ok (cooked, none) := by
  unfold splitBlock
  rw [if_pos (by simpa using h)]

end ViewHydration
