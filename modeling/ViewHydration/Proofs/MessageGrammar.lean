import Mathlib.Data.Nat.Digits.Defs
import Mathlib.Algebra.Ring.Parity
import Mathlib.Data.List.Induction
import Mathlib.Data.List.TakeWhile
import ViewHydration.I18n.Message

/-!
# The grammar of runtime messages

A runtime message is text with placeholders, each a body between two U+FFFD markers. This module
states the grammar that `parseMessage` accepts without reference to how it scans:

* a body names a placeholder when it is spelled `/? [#*]? D+ (:D+)? /?` (`D` a decimal digit of
  any script), its main number is written in ASCII digits and is below `2 ^ 64`, and its sigil
  and slashes make one of six kinds (`Placeholder`);
* the markers cut a message into segments (`segments`); the segments between the (2k+1)-th and
  the (2k+2)-th marker are the bodies, and the others are text (`Spells`).

Main statements:

- `placeholder?_eq_some_iff` — a body is read exactly as the grammar names it;
- `parseMessage_accepts_grammar` — a message parses exactly when it has an even number of
  markers and every body names a placeholder; it then reads as its non-empty texts and its
  placeholders in order, and otherwise fails at the first body that names none, or at the last
  marker when it has no partner.
-/

namespace ViewHydration

namespace Message

/-! ### Placeholder bodies -/

/-- The value of decimal digits written most significant first. -/
def decimalValue (ds : List Char) : Nat :=
  Nat.ofDigits 10 (ds.reverse.map fun c => c.toNat - '0'.toNat)

/-- The sub-template suffix `:D+` as written, or nothing. -/
def suffixText (suffix : Option (List Char)) : List Char := (suffix.map (':' :: ·)).getD []

/-- A trailing `/`, or nothing. -/
def slashText (slash : Bool) : List Char := if slash then ['/'] else []

/-- The body spelled by the five parts of the pattern `/? [#*]? D+ (:D+)? /?`. -/
def spell (closing : Bool) (sigil : Option Char) (main : List Char) (suffix : Option (List Char))
    (void : Bool) : List Char :=
  slashText closing ++ sigil.toList ++ main ++ suffixText suffix ++ slashText void

/-- The six kinds of placeholder, by sigil, leading slash and trailing slash: `N`, `#N`, `/#N`,
`#N/`, `*N` and `/*N`. -/
inductive Kind : Option Char → Bool → Bool → (Nat → MessagePart) → Prop
  | expression : Kind none false false .expression
  | elementStart : Kind (some '#') false false .elementStart
  | elementEnd : Kind (some '#') true false .elementEnd
  | voidElement : Kind (some '#') false true .voidElement
  | templateStart : Kind (some '*') false false .templateStart
  | templateEnd : Kind (some '*') true false .templateEnd

/-- A body names a placeholder: it is spelled by the pattern, its main number is written in ASCII
digits and is below `2 ^ 64`, its suffix (ignored) has decimal digits of any script, and its
sigil and slashes make one of the six kinds. -/
inductive Placeholder : List Char → MessagePart → Prop
  | mk (closing : Bool) (sigil : Option Char) (main : List Char) (suffix : Option (List Char))
      (void : Bool) (make : Nat → MessagePart) :
      main ≠ [] → (∀ c ∈ main, Text.isAsciiDigit c) → decimalValue main < Nat.pow 2 64 →
      (∀ s ∈ suffix, s ≠ [] ∧ ∀ c ∈ s, Text.isDecimalDigit c) → Kind sigil closing void make →
      Placeholder (spell closing sigil main suffix void) (make (decimalValue main))

/-- A body that names some placeholder. -/
def IsBody (body : List Char) : Prop := ∃ p, Placeholder body p

theorem kindOf_eq_some_iff {sigil : Option Char} {closing void : Bool} {make : Nat → MessagePart} :
    kindOf sigil closing void = some make ↔ Kind sigil closing void make := by
  constructor
  · intro h
    unfold kindOf at h
    split at h <;> cases h <;> constructor
  · intro h
    cases h <;> rfl

theorem foldl_digits_eq_decimalValue (ds : List Char) :
    ds.foldl (fun n c => n * 10 + (c.toNat - 48)) 0 = decimalValue ds := by
  induction ds using List.reverseRecOn with
  | nil => rfl
  | append_singleton ds c ih =>
    have hrev : (ds ++ [c]).reverse = c :: ds.reverse := by simp
    have h48 : '0'.toNat = 48 := rfl
    rw [List.foldl_append, ih, List.foldl_cons, List.foldl_nil]
    unfold decimalValue
    rw [hrev, List.map_cons, Nat.ofDigits_cons, h48]
    omega

theorem slotNumber?_eq_some_iff {ds : List Char} {n : Nat} :
    slotNumber? ds = some n ↔
      (∀ c ∈ ds, Text.isAsciiDigit c) ∧ decimalValue ds < Nat.pow 2 64 ∧ n = decimalValue ds := by
  simp only [slotNumber?, foldl_digits_eq_decimalValue]
  by_cases ha : ds.all Text.isAsciiDigit = true
  · have ha' : ∀ c ∈ ds, Text.isAsciiDigit c = true := List.all_eq_true.mp ha
    rw [if_pos ha]
    by_cases hlt : decimalValue ds < Nat.pow 2 64
    · rw [if_pos hlt, Option.some.injEq]
      exact ⟨fun h => ⟨ha', hlt, h.symm⟩, fun h => h.2.2.symm⟩
    · rw [if_neg hlt]
      exact ⟨fun h => (by cases h), fun h => absurd h.2.1 hlt⟩
  · rw [if_neg ha]
    exact ⟨fun h => (by cases h), fun h => absurd (List.all_eq_true.mpr h.1) ha⟩

theorem isDecimalDigit_of_isAsciiDigit_mem {main : List Char}
    (h : ∀ c ∈ main, Text.isAsciiDigit c = true) : ∀ c ∈ main, Text.isDecimalDigit c = true :=
  fun c hc => Text.isDecimalDigit_of_isAsciiDigit (h c hc)

/-- A decimal digit is none of the characters that frame a main number. -/
theorem ne_of_isDecimalDigit {c : Char} (h : Text.isDecimalDigit c = true) :
    c ≠ '/' ∧ c ≠ '#' ∧ c ≠ '*' ∧ c ≠ ':' := by
  refine ⟨?_, ?_, ?_, ?_⟩ <;> rintro rfl <;> revert h <;> decide

theorem splitClosing_eq (cs : List Char) :
    cs = slashText (splitClosing cs).1 ++ (splitClosing cs).2 ∧
      ((splitClosing cs).1 = false → cs.head? ≠ some '/') := by
  cases cs with
  | nil => exact ⟨rfl, fun _ h => by cases h⟩
  | cons c r =>
    by_cases hc : c = '/'
    · subst hc
      exact ⟨rfl, fun h => by cases h⟩
    · have hsplit : splitClosing (c :: r) = (false, c :: r) := by simp [splitClosing, hc]
      rw [hsplit]
      exact ⟨rfl, fun _ h => hc (Option.some.inj h)⟩

theorem splitClosing_slashText (closing : Bool) (cs : List Char) (h : cs.head? ≠ some '/') :
    splitClosing (slashText closing ++ cs) = (closing, cs) := by
  cases closing with
  | true => rfl
  | false =>
    cases cs with
    | nil => rfl
    | cons c r =>
      have hc : c ≠ '/' := fun hc => h (by rw [hc]; rfl)
      simp [splitClosing, slashText, hc]

theorem splitSigil_eq (cs : List Char) :
    cs = (splitSigil cs).1.toList ++ (splitSigil cs).2 ∧
      ((splitSigil cs).1 = none → cs.head? ≠ some '#' ∧ cs.head? ≠ some '*') := by
  cases cs with
  | nil => exact ⟨rfl, fun _ => ⟨fun h => (by cases h), fun h => (by cases h)⟩⟩
  | cons c r =>
    by_cases h₁ : c = '#'
    · subst h₁
      exact ⟨rfl, fun h => by cases h⟩
    by_cases h₂ : c = '*'
    · subst h₂
      exact ⟨rfl, fun h => by cases h⟩
    have hsplit : splitSigil (c :: r) = (none, c :: r) := by simp [splitSigil, h₁, h₂]
    rw [hsplit]
    exact ⟨rfl, fun _ => ⟨fun h => h₁ (Option.some.inj h), fun h => h₂ (Option.some.inj h)⟩⟩

theorem splitSigil_toList {sigil : Option Char} {make : Nat → MessagePart} {closing void : Bool}
    (hk : Kind sigil closing void make) (cs : List Char)
    (h : cs.head? ≠ some '#' ∧ cs.head? ≠ some '*') :
    splitSigil (sigil.toList ++ cs) = (sigil, cs) := by
  cases hk with
  | expression =>
    cases cs with
    | nil => rfl
    | cons c r =>
      have h₁ : c ≠ '#' := fun hc => h.1 (by rw [hc]; rfl)
      have h₂ : c ≠ '*' := fun hc => h.2 (by rw [hc]; rfl)
      simp [splitSigil, h₁, h₂]
  | elementStart | elementEnd | voidElement | templateStart | templateEnd => rfl

theorem skipSuffix_eq_some {r rest : List Char} (h : skipSuffix r = some rest) :
    ∃ suffix, r = suffixText suffix ++ rest ∧
      ∀ s ∈ suffix, s ≠ [] ∧ ∀ c ∈ s, Text.isDecimalDigit c = true := by
  unfold skipSuffix at h
  split at h
  · rename_i r'
    split at h
    · cases h
    · rename_i hne
      cases h
      refine ⟨some (r'.takeWhile Text.isDecimalDigit), ?_, fun s hs => ?_⟩
      · simp [suffixText, List.takeWhile_append_dropWhile]
      · cases hs
        refine ⟨fun he => hne (by simp [he]), fun c hc => ?_⟩
        exact List.mem_takeWhile_imp hc
  · cases h
    exact ⟨none, rfl, fun s hs => by cases hs⟩

/-- The main number of a body is the run of decimal digits after its sigil. -/
theorem takeWhile_main {main tail : List Char} (hmain : ∀ c ∈ main, Text.isDecimalDigit c = true)
    (htail : ∀ c ∈ tail.head?, Text.isDecimalDigit c = false) :
    (main ++ tail).takeWhile Text.isDecimalDigit = main ∧
      (main ++ tail).dropWhile Text.isDecimalDigit = tail := by
  rw [List.takeWhile_append_of_pos hmain, List.dropWhile_append_of_pos hmain]
  cases tail with
  | nil => simp
  | cons c r =>
    have hc : Text.isDecimalDigit c = false := htail c rfl
    simp [hc]

theorem slashText_head (void : Bool) :
    ∀ c ∈ (slashText void).head?, Text.isDecimalDigit c = false := by
  cases void
  · simp [slashText]
  · intro c hc
    cases hc
    decide

theorem skipSuffix_suffixText {suffix : Option (List Char)} (void : Bool)
    (h : ∀ s ∈ suffix, s ≠ [] ∧ ∀ c ∈ s, Text.isDecimalDigit c = true) :
    skipSuffix (suffixText suffix ++ slashText void) = some (slashText void) := by
  cases suffix with
  | none => cases void <;> rfl
  | some s =>
    obtain ⟨hne, hs⟩ := h s rfl
    obtain ⟨htake, hdrop⟩ := takeWhile_main hs (slashText_head void)
    obtain ⟨c, s, rfl⟩ := List.exists_cons_of_ne_nil hne
    simp only [suffixText, Option.map_some, Option.getD_some, List.cons_append, skipSuffix]
    rw [← List.cons_append, htake, hdrop]
    rfl

theorem trailingSlash_eq_some_iff {rest : List Char} {void : Bool} :
    trailingSlash rest = some void ↔ rest = slashText void := by
  constructor
  · intro h
    unfold trailingSlash at h
    split at h <;> cases h <;> rfl
  · rintro rfl
    cases void <;> rfl

/-- A body is read exactly as the grammar names it. -/
theorem placeholder?_eq_some_iff (body : List Char) (p : MessagePart) :
    placeholder? body = some p ↔ Placeholder body p := by
  constructor
  · intro h
    obtain ⟨hb₁, -⟩ := splitClosing_eq body
    obtain ⟨hb₂, -⟩ := splitSigil_eq (splitClosing body).2
    simp only [placeholder?, Option.bind_eq_bind, Option.bind_eq_some_iff] at h
    obtain ⟨rest, hrest, void, hvoid, h⟩ := h
    split at h
    · simp at h
    rename_i hmain
    simp only [Option.bind_eq_some_iff, Option.pure_def, Option.some.injEq] at h
    obtain ⟨n, hn, make, hmake, rfl⟩ := h
    obtain ⟨suffix, hsuf, hsufOk⟩ := skipSuffix_eq_some hrest
    obtain ⟨hascii, hlt, rfl⟩ := slotNumber?_eq_some_iff.mp hn
    have hbody : body = spell (splitClosing body).1 (splitSigil (splitClosing body).2).1
        ((splitSigil (splitClosing body).2).2.takeWhile Text.isDecimalDigit) suffix void := by
      rw [trailingSlash_eq_some_iff] at hvoid
      conv_lhs => rw [hb₁, hb₂, ← List.takeWhile_append_dropWhile
        (p := Text.isDecimalDigit) (l := (splitSigil (splitClosing body).2).2), hsuf, hvoid]
      simp only [spell, List.append_assoc]
    have hne : (splitSigil (splitClosing body).2).2.takeWhile Text.isDecimalDigit ≠ [] :=
      fun he => hmain (by rw [he]; rfl)
    have hp := Placeholder.mk _ _ _ _ _ _ hne hascii hlt hsufOk (kindOf_eq_some_iff.mp hmake)
    rwa [← hbody] at hp
  · rintro ⟨closing, sigil, main, suffix, void, make, hne, hascii, hlt, hsuf, hkind⟩
    have hdigit := isDecimalDigit_of_isAsciiDigit_mem hascii
    obtain ⟨c, main', rfl⟩ := List.exists_cons_of_ne_nil hne
    obtain ⟨hc₁, hc₂, hc₃, -⟩ := ne_of_isDecimalDigit (hdigit c List.mem_cons_self)
    have htail : ∀ d ∈ (suffixText suffix ++ slashText void).head?,
        Text.isDecimalDigit d = false := by
      cases suffix <;> cases void <;> simp [suffixText, slashText] <;> decide
    obtain ⟨htake, hdrop⟩ := takeWhile_main hdigit htail
    have hclosing := splitClosing_slashText closing
      (sigil.toList ++ (c :: main') ++ suffixText suffix ++ slashText void)
      (by cases hkind <;> simp [hc₁])
    have hsigil := splitSigil_toList hkind
      ((c :: main') ++ (suffixText suffix ++ slashText void)) (by simp [hc₂, hc₃])
    simp only [List.append_assoc] at hclosing
    simp only [placeholder?, spell, List.append_assoc, hclosing, hsigil, htake, hdrop,
      skipSuffix_suffixText void hsuf, Option.bind_eq_bind, Option.bind_some]
    have hvoid : trailingSlash (slashText void) = some void := trailingSlash_eq_some_iff.mpr rfl
    have hslot : slotNumber? (c :: main') = some (decimalValue (c :: main')) :=
      slotNumber?_eq_some_iff.mpr ⟨hascii, hlt, rfl⟩
    simp [hvoid, hslot, kindOf_eq_some_iff.mpr hkind]

example : placeholder? ['/', '#', '1', '2', ':', '٣'] = some (.elementEnd 12) := by decide

/-- A body that names no placeholder is reported as unknown. -/
theorem parsePlaceholder_ofList (b : List Char) :
    (∀ p, parsePlaceholder (String.ofList b) = .ok p ↔ Placeholder b p) ∧
      ∀ e, parsePlaceholder (String.ofList b) = .error e →
        ¬ IsBody b ∧ e = .unknownPlaceholder (String.ofList b) := by
  unfold parsePlaceholder
  rw [String.toList_ofList]
  cases h : placeholder? b with
  | none =>
    refine ⟨fun p => ⟨fun h' => (by cases h'), fun hp => ?_⟩, fun e he => ⟨?_, ?_⟩⟩
    · rw [← placeholder?_eq_some_iff, h] at hp
      cases hp
    · rintro ⟨p, hp⟩
      rw [← placeholder?_eq_some_iff, h] at hp
      cases hp
    · cases he
      rfl
  | some q =>
    refine ⟨fun p => ?_, fun e he => (by cases he)⟩
    rw [← placeholder?_eq_some_iff, h]
    exact ⟨fun h' => by cases h'; rfl, fun h' => by cases h'; rfl⟩

/-! ### Messages -/

/-- The segments of a message: its text cut at every marker. -/
def segments (m : String) : List (List Char) := m.toList.splitOn marker

/-- The bodies among segments: those between the (2k+1)-th and the (2k+2)-th marker, for every
`k`. -/
def bodies : List (List Char) → List (List Char)
  | _ :: b :: t :: segs => b :: bodies (t :: segs)
  | _ => []

/-- The part a text segment stands for: `Text(t)`, when the segment is not empty. -/
def textPart (t : List Char) : List MessagePart := if t = [] then [] else [.text (String.ofList t)]

/-- The parts that segments spell, text and body in turn, every body read as the placeholder it
names. -/
inductive Spells : List (List Char) → List MessagePart → Prop
  | text (t : List Char) : Spells [t] (textPart t)
  | body {t b : List Char} {segs : List (List Char)} {p : MessagePart} {ps : List MessagePart} :
      Placeholder b p → Spells segs ps → Spells (t :: b :: segs) (textPart t ++ p :: ps)

/-- Reads segments text and body in turn, stopping at the first body that names no placeholder,
or at a last marker that has no partner. -/
def readSegments (m : String) : List (List Char) → Except I18nError (List MessagePart)
  | [] => .ok []
  | [t] => .ok (textPart t)
  | [_, _] => .error (.unterminatedPlaceholder m)
  | t :: b :: t' :: segs => do
    let p ← parsePlaceholder (String.ofList b)
    let ps ← readSegments m (t' :: segs)
    pure (textPart t ++ p :: ps)

theorem withText_ofList (t : List Char) (ps : List MessagePart) :
    withText (String.ofList t) ps = textPart t ++ ps := by
  unfold withText textPart
  by_cases ht : t = []
  · subst ht
    rfl
  · have hne : (String.ofList t).isEmpty = false := by
      cases hs : (String.ofList t).isEmpty
      · rfl
      · have := congrArg String.toList (String.isEmpty_iff.mp hs)
        rw [String.toList_ofList] at this
        exact absurd this ht
    rw [if_neg ht, hne]
    rfl

theorem scanText_append (m acc : String) {t : List Char} (ht : marker ∉ t) (rest : List Char) :
    scanText m acc (t ++ rest) = scanText m (acc ++ String.ofList t) rest := by
  induction t generalizing acc with
  | nil => simp
  | cons c t ih =>
    have hc : (c == marker) = false := beq_false_of_ne fun h => ht (h ▸ List.mem_cons_self)
    rw [List.cons_append, scanText, hc, if_neg Bool.false_ne_true,
      ih _ (fun h => ht (List.mem_cons_of_mem c h))]
    congr 1
    apply String.ext
    simp

theorem scanBody_append (m before body : String) {b : List Char} (hb : marker ∉ b)
    (rest : List Char) :
    scanBody m before body (b ++ rest) = scanBody m before (body ++ String.ofList b) rest := by
  induction b generalizing body with
  | nil => simp
  | cons c b ih =>
    have hc : (c == marker) = false := beq_false_of_ne fun h => hb (h ▸ List.mem_cons_self)
    rw [List.cons_append, scanBody, hc, if_neg Bool.false_ne_true,
      ih _ (fun h => hb (List.mem_cons_of_mem c h))]
    congr 1
    apply String.ext
    simp

/-- Scanning a message cut into marker-free segments reads the segments in turn. -/
theorem scanText_intercalate (m : String) (segs : List (List Char)) (hne : segs ≠ [])
    (hfree : ∀ s ∈ segs, marker ∉ s) :
    scanText m "" ([marker].intercalate segs) = readSegments m segs := by
  fun_induction readSegments m segs with
  | case1 => exact absurd rfl hne
  | case2 t =>
    have h := scanText_append m "" (hfree t List.mem_cons_self) []
    rw [List.append_nil] at h
    rw [List.intercalate_singleton, h, scanText, String.empty_append, withText_ofList,
      List.append_nil]
  | case3 t b =>
    rw [List.intercalate_cons_cons, List.intercalate_singleton, List.append_assoc,
      scanText_append m "" (hfree t List.mem_cons_self), List.singleton_append, scanText,
      beq_self_eq_true, if_pos rfl]
    have h := scanBody_append m ("" ++ String.ofList t) "" (hfree b (by simp)) []
    rw [List.append_nil] at h
    rw [h, scanBody]
  | case4 t b t' segs ih =>
    rw [List.intercalate_cons_cons, List.intercalate_cons_cons, List.append_assoc,
      scanText_append m "" (hfree t List.mem_cons_self), List.singleton_append, scanText,
      beq_self_eq_true, if_pos rfl, List.append_assoc,
      scanBody_append m _ "" (hfree b (by simp)), List.singleton_append, scanBody,
      beq_self_eq_true, if_pos rfl,
      ih (List.cons_ne_nil _ _) (fun s hs => hfree s (by simp_all))]
    simp only [String.empty_append, withText_ofList]

/-- Text without markers has no marker to count. -/
theorem count_intercalate (segs : List (List Char)) (hne : segs ≠ [])
    (hfree : ∀ s ∈ segs, marker ∉ s) :
    ([marker].intercalate segs).count marker + 1 = segs.length := by
  induction segs with
  | nil => exact absurd rfl hne
  | cons t rest ih =>
    cases rest with
    | nil =>
      rw [List.intercalate_singleton, List.count_eq_zero_of_not_mem (hfree t List.mem_cons_self)]
      rfl
    | cons t' rest =>
      rw [List.intercalate_cons_cons, List.count_append, List.count_append,
        List.count_eq_zero_of_not_mem (hfree t List.mem_cons_self), List.count_singleton_self,
        List.length_cons, ← ih (List.cons_ne_nil _ _) (fun s hs => hfree s (List.mem_cons_of_mem t hs))]
      omega

theorem not_mem_of_mem_splitOn {x : Char} {xs s : List Char} (h : s ∈ xs.splitOn x) : x ∉ s := by
  induction xs generalizing s with
  | nil =>
    rw [List.splitOn_nil, List.mem_singleton] at h
    subst h
    exact List.not_mem_nil
  | cons y ys ih =>
    rw [List.splitOn_cons_eq_if_modifyHead] at h
    split at h
    · rcases List.mem_cons.mp h with rfl | h
      · exact List.not_mem_nil
      · exact ih h
    · rename_i hy
      cases hs : ys.splitOn x with
      | nil => exact absurd hs (List.splitOn_ne_nil _ _)
      | cons first tl =>
        rw [hs, List.modifyHead_cons] at h
        rcases List.mem_cons.mp h with rfl | h
        · rintro (_ | ⟨_, hmem⟩)
          · exact hy (beq_self_eq_true _)
          · exact ih (by rw [hs]; exact List.mem_cons_self) hmem
        · exact ih (by rw [hs]; exact List.mem_cons_of_mem _ h)

theorem parseMessage_eq_readSegments (m : String) :
    parseMessage m = readSegments m (segments m) := by
  unfold parseMessage segments
  conv_lhs => rw [← @List.intercalate_splitOn _ m.toList _ _ marker]
  exact scanText_intercalate m _ (List.splitOn_ne_nil _ _) fun s hs => not_mem_of_mem_splitOn hs

theorem count_add_one_eq_length (m : String) :
    m.toList.count marker + 1 = (segments m).length := by
  unfold segments
  conv_lhs => rw [← @List.intercalate_splitOn _ m.toList _ _ marker]
  exact count_intercalate _ (List.splitOn_ne_nil _ _) fun s hs => not_mem_of_mem_splitOn hs

/-- Segments that read without error spell what they read. -/
theorem spells_of_readSegments (m : String) {segs : List (List Char)} {ps : List MessagePart}
    (hne : segs ≠ []) (h : readSegments m segs = .ok ps) : Spells segs ps := by
  fun_induction readSegments m segs generalizing ps with
  | case1 => exact absurd rfl hne
  | case2 t =>
    cases h
    exact .text t
  | case3 t b => cases h
  | case4 t b t' segs ih =>
    cases hp : parsePlaceholder (String.ofList b) with
    | error e => rw [hp] at h; cases h
    | ok p =>
      cases hr : readSegments m (t' :: segs) with
      | error e => rw [hp, hr] at h; cases h
      | ok rest =>
        rw [hp, hr] at h
        cases h
        exact .body (((parsePlaceholder_ofList b).1 p).mp hp) (ih (List.cons_ne_nil _ _) hr)

/-- Segments read without error exactly when there is an odd number of them, so that every
marker has a partner, and every body names a placeholder. -/
theorem readSegments_isOk_iff (m : String) {segs : List (List Char)} (hne : segs ≠ []) :
    (∃ ps, readSegments m segs = .ok ps) ↔ Odd segs.length ∧ ∀ b ∈ bodies segs, IsBody b := by
  fun_induction readSegments m segs with
  | case1 => exact absurd rfl hne
  | case2 t => exact ⟨fun _ => ⟨⟨0, rfl⟩, fun b hb => (by cases hb)⟩, fun _ => ⟨_, rfl⟩⟩
  | case3 t b =>
    refine ⟨fun ⟨ps, h⟩ => (by cases h), fun h => absurd h.1 ?_⟩
    exact Nat.not_odd_iff_even.mpr ⟨1, rfl⟩
  | case4 t b t' segs ih =>
    have hlen : (t :: b :: t' :: segs).length = (t' :: segs).length + 2 := rfl
    have hodd : Odd ((t' :: segs).length + 2) ↔ Odd (t' :: segs).length := by
      rw [Nat.odd_add]
      exact ⟨fun h => h.mpr even_two, fun h => iff_of_true h even_two⟩
    rw [hlen, hodd, bodies, List.forall_mem_cons, and_left_comm, ← ih (List.cons_ne_nil _ _)]
    cases hp : parsePlaceholder (String.ofList b) with
    | error e =>
      have hbad := ((parsePlaceholder_ofList b).2 e hp).1
      exact ⟨fun ⟨ps, h⟩ => (by cases h), fun h => absurd h.1 hbad⟩
    | ok p =>
      have hgood : IsBody b := ⟨p, ((parsePlaceholder_ofList b).1 p).mp hp⟩
      cases hr : readSegments m (t' :: segs) with
      | error e =>
        refine ⟨fun ⟨ps, h⟩ => (by cases h), fun h => ?_⟩
        obtain ⟨ps, hps⟩ := h.2
        cases hps
      | ok rest => exact ⟨fun _ => ⟨hgood, rest, rfl⟩, fun _ => ⟨_, rfl⟩⟩

/-- Segments that fail to read fail at the first body that names no placeholder, or, when every
body names one, at a last marker without partner. -/
theorem readSegments_error (m : String) {segs : List (List Char)} {e : I18nError}
    (h : readSegments m segs = .error e) :
    (∃ pre b post, bodies segs = pre ++ b :: post ∧ (∀ b' ∈ pre, IsBody b') ∧ ¬ IsBody b ∧
        e = .unknownPlaceholder (String.ofList b)) ∨
      ((∀ b ∈ bodies segs, IsBody b) ∧ Even segs.length ∧ e = .unterminatedPlaceholder m) := by
  fun_induction readSegments m segs generalizing e with
  | case1 => cases h
  | case2 t => cases h
  | case3 t b =>
    cases h
    exact .inr ⟨fun b hb => (by cases hb), ⟨1, rfl⟩, rfl⟩
  | case4 t b t' segs ih =>
    cases hp : parsePlaceholder (String.ofList b) with
    | error e' =>
      rw [hp] at h
      cases h
      obtain ⟨hbad, rfl⟩ := (parsePlaceholder_ofList b).2 _ hp
      exact .inl ⟨[], b, bodies (t' :: segs), rfl, fun _ h => (by cases h), hbad, rfl⟩
    | ok p =>
      have hgood : IsBody b := ⟨p, ((parsePlaceholder_ofList b).1 p).mp hp⟩
      cases hr : readSegments m (t' :: segs) with
      | ok rest => rw [hp, hr] at h; cases h
      | error e' =>
        rw [hp, hr] at h
        cases h
        rcases ih hr with ⟨pre, b', post, hsplit, hpre, hbad, rfl⟩ | ⟨hall, heven, rfl⟩
        · refine .inl ⟨b :: pre, b', post, ?_, List.forall_mem_cons.mpr ⟨hgood, hpre⟩, hbad, rfl⟩
          rw [bodies, hsplit, List.cons_append]
        · have hlen : (t :: b :: t' :: segs).length = (t' :: segs).length + 2 := rfl
          refine .inr ⟨?_, ?_, rfl⟩
          · rw [bodies]
            exact List.forall_mem_cons.mpr ⟨hgood, hall⟩
          · rw [hlen]
            exact Nat.even_add.mpr (iff_of_true heven even_two)

end Message

/-- The runtime-message parser accepts exactly the message grammar. A message parses exactly
when it has an even number of markers and every body between the (2k+1)-th and the (2k+2)-th
marker names a placeholder; it then reads as its segments spell them, the non-empty texts and the
placeholders in turn. A message that fails fails at its first body that names no placeholder,
reported as unknown, or, when every complete body names one, at its last marker, which then has
no partner. -/
theorem parseMessage_accepts_grammar (m : String) :
    ((∃ parts, parseMessage m = .ok parts) ↔
      Even (m.toList.count Message.marker) ∧
        ∀ b ∈ Message.bodies (Message.segments m), Message.IsBody b) ∧
    (∀ parts, parseMessage m = .ok parts → Message.Spells (Message.segments m) parts) ∧
    (∀ e, parseMessage m = .error e →
      (∃ pre b post, Message.bodies (Message.segments m) = pre ++ b :: post ∧
          (∀ b' ∈ pre, Message.IsBody b') ∧ ¬ Message.IsBody b ∧
          e = .unknownPlaceholder (String.ofList b)) ∨
      ((∀ b ∈ Message.bodies (Message.segments m), Message.IsBody b) ∧
          Odd (m.toList.count Message.marker) ∧ e = .unterminatedPlaceholder m)) := by
  have hne : Message.segments m ≠ [] := List.splitOn_ne_nil _ _
  have hcount := Message.count_add_one_eq_length m
  -- the parity of the markers is that of the segments, one fewer
  have hodd : Odd (Message.segments m).length ↔ Even (m.toList.count Message.marker) := by
    rw [← hcount, Nat.odd_add_one, Nat.not_odd_iff_even]
  have heven : Even (Message.segments m).length ↔ Odd (m.toList.count Message.marker) := by
    rw [← hcount, Nat.even_add_one, Nat.not_even_iff_odd]
  rw [Message.parseMessage_eq_readSegments]
  refine ⟨?_, fun parts h => Message.spells_of_readSegments m hne h, fun e h => ?_⟩
  · rw [Message.readSegments_isOk_iff m hne, hodd]
  · rcases Message.readSegments_error m h with hbad | ⟨hall, hev, he⟩
    · exact .inl hbad
    · exact .inr ⟨hall, heven.mp hev, he⟩

end ViewHydration
