import ViewHydration.I18n.Message

/-!
# Sub-templates of a message

A message may hold the translations of nested templates between a placeholder `*N:S` and its
close `/*N:S`, where `S` numbers the sub-template. The part of a message that belongs to one
template is its own text with the contents of every nested sub-template removed, their
placeholders kept.

`subTemplateMarks` finds the sub-template placeholders, `*D+:D+` or `/*D+:D+` between markers
(digits of any script), scanning left to right without overlap. `removeInnerTemplates` walks
them: the first placeholder opens a region, the region ends at the next close placeholder with
the same `N:S`, everything inside is dropped, and the search for the next region starts after
that close.
-/

namespace ViewHydration

namespace Message

/-- A sub-template placeholder found in a message: its character span and its `N:S` tag. -/
structure SubTemplateMark where
  start : Nat
  stop : Nat
  tag : String
  deriving DecidableEq, Repr, Inhabited

/-- How far a candidate placeholder has been read. -/
inductive MarkPhase where
  /-- Just after the opening marker. -/
  | opened
  /-- After a `/`, waiting for `*`. -/
  | slash
  /-- Reading the slot digits; `seen` tells whether one was read. -/
  | slot (seen : Bool)
  /-- Reading the sub-template digits after `:`. -/
  | sub (seen : Bool)
  deriving DecidableEq, Repr, Inhabited

/-- A candidate placeholder: where it started, how far it has been read, and its tag so far. -/
structure MarkCandidate where
  start : Nat
  phase : MarkPhase
  tag : String
  deriving Repr, Inhabited

/-- Scans for sub-template placeholders. A candidate that fails at a character leaves that
character to start the next candidate, since only a marker can start one. -/
def scanMarks (pos : Nat) (cand : Option MarkCandidate) : List Char → List SubTemplateMark
  | [] => []
  | c :: rest =>
    let restart : List SubTemplateMark :=
      if c == marker then scanMarks (pos + 1) (some ⟨pos, .opened, ""⟩) rest
      else scanMarks (pos + 1) none rest
    match cand with
    | none => restart
    | some k =>
      match k.phase with
      | .opened =>
        if c == '/' then scanMarks (pos + 1) (some { k with phase := .slash }) rest
        else if c == '*' then scanMarks (pos + 1) (some { k with phase := .slot false }) rest
        else restart
      | .slash =>
        if c == '*' then scanMarks (pos + 1) (some { k with phase := .slot false }) rest
        else restart
      | .slot seen =>
        if Text.isDecimalDigit c then
          scanMarks (pos + 1) (some { k with phase := .slot true, tag := k.tag.push c }) rest
        else if c == ':' && seen then
          scanMarks (pos + 1) (some { k with phase := .sub false, tag := k.tag.push c }) rest
        else restart
      | .sub seen =>
        if Text.isDecimalDigit c then
          scanMarks (pos + 1) (some { k with phase := .sub true, tag := k.tag.push c }) rest
        else if c == marker && seen then
          ⟨k.start, pos + 1, k.tag⟩ :: scanMarks (pos + 1) none rest
        else restart

/-- The sub-template placeholders of a message, left to right. -/
def subTemplateMarks (cs : List Char) : List SubTemplateMark := scanMarks 0 none cs

/-- The characters of `cs` from position `i` up to `j`. -/
def slice (cs : List Char) (i j : Nat) : List Char := (cs.drop i).take (j - i)

/-- Walks the placeholders: `kept` is the text kept so far, `index` where the pending text
starts, and `openTag` the tag of the region being dropped. -/
def dropRegions (cs : List Char) :
    List SubTemplateMark → List Char → Nat → Option String → List Char
  | [], kept, index, _ => kept ++ cs.drop index
  | m :: ms, kept, index, none => dropRegions cs ms (kept ++ slice cs index m.stop) index (some m.tag)
  | m :: ms, kept, index, some tag =>
    if slice cs m.start m.stop == (marker :: '/' :: '*' :: tag.toList) ++ [marker] then
      dropRegions cs ms kept m.start none
    else dropRegions cs ms kept index (some tag)

/-- The message with the contents of its nested sub-templates removed. -/
def removeInnerTemplates (message : String) : String :=
  let cs := message.toList
  String.ofList (dropRegions cs (subTemplateMarks cs) [] 0 none)

/-- Position just after the first occurrence of `pat` in `cs`. -/
def endOfFirst? (pat : List Char) (cs : List Char) : Option Nat :=
  (List.range (cs.length + 1)).find? (fun i => (cs.drop i).take pat.length == pat) |>.map
    (· + pat.length)

/-- Whether a close placeholder `/*D+:S` (with its markers) starts at the front of `cs`. -/
def closesSubTemplate (sub : List Char) (cs : List Char) : Bool :=
  match cs with
  | m :: '/' :: '*' :: rest =>
    m == marker &&
      let ds := rest.takeWhile Text.isDecimalDigit
      let after := rest.dropWhile Text.isDecimalDigit
      !ds.isEmpty && after.take (sub.length + 2) == (':' :: sub) ++ [marker]
  | _ => false

/-- The text of sub-template `sub`: from just after the first `:sub` closing a placeholder to the
first close placeholder of that sub-template after it, with deeper sub-templates removed. -/
def subTemplateText (message : String) (sub : Nat) : Except I18nError String :=
  let cs := message.toList
  let digits := (toString sub).toList
  match endOfFirst? ((':' :: digits) ++ [marker]) cs with
  | none => .error (.missingSubTemplate sub)
  | some start =>
    match (List.range (cs.length + 1)).find? fun i => start ≤ i && closesSubTemplate digits (cs.drop i) with
    | none => .error (.missingSubTemplate sub)
    | some stop => .ok (removeInnerTemplates (String.ofList (slice cs start stop)))

end Message

/-- The part of a message that belongs to one template: the top-level template when `sub` is
absent, otherwise sub-template `sub`. -/
def translationForTemplate (message : String) (sub : Option Nat) : Except I18nError String :=
  match sub with
  | none => .ok (Message.removeInnerTemplates message)
  | some s => Message.subTemplateText message s

end ViewHydration
