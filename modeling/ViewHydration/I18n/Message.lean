import ViewHydration.Error
import ViewHydration.Text.DecimalDigit

/-!
# Runtime messages

A runtime message is text with placeholders between two U+FFFD markers:

* `N` is expression `N` of the block;
* `#N` and `/#N` open and close the element declared at slot `N`;
* `#N/` is the void element at slot `N`;
* `*N` and `/*N` open and close the sub-template anchored at slot `N`.

Any placeholder may carry a suffix `:S` naming the sub-template it belongs to, which does not
change its meaning. A placeholder body has the shape `/? [#*]? D+ (:D+)? /?`, where `D` is a
decimal digit of any script; the main number must be written in ASCII digits and be below
`2 ^ 64`.

`parseMessage` splits a message into parts, scanning left to right: the first placeholder body
that cannot be read, or a marker without a partner, is the error.
-/

namespace ViewHydration

/-- One part of a runtime message. -/
inductive MessagePart where
  | text (s : String)
  | expression (n : Nat)
  | elementStart (slot : Nat)
  | elementEnd (slot : Nat)
  | voidElement (slot : Nat)
  | templateStart (slot : Nat)
  | templateEnd (slot : Nat)
  deriving DecidableEq, Repr, Inhabited

namespace Message

/-- The character that opens and closes a placeholder. -/
def marker : Char := '�'

/-- Value of ASCII digits, or `none` when a digit is not ASCII or the value reaches `2 ^ 64`. -/
def slotNumber? (ds : List Char) : Option Nat :=
  if ds.all Text.isAsciiDigit then
    let n := ds.foldl (fun n c => n * 10 + (c.toNat - 48)) 0
    if n < Nat.pow 2 64 then some n else none
  else none

/-- A body's leading `/`, which makes a close placeholder. -/
def splitClosing : List Char → Bool × List Char
  | '/' :: r => (true, r)
  | r => (false, r)

/-- A body's sigil after the leading `/`: `#` for an element, `*` for a sub-template. -/
def splitSigil : List Char → Option Char × List Char
  | '#' :: r => (some '#', r)
  | '*' :: r => (some '*', r)
  | r => (none, r)

/-- What follows the main number with the sub-template suffix `:D+` skipped; `none` when a `:`
has no digit after it. -/
def skipSuffix : List Char → Option (List Char)
  | ':' :: r =>
    if (r.takeWhile Text.isDecimalDigit).isEmpty then none
    else some (r.dropWhile Text.isDecimalDigit)
  | r => some r

/-- The end of a body: nothing, or a `/` that makes a void element. -/
def trailingSlash : List Char → Option Bool
  | [] => some false
  | ['/'] => some true
  | _ => none

/-- The placeholder that a sigil, a leading `/` and a trailing `/` make of a slot number. -/
def kindOf : Option Char → Bool → Bool → Option (Nat → MessagePart)
  | none, false, false => some .expression
  | some '#', false, false => some .elementStart
  | some '#', true, false => some .elementEnd
  | some '#', false, true => some .voidElement
  | some '*', false, false => some .templateStart
  | some '*', true, false => some .templateEnd
  | _, _, _ => none

/-- The placeholder a body names, when it names one. -/
def placeholder? (body : List Char) : Option MessagePart := do
  let (closing, cs) := splitClosing body
  let (sigil, cs) := splitSigil cs
  let main := cs.takeWhile Text.isDecimalDigit
  let rest ← skipSuffix (cs.dropWhile Text.isDecimalDigit)
  let void ← trailingSlash rest
  if main.isEmpty then none
  let n ← slotNumber? main
  let make ← kindOf sigil closing void
  pure (make n)

/-- Reads a placeholder body. -/
def parsePlaceholder (body : String) : Except I18nError MessagePart :=
  match placeholder? body.toList with
  | some part => .ok part
  | none => .error (.unknownPlaceholder body)

/-- A text part for non-empty text, in front of the parts that follow it. -/
def withText (text : String) (parts : List MessagePart) : List MessagePart :=
  if text.isEmpty then parts else .text text :: parts

mutual

/-- Scans text outside placeholders; `acc` is the text since the last placeholder. -/
def scanText (message acc : String) : List Char → Except I18nError (List MessagePart)
  | [] => .ok (withText acc [])
  | c :: rest =>
    if c == marker then scanBody message acc "" rest
    else scanText message (acc.push c) rest

/-- Scans a placeholder body; `before` is the text in front of the placeholder. -/
def scanBody (message before body : String) : List Char → Except I18nError (List MessagePart)
  | [] => .error (.unterminatedPlaceholder message)
  | c :: rest =>
    if c == marker then do
      let part ← parsePlaceholder body
      let tail ← scanText message "" rest
      pure (withText before (part :: tail))
    else scanBody message before (body.push c) rest

end

end Message

/-- Splits a runtime message into its parts. -/
def parseMessage (message : String) : Except I18nError (List MessagePart) :=
  Message.scanText message "" message.toList

end ViewHydration
