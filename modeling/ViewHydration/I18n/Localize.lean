import ViewHydration.Error

/-!
# Metadata blocks of localized messages

A localized message arrives as two parallel lists of template parts, `cooked` (escape sequences
resolved) and `raw` (as written), plus the substitutions that go between the parts. A part may
open with a block between two `:` characters:

* the first part: `:meaning|description@@custom-id␟legacy-id␟…:text`;
* every later part: `:placeholder-name@@associated-id:text`.

A part has a block when its raw text starts with `:`. The block ends at the first `:` of the
cooked text after position 0 that does not come from an escape sequence: the search steps
through the cooked characters while a second index steps through the raw ones, and a backslash
in the raw text makes the escaped raw character be skipped together with the cooked character
it produced. Positions count characters.
-/

namespace ViewHydration

namespace Localize

/-- Splits a character list at every occurrence of a non-empty separator, left to right. -/
def splitOn (sep : List Char) (cs : List Char) : List (List Char) :=
  go cs.length [] cs
where
  /-- Splits with `cur` the piece read so far; the input length bounds the steps. -/
  go : Nat → List Char → List Char → List (List Char)
    | 0, cur, rest => [cur ++ rest]
    | fuel + 1, cur, rest =>
      if sep.isEmpty then [cur ++ rest]
      else if rest.take sep.length == sep then cur :: go fuel [] (rest.drop sep.length)
      else match rest with
        | [] => [cur]
        | c :: r => go fuel (cur ++ [c]) r

/-- Splits a string at every occurrence of a non-empty separator. -/
def splitText (sep text : String) : List String :=
  (splitOn sep.toList text.toList).map String.ofList

/-- Walks the cooked characters from `cookedIndex` on, with `rawIndex` at the matching raw
character; answers the index of the closing `:`. -/
def blockEnd (raw : List Char) : Nat → Nat → List Char → Option Nat
  | _, _, [] => none
  | cookedIndex, rawIndex, c :: cs =>
    if raw[rawIndex]? == some '\\' then blockEnd raw (cookedIndex + 1) (rawIndex + 2) cs
    else if c == ':' then some cookedIndex
    else blockEnd raw (cookedIndex + 1) (rawIndex + 1) cs

end Localize

/-- Character index of the `:` that closes the block opening `cooked`. -/
def findEndOfBlock (cooked raw : String) : Except I18nError Nat :=
  match Localize.blockEnd raw.toList 1 1 (cooked.toList.drop 1) with
  | some i => .ok i
  | none => .error (.unterminatedBlock raw)

/-- Splits a leading block off a message part: the text after the block, and the block when the
raw part starts with `:`. -/
def splitBlock (cooked raw : String) : Except I18nError (String × Option String) :=
  if raw.toList.head? != some ':' then .ok (cooked, none)
  else do
    let stop ← findEndOfBlock cooked raw
    let cs := cooked.toList
    pure (String.ofList (cs.drop (stop + 1)), some (String.ofList ((cs.take stop).drop 1)))

/-- Metadata of a localized message, read from its first part. -/
structure MessageMetadata where
  text : String
  meaning : Option String := none
  description : Option String := none
  customId : Option String := none
  legacyIds : List String := []
  deriving DecidableEq, Repr, Inhabited

/-- A placeholder block, read from a later part. -/
structure PlaceholderBlock where
  text : String
  name : Option String := none
  associatedId : Option String := none
  deriving DecidableEq, Repr, Inhabited

/-- Reads the metadata block of a first part: legacy ids follow `␟`, a custom id follows `@@`,
and a meaning is separated from the description by `|`. An empty description counts as
none. -/
def parseMetadata (cooked raw : String) : Except I18nError MessageMetadata := do
  let (text, block) ← splitBlock cooked raw
  match block with
  | none => pure { text := text }
  | some block =>
    let (head, legacyIds) := match Localize.splitText "␟" block with
      | first :: rest => (first, rest)
      | [] => ("", [])
    let (meaningAndDesc, customId) := match Localize.splitText "@@" head with
      | first :: second :: _ => (first, some second)
      | first :: [] => (first, none)
      | [] => ("", none)
    let (meaning, description) := match Localize.splitText "|" meaningAndDesc with
      | first :: second :: _ => (some first, second)
      | first :: [] => (none, first)
      | [] => (none, "")
    pure { text := text, meaning := meaning,
           description := if description.isEmpty then none else some description,
           customId := customId, legacyIds := legacyIds }

/-- Reads the placeholder block of a later part: the name, and an associated id after `@@`. -/
def parsePlaceholderBlock (cooked raw : String) : Except I18nError PlaceholderBlock := do
  let (text, block) ← splitBlock cooked raw
  match block with
  | none => pure { text := text }
  | some block =>
    match Localize.splitText "@@" block with
    | first :: second :: _ => pure { text := text, name := some first, associatedId := some second }
    | first :: [] => pure { text := text, name := some first }
    | [] => pure { text := text }

/-- A localized message: cooked and raw template parts and the substitutions between them. -/
structure LocalizedMessage where
  cooked : List String
  raw : List String
  substitutions : List String
  deriving DecidableEq, Repr, Inhabited

namespace LocalizedMessage

/-- The parts must pair up, be at least one, and have one substitution between each two. -/
def checkShape (m : LocalizedMessage) : Except I18nError Unit :=
  if m.cooked.length != m.raw.length || m.cooked.isEmpty then
    .error (.partsMismatch m.cooked.length m.raw.length)
  else if m.substitutions.length + 1 != m.cooked.length then
    .error (.substitutionsMismatch (m.cooked.length - 1) m.substitutions.length)
  else .ok ()

/-- The metadata of the message, read from its first part. -/
def metadata (m : LocalizedMessage) : Except I18nError MessageMetadata := do
  m.checkShape
  parseMetadata (m.cooked.headD "") (m.raw.headD "")

/-- The runtime message: the text of each part with its block removed, and each substitution
between two parts. -/
def toRuntimeMessage (m : LocalizedMessage) : Except I18nError String := do
  let header ← m.metadata
  let pieces := (m.substitutions.zip ((m.cooked.drop 1).zip (m.raw.drop 1)))
  pieces.foldlM (fun acc (sub, cooked, raw) => do
    let block ← parsePlaceholderBlock cooked raw
    pure (acc ++ sub ++ block.text)) header.text

end LocalizedMessage

end ViewHydration
