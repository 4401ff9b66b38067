import ViewHydration.Json.Reader

/-!
# Reading JSON documents strictly

`Json.readDocument` reads one JSON document and keeps every value as a strict reader of untyped
values does, or says why the text is not one and where: a fault, a line counted from one, and a
column counted in bytes of the UTF-8 text from the start of that line.

The reader looks at one character at a time and reports a fault either where it stands (for
the end of the text, or after what it consumed) or one byte further, past the character it was
looking at. It refuses what the grammar refuses, and also:

* an escaped surrogate without its partner: a high surrogate must be followed at once by `\u`
  and a low surrogate;
* a number whose binary64 value is infinite;
* arrays and objects nested 128 deep.

Numbers are read digit by digit into a 64-bit significand. A non-negative integer that fits is a
count and a negative one down to `-2 ^ 63` a negative integer; any other number becomes a
binary64 value: the significand (digits that would overflow it are dropped, each dropped integer
digit raising the decimal exponent) rounded, then scaled by a rounded power of ten, as
`Binary64.ofDecimal` does. The decimal exponent saturates at the bounds of a 32-bit integer.

Every step consumes input, so the input length bounds the recursion; the fuel arguments are that
bound.
-/

namespace ViewHydration

/-- Why a text is not a JSON document. -/
inductive JsonFault where
  | eofWhileParsingList
  | eofWhileParsingObject
  | eofWhileParsingString
  | eofWhileParsingValue
  | expectedColon
  | expectedListCommaOrEnd
  | expectedObjectCommaOrEnd
  | expectedSomeIdent
  | expectedSomeValue
  | invalidEscape
  | invalidNumber
  | numberOutOfRange
  | controlCharacterWhileParsingString
  | keyMustBeAString
  | loneLeadingSurrogateInHexEscape
  | trailingComma
  | trailingCharacters
  | unexpectedEndOfHexEscape
  | recursionLimitExceeded
  deriving DecidableEq, Repr, Inhabited

namespace JsonFault

/-- What a fault says. -/
def describe : JsonFault → String
  | .eofWhileParsingList => "EOF while parsing a list"
  | .eofWhileParsingObject => "EOF while parsing an object"
  | .eofWhileParsingString => "EOF while parsing a string"
  | .eofWhileParsingValue => "EOF while parsing a value"
  | .expectedColon => "expected `:`"
  | .expectedListCommaOrEnd => "expected `,` or `]`"
  | .expectedObjectCommaOrEnd => "expected `,` or `\x7d`"
  | .expectedSomeIdent => "expected ident"
  | .expectedSomeValue => "expected value"
  | .invalidEscape => "invalid escape"
  | .invalidNumber => "invalid number"
  | .numberOutOfRange => "number out of range"
  | .controlCharacterWhileParsingString =>
    "control character (\\u0000-\\u001F) found while parsing a string"
  | .keyMustBeAString => "key must be a string"
  | .loneLeadingSurrogateInHexEscape => "lone leading surrogate in hex escape"
  | .trailingComma => "trailing comma"
  | .trailingCharacters => "trailing characters"
  | .unexpectedEndOfHexEscape => "unexpected end of hex escape"
  | .recursionLimitExceeded => "recursion limit exceeded"

end JsonFault

/-- A fault and where it was found. -/
structure JsonSyntaxError where
  fault : JsonFault
  line : Nat
  column : Nat
  deriving DecidableEq, Repr, Inhabited

namespace JsonSyntaxError

/-- The fault and its place, as one sentence. -/
def message (e : JsonSyntaxError) : String :=
  e.fault.describe ++ " at line " ++ toString e.line ++ " column " ++ toString e.column

end JsonSyntaxError

namespace JsonScan

/-- A reading position: the text still to read, the bytes read so far, the current line and the
byte offset where it starts. -/
structure Cursor where
  rest : List Char
  offset : Nat := 0
  line : Nat := 1
  lineStart : Nat := 0
  deriving Repr, Inhabited

namespace Cursor

/-- The cursor past its next character. -/
def advance (c : Cursor) : Cursor :=
  match c.rest with
  | [] => c
  | ch :: rest =>
    let offset := c.offset + ch.utf8Size
    if ch == '\n' then { rest := rest, offset := offset, line := c.line + 1, lineStart := offset }
    else { c with rest := rest, offset := offset }

/-- Line and column of the byte `k` bytes ahead of `offset` in `cs`, or of the end of `cs`. -/
def placeAhead (line lineStart offset : Nat) : Nat → List Char → Nat × Nat
  | 0, _ => (line, offset - lineStart)
  | _, [] => (line, offset - lineStart)
  | k + 1, ch :: rest =>
    if k + 1 < ch.utf8Size then (line, offset + k + 1 - lineStart)
    else if ch == '\n' then placeAhead (line + 1) (offset + 1) (offset + 1) (k + 1 - ch.utf8Size) rest
    else placeAhead line lineStart (offset + ch.utf8Size) (k + 1 - ch.utf8Size) rest

/-- Line and column `k` bytes ahead. -/
def ahead (c : Cursor) (k : Nat) : Nat × Nat := placeAhead c.line c.lineStart c.offset k c.rest

/-- Where the reader stands. -/
def here (c : Cursor) : Nat × Nat := c.ahead 0

/-- One byte past where the reader stands. -/
def past (c : Cursor) : Nat × Nat := c.ahead 1

/-- Bytes left to read. -/
def bytesLeft (c : Cursor) : Nat := (c.rest.map Char.utf8Size).foldr (· + ·) 0

/-- Drops blanks, at most `n` of them. -/
def skipBlanksFor : Nat → Cursor → Cursor
  | 0, c => c
  | n + 1, c =>
    match c.rest with
    | ch :: _ => if JsonReader.isBlank ch then skipBlanksFor n c.advance else c
    | [] => c

/-- Drops blanks. -/
def skipBlanks (c : Cursor) : Cursor := skipBlanksFor c.rest.length c

/-- Drops ASCII digits, at most `n` of them. -/
def skipDigitsFor : Nat → Cursor → Cursor
  | 0, c => c
  | n + 1, c =>
    match c.rest with
    | ch :: _ => if JsonReader.isDigit ch then skipDigitsFor n c.advance else c
    | [] => c

/-- Drops ASCII digits. -/
def skipDigits (c : Cursor) : Cursor := skipDigitsFor c.rest.length c

end Cursor

/-- A reading result. -/
abbrev Scan := Except JsonSyntaxError

/-- Fails with a fault at a place. -/
def failAt {α : Type} (f : JsonFault) (place : Nat × Nat) : Scan α :=
  throw { fault := f, line := place.1, column := place.2 }

/-- Reads four hex digits. With fewer than four bytes left the string ends inside the escape;
when one of the four bytes is not a hex digit the escape is invalid, reported past all four. -/
def hexEscape (c : Cursor) : Scan (Nat × Cursor) :=
  if c.bytesLeft < 4 then failAt .eofWhileParsingString (c.ahead c.bytesLeft)
  else
    match c.rest with
    | a :: b :: d :: e :: _ =>
      match JsonReader.hex4? a b d e with
      | some n => pure (n, c.advance.advance.advance.advance)
      | none => failAt .invalidEscape (c.ahead 4)
    | _ => failAt .invalidEscape (c.ahead 4)

/-- Reads the rest of a `\u` escape after the `u`: one character, or a surrogate pair written as
two escapes. -/
def unicodeEscape (c : Cursor) : Scan (Char × Cursor) := do
  let (n, c) ← hexEscape c
  if 0xDC00 ≤ n ∧ n ≤ 0xDFFF then failAt .loneLeadingSurrogateInHexEscape c.here
  else if n < 0xD800 ∨ 0xDBFF < n then pure (Char.ofNat n, c)
  else
    match c.rest with
    | [] => failAt .eofWhileParsingString c.here
    | ch :: _ =>
      if ch ≠ '\\' then failAt .unexpectedEndOfHexEscape c.past
      else
        let c := c.advance
        match c.rest with
        | [] => failAt .eofWhileParsingString c.here
        | ch :: _ =>
          if ch ≠ 'u' then failAt .unexpectedEndOfHexEscape c.past
          else do
            let (low, c) ← hexEscape c.advance
            if low < 0xDC00 ∨ 0xDFFF < low then failAt .loneLeadingSurrogateInHexEscape c.here
            else pure (Char.ofNat (0x10000 + (n - 0xD800) * 0x400 + (low - 0xDC00)), c)

/-- Reads the rest of a string after its opening quote: its text, whether it held an escape,
and the cursor after the closing quote. -/
def stringBody : Nat → String → Bool → Cursor → Scan (String × Bool × Cursor)
  | 0, _, _, c => failAt .eofWhileParsingString c.here
  | fuel + 1, acc, escaped, c =>
    match c.rest with
    | [] => failAt .eofWhileParsingString c.here
    | '"' :: _ => pure (acc, escaped, c.advance)
    | '\\' :: _ =>
      let c := c.advance
      match c.rest with
      | [] => failAt .eofWhileParsingString c.here
      | 'u' :: _ => do
        let (ch, c) ← unicodeEscape c.advance
        stringBody fuel (acc.push ch) true c
      | ch :: _ =>
        match JsonReader.simpleEscape? ch with
        | some d => stringBody fuel (acc.push d) true c.advance
        | none => failAt .invalidEscape c.past
    | ch :: _ =>
      if ch.toNat < 32 then failAt .controlCharacterWhileParsingString c.past
      else stringBody fuel (acc.push ch) escaped c.advance

/-- Reads a string after its opening quote. -/
def string (c : Cursor) : Scan (String × Bool × Cursor) := stringBody (c.rest.length + 1) "" false c

/-- The largest 64-bit word. -/
def wordMax : Nat := Nat.pow 2 64 - 1

/-- The largest 32-bit signed integer. -/
def int32Max : Int := Int.pow 2 31 - 1

/-- Clamps to the 32-bit signed integers. -/
def saturate (k : Int) : Int := max (min k int32Max) (-Int.pow 2 31)

/-- Value of an ASCII digit. -/
def digitValue (ch : Char) : Nat := ch.toNat - 48

/-- The binary64 value of `significand * 10 ^ exponent`, or out of range where the number ends. -/
def floatValue (negative : Bool) (significand : Nat) (exponent : Int) (c : Cursor) :
    Scan (Json × Cursor) :=
  match Binary64.ofDecimal negative significand exponent with
  | some x => pure (.num (.float x), c)
  | none => failAt .numberOutOfRange c.here

/-- A signed zero. -/
def signedZero (negative : Bool) : Json := .num (.float { Binary64.zero with negative := negative })

/-- An integer written without fraction or exponent: a count, a negative integer, or (for `-0`
and integers below `-2 ^ 63`) a binary64 value. -/
def integerValue (negative : Bool) (significand : Nat) : Json :=
  if !negative then .num (.count significand)
  else if significand = 0 then signedZero true
  else if significand ≤ Nat.pow 2 63 then .num (.negative significand)
  else .num (.float ((Binary64.ofNat significand).getD Binary64.zero).neg)

/-- Reads exponent digits into `e`: `none` when the exponent would pass the 32-bit bound, with
the cursor after the digit that passed it. -/
def exponentDigits : Nat → Nat → Cursor → Option Nat × Cursor
  | 0, e, c => (some e, c)
  | fuel + 1, e, c =>
    match c.rest with
    | ch :: _ =>
      if JsonReader.isDigit ch then
        let e' := e * 10 + digitValue ch
        if (e' : Int) > int32Max then (none, c.advance) else exponentDigits fuel e' c.advance
      else (some e, c)
    | [] => (some e, c)

/-- Reads an exponent after its `e`, and gives the number `significand * 10 ^ (start ± exp)`.
An exponent beyond the 32-bit bound makes a nonzero number with a positive exponent out of range,
and any other number a signed zero. -/
def exponentPart (negative : Bool) (significand : Nat) (start : Int) (c : Cursor) :
    Scan (Json × Cursor) :=
  let (positive, c) := match c.rest with
    | '+' :: _ => (true, c.advance)
    | '-' :: _ => (false, c.advance)
    | _ => (true, c)
  match c.rest with
  | [] => failAt .eofWhileParsingValue c.here
  | ch :: _ =>
    if !JsonReader.isDigit ch then failAt .invalidNumber c.past
    else
      match exponentDigits c.rest.length (digitValue ch) c.advance with
      | (none, c) =>
        if significand ≠ 0 ∧ positive then failAt .numberOutOfRange c.here
        else pure (signedZero negative, c.skipDigits)
      | (some e, c) =>
        floatValue negative significand (saturate (if positive then start + e else start - e)) c

/-- Reads fraction digits into the significand, counting them in `after` (as a negative
exponent); once the significand would pass 64 bits the remaining digits are skipped. Gives the
significand, the exponent, whether digits were skipped, and the cursor. -/
def fractionDigits : Nat → Nat → Int → Cursor → Nat × Int × Bool × Cursor
  | 0, s, after, c => (s, after, false, c)
  | fuel + 1, s, after, c =>
    match c.rest with
    | ch :: _ =>
      if JsonReader.isDigit ch then
        let s' := s * 10 + digitValue ch
        if s' > wordMax then (s, after, true, c.skipDigits)
        else fractionDigits fuel s' (after - 1) c.advance
      else (s, after, false, c)
    | [] => (s, after, false, c)

/-- Reads a fraction after its `.`, then an optional exponent. At least one digit must follow
the point. -/
def fractionPart (negative : Bool) (significand : Nat) (before : Int) (c : Cursor) :
    Scan (Json × Cursor) :=
  let (s, after, skipped, c) := fractionDigits c.rest.length significand 0 c
  if !skipped ∧ after = 0 then
    match c.rest with
    | [] => failAt .eofWhileParsingValue c.past
    | _ => failAt .invalidNumber c.past
  else
    match c.rest with
    | ch :: _ =>
      if ch == 'e' || ch == 'E' then exponentPart negative s (before + after) c.advance
      else floatValue negative s (before + after) c
    | [] => floatValue negative s (before + after) c

/-- Reads the digits of an integer part that no longer fit 64 bits: each raises the exponent. -/
def longIntegerDigits : Nat → Int → Cursor → Int × Cursor
  | 0, e, c => (e, c)
  | fuel + 1, e, c =>
    match c.rest with
    | ch :: _ => if JsonReader.isDigit ch then longIntegerDigits fuel (e + 1) c.advance else (e, c)
    | [] => (e, c)

/-- What follows the integer part of a number. -/
def afterInteger (negative : Bool) (significand : Nat) (exponent : Int) (long : Bool) (c : Cursor) :
    Scan (Json × Cursor) :=
  match c.rest with
  | '.' :: _ => fractionPart negative significand exponent c.advance
  | ch :: _ =>
    if ch == 'e' || ch == 'E' then exponentPart negative significand exponent c.advance
    else if long then floatValue negative significand exponent c
    else pure (integerValue negative significand, c)
  | [] => if long then floatValue negative significand exponent c
    else pure (integerValue negative significand, c)

/-- Reads integer digits after a leading nonzero digit. -/
def integerDigits : Nat → Bool → Nat → Cursor → Scan (Json × Cursor)
  | 0, negative, s, c => afterInteger negative s 0 false c
  | fuel + 1, negative, s, c =>
    match c.rest with
    | ch :: _ =>
      if JsonReader.isDigit ch then
        let s' := s * 10 + digitValue ch
        if s' > wordMax then
          let (e, c) := longIntegerDigits c.rest.length 0 c
          afterInteger negative s e true c
        else integerDigits fuel negative s' c.advance
      else afterInteger negative s 0 false c
    | [] => afterInteger negative s 0 false c

/-- Reads a number after its optional minus sign. A leading zero may not be followed by a
digit. -/
def number (negative : Bool) (c : Cursor) : Scan (Json × Cursor) :=
  match c.rest with
  | [] => failAt .eofWhileParsingValue c.here
  | '0' :: _ =>
    let c := c.advance
    match c.rest with
    | ch :: _ =>
      if JsonReader.isDigit ch then failAt .invalidNumber c.past
      else afterInteger negative 0 0 false c
    | [] => afterInteger negative 0 0 false c
  | ch :: _ =>
    if JsonReader.isDigit ch then integerDigits c.rest.length negative (digitValue ch) c.advance
    else failAt .invalidNumber c.past

/-- Reads the remaining letters of `null`, `true` or `false`. -/
def ident : List Char → Cursor → Scan Cursor
  | [], c => pure c
  | l :: ls, c =>
    match c.rest with
    | [] => failAt .eofWhileParsingValue c.here
    | ch :: _ => if ch == l then ident ls c.advance else failAt .expectedSomeIdent c.past

mutual

/-- Reads a value after optional blanks; `depth` is the number of arrays and objects that may
still open, counting the one about to open. -/
def value : Nat → Nat → Cursor → Scan (Json × Cursor)
  | 0, _, c => failAt .recursionLimitExceeded c.past
  | fuel + 1, depth, c =>
    let c := c.skipBlanks
    match c.rest with
    | [] => failAt .eofWhileParsingValue c.past
    | 'n' :: _ => do pure (.null, ← ident ['u', 'l', 'l'] c.advance)
    | 't' :: _ => do pure (.bool true, ← ident ['r', 'u', 'e'] c.advance)
    | 'f' :: _ => do pure (.bool false, ← ident ['a', 'l', 's', 'e'] c.advance)
    | '-' :: _ => number true c.advance
    | '"' :: _ => do
      let (s, _, c) ← string c.advance
      pure (.str s, c)
    | '[' :: _ =>
      if depth ≤ 1 then failAt .recursionLimitExceeded c.past
      else items fuel (depth - 1) [] true c.advance
    | '{' :: _ =>
      if depth ≤ 1 then failAt .recursionLimitExceeded c.past
      else members fuel (depth - 1) [] true c.advance
    | ch :: _ =>
      if JsonReader.isDigit ch then number false c else failAt .expectedSomeValue c.past

/-- Reads array items up to the closing bracket; `first` tells whether no item was read yet. -/
def items : Nat → Nat → List Json → Bool → Cursor → Scan (Json × Cursor)
  | 0, _, _, _, c => failAt .recursionLimitExceeded c.past
  | fuel + 1, depth, acc, first, c =>
    let c := c.skipBlanks
    match c.rest with
    | [] => failAt .eofWhileParsingList c.past
    | ']' :: _ => pure (.arr acc.reverse, c.advance)
    | ',' :: _ =>
      if first then do
        let (v, c) ← value fuel depth c
        items fuel depth (v :: acc) false c
      else
        let c := c.advance.skipBlanks
        match c.rest with
        | [] => failAt .eofWhileParsingValue c.past
        | ']' :: _ => failAt .trailingComma c.past
        | _ => do
          let (v, c) ← value fuel depth c
          items fuel depth (v :: acc) false c
    | _ =>
      if first then do
        let (v, c) ← value fuel depth c
        items fuel depth (v :: acc) false c
      else failAt .expectedListCommaOrEnd c.past

/-- Reads object members up to the closing brace; `first` tells whether no member was read
yet. -/
def members : Nat → Nat → List (JsonKey × Json) → Bool → Cursor → Scan (Json × Cursor)
  | 0, _, _, _, c => failAt .recursionLimitExceeded c.past
  | fuel + 1, depth, acc, first, c =>
    let c := c.skipBlanks
    match c.rest with
    | [] => failAt .eofWhileParsingObject c.past
    | '}' :: _ => pure (.obj acc.reverse, c.advance)
    | ',' :: _ =>
      if first then member fuel depth acc c
      else
        let c := c.advance.skipBlanks
        match c.rest with
        | [] => failAt .eofWhileParsingValue c.past
        | '}' :: _ => failAt .trailingComma c.past
        | _ => member fuel depth acc c
    | _ => if first then member fuel depth acc c else failAt .expectedObjectCommaOrEnd c.past

/-- Reads one member, its key first, then the members after it. -/
def member : Nat → Nat → List (JsonKey × Json) → Cursor → Scan (Json × Cursor)
  | 0, _, _, c => failAt .recursionLimitExceeded c.past
  | fuel + 1, depth, acc, c =>
    match c.rest with
    | '"' :: _ => do
      let (k, escaped, c) ← string c.advance
      let c := c.skipBlanks
      match c.rest with
      | ':' :: _ => do
        let (v, c) ← value fuel depth c.advance
        members fuel depth (({ text := k, escaped := escaped }, v) :: acc) false c
      | [] => failAt .eofWhileParsingObject c.past
      | _ => failAt .expectedColon c.past
    | _ => failAt .keyMustBeAString c.past

end

end JsonScan

namespace Json

/-- Reads a whole text as one JSON document, strictly; blanks may surround it. -/
def readDocument (text : String) : Except JsonSyntaxError Json := do
  let c : JsonScan.Cursor := { rest := text.toList }
  let (v, c) ← JsonScan.value (2 * c.rest.length + 2) 128 c
  let c := c.skipBlanks
  match c.rest with
  | [] => pure v
  | _ => JsonScan.failAt .trailingCharacters c.past

end Json

end ViewHydration
