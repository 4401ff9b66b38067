import ViewHydration.Json.Value

/-!
# Reading JSON text

`Json.parse?` accepts one value surrounded by blanks (space, tab, line feed, carriage return) and
nothing else, by the grammar: no raw control characters inside strings, only the simple escapes
and `u` with four hex digits, no number with a leading zero or an empty fraction or exponent, and
no trailing comma in an array or object.

A strict reader refuses more:

* `\u` escapes that are surrogates without a partner (a high surrogate must be followed by an
  escaped low surrogate);
* numbers too large to be a finite double;
* nesting deeper than 127 arrays and objects.

The typed readers of records apply those checks only to the values they read and skip the
others, so they start from `Json.parse?`, which keeps such values as `invalid`, and check depth
themselves.

Every step consumes input, so the input length bounds the recursion.
-/

namespace ViewHydration

namespace JsonReader

/-- The blanks allowed between tokens. -/
def isBlank (c : Char) : Bool := c == ' ' || c == '\t' || c == '\n' || c == '\r'

/-- Drops leading blanks. -/
def skipBlanks (cs : List Char) : List Char := cs.dropWhile isBlank

/-- Value of a hex digit. -/
def hexValue? (c : Char) : Option Nat :=
  if '0' ≤ c ∧ c ≤ '9' then some (c.toNat - 48)
  else if 'a' ≤ c ∧ c ≤ 'f' then some (c.toNat - 87)
  else if 'A' ≤ c ∧ c ≤ 'F' then some (c.toNat - 55)
  else none

/-- Value of four hex digits. -/
def hex4? (a b c d : Char) : Option Nat := do
  let a ← hexValue? a
  let b ← hexValue? b
  let c ← hexValue? c
  let d ← hexValue? d
  pure (((a * 16 + b) * 16 + c) * 16 + d)

/-- Deepest nesting of arrays and objects that a typed read accepts. -/
def maxDepth : Nat := 127

/-- A simple escape: the character after a backslash, other than `u`. -/
def simpleEscape? : Char → Option Char
  | '"' => some '"'
  | '\\' => some '\\'
  | '/' => some '/'
  | 'b' => some (Char.ofNat 8)
  | 'f' => some (Char.ofNat 12)
  | 'n' => some '\n'
  | 'r' => some '\r'
  | 't' => some '\t'
  | _ => none

/-- Appends a character unless the text is already unsound or a high surrogate waits for its
partner, which then stays unpaired. -/
def pushChar (acc : Option String) (pending : Option Nat) (c : Char) : Option String :=
  if pending.isSome then none else acc.map (·.push c)

/-- The body of a string after its opening quote: its text (`none` when a surrogate escape is
unpaired: a high surrogate must be followed at once by an escaped low surrogate, and a low
surrogate must follow a high one), whether it held an escape, and the rest after the closing
quote. Grammar alone decides whether there is a string at all: every escape is a simple one or
`u` with four hex digits, and no raw control character occurs. -/
def stringBody (acc : Option String) (pending : Option Nat) (escaped : Bool) :
    List Char → Option (Option String × Bool × List Char)
  | [] => none
  | '"' :: rest => some (if pending.isSome then none else acc, escaped, rest)
  | '\\' :: 'u' :: a :: b :: c :: d :: rest =>
    match hex4? a b c d with
    | none => none
    | some u =>
      if 0xDC00 ≤ u ∧ u ≤ 0xDFFF then
        match pending with
        | some hi =>
          stringBody (acc.map (·.push (Char.ofNat (0x10000 + (hi - 0xD800) * 0x400 + (u - 0xDC00)))))
            none true rest
        | none => stringBody none none true rest
      else if 0xD800 ≤ u ∧ u ≤ 0xDBFF then
        stringBody (if pending.isSome then none else acc) (some u) true rest
      else stringBody (pushChar acc pending (Char.ofNat u)) none true rest
  | '\\' :: c :: rest =>
    match simpleEscape? c with
    | some d => stringBody (pushChar acc pending d) none true rest
    | none => none
  | c :: rest => if c.toNat < 32 then none else stringBody (pushChar acc pending c) none escaped rest

/-- Value of a list of decimal digits. -/
def digitsValue (ds : List Char) : Nat := ds.foldl (fun n c => n * 10 + (c.toNat - 48)) 0

/-- Whether a character is an ASCII digit. -/
def isDigit (c : Char) : Bool := '0' ≤ c && c ≤ '9'

/-- Whether `mantissa * 10 ^ exp10` (or `mantissa / 10 ^ -exp10`) rounds to an infinite double:
the least such value is `2 ^ 1024 - 2 ^ 970`, half way between the largest finite double and
`2 ^ 1024`. -/
def overflowsDouble (mantissa digitCount : Nat) (exp10 : Int) : Bool :=
  let limit : Nat := Nat.pow 2 1024 - Nat.pow 2 970
  if mantissa == 0 then false
  else if exp10 ≥ 0 then
    if exp10.toNat + digitCount > 330 then true else mantissa * Nat.pow 10 exp10.toNat ≥ limit
  else
    if digitCount < 300 + (-exp10).toNat then false
    else mantissa ≥ limit * Nat.pow 10 (-exp10).toNat

/-- A number at the front of the input. -/
def number (cs0 : List Char) : Option (Json × List Char) :=
  let cs := cs0
  let (neg, cs) := match cs with
    | '-' :: r => (true, r)
    | r => (false, r)
  let intDigits := cs.takeWhile isDigit
  let rest := cs.dropWhile isDigit
  if intDigits.isEmpty then none
  else if intDigits.head? == some '0' && intDigits.length > 1 then none
  else
    let (fracDigits, hasFrac, rest) : List Char × Bool × List Char := match rest with
      | '.' :: r => (r.takeWhile isDigit, true, r.dropWhile isDigit)
      | r => ([], false, r)
    if hasFrac && fracDigits.isEmpty then none
    else
      let expPart : Option (Option Int × List Char) := match rest with
        | c :: r =>
          if c == 'e' || c == 'E' then
            let (sign, r) : Int × List Char := match r with
              | '+' :: r' => (1, r')
              | '-' :: r' => (-1, r')
              | r' => (1, r')
            let ds := r.takeWhile isDigit
            if ds.isEmpty then none
            else some (some (sign * (digitsValue ds : Int)), r.dropWhile isDigit)
          else some (none, c :: r)
        | [] => some (none, [])
      match expPart with
      | none => none
      | some (exp, rest) =>
        let intValue := digitsValue intDigits
        if !neg && !hasFrac && exp.isNone && intValue < Nat.pow 2 64 then some (.num (.count intValue), rest)
        else
          let allDigits := intDigits ++ fracDigits
          let exp10 : Int := exp.getD 0 - fracDigits.length
          if overflowsDouble (digitsValue allDigits) allDigits.length exp10 then some (.invalid, rest)
          else some (.num (.other (String.ofList (cs0.take (cs0.length - rest.length)))), rest)

mutual

/-- A value after optional blanks. -/
def value : Nat → List Char → Option (Json × List Char)
  | 0, _ => none
  | fuel + 1, cs =>
    match skipBlanks cs with
    | 'n' :: 'u' :: 'l' :: 'l' :: rest => some (.null, rest)
    | 't' :: 'r' :: 'u' :: 'e' :: rest => some (.bool true, rest)
    | 'f' :: 'a' :: 'l' :: 's' :: 'e' :: rest => some (.bool false, rest)
    | '"' :: rest =>
      (stringBody (some "") none false rest).map fun (s, _, rest) =>
        (match s with
          | some s => .str s
          | none => .invalid, rest)
    | '[' :: rest =>
      match skipBlanks rest with
      | ']' :: rest => some (.arr [], rest)
      | rest => items fuel [] rest
    | '{' :: rest =>
      match skipBlanks rest with
      | '}' :: rest => some (.obj [], rest)
      | rest => members fuel [] rest
    | cs => number cs

/-- The items of an array from the first item on, up to the closing bracket. -/
def items : Nat → List Json → List Char → Option (Json × List Char)
  | 0, _, _ => none
  | fuel + 1, acc, cs =>
    match value fuel cs with
    | none => none
    | some (v, rest) =>
      match skipBlanks rest with
      | ',' :: rest => items fuel (acc ++ [v]) rest
      | ']' :: rest => some (.arr (acc ++ [v]), rest)
      | _ => none

/-- The members of an object from the first key on, up to the closing brace. -/
def members : Nat → List (JsonKey × Json) → List Char → Option (Json × List Char)
  | 0, _, _ => none
  | fuel + 1, acc, cs =>
    match skipBlanks cs with
    | '"' :: rest =>
      match stringBody (some "") none false rest with
      | none => none
      | some (key, escaped, rest) =>
        match skipBlanks rest with
        | ':' :: rest =>
          match value fuel rest with
          | none => none
          | some (v, rest) =>
            let k : JsonKey := match key with
              | some t => { text := t, escaped := escaped }
              | none => { text := "", escaped := true, sound := false }
            let acc := acc ++ [(k, v)]
            match skipBlanks rest with
            | ',' :: rest => members fuel acc rest
            | '}' :: rest => some (.obj acc, rest)
            | _ => none
        | _ => none
    | _ => none

end

end JsonReader

namespace Json

/-- Reads a whole text as one JSON value by the grammar alone: strings may hold unpaired
surrogate escapes and numbers may be too large for a double, which give `invalid` values, and
nesting is unlimited. Typed readers of records check the rest themselves. -/
def parse? (s : String) : Option Json :=
  let cs := s.toList
  match JsonReader.value (cs.length + 1) cs with
  | some (v, rest) => if (JsonReader.skipBlanks rest).isEmpty then some v else none
  | none => none

end Json

end ViewHydration
