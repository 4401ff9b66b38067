import ViewHydration.Json.Value

/-!
# Compact JSON text

Values are written without blanks, object members in the order the value holds them. In a
string, `"` and `\` are escaped with a backslash, the control characters backspace, form feed,
line feed, carriage return and tab get their short escapes, every other character below U+0020 is
written `\u00XX` with lower-case hex digits, and all other characters are written as they are.
-/

namespace ViewHydration

namespace JsonText

/-- Lower-case hex digit of a value below 16. -/
def hexDigit (n : Nat) : Char :=
  if n < 10 then Char.ofNat (48 + n) else Char.ofNat (87 + n)

/-- The escaped form of one character inside a string. -/
def escapeChar (c : Char) : String :=
  match c with
  | '"' => "\\\""
  | '\\' => "\\\\"
  | '\n' => "\\n"
  | '\r' => "\\r"
  | '\t' => "\\t"
  | c =>
    if c.toNat == 8 then "\\b"
    else if c.toNat == 12 then "\\f"
    else if c.toNat < 32 then
      "\\u00" ++ (String.singleton (hexDigit (c.toNat / 16))).push (hexDigit (c.toNat % 16))
    else String.singleton c

/-- A string literal: the text between quotes, escaped. -/
def quote (s : String) : String :=
  "\"" ++ s.foldl (fun acc c => acc ++ escapeChar c) "" ++ "\""

/-- A member list `"key":value,…` wrapped in braces. -/
def object (members : List (String × String)) : String :=
  "\x7b" ++ ",".intercalate (members.map fun kv => quote kv.1 ++ ":" ++ kv.2) ++ "\x7d"

/-- An item list wrapped in brackets. -/
def array (items : List String) : String :=
  "[" ++ ",".intercalate items ++ "]"

end JsonText

namespace Json

mutual

/-- Compact text of a value. Integers are written in decimal and binary64 values as their
shortest decimal; a number kept as text is written as it was read, and an invalid value, which
only skipped text holds, as `null`. -/
def render : Json → String
  | .null => "null"
  | .bool b => if b then "true" else "false"
  | .num (.count n) => toString n
  | .num (.negative n) => "-" ++ toString n
  | .num (.float x) => x.render
  | .num (.other text) => text
  | .str s => JsonText.quote s
  | .arr items => JsonText.array (renderItems items)
  | .obj members => JsonText.object (renderMembers members)
  | .invalid => "null"

/-- Texts of array items. -/
def renderItems : List Json → List String
  | [] => []
  | j :: rest => render j :: renderItems rest

/-- Keys and value texts of object members. -/
def renderMembers : List (JsonKey × Json) → List (String × String)
  | [] => []
  | (k, j) :: rest => (k.text, render j) :: renderMembers rest

end

/-- A count. -/
def nat (n : Nat) : Json := .num (.count n)

/-- An object with the given members, in order. -/
def object (members : List (String × Json)) : Json := .obj (members.map fun m => ({ text := m.1 }, m.2))

/-- An optional value: `null` when absent. -/
def opt {α : Type} (f : α → Json) : Option α → Json
  | some a => f a
  | none => .null

/-- A list of pairs of strings, each as a two-item array. -/
def pairs (kvs : List (String × String)) : Json := .arr (kvs.map fun kv => .arr [.str kv.1, .str kv.2])

end Json

end ViewHydration
