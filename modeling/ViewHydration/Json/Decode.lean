import ViewHydration.Json.Value

/-!
# Decoding JSON into records

The decoders follow one set of rules for every record type of the library:

* A record is read from an object or from an array. From an object, each member whose key names
  a field gives that field; a field named twice is refused, and members with other keys are
  ignored, whatever their values, though a key with an unpaired surrogate escape is refused.
  From an array, the items give the fields in declaration order; fewer items leave the remaining
  fields at their defaults, and more items than fields are refused.
* A missing field takes its default.
* A map with count keys is read from an object only. Each key must be written as a plain
  decimal count: digits only, no leading zero, no escape sequence, below `2 ^ 64`. A repeated
  key keeps its last value.
* An optional value is absent when it is `null`.
-/

namespace ViewHydration

namespace Json

/-- The value of each named field of a record, in the order of `names`; `none` when the value
cannot be read as the record. -/
def fields (names : List String) : Json → Option (List (Option Json))
  | .obj members =>
    let step (acc : Option (List (Option Json))) (m : JsonKey × Json) :
        Option (List (Option Json)) :=
      acc.bind fun slots =>
        if !m.1.sound then none else
        match names.idxOf? m.1.text with
        | none => some slots
        | some i =>
          match slots[i]? with
          | some none => some (slots.set i (some m.2))
          | _ => none
    members.foldl step (some (names.map fun _ => none))
  | .arr items =>
    if items.length > names.length then none
    else some (names.mapIdx fun i _ => items[i]?)
  | _ => none

/-- A count: a non-negative integer below `2 ^ 64`. -/
def count? : Json → Option Nat
  | .num (.count n) => some n
  | _ => none

/-- A string. -/
def string? : Json → Option String
  | .str s => some s
  | _ => none

/-- A boolean. -/
def bool? : Json → Option Bool
  | .bool b => some b
  | _ => none

/-- An array's items. -/
def items? : Json → Option (List Json)
  | .arr xs => some xs
  | _ => none

/-- A count written as an object key. -/
def countKey? (k : JsonKey) : Option Nat :=
  let cs := k.text.toList
  if k.escaped || cs.isEmpty || !cs.all (fun c => '0' ≤ c && c ≤ '9') then none
  else if cs.head? == some '0' && cs.length > 1 then none
  else
    let n := cs.foldl (fun n c => n * 10 + (c.toNat - 48)) 0
    if n < Nat.pow 2 64 then some n else none

/-- Inserts a key into an association list ordered by key, replacing an equal key. -/
def insertSorted {α : Type} (k : Nat) (v : α) : List (Nat × α) → List (Nat × α)
  | [] => [(k, v)]
  | (k', v') :: rest =>
    if k < k' then (k, v) :: (k', v') :: rest
    else if k == k' then (k, v) :: rest
    else (k', v') :: insertSorted k v rest

/-- The last member of an object with the given key, unless its value is `null`: a request
reads a field set to `null` as a missing field. -/
def member? (j : Json) (key : String) : Option Json :=
  match j with
  | .obj members =>
    match (members.filter (·.1.text == key)).getLast? with
    | some (_, .null) => none
    | some (_, v) => some v
    | none => none
  | _ => none

/-- The value of the last member of an object with the given key, `null` included. -/
def entry? (j : Json) (key : String) : Option Json :=
  match j with
  | .obj members => ((members.filter (·.1.text == key)).getLast?).map (·.2)
  | _ => none

/-- Inserts a member into members ordered by key, replacing the member with an equal key. -/
def insertMember (m : JsonKey × Json) : List (JsonKey × Json) → List (JsonKey × Json)
  | [] => [m]
  | m' :: rest =>
    if m.1.text < m'.1.text then m :: m' :: rest
    else if m.1.text == m'.1.text then m :: rest
    else m' :: insertMember m rest

mutual

/-- The value as a map-backed reader keeps it: every object has each key once, with the value
of its last member, and its keys in order. -/
def canonical : Json → Json
  | .arr items => .arr (canonicalItems items)
  | .obj members => .obj ((canonicalMembers members).foldl (fun acc m => insertMember m acc) [])
  | j => j

/-- The canonical form of each item. -/
def canonicalItems : List Json → List Json
  | [] => []
  | j :: rest => canonical j :: canonicalItems rest

/-- The canonical form of each member's value. -/
def canonicalMembers : List (JsonKey × Json) → List (JsonKey × Json)
  | [] => []
  | (k, j) :: rest => ({ text := k.text }, canonical j) :: canonicalMembers rest

end

end Json

/-- Reads a field that defaults when missing: `none` if the field is present but unreadable. -/
def Json.fieldOr {α : Type} (dflt : α) (read : Json → Option α) : Option Json → Option α
  | none => some dflt
  | some j => read j

end ViewHydration
