import ViewHydration.Json.Binary64

/-!
# JSON values

The configuration and the hydration records are JSON documents. A `Json` value keeps an
object's members in text order, duplicates included, because the decoders give duplicates their
own meaning: a repeated field of a record is refused, while a repeated key of a map keeps its
last value.

Numbers are kept as a reader of 64-bit words keeps them: a non-negative integer written without
fraction or exponent that fits in 64 bits is a `count`, a negative one down to `-2 ^ 63` is
`negative`, and every other number is a binary64 `float`. The reader that only checks grammar
keeps such other numbers as `other`, with the text they were written with; no decoder accepts
them as counts.

A typed reader checks every value it reads, while a value that a record does not know is only
checked for its grammar. So the text of such a value may hold what a typed read refuses: an
unpaired surrogate escape in a string or a key, or a number too large for a double. Those
values are `invalid`, and such keys are not `sound`.
-/

namespace ViewHydration

/-- A JSON number. -/
inductive JsonNumber where
  /-- A non-negative integer below `2 ^ 64`, written without fraction or exponent. -/
  | count (n : Nat)
  /-- The negative integer `-n`, for `1 ≤ n ≤ 2 ^ 63`, written without fraction or exponent. -/
  | negative (n : Nat)
  /-- Any other number, as the binary64 value a reader computes for it. -/
  | float (x : Binary64)
  /-- Any other number, with its text, from a reader that only checks grammar. -/
  | other (text : String)
  deriving DecidableEq, Repr, Inhabited

/-- An object key: its text, whether the text was written with an escape sequence, and whether
it is sound: a key with an unpaired surrogate escape is not, and its text is empty. -/
structure JsonKey where
  text : String
  escaped : Bool := false
  sound : Bool := true
  deriving DecidableEq, Repr, Inhabited

/-- A JSON value whose objects keep their members in text order. -/
inductive Json where
  | null
  | bool (b : Bool)
  | num (n : JsonNumber)
  | str (s : String)
  | arr (items : List Json)
  | obj (members : List (JsonKey × Json))
  /-- Well-formed text that no typed read accepts: a string with an unpaired surrogate escape,
  or a number too large for a double. Only a value that is skipped may be one. -/
  | invalid
  deriving Repr, Inhabited

end ViewHydration
