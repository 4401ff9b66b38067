/-!
# Binary64 numbers

A JSON reader that keeps fractional numbers as IEEE 754 binary64 values rounds what the text
says. This module models those values exactly, with natural-number arithmetic only: a value is a
sign and a magnitude `significand * 2 ^ exponent`, and every operation rounds its exact result to
the nearest representable magnitude, ties to an even significand.

Writing a value back gives the shortest decimal that reads back as the same value, the one
nearest to it when several are equally short. The layout depends on the decimal exponent:
integers of up to sixteen digits are written out with a fraction `.0`, other values from `1e-5`
up to `1e16` as plain decimal fractions, and everything else in scientific notation with a
signed exponent (`1e+16`, `7.5e-6`).
-/

namespace ViewHydration

/-- A binary64 value: a sign and the magnitude `significand * 2 ^ exponent`. A normal magnitude
has a 53-bit significand; a subnormal one has a smaller significand and the least exponent; zero
has significand `0`. -/
structure Binary64 where
  negative : Bool := false
  significand : Nat
  exponent : Int
  deriving DecidableEq, Repr, Inhabited

namespace Binary64

/-- The exponent of subnormal magnitudes, the least one. -/
def minExponent : Int := -1074

/-- The greatest exponent of a finite magnitude. -/
def maxExponent : Int := 971

/-- The least normal significand. -/
def hiddenBit : Nat := Nat.pow 2 52

/-- Positive zero. -/
def zero : Binary64 := { significand := 0, exponent := minExponent }

/-- `2 ^ e` as a ratio of natural numbers. -/
def powTwo (e : Int) : Nat × Nat :=
  if e ≥ 0 then (Nat.pow 2 e.toNat, 1) else (1, Nat.pow 2 (-e).toNat)

/-- `10 ^ e` as a ratio of natural numbers. -/
def powTen (e : Int) : Nat × Nat :=
  if e ≥ 0 then (Nat.pow 10 e.toNat, 1) else (1, Nat.pow 10 (-e).toNat)

/-- The floor of the base-two logarithm of `num / den`, for positive `num` and `den`: the
quotient lies strictly between `2 ^ (a - b - 1)` and `2 ^ (a - b + 1)`, where `a` and `b` are the
logarithms of the parts, so one comparison decides. -/
def log2Ratio (num den : Nat) : Int :=
  let guess : Int := (Nat.log2 num : Int) - Nat.log2 den
  let (pn, pd) := powTwo guess
  if num * pd ≥ den * pn then guess else guess - 1

/-- Rounds the ratio `num / den` to the nearest magnitude, ties to an even significand; `none`
when it rounds beyond the greatest finite magnitude. A zero numerator or denominator gives zero. -/
def ofRatio (num den : Nat) : Option Binary64 :=
  if num = 0 ∨ den = 0 then some zero
  else
    let e : Int := max (log2Ratio num den - 52) minExponent
    let (n, d) := if e ≥ 0 then (num, den * Nat.pow 2 e.toNat) else (num * Nat.pow 2 (-e).toNat, den)
    let m := n / d
    let r := n % d
    let m := if 2 * r > d ∨ (2 * r = d ∧ m % 2 = 1) then m + 1 else m
    let (m, e) := if m = Nat.pow 2 53 then (hiddenBit, e + 1) else (m, e)
    if e > maxExponent then none else some { significand := m, exponent := e }

/-- The magnitude nearest to a natural number. -/
def ofNat (n : Nat) : Option Binary64 := ofRatio n 1

/-- The magnitude as a ratio of natural numbers. -/
def ratio (x : Binary64) : Nat × Nat :=
  let (pn, pd) := powTwo x.exponent
  (x.significand * pn, pd)

/-- The rounded product of two magnitudes; `none` when it is infinite. -/
def mul (x y : Binary64) : Option Binary64 :=
  let (a, b) := x.ratio
  let (c, d) := y.ratio
  ofRatio (a * c) (b * d)

/-- The rounded quotient of two magnitudes, the divisor at least one, so it is finite. -/
def div (x y : Binary64) : Binary64 :=
  let (a, b) := x.ratio
  let (c, d) := y.ratio
  (ofRatio (a * d) (b * c)).getD zero

/-- `10 ^ k` rounded, for the powers a reader keeps in a table (`k ≤ 308`). -/
def tenTo (k : Nat) : Binary64 := (ofNat (Nat.pow 10 k)).getD zero

/-- Scales a magnitude by `10 ^ e` the way a reader with a table of rounded powers does: one
multiplication or division by the rounded power when `|e| ≤ 308`, and otherwise repeated
division by `10 ^ 308` until the power fits or the value is zero. A positive power beyond the
table, or a product that is infinite, gives `none`. The value reaches zero within three
divisions, so a small fuel suffices. -/
def scaleByTen : Nat → Binary64 → Int → Option Binary64
  | 0, x, _ => some x
  | fuel + 1, x, e =>
    if e.natAbs ≤ 308 then
      if e ≥ 0 then x.mul (tenTo e.toNat) else some (x.div (tenTo e.natAbs))
    else if x.significand = 0 then some x
    else if e ≥ 0 then none
    else scaleByTen fuel (x.div (tenTo 308)) (e + 308)

/-- The value of a decimal `significand * 10 ^ exponent` as such a reader computes it: the
significand rounded to a magnitude, then scaled. `none` when the result is infinite. -/
def ofDecimal (negative : Bool) (significand : Nat) (exponent : Int) : Option Binary64 := do
  let x ← ofNat significand
  let x ← scaleByTen 8 x exponent
  pure { x with negative := negative }

/-- The negation of a value. -/
def neg (x : Binary64) : Binary64 := { x with negative := !x.negative }

/-- Rounds `n / d` to the nearest integer, ties to even. -/
def roundDiv (n d : Nat) : Nat :=
  let q := n / d
  let r := n % d
  if 2 * r > d ∨ (2 * r = d ∧ q % 2 = 1) then q + 1 else q

/-- The least integer not below `n / d`. -/
def ceilDiv (n d : Nat) : Nat := (n + d - 1) / d

/-- The floor of the decimal logarithm of `num / den` for positive parts, found from the binary
logarithm: it lies within two of `⌊log2 * 0.30103⌋`, and comparisons with powers of ten settle
it. -/
def log10Ratio (num den : Nat) : Int :=
  let base : Int := (log2Ratio num den * 30103) / 100000 - 2
  let atLeast (k : Int) : Bool :=
    let (pn, pd) := powTen k
    num * pd ≥ den * pn
  match [4, 3, 2, 1].find? (fun i => atLeast (base + i)) with
  | some i => base + i
  | none => base

/-- The decimal nearest to a nonzero magnitude among the shortest ones that read back as it:
digits `d` and exponent `q` with `d * 10 ^ q` inside the magnitude's rounding interval. The
interval reaches half way to each neighbour (a quarter of the gap below the least significand of
an exponent, where the neighbour below is closer) and includes its ends when the significand is
even. Digits are tried from one up to seventeen, which always suffice. -/
def shortestDecimal (x : Binary64) : Nat × Int :=
  let m := x.significand
  let e := x.exponent
  -- bounds in units of 2 ^ (e - 2)
  let centre := 4 * m
  let low := if m = hiddenBit ∧ e > minExponent then 4 * m - 1 else 4 * m - 2
  let high := 4 * m + 2
  let inclusive := m % 2 = 0
  let (un, ud) := powTwo (e - 2)
  let top := log10Ratio (centre * un) ud
  -- a bound `b` in units of `10 ^ q` is `b * un * td / (ud * tn)` where `10 ^ q = tn / td`
  let scaled (q : Int) (b : Nat) : Nat × Nat :=
    let (tn, td) := powTen q
    (b * un * td, ud * tn)
  let attempt (digits : Nat) : Option (Nat × Int) :=
    let q : Int := top - digits + 1
    let (lowN, den) := scaled q low
    let (highN, _) := scaled q high
    let dLow := if inclusive then ceilDiv lowN den else lowN / den + 1
    let dHigh := if inclusive then highN / den else ceilDiv highN den - 1
    if dLow ≤ dHigh then
      let (centreN, _) := scaled q centre
      some (min (max (roundDiv centreN den) dLow) dHigh, q)
    else none
  match (List.range 17).findSome? fun k => attempt (k + 1) with
  | some r => r
  | none =>
    let q : Int := top - 16
    let (centreN, den) := scaled q centre
    (roundDiv centreN den, q)

/-- Removes trailing decimal zeros from `d * 10 ^ q`, raising `q`. -/
def stripZeros : Nat → Nat → Int → Nat × Int
  | 0, d, q => (d, q)
  | fuel + 1, d, q =>
    if d ≠ 0 ∧ d % 10 = 0 then stripZeros fuel (d / 10) (q + 1) else (d, q)

/-- A signed decimal exponent, `+` for zero and above. -/
def exponentText (k : Int) : String :=
  if k ≥ 0 then "+" ++ toString k.toNat else "-" ++ toString k.natAbs

/-- Lays out digits `ds` (no trailing zero) worth `0.ds * 10 ^ kk`. -/
def layout (ds : String) (kk : Int) : String :=
  let len : Int := ds.length
  let k := kk - len
  if 0 ≤ k ∧ kk ≤ 16 then ds ++ String.ofList (List.replicate k.toNat '0') ++ ".0"
  else if 0 < kk ∧ kk ≤ 16 then
    String.ofList (ds.toList.take kk.toNat) ++ "." ++ String.ofList (ds.toList.drop kk.toNat)
  else if -5 < kk ∧ kk ≤ 0 then "0." ++ String.ofList (List.replicate kk.natAbs '0') ++ ds
  else if ds.length = 1 then ds ++ "e" ++ exponentText (kk - 1)
  else
    String.ofList (ds.toList.take 1) ++ "." ++ String.ofList (ds.toList.drop 1) ++ "e" ++
      exponentText (kk - 1)

/-- The text of a value: its shortest decimal, laid out by its size; zero is `0.0`. -/
def render (x : Binary64) : String :=
  let sign := if x.negative then "-" else ""
  if x.significand = 0 then sign ++ "0.0"
  else
    let (d, q) := x.shortestDecimal
    let (d, q) := stripZeros 20 d q
    let ds := toString d
    sign ++ layout ds (ds.length + q)

end Binary64

end ViewHydration
