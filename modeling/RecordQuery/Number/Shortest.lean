import RecordQuery.Number.Binary64

/-!
# Shortest decimal text

The decimal text of a floating-point number has the fewest digits that still read back as the
number, and among those it is the nearest; of two equally near ones the larger magnitude is written.
It never uses an exponent.

A magnitude `m · 2 ^ e` is what every real number of an interval around it rounds to, the ends
included if `m` is even. The decimal numbers `c · 10 ^ s` of one scale `s` form a grid; the coarsest
grid with a point in the interval gives the fewest digits.
-/

namespace RecordQuery

namespace Binary64

/-- A magnitude and the ends of the interval that rounds to it, all three as multiples of
    `2 ^ scale`. -/
structure Rounding where
  lower : Nat
  middle : Nat
  upper : Nat
  scale : Int
  closed : Bool

/-- The interval of a finite number. Below a power of two the next number is only half as far. -/
def rounding (x : Binary64) : Rounding :=
  let m := x.significand
  { lower := if m = Nat.pow 2 52 then 4 * m - 1 else 4 * m - 2
    middle := 4 * m
    upper := 4 * m + 2
    scale := x.exponent - 2
    closed := m % 2 == 0 }

namespace Rounding

/-- The factor of the decimal side when `c · 10 ^ s` is compared with `n · 2 ^ r.scale`. -/
def decimalFactor (r : Rounding) (s : Int) : Nat :=
  Nat.pow 10 s.toNat * Nat.pow 2 (-r.scale).toNat

/-- The factor of the binary side when `c · 10 ^ s` is compared with `n · 2 ^ r.scale`. -/
def binaryFactor (r : Rounding) (s : Int) : Nat :=
  Nat.pow 2 r.scale.toNat * Nat.pow 10 (-s).toNat

/-- Whether `c · 10 ^ s` lies in the interval. -/
def covers (r : Rounding) (s : Int) (c : Nat) : Bool :=
  let point := c * r.decimalFactor s
  let lower := r.lower * r.binaryFactor s
  let upper := r.upper * r.binaryFactor s
  if r.closed then lower ≤ point && point ≤ upper else lower < point && point < upper

/-- The point of the grid of scale `s` that lies in the interval, the one nearest to the middle if
    both neighbours of the middle do. -/
def gridPoint? (r : Rounding) (s : Int) : Option Nat :=
  let middle := r.middle * r.binaryFactor s
  let below := middle / r.decimalFactor s
  let above := below + 1
  match r.covers s below, r.covers s above with
  | true, true =>
    if above * r.decimalFactor s - middle ≤ middle - below * r.decimalFactor s then some above
    else some below
  | true, false => some below
  | false, true => some above
  | false, false => none

/-- The coarsest grid with a point in the interval, from scale `n - 324` down, and that point. Scale
    `-324` is finer than the distance of any two numbers. -/
def coarsest (r : Rounding) : Nat → Nat × Int
  | 0 => ((r.gridPoint? (-324)).getD 0, -324)
  | n + 1 =>
    match r.gridPoint? ((n : Int) + 1 - 324) with
    | some c => (c, (n : Int) + 1 - 324)
    | none => r.coarsest n

end Rounding

/-- The digits and the scale of the shortest decimal of a finite number other than zero. -/
def shortest (x : Binary64) : Nat × Int :=
  x.rounding.coarsest 633

end Binary64

/-- The number `c · 10 ^ s` written without an exponent. -/
def positional (c : Nat) (s : Int) : List Char :=
  let digits := Nat.toDigits 10 c
  if 0 ≤ s then digits ++ List.replicate s.toNat '0'
  else
    let places := (-s).toNat
    if places < digits.length then
      digits.take (digits.length - places) ++ '.' :: digits.drop (digits.length - places)
    else ['0', '.'] ++ List.replicate (places - digits.length) '0' ++ digits

namespace Binary64

/-- The decimal text of a number. -/
def display (x : Binary64) : String :=
  if x.isNaN then "NaN"
  else
    let sign := if x.isNegative then "-" else ""
    if x.isInfinite then sign ++ "inf"
    else if x.isZero then sign ++ "0"
    else
      let (c, s) := x.shortest
      sign ++ String.ofList (positional c s)

end Binary64

end RecordQuery
