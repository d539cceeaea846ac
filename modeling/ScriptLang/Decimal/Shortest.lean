import ScriptLang.Decimal.Binary64

/-!
# The fewest digits that read back

`Shortest.ofParts` finds, for a positive number `m * 2 ^ q` of double precision, the decimal with the
fewest digits that lies in the interval of reals rounding to it, and of those with that many digits
the nearest; an exact tie goes up.  The interval includes its ends exactly if `m` is even.  All
arithmetic is on natural numbers.
-/

namespace ScriptLang.Decimal

/-- The number `0.d₁d₂…dₙ * 10 ^ exponent`, with `digits` the natural number `d₁d₂…dₙ`. -/
structure Shortest where
  digits : Nat
  exponent : Int
deriving DecidableEq, Repr

/-- The number of decimal digits of a natural number, one for zero. -/
def digitCount (n : Nat) : Nat := (Nat.toDigits 10 n).length

/-- A positive fraction. -/
structure Ratio where
  num : Nat
  den : Nat

namespace Ratio

/-- `m * b ^ q`. -/
def ofPower (m b : Nat) (q : Int) : Ratio :=
  if 0 ≤ q then ⟨m * b.pow q.toNat, 1⟩ else ⟨m, b.pow (-q).toNat⟩

/-- Multiplication by `10 ^ k`. -/
def shift (r : Ratio) (k : Int) : Ratio :=
  if 0 ≤ k then ⟨r.num * Nat.pow 10 k.toNat, r.den⟩ else ⟨r.num, r.den * Nat.pow 10 (-k).toNat⟩

def floor (r : Ratio) : Nat := r.num / r.den

/-- Order against a natural number. -/
def compareNat (r : Ratio) (n : Nat) : Ordering := compare r.num (n * r.den)

/-- The least `e` with `r < 10 ^ e`. -/
def magnitude (r : Ratio) : Int :=
  if r.den ≤ r.num then digitCount (r.num / r.den)
  else 1 - digitCount ((r.den - 1) / r.num)

end Ratio

namespace Shortest

/-- The interval of reals that round to `m * 2 ^ q`: its value, its two ends and whether it contains
them.  Below a power of two the next smaller number is only half as far away. -/
structure Interval where
  value : Ratio
  low : Ratio
  high : Ratio
  closed : Bool

def Interval.of (m : Nat) (q : Int) : Interval :=
  let below := if m = Nat.pow 2 52 ∧ Binary64.minExponent < q then 4 * m - 1 else 4 * m - 2
  { value := .ofPower (4 * m) 2 (q - 2)
    low := .ofPower below 2 (q - 2)
    high := .ofPower (4 * m + 2) 2 (q - 2)
    closed := m % 2 == 0 }

/-- Whether `n * 10 ^ (-k)` rounds to the number of the interval. -/
def Interval.contains (i : Interval) (k : Int) (n : Nat) : Bool :=
  match (i.low.shift k).compareNat n, (i.high.shift k).compareNat n with
  | .lt, .gt => true
  | .eq, _ => i.closed
  | _, .eq => i.closed
  | _, _ => false

/-- The decimal of the interval on the grid of multiples of `10 ^ (-k)`, if there is one. -/
def Interval.onGrid (i : Interval) (k : Int) : Option Nat :=
  let v := i.value.shift k
  let below := v.floor
  let above := below + 1
  match i.contains k below && below ≠ 0, i.contains k above with
  | true, true =>
    -- twice the distance of the lower neighbour against the width of the grid
    if v.num * 2 < (below + above) * v.den then some below else some above
  | true, false => some below
  | false, true => some above
  | false, false => none

/-- Drop the trailing zeros of a digit sequence, keeping the number. -/
def trim : Nat → Shortest → Shortest
  | 0, s => s
  | fuel + 1, s =>
    if s.digits % 10 = 0 ∧ s.digits ≠ 0 then trim fuel { s with digits := s.digits / 10 } else s

/-- Try `count` more numbers of digits, beginning with `n`. -/
def search (i : Interval) (magnitude : Int) : (count n : Nat) → Shortest
  | 0, n => ⟨(i.value.shift (n - magnitude)).floor, magnitude⟩
  | count + 1, n =>
    match i.onGrid (n - magnitude) with
    | some d => ⟨d, magnitude + (digitCount d - n : Int)⟩
    | none => search i magnitude count (n + 1)

/-- The shortest decimal that reads back as `m * 2 ^ q`, for positive `m`. -/
def ofParts (m : Nat) (q : Int) : Shortest :=
  let i := Interval.of m q
  trim 20 (search i i.value.magnitude 17 1)

end Shortest

end ScriptLang.Decimal
