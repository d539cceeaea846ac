/-!
# Double-precision numbers as integers times powers of two

`Binary64.decode` reads a float as not-a-number, an infinity, or a sign with `mantissa * 2 ^ exponent`;
all exact work on floats is done on these integers.  `Binary64.nearest` rounds a fraction to a float.
`Binary64.remainder` is the remainder of the division that rounds toward zero.
-/

namespace ScriptLang.Decimal

/-- A float taken apart. -/
inductive Binary64 where
  | nan
  | infinite (negative : Bool)
  | finite (negative : Bool) (mantissa : Nat) (exponent : Int)
deriving DecidableEq, Repr

namespace Binary64

/-- The least exponent, that of the subnormal numbers. -/
def minExponent : Int := -1074

/-- Take a float apart; a normal number has its hidden bit set. -/
def decode (x : Float) : Binary64 :=
  let bits : Nat := x.toBits.toNat
  let negative := bits / Nat.pow 2 63 == 1
  let biased : Nat := bits / Nat.pow 2 52 % Nat.pow 2 11
  let fraction : Nat := bits % Nat.pow 2 52
  if biased = 2047 then
    if fraction = 0 then infinite negative else nan
  else if biased = 0 then finite negative fraction minExponent
  else finite negative (fraction + Nat.pow 2 52) ((biased : Int) - 1075)

/-- A not-a-number. -/
def notANumber : Float := 0.0 / 0.0

/-! ### Rounding -/

/-- A quotient rounded to the nearest natural number; a half goes to the even neighbour. -/
def roundDiv (n d : Nat) : Nat :=
  let quotient := n / d
  let rest := n % d
  if d < 2 * rest ∨ (d = 2 * rest ∧ quotient % 2 = 1) then quotient + 1 else quotient

/-- The fraction `n / d` in units of `2 ^ q`. -/
def inUnits (n d : Nat) (q : Int) : Nat × Nat :=
  if 0 ≤ q then (n, d * Nat.pow 2 q.toNat) else (n * Nat.pow 2 (-q).toNat, d)

/-- The exponent that leaves the fraction `n / d` a mantissa of 53 bits, or the least exponent. -/
def unitOf (n d : Nat) : Int :=
  let q : Int := (n.log2 : Int) - d.log2 - 53
  let (a, b) := inUnits n d q
  max minExponent (if Nat.pow 2 53 * b ≤ a then q + 1 else q)

/-- The bits of the positive infinity. -/
def infinityBits : Nat := 2047 * Nat.pow 2 52

/-- The double nearest to `n / d`, for positive `d`; of two equally near ones that with the even
mantissa.  A mantissa that reaches 54 bits by rounding carries into the exponent, and beyond the
greatest double lies the infinity. -/
def nearest (n d : Nat) : Float :=
  if n = 0 then 0.0
  else
    let q := unitOf n d
    let (a, b) := inUnits n d q
    Float.ofBits (.ofNat (min infinityBits ((q - minExponent).toNat * Nat.pow 2 52 + roundDiv a b)))

/-- The double nearest to an integer. -/
def ofInt (n : Int) : Float := if n < 0 then -nearest n.natAbs 1 else nearest n.natAbs 1

/-- The float `± mantissa * 2 ^ exponent`, exact whenever there is one. -/
def encode (negative : Bool) (mantissa : Nat) (exponent : Int) : Float :=
  let magnitude := Float.scaleB (Float.ofNat mantissa) exponent
  if negative then -magnitude else magnitude

/-- The remainder of `x / y` rounded toward zero; it has the sign of `x`. -/
def remainder (x y : Float) : Float :=
  match decode x, decode y with
  | finite nx mx ex, finite _ my ey =>
    if my = 0 then notANumber
    else
      let e := min ex ey
      let m := (mx * Nat.pow 2 (ex - e).toNat) % (my * Nat.pow 2 (ey - e).toNat)
      encode nx m e
  | finite .., infinite _ => x
  | _, _ => notANumber

end Binary64

end ScriptLang.Decimal
