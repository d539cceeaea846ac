import ScriptLang.Decimal.Binary64

/-!
# Reading numbers

`readFloat?` reads a decimal fraction with an optional exponent, an infinity or a not-a-number, and
rounds it to the nearest double.  `readNat?` reads digits of a base.
-/

namespace ScriptLang.Decimal

/-- The value of a digit in a base up to sixteen. -/
def digitValue? (base : Nat) (c : Char) : Option Nat :=
  let value :=
    if c.isDigit then some (c.toNat - '0'.toNat)
    else if 'a' ≤ c ∧ c ≤ 'f' then some (c.toNat - 'a'.toNat + 10)
    else if 'A' ≤ c ∧ c ≤ 'F' then some (c.toNat - 'A'.toNat + 10)
    else none
  value.filter (· < base)

/-- The number that digits of a base denote after the number `start` of the digits before them; none
if a character is no digit. -/
def readDigits? (base : Nat) : (start : Nat) → List Char → Option Nat
  | start, [] => some start
  | start, c :: cs =>
    match digitValue? base c with
    | some d => readDigits? base (start * base + d) cs
    | none => none

/-- A natural number written in at least one digit of a base. -/
def readNat? (base : Nat) (cs : List Char) : Option Nat :=
  if cs.isEmpty then none else readDigits? base 0 cs

/-- An integer: an optional sign and at least one decimal digit. -/
def readInt? : List Char → Option Int
  | '-' :: cs => (readNat? 10 cs).map fun n => -(n : Int)
  | '+' :: cs => (readNat? 10 cs).map Int.ofNat
  | cs => (readNat? 10 cs).map Int.ofNat

/-- A natural number of at most some number of bits: an optional plus sign and at least one decimal
digit. -/
def readBits? (bits : Nat) (cs : List Char) : Option Nat :=
  let digits := match cs with
    | '+' :: cs => cs
    | cs => cs
  (readNat? 10 digits).filter (· < Nat.pow 2 bits)

/-- The double nearest to `m * 10 ^ e`.  Exponents beyond the range of doubles are decided without
computing the power. -/
def scaled (m : Nat) (e : Int) : Float :=
  if m = 0 then 0.0
  else if 400 < e then 1.0 / 0.0
  else if e + (Nat.toDigits 10 m).length < -400 then 0.0
  else if 0 ≤ e then Binary64.nearest (m * Nat.pow 10 e.toNat) 1
  else Binary64.nearest m (Nat.pow 10 (-e).toNat)

/-- The exponent that may follow the digits. -/
def readExponent? : List Char → Option Int
  | [] => some 0
  | c :: cs => if c = 'e' ∨ c = 'E' then readInt? cs else none

/-- Digits, an optional fraction and an optional exponent; a digit stands before or after the
point. -/
def readMagnitude? (cs : List Char) : Option Float :=
  let whole := cs.takeWhile Char.isDigit
  let (fraction, rest) := match cs.dropWhile Char.isDigit with
    | '.' :: rest => (rest.takeWhile Char.isDigit, rest.dropWhile Char.isDigit)
    | rest => ([], rest)
  match readNat? 10 (whole ++ fraction), readExponent? rest with
  | some m, some e => some (scaled m (e - fraction.length))
  | _, _ => none

/-- A float in any of its written forms. -/
def readFloat? (cs : List Char) : Option Float :=
  let (negative, cs) := match cs with
    | '-' :: cs => (true, cs)
    | '+' :: cs => (false, cs)
    | cs => (false, cs)
  let word := String.ofList (cs.map Char.toLower)
  let magnitude :=
    if word = "inf" ∨ word = "infinity" then some (1.0 / 0.0)
    else if word = "nan" then some Binary64.notANumber
    else readMagnitude? cs
  magnitude.map fun x => if negative then -x else x

end ScriptLang.Decimal
