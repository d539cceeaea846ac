import ScriptLang.Decimal.Shortest

/-!
# Writing floats

`Layout.text` writes a float with the digits of `Shortest`.  The two layouts of this library are
`plain`, which never uses an exponent and drops the fraction of a whole number, and `source`, which
keeps `.0` on whole numbers and writes an exponent for very large and very small ones.
-/

namespace ScriptLang.Decimal

/-- The decisions of a float format. -/
structure Layout where
  /-- Whether a whole number ends in `.0`. -/
  wholeFraction : Bool
  /-- The numbers `0.d… * 10 ^ e` with `e` in this closed range are written without an exponent; none
  means all. -/
  positional : Option (Int × Int)

namespace Layout

/-- The layout of values in messages and output: digits only, no exponent. -/
def plain : Layout := ⟨false, none⟩

/-- The layout of literals in printed syntax: `1.0`, `1e16`, `1e-5`. -/
def source : Layout := ⟨true, some (-3, 16)⟩

def zeros (n : Nat) : String := "".pushn '0' n

/-- Digits without an exponent. -/
def positionalText (l : Layout) (s : Shortest) : String :=
  let digits := toString s.digits
  let n : Int := digits.length
  if s.exponent ≤ 0 then "0." ++ zeros (-s.exponent).toNat ++ digits
  else if n ≤ s.exponent then
    digits ++ zeros (s.exponent - n).toNat ++ (if l.wholeFraction then ".0" else "")
  else
    let cs := digits.toList
    String.ofList (cs.take s.exponent.toNat) ++ "." ++ String.ofList (cs.drop s.exponent.toNat)

/-- Digits with one place before the point, and an exponent. -/
def exponentText (s : Shortest) : String :=
  let mantissa := match (toString s.digits).toList with
    | [] => ""
    | [d] => String.singleton d
    | d :: ds => String.singleton d ++ "." ++ String.ofList ds
  mantissa ++ "e" ++ toString (s.exponent - 1)

def magnitudeText (l : Layout) (m : Nat) (q : Int) : String :=
  if m = 0 then (if l.wholeFraction then "0.0" else "0")
  else
    let s := Shortest.ofParts m q
    match l.positional with
    | none => l.positionalText s
    | some (low, high) =>
      if low ≤ s.exponent ∧ s.exponent ≤ high then l.positionalText s else exponentText s

/-- The text of a float. -/
def text (l : Layout) (x : Float) : String :=
  match Binary64.decode x with
  | .nan => "NaN"
  | .infinite negative => if negative then "-inf" else "inf"
  | .finite negative m q => (if negative then "-" else "") ++ l.magnitudeText m q

end Layout

end ScriptLang.Decimal
