import ScriptLang.Native.Bridge

/-!
# The libraries of the platform

The functions that programs find without loading anything, and the mathematical functions of the
library `libm.so.6`.  A library of any other name cannot be loaded.
-/

namespace ScriptLang.Native

namespace Symbol

/-- A function of one word. -/
def ofWord (f : BitVec 64 → BitVec 64) : Symbol
  | .words (.bits b :: _) => { word := f b }
  | _ => {}

/-- A function of one text. -/
def ofText (f : String → BitVec 64) : Symbol
  | .words (.text s :: _) => { word := f s }
  | _ => {}

/-- A function of one float. -/
def ofFloat (f : Float → Float) : Symbol
  | .floats (x :: _) => { float := f x }
  | _ => {}

/-- A function of two floats. -/
def ofFloats (f : Float → Float → Float) : Symbol
  | .floats (x :: y :: _) => { float := f x y }
  | _ => {}

end Symbol

/-- A function of 32 bits, which leaves the upper half of its result empty. -/
def onHalf (f : BitVec 32 → BitVec 32) (b : BitVec 64) : BitVec 64 :=
  (f (b.setWidth 32)).setWidth 64

/-- The value without its sign; the least value, which has no opposite, stays. -/
def magnitude {w : Nat} (b : BitVec w) : BitVec w := if b.toInt < 0 then -b else b

/-- The letter case tables: code points from `first` to `last` are moved by `shift`.  Negative
numbers stand for the upper half of the bytes, except for -1. -/
def mapCase (first last : Nat) (shift : Int) (b : BitVec 32) : BitVec 32 :=
  let c := b.toInt
  if (first : Int) ≤ c ∧ c ≤ last then BitVec.ofInt 32 (c + shift)
  else if -128 ≤ c ∧ c < -1 then BitVec.ofInt 32 (c + 256)
  else b

/-- Hold an integer to the range of 64 bits. -/
def clamp (n : Int) : Int := max Int64.minValue.toInt (min n Int64.maxValue.toInt)

/-- Blanks before a number. -/
def isNumberBlank (c : Char) : Bool := c == ' ' || ('\t' ≤ c && c ≤ '\x0d')

/-- The integer that a text begins with, behind blanks and a sign; zero if there is none. -/
def leadingInteger (s : String) : Int :=
  let digits (cs : List Char) : Nat :=
    (cs.takeWhile Char.isDigit).foldl (fun n c => n * 10 + (c.toNat - '0'.toNat)) 0
  match s.toList.dropWhile isNumberBlank with
  | '-' :: cs => -(digits cs : Int)
  | '+' :: cs => digits cs
  | cs => digits cs

/-- The image of a table of functions. -/
def imageOf (table : List (String × Symbol)) : Image := fun name =>
  match table.lookup name with
  | some s => .ok s
  | none => .error (.symbolNotFound name)

/-- The functions that every program can find. -/
def standardFunctions : List (String × Symbol) :=
  [("labs", .ofWord magnitude),
   ("abs", .ofWord (onHalf magnitude)),
   ("strlen", .ofText fun s => BitVec.ofNat 64 s.utf8ByteSize),
   ("atoi", .ofText fun s => BitVec.ofInt 64 (clamp (leadingInteger s))),
   ("toupper", .ofWord (onHalf (mapCase 'a'.toNat 'z'.toNat (-32)))),
   ("tolower", .ofWord (onHalf (mapCase 'A'.toNat 'Z'.toNat 32)))]

/-- The functions of the mathematical library. -/
def mathFunctions : List (String × Symbol) :=
  [("sqrt", .ofFloat Float.sqrt),
   ("floor", .ofFloat Float.floor),
   ("fmod", .ofFloats Decimal.Binary64.remainder)]

/-- The libraries that can be loaded by name. -/
def installed : List (String × List (String × Symbol)) :=
  [("libc.so.6", standardFunctions), ("libm.so.6", mathFunctions)]

/-- Why a library that is not there cannot be loaded. -/
def absentReason (path : String) : String :=
  path ++ ": cannot open shared object file: No such file or directory"

/-- The libraries of the platform. -/
def Loader.platform : Loader where
  load path :=
    match installed.lookup path with
    | some table => .ok (imageOf table)
    | none => .error (.imageNotFound path (absentReason path))
  process := some (imageOf standardFunctions)
  candidates := platformNames

/-- The bridge that a program starts with. -/
def Bridge.platform : Bridge := (Bridge.loadProcess { loader := Loader.platform }).2

end ScriptLang.Native
