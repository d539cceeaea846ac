import ScriptLang.Types
import ScriptLang.Operator
import ScriptLang.Decimal.Layout

/-!
# Values and their arithmetic

A value of an integer type is a bit vector of the type's width.  Arithmetic is done on the integers
that the operands stand for and wraps to the width; shift amounts count modulo the width; `&&` and
`||` are ordinary operators here, on both operands.  Operands of one operator must have one type.
-/

namespace ScriptLang

/-- A value at run time. -/
inductive Value where
  | void
  | bool (b : Bool)
  | int (t : IntType) (bits : BitVec t.bits)
  | float (x : Float)
  | string (s : String)
  | pointer (address : BitVec 64)

instance : Inhabited Value := ⟨.void⟩

/-- Why an operation has no value. -/
inductive ValueError where
  | divisionByZero
  | operandMismatch (symbol : String) (lhs rhs : Ty)
  | invalidCast (source target : Ty)
  | literalOutOfRange (value : Int) (ty : Ty)
deriving DecidableEq, Repr

namespace ValueError

/-- The last word of the error's code. -/
def codeName : ValueError → String
  | divisionByZero => "division_by_zero"
  | operandMismatch .. => "operand_mismatch"
  | invalidCast .. => "invalid_cast"
  | literalOutOfRange .. => "literal_out_of_range"

def message : ValueError → String
  | divisionByZero => "division by zero"
  | operandMismatch symbol lhs rhs =>
    "operator '" ++ symbol ++ "' is not defined for " ++ lhs.name ++ " and " ++ rhs.name
  | invalidCast source target => "cannot cast " ++ source.name ++ " to " ++ target.name
  | literalOutOfRange value ty =>
    "integer literal " ++ toString value ++ " does not fit in " ++ ty.name

end ValueError

namespace IntType

/-- The integer that a bit vector stands for. -/
def toInt (t : IntType) (bits : BitVec t.bits) : Int :=
  if t.signed then bits.toInt else bits.toNat

/-- The bit vector of an integer, its high bits dropped. -/
def ofInt (t : IntType) (n : Int) : BitVec t.bits := BitVec.ofInt t.bits n

end IntType

namespace Value

def type : Value → Ty
  | void => .void
  | bool _ => .bool
  | int t _ => .int t
  | float _ => .float
  | string _ => .string
  | pointer _ => .pointer

/-- The value of an integer type that agrees with `n` on the type's bits. -/
def ofInt (t : IntType) (n : Int) : Value := int t (t.ofInt n)

/-- As `Value.ofInt`; a type that is no integer type counts as `i64`. -/
def wrap (ty : Ty) (n : Int) : Value := ofInt (ty.intType?.getD .i64) n

/-- The value that a variable of the type starts with. -/
def zero : Ty → Value
  | .void => void
  | .bool => bool false
  | .int t => ofInt t 0
  | .float => float 0.0
  | .string => string ""
  | .pointer => pointer 0

/-- The value of an integer literal, refused if it does not fit. -/
def literal (ty : Ty) (n : Int) : Except ValueError Value :=
  if ty.fits n then .ok (wrap ty n) else .error (.literalOutOfRange n ty)

def int? : Value → Option Int
  | int t bits => some (t.toInt bits)
  | _ => none

def float? : Value → Option Float
  | float x => some x
  | _ => none

def bool? : Value → Option Bool
  | bool b => some b
  | _ => none

def string? : Value → Option String
  | string s => some s
  | _ => none

/-- Whether the value counts as true in a condition. -/
def truthy : Value → Bool
  | void => false
  | bool b => b
  | int t bits => t.toInt bits != 0
  | float x => x != 0.0
  | string s => !s.isEmpty
  | pointer address => address != 0

/-- The text that the value prints as. -/
def text : Value → String
  | void => "void"
  | bool b => if b then "true" else "false"
  | int t bits => toString (t.toInt bits)
  | float x => Decimal.Layout.plain.text x
  | string s => s
  | pointer address => "0x" ++ String.ofList (Nat.toDigits 16 address.toNat)

/-! ### Casts -/

/-- The integer that a float becomes: its whole part, held to the range of 64 bits. -/
def truncate (t : IntType) (x : Float) : Int :=
  if t.signed then x.toInt64.toInt else x.toUInt64.toNat

/-- Convert a value to a type. -/
def cast (v : Value) (target : Ty) : Except ValueError Value :=
  if v.type = target then .ok v
  else
    match v, target with
    | v, .string => .ok (string v.text)
    | bool b, .int t => .ok (ofInt t (if b then 1 else 0))
    | bool b, .float => .ok (float (if b then 1.0 else 0.0))
    | float x, .int t => .ok (ofInt t (truncate t x))
    | float x, .bool => .ok (bool (x != 0.0))
    | pointer address, .int t => .ok (ofInt t address.toNat)
    | int s bits, .int t => .ok (ofInt t (s.toInt bits))
    | int s bits, .float => .ok (float (Decimal.Binary64.ofInt (s.toInt bits)))
    | int s bits, .bool => .ok (bool (s.toInt bits != 0))
    | int s bits, .pointer => .ok (pointer (BitVec.ofInt 64 (s.toInt bits)))
    | v, target => .error (.invalidCast v.type target)

/-! ### Operators -/

/-- Apply an operator to one value. -/
def unary (op : UnaryOp) (v : Value) : Except ValueError Value :=
  match op, v with
  | .not, bool b => .ok (bool !b)
  | .neg, float x => .ok (float (-x))
  | .neg, int t bits => .ok (ofInt t (-t.toInt bits))
  | .bitNot, int t bits => .ok (int t (~~~bits))
  | op, v => .error (.operandMismatch op.symbol v.type v.type)

/-- The number of places that a shift by `bits` moves. -/
def shiftAmount (t : IntType) (bits : BitVec t.bits) : Nat := (t.toInt bits % t.bits).toNat

/-- Integer operators; none if the operator is not one. -/
def intBinary (op : BinaryOp) (t : IntType) (a b : BitVec t.bits) :
    Option (Except ValueError Value) :=
  let x := t.toInt a
  let y := t.toInt b
  match op with
  | .add => some (.ok (ofInt t (x + y)))
  | .sub => some (.ok (ofInt t (x - y)))
  | .mul => some (.ok (ofInt t (x * y)))
  | .div => some (if y = 0 then .error .divisionByZero else .ok (ofInt t (x.tdiv y)))
  | .rem => some (if y = 0 then .error .divisionByZero else .ok (ofInt t (x.tmod y)))
  | .bitAnd => some (.ok (int t (a &&& b)))
  | .bitOr => some (.ok (int t (a ||| b)))
  | .bitXor => some (.ok (int t (a ^^^ b)))
  | .shl => some (.ok (ofInt t (x * Nat.pow 2 (shiftAmount t b))))
  | .shr => some (.ok (ofInt t (x / Nat.pow 2 (shiftAmount t b))))
  | .and => none
  | .or => none
  | op => some (.ok (bool (op.holds (compare x y))))

/-- Comparison of floats; a not-a-number differs from everything and is ordered against nothing. -/
def floatHolds (op : BinaryOp) (x y : Float) : Bool :=
  if x < y then op.holds .lt
  else if x == y then op.holds .eq
  else if y < x then op.holds .gt
  else op == .ne

/-- Float operators; none if the operator is not one. -/
def floatBinary (op : BinaryOp) (x y : Float) : Option Value :=
  match op with
  | .add => some (float (x + y))
  | .sub => some (float (x - y))
  | .mul => some (float (x * y))
  | .div => some (float (x / y))
  | .rem => some (float (Decimal.Binary64.remainder x y))
  | op => if op.isComparison then some (bool (floatHolds op x y)) else none

/-- Operators on truth values; none if the operator is not one. -/
def boolBinary (op : BinaryOp) (a b : Bool) : Option Value :=
  match op with
  | .and | .bitAnd => some (bool (a && b))
  | .or | .bitOr => some (bool (a || b))
  | .bitXor => some (bool (a != b))
  | op => if op.isComparison then some (bool (op.holds (compare a b))) else none

/-- String operators; none if the operator is not one.  Strings are ordered by code points. -/
def stringBinary (op : BinaryOp) (a b : String) : Option Value :=
  match op with
  | .add => some (string (a ++ b))
  | op => if op.isComparison then some (bool (op.holds (compare a b))) else none

/-- Pointers can only be told apart. -/
def pointerBinary (op : BinaryOp) (a b : BitVec 64) : Option Value :=
  match op with
  | .eq => some (bool (a == b))
  | .ne => some (bool (a != b))
  | _ => none

/-- Apply an operator to two values of one type. -/
def binary (op : BinaryOp) (a b : Value) : Except ValueError Value :=
  let mismatch := ValueError.operandMismatch op.symbol a.type b.type
  match a, b with
  | int t x, int s y =>
    if h : s = t then (intBinary op t x (h ▸ y)).getD (.error mismatch) else .error mismatch
  | float x, float y => (floatBinary op x y).elim (.error mismatch) .ok
  | bool x, bool y => (boolBinary op x y).elim (.error mismatch) .ok
  | string x, string y => (stringBinary op x y).elim (.error mismatch) .ok
  | pointer x, pointer y => (pointerBinary op x y).elim (.error mismatch) .ok
  | _, _ => .error mismatch

end Value

end ScriptLang
