/-!
# Types of the language

All types are primitive: nothing, truth values, integers of eight kinds, floats, strings and opaque
pointers.  A signature lists the types of a function's parameters and of its result.
-/

namespace ScriptLang

/-- The sizes of integers. -/
inductive Width where
  | w8 | w16 | w32 | w64
deriving DecidableEq, Repr

/-- The size in bits. -/
def Width.bits : Width → Nat
  | w8 => 8
  | w16 => 16
  | w32 => 32
  | w64 => 64

/-- An integer type. -/
structure IntType where
  signed : Bool
  width : Width
deriving DecidableEq, Repr

namespace IntType

/-- The number of bits of the values. -/
def bits (t : IntType) : Nat := t.width.bits

def i8 : IntType := ⟨true, .w8⟩
def i16 : IntType := ⟨true, .w16⟩
def i32 : IntType := ⟨true, .w32⟩
def i64 : IntType := ⟨true, .w64⟩
def u8 : IntType := ⟨false, .w8⟩
def u16 : IntType := ⟨false, .w16⟩
def u32 : IntType := ⟨false, .w32⟩
def u64 : IntType := ⟨false, .w64⟩

/-- The least value. -/
def least (t : IntType) : Int := if t.signed then -(Nat.pow 2 (t.bits - 1) : Int) else 0

/-- The greatest value. -/
def greatest (t : IntType) : Int := (Nat.pow 2 (if t.signed then t.bits - 1 else t.bits) : Int) - 1

/-- Whether an integer is a value of the type. -/
def fits (t : IntType) (n : Int) : Bool := t.least ≤ n && n ≤ t.greatest

/-- The name written in source text. -/
def name : IntType → String
  | ⟨true, .w8⟩ => "i8"
  | ⟨true, .w16⟩ => "i16"
  | ⟨true, .w32⟩ => "i32"
  | ⟨true, .w64⟩ => "i64"
  | ⟨false, .w8⟩ => "u8"
  | ⟨false, .w16⟩ => "u16"
  | ⟨false, .w32⟩ => "u32"
  | ⟨false, .w64⟩ => "u64"

end IntType

/-- A type of the language. -/
inductive Ty where
  | void
  | bool
  | int (t : IntType)
  | float
  | string
  | pointer
deriving DecidableEq, Repr

namespace Ty

/-- The type of an integer literal that names none. -/
def defaultInt : Ty := .int .i32

/-- The type's own name. -/
def name : Ty → String
  | void => "void"
  | bool => "bool"
  | int t => t.name
  | float => "f64"
  | string => "string"
  | pointer => "pointer"

/-- All types. -/
def all : List Ty :=
  [void, bool, int .i8, int .i16, int .i32, int .i64, int .u8, int .u16, int .u32, int .u64,
   float, string, pointer]

/-- The type that a word names; some types have a second name. -/
def ofName? (word : String) : Option Ty :=
  match word with
  | "int" => some (int .i32)
  | "byte" => some (int .u8)
  | "float" => some float
  | _ => all.find? fun t => t.name == word

def intType? : Ty → Option IntType
  | int t => some t
  | _ => none

def isInteger (t : Ty) : Bool := t.intType?.isSome

def isSigned : Ty → Bool
  | int t => t.signed
  | _ => false

def isFloat : Ty → Bool
  | float => true
  | _ => false

def isNumeric (t : Ty) : Bool := t.isInteger || t.isFloat

/-- The number of bits of an integer type. -/
def width? (t : Ty) : Option Nat := t.intType?.map IntType.bits

/-- Whether an integer is a value of this type; false if it is no integer type. -/
def fits : Ty → Int → Bool
  | int t, n => t.fits n
  | _, _ => false

end Ty

/-- The types of a function's parameters and of its result, as its callers see them. -/
structure Signature where
  params : List Ty
  ret : Ty
deriving DecidableEq, Repr

/-- The written form `(i32, string): bool`. -/
def Signature.text (s : Signature) : String :=
  "(" ++ String.intercalate ", " (s.params.map Ty.name) ++ "): " ++ s.ret.name

end ScriptLang
