import ScriptLang.Location
import ScriptLang.Value
import ScriptLang.Text.Quoted

/-!
# Stack code

The operations of the stack machine.  Operands are taken from the right, so that the left operand of
an operator is pushed first.  Jumps go to labels, which are places marked in the code of the same
function.
-/

namespace ScriptLang.Code

/-- The name of a place in the code of one function. -/
abbrev Label := Nat

def labelText (l : Label) : String := "L" ++ toString l

inductive Op where
  | pushConst (value : Value)
  | pushLocal (slot : Nat)
  | popLocal (slot : Nat)
  | pushGlobal (id : Nat)
  | popGlobal (id : Nat)
  | unary (op : UnaryOp)
  | binary (op : BinaryOp)
  /-- Convert the top of the stack to a type. -/
  | cast (ty : Ty)
  /-- Call a function of the program or of the machine. -/
  | call (function : String) (argc : Nat)
  /-- Call a function that is bound to a symbol of a library. -/
  | callNative (function : String) (argc : Nat)
  /-- Leave the function, with the top of the stack as result or without one. -/
  | ret (hasValue : Bool)
  | jump (target : Label)
  | jumpIfFalse (target : Label)
  | jumpIfTrue (target : Label)
  /-- Marks a place and does nothing. -/
  | label (name : Label)
  | pop

instance : Inhabited Op := ⟨.pop⟩

namespace Op

def isLabel : Op → Bool
  | label _ => true
  | _ => false

/-- Whether the operation marks the place `l`. -/
def marks (l : Label) : Op → Bool
  | label m => m == l
  | _ => false

def isReturn : Op → Bool
  | ret _ => true
  | _ => false

/-- The label that the operation may continue at. -/
def target? : Op → Option Label
  | jump l | jumpIfFalse l | jumpIfTrue l => some l
  | _ => none

def mnemonic : Op → String
  | pushConst _ => "push.const"
  | pushLocal _ => "push.local"
  | popLocal _ => "pop.local"
  | pushGlobal _ => "push.global"
  | popGlobal _ => "pop.global"
  | unary _ => "unary"
  | binary _ => "binary"
  | cast _ => "cast"
  | call .. => "call"
  | callNative .. => "call.native"
  | ret _ => "ret"
  | jump _ => "jump"
  | jumpIfFalse _ => "jump.false"
  | jumpIfTrue _ => "jump.true"
  | label _ => "label"
  | pop => "pop"

/-- A constant with its type; strings are quoted. -/
def constText : Value → String
  | .string s => "string " ++ Text.quoted s
  | v => v.type.name ++ " " ++ v.text

/-- The operation as a listing shows it. -/
def text (op : Op) : String :=
  match op with
  | pushConst v => op.mnemonic ++ " " ++ constText v
  | pushLocal n | popLocal n | pushGlobal n | popGlobal n => op.mnemonic ++ " " ++ toString n
  | unary o => op.mnemonic ++ " " ++ o.symbol
  | binary o => op.mnemonic ++ " " ++ o.symbol
  | cast ty => op.mnemonic ++ " " ++ ty.name
  | call f argc | callNative f argc => op.mnemonic ++ " " ++ f ++ "/" ++ toString argc
  | ret true => "ret value"
  | ret false => "ret"
  | jump l | jumpIfFalse l | jumpIfTrue l => op.mnemonic ++ " " ++ labelText l
  | label l => labelText l ++ ":"
  | pop => "pop"

end Op

/-- An operation and the place in the source that it was made for. -/
structure Instruction where
  op : Op
  location : Location

instance : Inhabited Instruction := ⟨⟨.pop, .unknown⟩⟩

end ScriptLang.Code
