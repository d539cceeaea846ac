import ScriptLang.Location
import ScriptLang.Value

/-!
# Bound programs

A program in which every expression has a type and every name is resolved to a local slot of its
function, a global or a function.
-/

namespace ScriptLang.Bound

/-- What a variable's name stands for. -/
inductive Binding where
  | local (slot : Nat)
  | global (id : Nat)
deriving DecidableEq, Repr

/-- The type of an expression and the place it is reported at. -/
structure Info where
  ty : Ty
  location : Location
deriving DecidableEq, Repr

inductive Expr where
  | literal (info : Info) (value : Value)
  | variable (info : Info) (binding : Binding)
  | unary (info : Info) (op : UnaryOp) (operand : Expr)
  | binary (info : Info) (op : BinaryOp) (lhs rhs : Expr)
  /-- Conversion to the expression's own type. -/
  | cast (info : Info) (operand : Expr)
  | ternary (info : Info) (cond yes no : Expr)
  | call (info : Info) (function : Nat) (args : List Expr)

namespace Expr

def info : Expr → Info
  | .literal i _ | .variable i _ | .unary i _ _ | .binary i _ _ _ | .cast i _ | .ternary i _ _ _
  | .call i _ _ => i

def ty (e : Expr) : Ty := e.info.ty

def location (e : Expr) : Location := e.info.location

/-- A literal of the type of its value. -/
def ofValue (v : Value) (location : Location) : Expr := literal ⟨v.type, location⟩ v

end Expr

mutual

inductive Stmt where
  | block (location : Location) (body : List Stmt)
  /-- Declarations and assignments of all kinds. -/
  | assign (location : Location) (target : Binding) (value : Expr)
  | expr (location : Location) (e : Expr)
  | cond (location : Location) (branches : Branches)
  | while (location : Location) (cond : Expr) (body : List Stmt)
  | loop (location : Location) (body : List Stmt)
  /-- Counts the slot `var` from `start` up to, not including, the value that `stop` has when the loop
  begins, which is kept in the slot `limit`. -/
  | for (location : Location) (var limit : Nat) (start stop : Expr) (body : List Stmt)
  | ret (location : Location) (value : Option Expr)
  | break (location : Location)
  | continue (location : Location)

/-- The branches of a conditional from some place on. -/
inductive Branches where
  | none
  | otherwise (body : List Stmt)
  | branch (cond : Expr) (body : List Stmt) (rest : Branches)

end

/-- The conditions that are tried in order, each with the statements for it. -/
def Branches.toList : Branches → List (Expr × List Stmt)
  | none => []
  | otherwise _ => []
  | branch c b rest => (c, b) :: rest.toList

/-- The statements for the case that no condition holds. -/
def Branches.otherwise? : Branches → Option (List Stmt)
  | none => .none
  | otherwise b => some b
  | branch _ _ rest => rest.otherwise?

def Stmt.location : Stmt → Location
  | .block l _ | .assign l _ _ | .expr l _ | .cond l _ | .while l _ _ | .loop l _
  | .for l _ _ _ _ _ | .ret l _ | .break l | .continue l => l

/-- Functions of the machine itself. -/
inductive Intrinsic where
  | print
  | println
deriving DecidableEq, Repr

def Intrinsic.name : Intrinsic → String
  | print => "print"
  | println => "println"

def Intrinsic.ofName? : String → Option Intrinsic
  | "print" => some print
  | "println" => some println
  | _ => none

/-- A local variable of a function. -/
structure LocalSlot where
  name : String
  ty : Ty
deriving DecidableEq, Repr

inductive Body where
  | block (stmts : List Stmt)
  | native (symbol : String)
  | intrinsic (f : Intrinsic)

structure Function where
  name : String
  params : List Ty
  ret : Ty
  /-- The parameters come first. -/
  locals : List LocalSlot
  body : Body
  location : Location

structure Global where
  name : String
  ty : Ty
  isConst : Bool
  init : Option Expr
  location : Location

structure Program where
  globals : List Global := []
  functions : List Function := []

/-- The number and the declaration of the function with a name. -/
def Program.function? (p : Program) (name : String) : Option (Nat × Function) :=
  (p.functions.zipIdx.find? fun f => f.1.name == name).map fun f => (f.2, f.1)

end ScriptLang.Bound
