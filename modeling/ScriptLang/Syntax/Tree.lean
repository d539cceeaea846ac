import ScriptLang.Token
import ScriptLang.Operator
import ScriptLang.Decimal.Layout
import ScriptLang.Text.Quoted

/-!
# Syntax trees

What the parser makes of tokens.  Every node keeps the token it began at and an identity that no
other node of the program has.  Types are kept as written.
-/

namespace ScriptLang.Syntax

/-- The identity of a node and the token it is reported at. -/
structure Node where
  id : Nat
  token : Token
deriving Repr

/-- A name as written. -/
structure Ident where
  name : String
  token : Token
deriving Repr

/-- A type as written. -/
structure TypeName where
  name : String
  token : Token
deriving Repr

inductive Expr where
  | integer (node : Node) (value : Int) (suffix : Option TypeName)
  | decimal (node : Node) (value : Float)
  | string (node : Node) (value : String)
  | bool (node : Node) (value : Bool)
  | name (node : Node) (name : String)
  | unary (node : Node) (op : UnaryOp) (operand : Expr)
  | binary (node : Node) (op : BinaryOp) (lhs rhs : Expr)
  | cast (node : Node) (operand : Expr) (type : TypeName)
  | ternary (node : Node) (cond yes no : Expr)
  | call (node : Node) (callee : Ident) (args : List Expr)
deriving Repr

instance : Inhabited Expr := ⟨.bool ⟨0, default⟩ false⟩

def Expr.node : Expr → Node
  | .integer n _ _ | .decimal n _ | .string n _ | .bool n _ | .name n _ | .unary n _ _
  | .binary n _ _ _ | .cast n _ _ | .ternary n _ _ _ | .call n _ _ => n

def Expr.token (e : Expr) : Token := e.node.token

structure VarDecl where
  node : Node
  name : Ident
  type : Option TypeName
  init : Option Expr
  isConst : Bool

mutual

inductive Stmt where
  | block (node : Node) (body : Block)
  | var (node : Node) (decl : VarDecl)
  /-- `x = e`, or `x op= e` with an operator. -/
  | assign (node : Node) (target : Ident) (op : Option BinaryOp) (value : Expr)
  | expr (node : Node) (e : Expr)
  | cond (node : Node) (branches : Branches)
  | while (node : Node) (cond : Expr) (body : Block)
  | loop (node : Node) (body : Block)
  /-- `for v in start..stop`, without the end. -/
  | for (node : Node) (var : Ident) (start stop : Expr) (body : Block)
  | ret (node : Node) (value : Option Expr)
  | break (node : Node)
  | continue (node : Node)

inductive Block where
  | mk (node : Node) (stmts : List Stmt)

/-- The branches of a conditional from some place on. -/
inductive Branches where
  | none
  | otherwise (body : Block)
  | branch (cond : Expr) (body : Block) (rest : Branches)

end

/-- The conditions that are tried in order, each with the block for it. -/
def Branches.toList : Branches → List (Expr × Block)
  | none => []
  | otherwise _ => []
  | branch c b rest => (c, b) :: rest.toList

/-- The block for the case that no condition holds. -/
def Branches.otherwise? : Branches → Option Block
  | none => .none
  | otherwise b => some b
  | branch _ _ rest => rest.otherwise?

def Stmt.node : Stmt → Node
  | .block n _ | .var n _ | .assign n _ _ _ | .expr n _ | .cond n _ | .while n _ _ | .loop n _
  | .for n _ _ _ _ | .ret n _ | .break n | .continue n => n

def Block.node : Block → Node
  | .mk n _ => n

def Block.stmts : Block → List Stmt
  | .mk _ ss => ss

structure Param where
  name : Ident
  type : TypeName

inductive FunctionBody where
  | block (body : Block)
  /-- `-> "symbol";`, a function of a shared library. -/
  | native (symbol : String)
  /-- `=> "name";`, a function of the machine. -/
  | intrinsic (name : String)

structure Function where
  name : Ident
  params : List Param
  ret : Option TypeName
  body : FunctionBody

inductive ItemKind where
  | function (f : Function)
  | variable (decl : VarDecl)
  | imported (name : String)

structure Item where
  node : Node
  kind : ItemKind

/-- One source: the text that parsing began with, or an imported one. -/
structure Module where
  name : String
  items : List Item

structure Program where
  modules : List Module := []

namespace Program

def items (p : Program) : List Item := p.modules.flatMap Module.items

def functions (p : Program) : List Function :=
  p.items.filterMap fun i =>
    match i.kind with
    | .function f => some f
    | _ => none

end Program

/-! ### Printing expressions -/

mutual

/-- The expression in fully bracketed form, operators first. -/
def Expr.text : Expr → String
  | .integer _ value suffix => toString value ++ (suffix.elim "" TypeName.name)
  | .decimal _ x => Decimal.Layout.source.text x
  | .string _ s => Text.quoted s
  | .bool _ b => if b then "true" else "false"
  | .name _ n => n
  | .unary _ op e => "(" ++ op.symbol ++ " " ++ e.text ++ ")"
  | .binary _ op l r => "(" ++ op.symbol ++ " " ++ l.text ++ " " ++ r.text ++ ")"
  | .cast _ e t => "(as " ++ e.text ++ " " ++ t.name ++ ")"
  | .ternary _ c a b => "(? " ++ c.text ++ " " ++ a.text ++ " " ++ b.text ++ ")"
  | .call _ callee args => "(call " ++ callee.name ++ Expr.argsText args ++ ")"

/-- Each argument behind a blank. -/
def Expr.argsText : List Expr → String
  | [] => ""
  | e :: es => " " ++ e.text ++ Expr.argsText es

end

end ScriptLang.Syntax
