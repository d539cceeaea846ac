import ScriptLang.Diagram.Tree
import ScriptLang.Syntax.Tree

/-!
# Diagrams of syntax trees

The label of a node names its kind and what is written there; a node that plays a role under its
parent, such as a condition, says so first.
-/

namespace ScriptLang.Syntax

open Diagram (roleLabel leaf)

/-- A label with the type that may be written behind it. -/
def typedLabel (label : String) (type : Option TypeName) : String :=
  match type with
  | some t => label ++ ": " ++ t.name
  | none => label

mutual

def Expr.diagram (role : String) : Expr → Diagram
  | .integer _ value suffix =>
    leaf (roleLabel role ("integer " ++ toString value ++ suffix.elim "" TypeName.name))
  | .decimal _ x => leaf (roleLabel role ("decimal " ++ Decimal.Layout.plain.text x))
  | .string _ s => leaf (roleLabel role ("string " ++ Text.quoted s))
  | .bool _ b => leaf (roleLabel role ("bool " ++ if b then "true" else "false"))
  | .name _ n => leaf (roleLabel role ("identifier " ++ n))
  | .unary _ op e => .node (roleLabel role ("unary " ++ op.symbol)) [e.diagram "operand"]
  | .binary _ op l r =>
    .node (roleLabel role ("binary " ++ op.symbol)) [l.diagram "lhs", r.diagram "rhs"]
  | .cast _ e t => .node (roleLabel role ("cast " ++ t.name)) [e.diagram "operand"]
  | .ternary _ c a b =>
    .node (roleLabel role "ternary") [c.diagram "condition", a.diagram "then", b.diagram "else"]
  | .call _ callee args =>
    .node (roleLabel role ("call " ++ callee.name)) (Expr.argDiagrams args)

def Expr.argDiagrams : List Expr → List Diagram
  | [] => []
  | e :: es => e.diagram "arg" :: Expr.argDiagrams es

end

def VarDecl.diagram (d : VarDecl) : Diagram :=
  let keyword := if d.isConst then "const " else "var "
  .node (typedLabel (keyword ++ d.name.name) d.type) (d.init.toList.map (Expr.diagram "init"))

mutual

def Stmt.diagram : Stmt → Diagram
  | .block _ b => b.diagram ""
  | .var _ d => d.diagram
  | .assign _ target op value =>
    let sign := op.elim "" fun o => " " ++ o.symbol ++ "="
    .node ("assign " ++ target.name ++ sign) [value.diagram "value"]
  | .expr _ e => .node "expression" [e.diagram ""]
  | .cond _ branches => .node "if" branches.diagrams
  | .while _ cond body => .node "while" [cond.diagram "condition", body.diagram "body"]
  | .loop _ body => .node "loop" [body.diagram "body"]
  | .for _ var start stop body =>
    .node ("for " ++ var.name) [start.diagram "start", stop.diagram "end", body.diagram "body"]
  | .ret _ value => .node "return" (value.toList.map (Expr.diagram "value"))
  | .break _ => leaf "break"
  | .continue _ => leaf "continue"

def Block.diagram (role : String) : Block → Diagram
  | .mk _ stmts => .node (roleLabel role "block") (Stmt.diagrams stmts)

def Stmt.diagrams : List Stmt → List Diagram
  | [] => []
  | s :: ss => s.diagram :: Stmt.diagrams ss

def Branches.diagrams : Branches → List Diagram
  | .none => []
  | .otherwise body => [body.diagram "else"]
  | .branch cond body rest => cond.diagram "condition" :: body.diagram "then" :: rest.diagrams

end

def Param.diagram (p : Param) : Diagram :=
  leaf ("param " ++ p.name.name ++ ": " ++ p.type.name)

def FunctionBody.diagram : FunctionBody → Diagram
  | .block b => b.diagram ""
  | .native symbol => leaf ("native " ++ symbol)
  | .intrinsic name => leaf ("intrinsic " ++ name)

def Function.diagram (f : Function) : Diagram :=
  .node (typedLabel ("function " ++ f.name.name) f.ret) (f.params.map Param.diagram ++ [f.body.diagram])

def Item.diagram (i : Item) : Diagram :=
  match i.kind with
  | .function f => f.diagram
  | .variable d => d.diagram
  | .imported name => leaf ("import " ++ name)

def Module.diagram (m : Module) : Diagram :=
  .node ("module " ++ m.name) (m.items.map Item.diagram)

/-- The syntax tree of a program known under a name. -/
def Program.diagram (name : String) (p : Program) : Diagram :=
  .node ("program " ++ name) (p.modules.map Module.diagram)

/-- The syntax tree in the dot language. -/
def Program.dot (name : String) (p : Program) : String := (p.diagram name).dot name 's'

end ScriptLang.Syntax
