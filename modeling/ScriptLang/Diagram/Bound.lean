import ScriptLang.Diagram.Tree
import ScriptLang.Bound.Tree

/-!
# Diagrams of bound trees

As the diagrams of syntax trees, with the type of every expression, and with the names that slots,
globals and functions were declared under; a number that was declared nowhere is shown as itself.
-/

namespace ScriptLang.Bound

open Diagram (roleLabel leaf)

/-- The declarations that numbers in a tree refer to. -/
structure Names where
  locals : List LocalSlot
  globals : List Global
  functions : List Function

namespace Names

/-- The name under a number in a list of names. -/
def nameAt (names : List String) (index : Nat) : String :=
  names[index]?.getD ("#" ++ toString index)

def slot (n : Names) (slot : Nat) : String := nameAt (n.locals.map LocalSlot.name) slot

def binding (n : Names) : Binding → String
  | .local slot => n.slot slot
  | .global id => nameAt (n.globals.map Global.name) id

def function (n : Names) (id : Nat) : String := nameAt (n.functions.map Function.name) id

end Names

/-- The label of an expression. -/
def exprLabel (role what : String) (i : Info) : String := roleLabel role (what ++ ": " ++ i.ty.name)

mutual

def Expr.diagram (n : Names) (role : String) : Expr → Diagram
  | .literal i v => leaf (exprLabel role ("literal " ++ v.text) i)
  | .variable i b => leaf (exprLabel role ("variable " ++ n.binding b) i)
  | .unary i op e => .node (exprLabel role ("unary " ++ op.symbol) i) [e.diagram n "operand"]
  | .binary i op l r =>
    .node (exprLabel role ("binary " ++ op.symbol) i) [l.diagram n "lhs", r.diagram n "rhs"]
  | .cast i e => .node (exprLabel role "cast" i) [e.diagram n "operand"]
  | .ternary i c a b =>
    .node (exprLabel role "ternary" i)
      [c.diagram n "condition", a.diagram n "then", b.diagram n "else"]
  | .call i f args => .node (exprLabel role ("call " ++ n.function f) i) (Expr.argDiagrams n args)

def Expr.argDiagrams (n : Names) : List Expr → List Diagram
  | [] => []
  | e :: es => e.diagram n "arg" :: Expr.argDiagrams n es

end

mutual

def Stmt.diagram (n : Names) : Stmt → Diagram
  | .block _ body => .node "block" (Stmt.diagrams n body)
  | .assign _ target value => .node ("assign " ++ n.binding target) [value.diagram n "value"]
  | .expr _ e => .node "expression" [e.diagram n ""]
  | .cond _ branches => .node "if" (branches.diagrams n)
  | .while _ cond body =>
    .node "while" [cond.diagram n "condition", .node "body block" (Stmt.diagrams n body)]
  | .loop _ body => .node "loop" [.node "body block" (Stmt.diagrams n body)]
  | .for _ var limit start stop body =>
    .node ("for " ++ n.slot var ++ " until " ++ n.slot limit)
      [start.diagram n "start", stop.diagram n "end", .node "body block" (Stmt.diagrams n body)]
  | .ret _ value => .node "return" (value.toList.map (Expr.diagram n "value"))
  | .break _ => leaf "break"
  | .continue _ => leaf "continue"

def Stmt.diagrams (n : Names) : List Stmt → List Diagram
  | [] => []
  | s :: ss => s.diagram n :: Stmt.diagrams n ss

def Branches.diagrams (n : Names) : Branches → List Diagram
  | .none => []
  | .otherwise body => [.node "else block" (Stmt.diagrams n body)]
  | .branch cond body rest =>
    cond.diagram n "condition" :: .node "then block" (Stmt.diagrams n body) :: rest.diagrams n

end

def Global.diagram (p : Program) (g : Global) : Diagram :=
  let keyword := if g.isConst then "const " else "global "
  .node (keyword ++ g.name ++ ": " ++ g.ty.name)
    (g.init.toList.map (Expr.diagram ⟨[], p.globals, p.functions⟩ "init"))

def Function.diagram (p : Program) (f : Function) : Diagram :=
  let body := match f.body with
    | .block body => .node "block" (Stmt.diagrams ⟨f.locals, p.globals, p.functions⟩ body)
    | .native symbol => leaf ("native " ++ symbol)
    | .intrinsic i => leaf ("intrinsic " ++ i.name)
  .node ("function " ++ f.name ++ ": " ++ f.ret.name) [body]

/-- The bound tree of a program known under a name. -/
def Program.diagram (name : String) (p : Program) : Diagram :=
  .node ("program " ++ name)
    (p.globals.map (Global.diagram p) ++ p.functions.map (Function.diagram p))

/-- The bound tree in the dot language. -/
def Program.dot (name : String) (p : Program) : String := (p.diagram name).dot name 'b'

end ScriptLang.Bound
