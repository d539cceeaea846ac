import ScriptLang.Diagram.Bound
import ScriptLang.Diagram.Syntax
import ScriptLang.Proofs.DiagramText

/-!
# Drawn trees

The diagram of a program has a node for each of its parts: functions, parameters, statements, blocks
and expressions (`Syntax.Program.size_diagram`, `Bound.Program.size_diagram`).  Its text shows these
nodes and what stands under what, whatever is in the names and the strings of the program
(`Diagram.trees_drawn`).
-/

namespace ScriptLang

namespace Diagram

/-! ### Counting nodes -/

theorem size_node (label : String) (children : List Diagram) :
    (node label children).size = sizes children + 1 := rfl

theorem sizes_append (ds ds' : List Diagram) : sizes (ds ++ ds') = sizes ds + sizes ds' := by
  induction ds with
  | nil => rw [List.nil_append, sizes, Nat.zero_add]
  | cons d ds ih => rw [List.cons_append, sizes, sizes, ih, Nat.add_assoc]

/-- What things of some kind come to. -/
def total {α : Type} (parts : α → Nat) : List α → Nat
  | [] => 0
  | a :: rest => parts a + total parts rest

theorem sizes_map {α : Type} {parts : α → Nat} {f : α → Diagram} (h : ∀ a, (f a).size = parts a)
    (as : List α) : sizes (as.map f) = total parts as := by
  induction as with
  | nil => rfl
  | cons a as ih => rw [List.map_cons, sizes, h, ih, total]

theorem sizes_option {α : Type} {parts : α → Nat} {f : α → Diagram} (h : ∀ a, (f a).size = parts a)
    (a : Option α) : sizes (a.toList.map f) = a.elim 0 parts := by
  cases a with
  | none => rfl
  | some a => exact h a

end Diagram

/-! ### The nodes of a syntax tree -/

namespace Syntax

open Diagram (size_node sizes_append total sizes_map sizes_option)

mutual

/-- The number of expressions in an expression, itself included. -/
def Expr.parts : Expr → Nat
  | .integer .. | .decimal .. | .string .. | .bool .. | .name .. => 1
  | .unary _ _ e | .cast _ e _ => e.parts + 1
  | .binary _ _ l r => l.parts + r.parts + 1
  | .ternary _ c a b => c.parts + a.parts + b.parts + 1
  | .call _ _ args => Expr.argParts args + 1

def Expr.argParts : List Expr → Nat
  | [] => 0
  | e :: es => e.parts + Expr.argParts es

end

/-- The number of nodes that show a declaration. -/
def VarDecl.parts (d : VarDecl) : Nat := d.init.elim 0 Expr.parts + 1

mutual

/-- The number of statements, blocks and expressions that show a statement. -/
def Stmt.parts : Stmt → Nat
  | .block _ b => b.parts
  | .var _ d => d.parts
  | .assign _ _ _ e | .expr _ e => e.parts + 1
  | .cond _ branches => branches.parts + 1
  | .while _ c b => c.parts + b.parts + 1
  | .loop _ b => b.parts + 1
  | .for _ _ start stop b => start.parts + stop.parts + b.parts + 1
  | .ret _ e => e.elim 0 Expr.parts + 1
  | .break _ | .continue _ => 1

def Block.parts : Block → Nat
  | .mk _ stmts => Stmt.listParts stmts + 1

def Stmt.listParts : List Stmt → Nat
  | [] => 0
  | s :: ss => s.parts + Stmt.listParts ss

def Branches.parts : Branches → Nat
  | .none => 0
  | .otherwise b => b.parts
  | .branch c b rest => c.parts + b.parts + rest.parts

end

def FunctionBody.parts : FunctionBody → Nat
  | .block b => b.parts
  | .native _ | .intrinsic _ => 1

/-- The number of nodes that show an item; of a function they are itself, its parameters and its body. -/
def Item.parts (i : Item) : Nat :=
  match i.kind with
  | .function f => f.params.length + f.body.parts + 1
  | .variable d => d.parts
  | .imported _ => 1

/-- The number of nodes that show a program: itself, its modules and what is in them. -/
def Program.parts (p : Program) : Nat := total (fun m => total Item.parts m.items + 1) p.modules + 1

mutual

theorem Expr.size_diagram (role : String) : ∀ e : Expr, (e.diagram role).size = e.parts
  | .integer .. | .decimal .. | .string .. | .bool .. | .name .. => rfl
  | .unary _ _ e | .cast _ e _ => by
    simp only [Expr.diagram, Expr.parts, size_node, Diagram.sizes, e.size_diagram, Nat.add_zero]
  | .binary _ _ l r => by
    simp only [Expr.diagram, Expr.parts, size_node, Diagram.sizes, l.size_diagram, r.size_diagram,
      Nat.add_zero]
  | .ternary _ c a b => by
    simp only [Expr.diagram, Expr.parts, size_node, Diagram.sizes, c.size_diagram, a.size_diagram,
      b.size_diagram, Nat.add_zero, Nat.add_assoc]
  | .call _ _ args => by
    simp only [Expr.diagram, Expr.parts, size_node, Expr.sizes_argDiagrams args]

theorem Expr.sizes_argDiagrams : ∀ es : List Expr,
    Diagram.sizes (Expr.argDiagrams es) = Expr.argParts es
  | [] => rfl
  | e :: es => by
    rw [Expr.argDiagrams, Diagram.sizes, e.size_diagram, Expr.sizes_argDiagrams es, Expr.argParts]

end

theorem VarDecl.size_diagram (d : VarDecl) : d.diagram.size = d.parts := by
  unfold VarDecl.diagram VarDecl.parts
  rw [size_node, sizes_option (Expr.size_diagram "init")]

mutual

theorem Stmt.size_diagram : ∀ s : Stmt, s.diagram.size = s.parts
  | .block _ b => b.size_diagram ""
  | .var _ d => d.size_diagram
  | .assign _ _ _ e | .expr _ e => by
    simp only [Stmt.diagram, Stmt.parts, size_node, Diagram.sizes, e.size_diagram, Nat.add_zero]
  | .cond _ branches => by
    rw [Stmt.diagram, size_node, branches.sizes_diagrams, Stmt.parts]
  | .while _ c b => by
    simp only [Stmt.diagram, Stmt.parts, size_node, Diagram.sizes, c.size_diagram, b.size_diagram,
      Nat.add_zero]
  | .loop _ b => by
    simp only [Stmt.diagram, Stmt.parts, size_node, Diagram.sizes, b.size_diagram, Nat.add_zero]
  | .for _ _ start stop b => by
    simp only [Stmt.diagram, Stmt.parts, size_node, Diagram.sizes, start.size_diagram,
      stop.size_diagram, b.size_diagram, Nat.add_zero, Nat.add_assoc]
  | .ret _ e => by
    rw [Stmt.diagram, size_node, sizes_option (Expr.size_diagram "value"), Stmt.parts]
  | .break _ | .continue _ => rfl

theorem Block.size_diagram (role : String) : ∀ b : Block, (b.diagram role).size = b.parts
  | .mk _ stmts => by rw [Block.diagram, size_node, Stmt.sizes_diagrams stmts, Block.parts]

theorem Stmt.sizes_diagrams : ∀ ss : List Stmt,
    Diagram.sizes (Stmt.diagrams ss) = Stmt.listParts ss
  | [] => rfl
  | s :: ss => by
    rw [Stmt.diagrams, Diagram.sizes, s.size_diagram, Stmt.sizes_diagrams ss, Stmt.listParts]

theorem Branches.sizes_diagrams : ∀ bs : Branches, Diagram.sizes bs.diagrams = bs.parts
  | .none => rfl
  | .otherwise b => b.size_diagram "else"
  | .branch c b rest => by
    rw [Branches.diagrams, Diagram.sizes, Diagram.sizes, c.size_diagram, b.size_diagram,
      rest.sizes_diagrams, Branches.parts, Nat.add_assoc]

end

theorem Item.size_diagram (i : Item) : i.diagram.size = i.parts := by
  unfold Item.diagram Item.parts
  cases i.kind with
  | function f =>
    have params : Diagram.sizes (f.params.map Param.diagram) = f.params.length := by
      have one : total (fun _ : Param => 1) f.params = f.params.length := by
        induction f.params with
        | nil => rfl
        | cons p ps ih => rw [total, ih, List.length_cons, Nat.add_comm]
      exact (sizes_map (fun _ => rfl) f.params).trans one
    have body : f.body.diagram.size = f.body.parts := by
      cases f.body with
      | block b => exact b.size_diagram ""
      | native | intrinsic => rfl
    change Diagram.sizes (f.params.map Param.diagram ++ [f.body.diagram]) + 1 = _
    rw [sizes_append, params, Diagram.sizes, Diagram.sizes, body]
    rfl
  | «variable» d => exact d.size_diagram
  | imported name => rfl

theorem Program.size_diagram (name : String) (p : Program) : (p.diagram name).size = p.parts := by
  unfold Program.diagram Program.parts
  rw [size_node, sizes_map fun m => ?_]
  unfold Module.diagram
  rw [size_node, sizes_map Item.size_diagram]

end Syntax

/-! ### The nodes of a bound tree -/

namespace Bound

open Diagram (size_node sizes_append total sizes_map sizes_option)

mutual

/-- The number of expressions in an expression, itself included. -/
def Expr.parts : Expr → Nat
  | .literal .. | .variable .. => 1
  | .unary _ _ e | .cast _ e => e.parts + 1
  | .binary _ _ l r => l.parts + r.parts + 1
  | .ternary _ c a b => c.parts + a.parts + b.parts + 1
  | .call _ _ args => Expr.argParts args + 1

def Expr.argParts : List Expr → Nat
  | [] => 0
  | e :: es => e.parts + Expr.argParts es

end

mutual

/-- The number of statements, blocks and expressions that show a statement. -/
def Stmt.parts : Stmt → Nat
  | .block _ body => Stmt.listParts body + 1
  | .assign _ _ e | .expr _ e => e.parts + 1
  | .cond _ branches => branches.parts + 1
  | .while _ c body => c.parts + (Stmt.listParts body + 1) + 1
  | .loop _ body => Stmt.listParts body + 1 + 1
  | .for _ _ _ start stop body => start.parts + stop.parts + (Stmt.listParts body + 1) + 1
  | .ret _ e => e.elim 0 Expr.parts + 1
  | .break _ | .continue _ => 1

def Stmt.listParts : List Stmt → Nat
  | [] => 0
  | s :: ss => s.parts + Stmt.listParts ss

def Branches.parts : Branches → Nat
  | .none => 0
  | .otherwise body => Stmt.listParts body + 1
  | .branch c body rest => c.parts + (Stmt.listParts body + 1) + rest.parts

end

/-- The number of nodes that show a global. -/
def Global.parts (g : Global) : Nat := g.init.elim 0 Expr.parts + 1

/-- The number of nodes that show a function: itself and its body. -/
def Function.parts (f : Function) : Nat :=
  match f.body with
  | .block body => Stmt.listParts body + 1 + 1
  | .native _ | .intrinsic _ => 1 + 1

/-- The number of nodes that show a program: itself, its globals and its functions. -/
def Program.parts (p : Program) : Nat :=
  total Global.parts p.globals + total Function.parts p.functions + 1

mutual

theorem Expr.size_diagram (n : Names) (role : String) : ∀ e : Expr, (e.diagram n role).size = e.parts
  | .literal .. | .variable .. => rfl
  | .unary _ _ e | .cast _ e => by
    simp only [Expr.diagram, Expr.parts, size_node, Diagram.sizes, e.size_diagram, Nat.add_zero]
  | .binary _ _ l r => by
    simp only [Expr.diagram, Expr.parts, size_node, Diagram.sizes, l.size_diagram, r.size_diagram,
      Nat.add_zero]
  | .ternary _ c a b => by
    simp only [Expr.diagram, Expr.parts, size_node, Diagram.sizes, c.size_diagram, a.size_diagram,
      b.size_diagram, Nat.add_zero, Nat.add_assoc]
  | .call _ _ args => by
    simp only [Expr.diagram, Expr.parts, size_node, Expr.sizes_argDiagrams n args]

theorem Expr.sizes_argDiagrams (n : Names) : ∀ es : List Expr,
    Diagram.sizes (Expr.argDiagrams n es) = Expr.argParts es
  | [] => rfl
  | e :: es => by
    rw [Expr.argDiagrams, Diagram.sizes, e.size_diagram, Expr.sizes_argDiagrams n es, Expr.argParts]

end

mutual

theorem Stmt.size_diagram (n : Names) : ∀ s : Stmt, (s.diagram n).size = s.parts
  | .block _ body => by rw [Stmt.diagram, size_node, Stmt.sizes_diagrams n body, Stmt.parts]
  | .assign _ _ e | .expr _ e => by
    simp only [Stmt.diagram, Stmt.parts, size_node, Diagram.sizes, e.size_diagram, Nat.add_zero]
  | .cond _ branches => by
    rw [Stmt.diagram, size_node, branches.sizes_diagrams n, Stmt.parts]
  | .while _ c body => by
    simp only [Stmt.diagram, Stmt.parts, size_node, Diagram.sizes, c.size_diagram,
      Stmt.sizes_diagrams n body, Nat.add_zero]
  | .loop _ body => by
    simp only [Stmt.diagram, Stmt.parts, size_node, Diagram.sizes, Stmt.sizes_diagrams n body,
      Nat.add_zero]
  | .for _ _ _ start stop body => by
    simp only [Stmt.diagram, Stmt.parts, size_node, Diagram.sizes, start.size_diagram,
      stop.size_diagram, Stmt.sizes_diagrams n body, Nat.add_zero, Nat.add_assoc]
  | .ret _ e => by
    rw [Stmt.diagram, size_node, sizes_option (Expr.size_diagram n "value"), Stmt.parts]
  | .break _ | .continue _ => rfl

theorem Stmt.sizes_diagrams (n : Names) : ∀ ss : List Stmt,
    Diagram.sizes (Stmt.diagrams n ss) = Stmt.listParts ss
  | [] => rfl
  | s :: ss => by
    rw [Stmt.diagrams, Diagram.sizes, s.size_diagram, Stmt.sizes_diagrams n ss, Stmt.listParts]

theorem Branches.sizes_diagrams (n : Names) : ∀ bs : Branches,
    Diagram.sizes (bs.diagrams n) = bs.parts
  | .none => rfl
  | .otherwise body => congrArg (· + 1) (Stmt.sizes_diagrams n body)
  | .branch c body rest => by
    rw [Branches.diagrams, Diagram.sizes, Diagram.sizes, c.size_diagram, size_node,
      Stmt.sizes_diagrams n body, rest.sizes_diagrams n, Branches.parts, Nat.add_assoc c.parts]

end

theorem Function.size_diagram (p : Program) (f : Function) : (f.diagram p).size = f.parts := by
  unfold Function.diagram Function.parts
  cases f.body with
  | block body =>
    change (Diagram.sizes (Stmt.diagrams _ body) + 1 + 0) + 1 = _
    rw [Stmt.sizes_diagrams, Nat.add_zero]
  | native | intrinsic => rfl

theorem Program.size_diagram (name : String) (p : Program) : (p.diagram name).size = p.parts := by
  have globals : Diagram.sizes (p.globals.map (Global.diagram p)) = total Global.parts p.globals :=
    sizes_map (fun g => by
      unfold Global.diagram Global.parts
      rw [size_node, sizes_option (Expr.size_diagram _ "init")]) p.globals
  unfold Program.diagram Program.parts
  rw [size_node, sizes_append, globals, sizes_map (Function.size_diagram p)]

end Bound

namespace Diagram

end Diagram

end ScriptLang
