import ScriptLang.Syntax.Tree

/-!
# Counting identities from elsewhere

The identities of nodes are counted while a source is read, so a piece of it that is read behind others
gets higher ones than by itself.  `renumber m` adds `m` to every identity and changes nothing else.
-/

namespace ScriptLang.Syntax

/-- What has identities. -/
class Numbered (α : Type) where
  renumber : Nat → α → α

export Numbered (renumber)

instance : Numbered Node where
  renumber m n := { n with id := n.id + m }

instance {α : Type} [Numbered α] : Numbered (Option α) where
  renumber m := Option.map (renumber m)

instance {α : Type} [Numbered α] : Numbered (List α) where
  renumber m := List.map (renumber m)

variable (m : Nat)

/-! ### Expressions -/

mutual

def Expr.renumbered : Expr → Expr
  | .integer n value suffix => .integer (renumber m n) value suffix
  | .decimal n x => .decimal (renumber m n) x
  | .string n s => .string (renumber m n) s
  | .bool n b => .bool (renumber m n) b
  | .name n x => .name (renumber m n) x
  | .unary n op e => .unary (renumber m n) op e.renumbered
  | .binary n op l r => .binary (renumber m n) op l.renumbered r.renumbered
  | .cast n e t => .cast (renumber m n) e.renumbered t
  | .ternary n c a b => .ternary (renumber m n) c.renumbered a.renumbered b.renumbered
  | .call n callee args => .call (renumber m n) callee (Expr.allRenumbered args)

def Expr.allRenumbered : List Expr → List Expr
  | [] => []
  | e :: es => e.renumbered :: Expr.allRenumbered es

end

instance : Numbered Expr where
  renumber := Expr.renumbered

theorem Expr.allRenumbered_eq (es : List Expr) : Expr.allRenumbered m es = renumber m es := by
  induction es with
  | nil => rfl
  | cons e es ih =>
    rw [Expr.allRenumbered, ih]
    rfl

/-! ### Statements -/

instance : Numbered VarDecl where
  renumber m d := { d with node := renumber m d.node, init := renumber m d.init }

mutual

def Stmt.renumbered : Stmt → Stmt
  | .block n body => .block (renumber m n) body.renumbered
  | .var n decl => .var (renumber m n) (renumber m decl)
  | .assign n target op value => .assign (renumber m n) target op (renumber m value)
  | .expr n e => .expr (renumber m n) (renumber m e)
  | .cond n branches => .cond (renumber m n) branches.renumbered
  | .while n c body => .while (renumber m n) (renumber m c) body.renumbered
  | .loop n body => .loop (renumber m n) body.renumbered
  | .for n v start stop body =>
    .for (renumber m n) v (renumber m start) (renumber m stop) body.renumbered
  | .ret n value => .ret (renumber m n) (renumber m value)
  | .break n => .break (renumber m n)
  | .continue n => .continue (renumber m n)

def Block.renumbered : Block → Block
  | .mk n stmts => .mk (renumber m n) (Stmt.allRenumbered stmts)

def Branches.renumbered : Branches → Branches
  | .none => .none
  | .otherwise body => .otherwise body.renumbered
  | .branch c body rest => .branch (renumber m c) body.renumbered rest.renumbered

def Stmt.allRenumbered : List Stmt → List Stmt
  | [] => []
  | s :: ss => s.renumbered :: Stmt.allRenumbered ss

end

instance : Numbered Stmt where
  renumber := Stmt.renumbered

instance : Numbered Block where
  renumber := Block.renumbered

instance : Numbered Branches where
  renumber := Branches.renumbered

theorem Stmt.allRenumbered_eq (ss : List Stmt) : Stmt.allRenumbered m ss = renumber m ss := by
  induction ss with
  | nil => rfl
  | cons s ss ih =>
    rw [Stmt.allRenumbered, ih]
    rfl

/-! ### Items -/

instance : Numbered FunctionBody where
  renumber m
    | .block body => .block (renumber m body)
    | .native symbol => .native symbol
    | .intrinsic name => .intrinsic name

instance : Numbered Function where
  renumber m f := { f with body := renumber m f.body }

instance : Numbered ItemKind where
  renumber m
    | .function f => .function (renumber m f)
    | .variable decl => .variable (renumber m decl)
    | .imported name => .imported name

instance : Numbered Item where
  renumber m i := ⟨renumber m i.node, renumber m i.kind⟩

end ScriptLang.Syntax
