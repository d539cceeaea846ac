import ScriptLang.Syntax.Program

/-!
# Moving places

Tokens, trees and errors tell where in which source they stand.  `relocate f` puts every such place
where `f` says and changes nothing else.
-/

namespace ScriptLang

/-- What tells of places in sources. -/
class Placed (α : Type) where
  relocate : (Location → Location) → α → α

export Placed (relocate)

/-- The same place in another source. -/
def Location.inFile (file : String) (l : Location) : Location := { l with file }

instance : Placed Location where
  relocate f l := f l

instance : Placed Token where
  relocate f t := { t with location := f t.location }

instance {α : Type} [Placed α] : Placed (Option α) where
  relocate f := Option.map (relocate f)

instance {α : Type} [Placed α] : Placed (List α) where
  relocate f := List.map (relocate f)

instance {α β : Type} [Placed α] [Placed β] : Placed (α × β) where
  relocate f p := (relocate f p.1, relocate f p.2)

instance : Placed LexError where
  relocate f
    | .unexpected expected found l width => .unexpected expected found (f l) width
    | .invalidToken text l width => .invalidToken text (f l) width
    | .directive message l width => .directive message (f l) width
    | .includeNotFound name l => .includeNotFound name (f l)
    | .includeCycle name l => .includeCycle name (f l)
    | .includeTooDeep name limit l => .includeTooDeep name limit (f l)

/-- The name of a source and the place it is asked for at. -/
instance : Placed (String × Location) where
  relocate f p := (p.1, f p.2)

@[simp] theorem relocate_none {α : Type} [Placed α] (f : Location → Location) :
    relocate f (none : Option α) = none := rfl

@[simp] theorem relocate_nil {α : Type} [Placed α] (f : Location → Location) :
    relocate f ([] : List α) = [] := rfl

@[simp] theorem relocate_cons {α : Type} [Placed α] (f : Location → Location) (a : α)
    (as : List α) : relocate f (a :: as) = relocate f a :: relocate f as := rfl

@[simp] theorem relocate_append {α : Type} [Placed α] (f : Location → Location) (as bs : List α) :
    relocate f (as ++ bs) = relocate f as ++ relocate f bs := List.map_append

/-! ### Tokens -/

namespace Token

variable (f : Location → Location) (t : Token)

@[simp] theorem relocate_kind : (relocate f t).kind = t.kind := rfl

@[simp] theorem relocate_text : (relocate f t).text = t.text := rfl

@[simp] theorem relocate_terminated : (relocate f t).terminated = t.terminated := rfl

@[simp] theorem relocate_isSymbol (c : Char) : (relocate f t).isSymbol c = t.isSymbol c := rfl

@[simp] theorem relocate_isWord (k : Keyword) : (relocate f t).isWord k = t.isWord k := rfl

@[simp] theorem relocate_isEndOfFile : (relocate f t).isEndOfFile = t.isEndOfFile := rfl

end Token

namespace Syntax

variable (f : Location → Location)

/-! ### Trees -/

instance : Placed Node where
  relocate f n := { n with token := relocate f n.token }

instance : Placed Ident where
  relocate f n := { n with token := relocate f n.token }

instance : Placed TypeName where
  relocate f n := { n with token := relocate f n.token }

mutual

def Expr.relocated : Expr → Expr
  | .integer n value suffix => .integer (relocate f n) value (relocate f suffix)
  | .decimal n x => .decimal (relocate f n) x
  | .string n s => .string (relocate f n) s
  | .bool n b => .bool (relocate f n) b
  | .name n x => .name (relocate f n) x
  | .unary n op e => .unary (relocate f n) op e.relocated
  | .binary n op l r => .binary (relocate f n) op l.relocated r.relocated
  | .cast n e t => .cast (relocate f n) e.relocated (relocate f t)
  | .ternary n c a b => .ternary (relocate f n) c.relocated a.relocated b.relocated
  | .call n callee args => .call (relocate f n) (relocate f callee) (Expr.allRelocated args)

def Expr.allRelocated : List Expr → List Expr
  | [] => []
  | e :: es => e.relocated :: Expr.allRelocated es

end

instance : Placed Expr where
  relocate f := Expr.relocated f

theorem Expr.allRelocated_eq (es : List Expr) : Expr.allRelocated f es = relocate f es := by
  induction es with
  | nil => rfl
  | cons e es ih =>
    rw [Expr.allRelocated, ih]
    rfl

instance : Placed VarDecl where
  relocate f d :=
    { d with
      node := relocate f d.node, name := relocate f d.name, type := relocate f d.type
      init := relocate f d.init }

mutual

def Stmt.relocated : Stmt → Stmt
  | .block n body => .block (relocate f n) body.relocated
  | .var n decl => .var (relocate f n) (relocate f decl)
  | .assign n target op value => .assign (relocate f n) (relocate f target) op (relocate f value)
  | .expr n e => .expr (relocate f n) (relocate f e)
  | .cond n branches => .cond (relocate f n) branches.relocated
  | .while n c body => .while (relocate f n) (relocate f c) body.relocated
  | .loop n body => .loop (relocate f n) body.relocated
  | .for n v start stop body =>
    .for (relocate f n) (relocate f v) (relocate f start) (relocate f stop) body.relocated
  | .ret n value => .ret (relocate f n) (relocate f value)
  | .break n => .break (relocate f n)
  | .continue n => .continue (relocate f n)

def Block.relocated : Block → Block
  | .mk n stmts => .mk (relocate f n) (Stmt.allRelocated stmts)

def Branches.relocated : Branches → Branches
  | .none => .none
  | .otherwise body => .otherwise body.relocated
  | .branch c body rest => .branch (relocate f c) body.relocated rest.relocated

def Stmt.allRelocated : List Stmt → List Stmt
  | [] => []
  | s :: ss => s.relocated :: Stmt.allRelocated ss

end

instance : Placed Stmt where
  relocate f := Stmt.relocated f

instance : Placed Block where
  relocate f := Block.relocated f

instance : Placed Branches where
  relocate f := Branches.relocated f

theorem Stmt.allRelocated_eq (ss : List Stmt) : Stmt.allRelocated f ss = relocate f ss := by
  induction ss with
  | nil => rfl
  | cons s ss ih =>
    rw [Stmt.allRelocated, ih]
    rfl

instance : Placed Param where
  relocate f p := ⟨relocate f p.name, relocate f p.type⟩

instance : Placed FunctionBody where
  relocate f
    | .block body => .block (relocate f body)
    | .native symbol => .native symbol
    | .intrinsic name => .intrinsic name

instance : Placed Function where
  relocate f g :=
    ⟨relocate f g.name, relocate f g.params, relocate f g.ret, relocate f g.body⟩

instance : Placed ItemKind where
  relocate f
    | .function g => .function (relocate f g)
    | .variable decl => .variable (relocate f decl)
    | .imported name => .imported name

instance : Placed Item where
  relocate f i := ⟨relocate f i.node, relocate f i.kind⟩

/-! ### Errors -/

instance : Placed ParseError where
  relocate f
    | .expected expected found l width => .expected expected found (f l) width
    | .invalidLiteral text reason l width => .invalidLiteral text reason (f l) width
    | .notCallable l width => .notCallable (f l) width
    | .tooDeep limit l width => .tooDeep limit (f l) width
    | .importNotFound name l => .importNotFound name (f l)
    | .unreadable path message => .unreadable path message
    | .lex e => .lex (relocate f e)

theorem ParseError.relocate_id (e : ParseError) : relocate id e = e := by
  cases e with
  | lex e => cases e <;> rfl
  | _ => rfl

theorem ParseError.relocate_ofLex (e : LexError) :
    ParseError.ofLex (relocate f e) = relocate f (ParseError.ofLex e) := by
  cases e <;> rfl

/-- Whether the error is one of the parser's own. -/
def ParseError.IsSyntactic : ParseError → Prop
  | .expected .. | .invalidLiteral .. | .notCallable .. | .tooDeep .. => True
  | .importNotFound .. | .unreadable .. | .lex _ => False

/-! ### Sources -/

/-- A source under another name. -/
def Module.inFile (file : String) (m : Module) : Module :=
  ⟨file, relocate (Location.inFile file) m.items⟩

/-- What parsing one source gives, as if the source had another name. -/
def ParseOutcome.inFile (file : String) (o : ParseOutcome) : ParseOutcome :=
  ⟨⟨o.program.modules.map (Module.inFile file)⟩, relocate (Location.inFile file) o.errors,
    o.remarks⟩

end Syntax

end ScriptLang
