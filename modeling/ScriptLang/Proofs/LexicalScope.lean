import ScriptLang.Proofs.ClosedTrees
import Mathlib.Data.List.Forall2

/-!
# Lexical scope

A name stands for the latest declaration of it that can be seen where the name is written, and for
the global of that name if there is none (`Declared.Means`).  A declaration can be seen behind it up
to the end of the block that it is in, so not in its own initial value; the variable of a counted
loop can be seen in the body of the loop only.  `StmtsResolve` relates statements as written and
bound ones by these rules.  Every declaration takes the next slot of the function
(`StmtsResolve.slots`).
-/

namespace ScriptLang.Syntax

def Item.function? (i : Item) : Option Function :=
  match i.kind with
  | .function f => some f
  | _ => none

def Item.declaration? (i : Item) : Option VarDecl :=
  match i.kind with
  | .variable decl => some decl
  | _ => none

end ScriptLang.Syntax

namespace ScriptLang.Bound

open Syntax (Ident TypeName)

/-- What code can refer to: the globals and the functions, by their names in the order of their
numbers, and the slots of its function. -/
structure Declared where
  globals : List String
  functions : List String
  locals : List LocalSlot

/-- The declarations that can be seen from a place, the latest first, each with its slot. -/
abbrev Visible := List (String × Nat)

/-- What a name stands for. -/
inductive Declared.Means (d : Declared) (seen : Visible) (name : String) : Binding → Prop
  | «local» (slot : Nat) (latest : seen.lookup name = some slot) : d.Means seen name (.local slot)
  | «global» (id : Nat) (undeclared : seen.lookup name = none)
      (named : d.globals[id]? = some name) :
    d.Means seen name (.global id)

/-! ### Expressions -/

/-- A number, a text or a truth value as written. -/
def IsLiteral : Syntax.Expr → Prop
  | .integer _ _ _ | .decimal _ _ | .string _ _ | .bool _ _ | .unary _ .neg (.integer _ _ _) => True
  | _ => False

/-- The expression as written is bound to the other by the rules of scope.  Arguments may be
converted. -/
inductive ExprResolves (d : Declared) (seen : Visible) : Syntax.Expr → Expr → Prop
  | literal {e : Syntax.Expr} (written : IsLiteral e) (info : Info) (value : Value) :
    ExprResolves d seen e (.literal info value)
  | name (node : Syntax.Node) {name : String} (info : Info) {b : Binding}
      (means : d.Means seen name b) : ExprResolves d seen (.name node name) (.variable info b)
  | unary (node : Syntax.Node) (op : UnaryOp) (info : Info) {e : Syntax.Expr} {e' : Expr}
      (operand : ExprResolves d seen e e') :
    ExprResolves d seen (.unary node op e) (.unary info op e')
  | binary (node : Syntax.Node) (op : BinaryOp) (info : Info) {l r : Syntax.Expr} {l' r' : Expr}
      (left : ExprResolves d seen l l') (right : ExprResolves d seen r r') :
    ExprResolves d seen (.binary node op l r) (.binary info op l' r')
  | cast (node : Syntax.Node) (type : TypeName) (info : Info) {e : Syntax.Expr} {e' : Expr}
      (operand : ExprResolves d seen e e') :
    ExprResolves d seen (.cast node e type) (.cast info e')
  | ternary (node : Syntax.Node) (info : Info) {c y n : Syntax.Expr} {c' y' n' : Expr}
      (cond : ExprResolves d seen c c') (yes : ExprResolves d seen y y')
      (no : ExprResolves d seen n n') :
    ExprResolves d seen (.ternary node c y n) (.ternary info c' y' n')
  | call (node : Syntax.Node) (info : Info) {callee : Ident} {id : Nat} {args : List Syntax.Expr}
      {args' : List Expr} (called : d.functions[id]? = some callee.name)
      (arguments : List.Forall₂ (ExprResolves d seen) args args') :
    ExprResolves d seen (.call node callee args) (.call info id args')
  | converted (info : Info) {e : Syntax.Expr} {e' : Expr} (value : ExprResolves d seen e e') :
    ExprResolves d seen e (.cast info e')

/-- The type of a declaration is the one that is written with it, and that of its initial value. -/
structure DeclarationResolves (d : Declared) (seen : Visible) (decl : Syntax.VarDecl) (ty : Ty)
    (init : Option Expr) : Prop where
  written : ∀ t, decl.type = some t → Ty.ofName? t.name = some ty
  typed : ∀ e, init = some e → e.ty = ty
  known : decl.type ≠ none ∨ decl.init ≠ none
  value : Option.Rel (ExprResolves d seen) decl.init init

/-! ### Statements -/

/-- A place in the body of a function: the declarations that can be seen, and the next slot. -/
structure Scope where
  seen : Visible
  next : Nat

namespace Scope

def declare (s : Scope) (name : String) : Scope := ⟨(name, s.next) :: s.seen, s.next + 1⟩

/-- The place behind a part that ends at a place inside: its declarations cannot be seen any more,
but their slots are taken. -/
def behind (s inside : Scope) : Scope := ⟨s.seen, inside.next⟩

/-- The place where a body begins; the parameters are declared there. -/
def ofParams (params : List Syntax.Param) : Scope :=
  params.foldl (fun s p => s.declare p.name.name) ⟨[], 0⟩

end Scope

section

variable (d : Declared)

mutual

/-- The statement as written is bound to the other by the rules of scope, from a place on up to
another.  A counted loop declares its limit under a name that no text can spell. -/
inductive StmtResolves : Scope → Syntax.Stmt → Stmt → Scope → Prop
  | block (s : Scope) (node node' : Syntax.Node) (place : Location) {ss : List Syntax.Stmt}
      {bound : List Stmt} {inside : Scope} (body : StmtsResolve s ss bound inside) :
    StmtResolves s (.block node (.mk node' ss)) (.block place bound) (s.behind inside)
  | var (s : Scope) (node : Syntax.Node) (place zeroPlace : Location) {decl : Syntax.VarDecl}
      {ty : Ty} {init : Option Expr} (slot : d.locals[s.next]? = some ⟨decl.name.name, ty⟩)
      (declared : DeclarationResolves d s.seen decl ty init) :
    StmtResolves s (.var node decl)
      (.assign place (.local s.next) (init.getD (.ofValue (.zero ty) zeroPlace)))
      (s.declare decl.name.name)
  | assign (s : Scope) (node : Syntax.Node) (place : Location) {target : Ident} {b : Binding}
      {e : Syntax.Expr} {e' : Expr} (means : d.Means s.seen target.name b)
      (value : ExprResolves d s.seen e e') :
    StmtResolves s (.assign node target none e) (.assign place b e') s
  | assignThrough (s : Scope) (node : Syntax.Node) (place : Location) (op : BinaryOp)
      (info current : Info) {target : Ident} {b : Binding} {e : Syntax.Expr} {e' : Expr}
      (means : d.Means s.seen target.name b) (value : ExprResolves d s.seen e e') :
    StmtResolves s (.assign node target (some op) e)
      (.assign place b (.binary info op (.variable current b) e')) s
  | expr (s : Scope) (node : Syntax.Node) (place : Location) {e : Syntax.Expr} {e' : Expr}
      (value : ExprResolves d s.seen e e') : StmtResolves s (.expr node e) (.expr place e') s
  | cond (s : Scope) (node : Syntax.Node) (place : Location) {bs : Syntax.Branches} {bs' : Branches}
      {s' : Scope} (branches : BranchesResolve s bs bs' s') :
    StmtResolves s (.cond node bs) (.cond place bs') s'
  | while (s : Scope) (node node' : Syntax.Node) (place : Location) {c : Syntax.Expr} {c' : Expr}
      {ss : List Syntax.Stmt} {bound : List Stmt} {inside : Scope}
      (cond : ExprResolves d s.seen c c') (body : StmtsResolve s ss bound inside) :
    StmtResolves s (.while node c (.mk node' ss)) (.while place c' bound) (s.behind inside)
  | loop (s : Scope) (node node' : Syntax.Node) (place : Location) {ss : List Syntax.Stmt}
      {bound : List Stmt} {inside : Scope} (body : StmtsResolve s ss bound inside) :
    StmtResolves s (.loop node (.mk node' ss)) (.loop place bound) (s.behind inside)
  | for (s : Scope) (node node' : Syntax.Node) (place : Location) {var : Ident}
      {start stop : Syntax.Expr} {start' stop' : Expr} {ss : List Syntax.Stmt} {bound : List Stmt}
      {inside : Scope} (first : ExprResolves d s.seen start start')
      (last : ExprResolves d s.seen stop stop') (same : start'.ty = stop'.ty)
      (limit : d.locals[s.next]? = some ⟨"$limit", start'.ty⟩)
      (counter : d.locals[s.next + 1]? = some ⟨var.name, start'.ty⟩)
      (body : StmtsResolve ((s.declare "$limit").declare var.name) ss bound inside) :
    StmtResolves s (.for node var start stop (.mk node' ss))
      (.for place (s.next + 1) s.next start' stop' bound) (s.behind inside)
  | ret (s : Scope) (node : Syntax.Node) (place : Location) {value : Option Syntax.Expr}
      {value' : Option Expr} (returned : Option.Rel (ExprResolves d s.seen) value value') :
    StmtResolves s (.ret node value) (.ret place value') s
  | break (s : Scope) (node : Syntax.Node) (place : Location) :
    StmtResolves s (.break node) (.break place) s
  | continue (s : Scope) (node : Syntax.Node) (place : Location) :
    StmtResolves s (.continue node) (.continue place) s

inductive BranchesResolve : Scope → Syntax.Branches → Branches → Scope → Prop
  | none (s : Scope) : BranchesResolve s .none .none s
  | otherwise (s : Scope) (node : Syntax.Node) {ss : List Syntax.Stmt} {bound : List Stmt}
      {inside : Scope} (body : StmtsResolve s ss bound inside) :
    BranchesResolve s (.otherwise (.mk node ss)) (.otherwise bound) (s.behind inside)
  | branch (s : Scope) (node : Syntax.Node) {c : Syntax.Expr} {c' : Expr} {ss : List Syntax.Stmt}
      {bound : List Stmt} {inside : Scope} {rest : Syntax.Branches} {rest' : Branches} {s' : Scope}
      (cond : ExprResolves d s.seen c c') (body : StmtsResolve s ss bound inside)
      (others : BranchesResolve (s.behind inside) rest rest' s') :
    BranchesResolve s (.branch c (.mk node ss) rest) (.branch c' bound rest') s'

inductive StmtsResolve : Scope → List Syntax.Stmt → List Stmt → Scope → Prop
  | nil (s : Scope) : StmtsResolve s [] [] s
  | cons {s s' s'' : Scope} {stmt : Syntax.Stmt} {stmt' : Stmt} {ss : List Syntax.Stmt}
      {ss' : List Stmt} (first : StmtResolves s stmt stmt' s') (rest : StmtsResolve s' ss ss' s'') :
    StmtsResolve s (stmt :: ss) (stmt' :: ss') s''

end

end

/-! ### Slots -/

mutual

/-- The names that a statement declares, in the order of their slots. -/
def stmtDeclares : Syntax.Stmt → List String
  | .block _ body => blockDeclares body
  | .var _ decl => [decl.name.name]
  | .cond _ branches => branchesDeclare branches
  | .while _ _ body => blockDeclares body
  | .loop _ body => blockDeclares body
  | .for _ var _ _ body => "$limit" :: var.name :: blockDeclares body
  | .assign _ _ _ _ | .expr _ _ | .ret _ _ | .break _ | .continue _ => []

def branchesDeclare : Syntax.Branches → List String
  | .none => []
  | .otherwise body => blockDeclares body
  | .branch _ body rest => blockDeclares body ++ branchesDeclare rest

def blockDeclares : Syntax.Block → List String
  | .mk _ ss => stmtsDeclare ss

def stmtsDeclare : List Syntax.Stmt → List String
  | [] => []
  | s :: ss => stmtDeclares s ++ stmtsDeclare ss

end

/-- The names of the slots from a place on. -/
def Declared.slotsFrom (d : Declared) (s : Scope) : List String :=
  (d.locals.drop s.next).map LocalSlot.name

variable {d : Declared}

theorem Declared.slotsFrom_eq_cons {s : Scope} (s' : Scope) {name : String} {ty : Ty}
    (slot : d.locals[s.next]? = some ⟨name, ty⟩) (next : s'.next = s.next + 1) :
    d.slotsFrom s = name :: d.slotsFrom s' := by
  obtain ⟨there, same⟩ := List.getElem?_eq_some_iff.1 slot
  rw [slotsFrom, slotsFrom, next, List.drop_eq_getElem_cons there, same, List.map_cons]

mutual

theorem StmtResolves.slots : ∀ {stmt : Syntax.Stmt} {s s' : Scope} {bound : Stmt},
    StmtResolves d s stmt bound s' → d.slotsFrom s = stmtDeclares stmt ++ d.slotsFrom s'
  | _, _, _, _, .block _ _ _ _ body => body.slots
  | _, _, _, _, .var _ _ _ _ slot _ => d.slotsFrom_eq_cons _ slot rfl
  | _, _, _, _, .assign .. => rfl
  | _, _, _, _, .assignThrough .. => rfl
  | _, _, _, _, .expr .. => rfl
  | _, _, _, _, .cond _ _ _ branches => branches.slots
  | _, _, _, _, .while _ _ _ _ _ body => body.slots
  | _, _, _, _, .loop _ _ _ _ body => body.slots
  | .for _ var _ _ _, s, _, _, .for _ _ _ _ _ _ _ limit counter body => by
    rw [d.slotsFrom_eq_cons (s.declare "$limit") limit rfl,
      d.slotsFrom_eq_cons ((s.declare "$limit").declare var.name) counter rfl, body.slots]
    rfl
  | _, _, _, _, .ret .. => rfl
  | _, _, _, _, .break .. => rfl
  | _, _, _, _, .continue .. => rfl

theorem BranchesResolve.slots : ∀ {bs : Syntax.Branches} {s s' : Scope} {bound : Branches},
    BranchesResolve d s bs bound s' → d.slotsFrom s = branchesDeclare bs ++ d.slotsFrom s'
  | _, _, _, _, .none _ => rfl
  | _, _, _, _, .otherwise _ _ body => body.slots
  | _, _, _, _, .branch s _ _ body others => by
    rw [branchesDeclare, List.append_assoc, ← others.slots]
    exact body.slots

/-- The declarations take the slots one after the other. -/
theorem StmtsResolve.slots : ∀ {ss : List Syntax.Stmt} {s s' : Scope} {bound : List Stmt},
    StmtsResolve d s ss bound s' → d.slotsFrom s = stmtsDeclare ss ++ d.slotsFrom s'
  | _, _, _, _, .nil _ => rfl
  | _, _, _, _, .cons first rest => by
    rw [stmtsDeclare, List.append_assoc, ← rest.slots]
    exact first.slots

end

/-! ### Programs -/

/-- What the body of a function is bound to; there is a slot for every parameter and, behind those,
for every declaration. -/
inductive BodyResolves (d : Declared) (params : List Syntax.Param) :
    Syntax.FunctionBody → Body → Prop
  | block (node : Syntax.Node) {ss : List Syntax.Stmt} {bound : List Stmt} {s : Scope}
      (stmts : StmtsResolve d (.ofParams params) ss bound s)
      (slots : d.locals.map LocalSlot.name = params.map (fun p => p.name.name) ++ stmtsDeclare ss) :
    BodyResolves d params (.block (.mk node ss)) (.block bound)
  | native (symbol : String) : BodyResolves d params (.native symbol) (.native symbol)
  | intrinsic {name : String} {f : Intrinsic} (known : Intrinsic.ofName? name = some f) :
    BodyResolves d params (.intrinsic name) (.intrinsic f)

/-- A function has the types that are written, and its parameters have the first slots. -/
structure SignatureResolves (f : Syntax.Function) (f' : Function) : Prop where
  name : f'.name = f.name.name
  params : List.Forall₂ (fun p ty => Ty.ofName? p.type.name = some ty) f.params f'.params
  ret : ∀ t, f.ret = some t → Ty.ofName? t.name = some f'.ret
  noRet : f.ret = none → f'.ret = .void
  slots : f.params.zipWith (fun p ty => ⟨p.name.name, ty⟩) f'.params <+: f'.locals

structure FunctionResolves (globals functions : List String) (f : Syntax.Function) (f' : Function) :
    Prop where
  signature : SignatureResolves f f'
  body : BodyResolves ⟨globals, functions, f'.locals⟩ f.params f.body f'.body

/-- Globals are bound in order, and their initial values refer to those before. -/
inductive GlobalsResolve (functions : List String) :
    (earlier : List String) → List Syntax.VarDecl → List Global → Prop
  | nil (earlier : List String) : GlobalsResolve functions earlier [] []
  | cons {earlier : List String} {decl : Syntax.VarDecl} {g : Global} {decls : List Syntax.VarDecl}
      {gs : List Global} (name : g.name = decl.name.name) (isConst : g.isConst = decl.isConst)
      (new : g.name ∉ earlier)
      (value : DeclarationResolves ⟨earlier, functions, []⟩ [] decl g.ty g.init)
      (rest : GlobalsResolve functions (earlier ++ [g.name]) decls gs) :
    GlobalsResolve functions earlier (decl :: decls) (g :: gs)

theorem GlobalsResolve.nodup {functions earlier : List String} {decls : List Syntax.VarDecl}
    {gs : List Global} (h : GlobalsResolve functions earlier decls gs) (names : earlier.Nodup) :
    (earlier ++ gs.map Global.name).Nodup := by
  induction h with
  | nil earlier => rwa [List.map_nil, List.append_nil]
  | @cons earlier decl g decls gs name isConst new value rest ih =>
    have more : (earlier ++ [g.name]).Nodup :=
      List.nodup_append.2 ⟨names, List.pairwise_singleton _ _, fun a ha b hb same => by
        rw [List.mem_singleton.1 hb] at same
        exact new (same ▸ ha)⟩
    have all := ih more
    rwa [List.append_assoc] at all

theorem Scope.ofParams_eq (params : List Syntax.Param) :
    Scope.ofParams params = ⟨(params.map fun p => p.name.name).zipIdx.reverse, params.length⟩ := by
  have declared : ∀ (ps : List Syntax.Param) (s : Scope),
      ps.foldl (fun s p => s.declare p.name.name) s =
        ⟨((ps.map fun p => p.name.name).zipIdx s.next).reverse ++ s.seen, s.next + ps.length⟩ := by
    intro ps
    induction ps with
    | nil => exact fun s => rfl
    | cons p ps ih =>
      intro s
      rw [List.foldl_cons, ih, List.map_cons, List.zipIdx_cons, List.reverse_cons,
        List.append_assoc, List.length_cons, declare, Nat.add_right_comm, Nat.add_assoc]
      rfl
  rw [ofParams, declared, List.append_nil, Nat.zero_add]

theorem map_name_slots {ps : List Syntax.Param} {tys : List Ty} {known : Syntax.Param → Ty → Prop}
    (h : List.Forall₂ known ps tys) :
    (ps.zipWith (fun p ty => (⟨p.name.name, ty⟩ : LocalSlot)) tys).map LocalSlot.name =
      ps.map fun p => p.name.name := by
  induction h with
  | nil => rfl
  | cons _ _ ih => rw [List.zipWith_cons_cons, List.map_cons, List.map_cons, ih]

/-- A body that ends with the last slot has a slot for everything that is declared. -/
theorem SignatureResolves.slots_of_stmts {globals functions : List String} {f : Syntax.Function}
    {f' : Function} (h : SignatureResolves f f') {ss : List Syntax.Stmt} {bound : List Stmt}
    {s : Scope}
    (stmts : StmtsResolve ⟨globals, functions, f'.locals⟩ (.ofParams f.params) ss bound s)
    (all : s.next = f'.locals.length) :
    f'.locals.map LocalSlot.name = f.params.map (fun p => p.name.name) ++ stmtsDeclare ss := by
  obtain ⟨rest, split⟩ := h.slots
  have declared := stmts.slots
  have count : (f.params.zipWith (fun p ty => (⟨p.name.name, ty⟩ : LocalSlot)) f'.params).length =
      f.params.length := by
    rw [List.length_zipWith, ← h.params.length_eq, Nat.min_self]
  rw [Declared.slotsFrom, Declared.slotsFrom, Scope.ofParams_eq, all, List.drop_length,
    List.map_nil, List.append_nil, ← split, List.drop_left' count] at declared
  rw [← split, List.map_append, map_name_slots h.params, declared]

/-- The program is what the other is by the rules of scope.  Functions that are called without a
declaration follow the declared ones. -/
structure Program.Resolves (source : Syntax.Program) (p : Program) : Prop where
  globals : GlobalsResolve (p.functions.map Function.name) []
    (source.items.filterMap Syntax.Item.declaration?) p.globals
  functions : ∃ declared implicit, p.functions = declared ++ implicit ∧
    List.Forall₂ (FunctionResolves (p.globals.map Global.name) (p.functions.map Function.name))
      (source.items.filterMap Syntax.Item.function?) declared ∧
    ∀ f ∈ implicit, ∃ i place, f = implicitFunction i place
  globalNames : (p.globals.map Global.name).Nodup
  functionNames : (p.functions.map Function.name).Nodup
  closed : p.Closed

end ScriptLang.Bound
