import ScriptLang.Bound.Error
import ScriptLang.Bound.Tree
import ScriptLang.Syntax.Tree

/-!
# Resolving names and types

The signatures of all functions come first, so that calls may refer to functions declared later;
then the globals in order, each of which sees those before it; then the bodies of the functions.  An
integer literal without a type takes the integer type that its context expects, and `i32` if there
is none.  A failure inside an expression is the failure of its statement; the other statements are
bound nevertheless.
-/

namespace ScriptLang.Bound

open Syntax (Ident TypeName)

/-! ### Rules of types -/

/-- Whether values of one type can be converted to another. -/
def castable (source target : Ty) : Bool :=
  source == target
    || (target == .string && source != .void)
    || (source.isNumeric && target.isNumeric)
    || (source == .bool && target.isNumeric)
    || (source.isNumeric && target == .bool)
    || (source == .pointer && target.isInteger)
    || (source.isInteger && target == .pointer)

/-- Whether an operator is defined on two values of a type. -/
def operandAllowed (op : BinaryOp) (ty : Ty) : Bool :=
  match op with
  | .add => ty.isNumeric || ty == .string
  | .sub | .mul | .div | .rem => ty.isNumeric
  | .bitAnd | .bitOr | .bitXor => ty.isInteger || ty == .bool
  | .shl | .shr => ty.isInteger
  | .eq | .ne => ty != .void
  | .lt | .le | .gt | .ge => ty.isNumeric || ty == .string || ty == .bool
  | .and | .or => ty == .bool

/-- Whether an operator is defined on a value of a type. -/
def unaryAllowed (op : UnaryOp) (ty : Ty) : Bool :=
  match op with
  | .neg => ty.isSigned || ty.isFloat
  | .not => ty == .bool
  | .bitNot => ty.isInteger

/-- The type of an operator's result on two values of a type. -/
def resultType (op : BinaryOp) (ty : Ty) : Ty := if op.isComparison then .bool else ty

/-- Whether an expression is an integer literal that takes its type from the context. -/
def isUntypedLiteral : Syntax.Expr → Bool
  | .integer _ _ none => true
  | .unary _ .neg e => isUntypedLiteral e
  | _ => false

/-! ### The state -/

/-- A local variable in scope. -/
structure LocalEntry where
  slot : Nat
  isConst : Bool
deriving DecidableEq, Repr

/-- A program bound in part. -/
structure Binder where
  globals : List Global := []
  functions : List Function := []
  errors : List BindError := []
  /-- The scopes of the function being bound, the innermost first, and in each the latest
  declaration first. -/
  scopes : List (List (String × LocalEntry)) := []
  /-- The slots of the function being bound. -/
  locals : List LocalSlot := []
  ret : Ty := .void
  loopDepth : Nat := 0

namespace Binder

/-- The latest declaration of a name in the innermost scope that has one. -/
def local? (b : Binder) (name : String) : Option LocalEntry := b.scopes.findSome? (·.lookup name)

/-- The number and the declaration of a global. -/
def global? (b : Binder) (name : String) : Option (Nat × Global) :=
  (b.globals.zipIdx.find? fun g => g.1.name == name).map fun g => (g.2, g.1)

/-- The number and the declaration of a function. -/
def function? (b : Binder) (name : String) : Option (Nat × Function) :=
  (b.functions.zipIdx.find? fun f => f.1.name == name).map fun f => (f.2, f.1)

def isDefined (b : Binder) (name : String) : Bool :=
  (b.function? name).isSome || (b.global? name).isSome

/-- The type of a slot of the function being bound. -/
def slotType (b : Binder) (slot : Nat) : Ty := (b.locals[slot]?).elim .void LocalSlot.ty

end Binder

/-- Binding of statements, which reports failures. -/
abbrev BindM := StateM Binder

/-- Binding of expressions, which stops at the first failure. -/
abbrev ExprM := ExceptT BindError BindM

def fail {α : Type} (fault : Fault) (location : Location) : ExprM α := throw ⟨fault, location⟩

def report (fault : Fault) (location : Location) : BindM Unit :=
  modify fun b => { b with errors := b.errors ++ [⟨fault, location⟩] }

/-- Report the failure, if it is one. -/
def record {α : Type} (r : Except BindError α) : BindM (Option α) :=
  match r with
  | .ok a => return some a
  | .error e => do
    modify fun b => { b with errors := b.errors ++ [e] }
    return none

/-- Bind an expression and report its failure. -/
def attempt {α : Type} (m : ExprM α) : BindM (Option α) := do record (← m.run)

def resolveType (t : TypeName) : ExprM Ty :=
  match Ty.ofName? t.name with
  | some ty => return ty
  | none => fail (.unknownType t.name) t.token.location

/-! ### Expressions -/

/-- A literal of an integer type. -/
def literalOf (ty : Ty) (value : Int) (location : Location) : ExprM Expr :=
  match Value.literal ty value with
  | .ok v => return .ofValue v location
  | .error _ => fail (.literalOutOfRange value ty) location

/-- An integer literal where a type may be expected. -/
def bindInteger (location : Location) (value : Int) (suffix : Option TypeName)
    (expected : Option Ty) : ExprM Expr := do
  match suffix with
  | some name =>
    let ty ← resolveType name
    if ty.isInteger then literalOf ty value location
    else fail (.unsupported ("'" ++ name.name ++ "' is not an integer type")) location
  | none =>
    match expected with
    | some .float => return .ofValue (.float (Decimal.Binary64.ofInt value)) location
    | some (.int t) => literalOf (.int t) value location
    | _ => literalOf .defaultInt value location

/-- A variable. -/
def bindName (name : String) (location : Location) : ExprM Expr := do
  let b ← get
  match b.local? name with
  | some entry => return .variable ⟨b.slotType entry.slot, location⟩ (.local entry.slot)
  | none =>
    match b.global? name with
    | some (id, g) => return .variable ⟨g.ty, location⟩ (.global id)
    | none => fail (.unknownName name) location

/-- The function that `print` or `println` stands for when it is not declared. -/
def implicitFunction (f : Intrinsic) (location : Location) : Function where
  name := f.name
  params := [.string]
  ret := .void
  locals := [⟨"value", .string⟩]
  body := .intrinsic f
  location := location

/-- The function that a name calls; `print` and `println` need no declaration. -/
def bindCallee (callee : Ident) : ExprM (Nat × Function) := do
  let b ← get
  match b.function? callee.name with
  | some found => return found
  | none =>
    match Intrinsic.ofName? callee.name with
    | some f =>
      let function := implicitFunction f callee.token.location
      set { b with functions := b.functions ++ [function] }
      return (b.functions.length, function)
    | none => fail (.unknownFunction callee.name) callee.token.location

def Body.isIntrinsic : Body → Bool
  | .intrinsic _ => true
  | _ => false

/-- Fit an argument to a parameter; functions of the machine take anything that has a text as a
string. -/
def fitArg (isIntrinsic : Bool) (param : Ty) (value : Expr) : ExprM Expr :=
  if value.ty = param then return value
  else if isIntrinsic && param == .string && castable value.ty param then
    return .cast ⟨.string, value.location⟩ value
  else fail (.typeMismatch param value.ty) value.location

/-- What an operator expects of its operands, in a context that expects `expected` of the result. -/
def operandExpected (op : BinaryOp) (expected : Option Ty) : Option Ty :=
  if op.isLogical then some .bool else if op.isComparison then none else expected

mutual

/-- Bind an expression where a type may be expected; only literals heed it. -/
def bindExpr : Syntax.Expr → (expected : Option Ty) → ExprM Expr
  | .integer node value suffix, expected =>
    bindInteger node.token.location value suffix expected
  | .decimal node x, _ => return .ofValue (.float x) node.token.location
  | .string node s, _ => return .ofValue (.string s) node.token.location
  | .bool node b, _ => return .ofValue (.bool b) node.token.location
  | .name node name, _ => bindName name node.token.location
  | .unary _ .neg (.integer node value suffix), expected =>
    bindInteger node.token.location (-value) suffix expected
  | .unary node op operand, expected => do
    let e ← bindExpr operand expected
    if unaryAllowed op e.ty then return .unary ⟨e.ty, node.token.location⟩ op e
    else fail (.invalidOperand op.symbol e.ty) node.token.location
  | .binary node op lhs rhs, expected => do
    let l ← bindExpr lhs (operandExpected op expected)
    let r ← bindExpr rhs (some l.ty)
    let l ← if l.ty ≠ r.ty ∧ isUntypedLiteral lhs then bindExpr lhs (some r.ty) else pure l
    if l.ty ≠ r.ty then fail (.typeMismatch l.ty r.ty) r.location
    else if operandAllowed op l.ty then
      return .binary ⟨resultType op l.ty, node.token.location⟩ op l r
    else fail (.invalidOperand op.symbol l.ty) node.token.location
  | .cast node inner type, _ => do
    let target ← resolveType type
    let e ← bindExpr inner none
    if castable e.ty target then return .cast ⟨target, node.token.location⟩ e
    else fail (.invalidCast e.ty target) node.token.location
  | .ternary node cond yes no, expected => do
    let c ← bindExpr cond (some .bool)
    if c.ty ≠ .bool then fail (.typeMismatch .bool c.ty) c.location
    else
      let y ← bindExpr yes expected
      let n ← bindExpr no (some y.ty)
      let y ← if y.ty ≠ n.ty ∧ isUntypedLiteral yes then bindExpr yes (some n.ty) else pure y
      if y.ty ≠ n.ty then fail (.typeMismatch y.ty n.ty) n.location
      else return .ternary ⟨y.ty, node.token.location⟩ c y n
  | .call node callee args, _ => do
    let (id, function) ← bindCallee callee
    if function.params.length ≠ args.length then
      fail (.arityMismatch callee.name function.params.length args.length) callee.token.location
    else
      let bound ← bindArgs function.body.isIntrinsic args function.params
      return .call ⟨function.ret, node.token.location⟩ id bound

/-- Bind arguments against the types of their parameters. -/
def bindArgs (isIntrinsic : Bool) : List Syntax.Expr → List Ty → ExprM (List Expr)
  | arg :: args, param :: params => do
    let e ← bindExpr arg (some param)
    let e ← fitArg isIntrinsic param e
    return e :: (← bindArgs isIntrinsic args params)
  | _, _ => return []

end

/-- Bind two expressions that must have one type; an untyped literal on the left adopts the type of
the right. -/
def bindPair (a b : Syntax.Expr) (expected : Option Ty) : ExprM (Expr × Expr) := do
  let l ← bindExpr a expected
  let r ← bindExpr b (some l.ty)
  let l ← if l.ty ≠ r.ty ∧ isUntypedLiteral a then bindExpr a (some r.ty) else pure l
  if l.ty ≠ r.ty then fail (.typeMismatch l.ty r.ty) r.location else return (l, r)

/-- Bind a condition. -/
def bindCondition (e : Syntax.Expr) : ExprM Expr := do
  let c ← bindExpr e (some .bool)
  if c.ty ≠ .bool then fail (.typeMismatch .bool c.ty) c.location else return c

/-! ### Declarations and assignments -/

/-- The type and the initial value of a declaration. -/
def bindDeclaration (decl : Syntax.VarDecl) : BindM (Option (Ty × Option Expr)) := do
  let annotated ← match decl.type with
    | some name =>
      match ← attempt (resolveType name) with
      | some ty => pure (some ty)
      | none => return none
    | none => pure none
  let init ← match decl.init with
    | some e =>
      match ← attempt (bindExpr e annotated) with
      | some e => pure (some e)
      | none => return none
    | none => pure none
  let location := decl.name.token.location
  match annotated, init with
  | some ty, some e =>
    if e.ty ≠ ty then
      report (.typeMismatch ty e.ty) e.location
      return none
  | none, none =>
    report (.missingType decl.name.name) location
    return none
  | _, _ => pure ()
  let ty := annotated.getD (init.elim .void Expr.ty)
  if ty = .void then
    report (.missingType decl.name.name) location
    return none
  else return some (ty, init)

/-- Give a new slot to a local variable and declare it in the innermost scope. -/
def declareLocal (name : String) (ty : Ty) (isConst : Bool) : BindM Nat :=
  modifyGet fun b =>
    let slot := b.locals.length
    let scopes := match b.scopes with
      | scope :: outer => ((name, ⟨slot, isConst⟩) :: scope) :: outer
      | [] => []
    (slot, { b with locals := b.locals ++ [⟨name, ty⟩], scopes })

/-- What an assignment writes to, and its type. -/
def bindTarget (target : Ident) : ExprM (Binding × Ty) := do
  let b ← get
  let location := target.token.location
  match b.local? target.name with
  | some entry =>
    if entry.isConst then fail (.notAssignable target.name) location
    else return (.local entry.slot, b.slotType entry.slot)
  | none =>
    match b.global? target.name with
    | some (id, g) =>
      if g.isConst then fail (.notAssignable target.name) location else return (.global id, g.ty)
    | none =>
      if (b.function? target.name).isSome then fail (.notAssignable target.name) location
      else fail (.unknownName target.name) location

/-- An assignment, through an operator or not. -/
def bindAssignment (stmt : Location) (target : Ident) (op : Option BinaryOp)
    (value : Syntax.Expr) : ExprM Stmt := do
  let (binding, ty) ← bindTarget target
  let e ← bindExpr value (some ty)
  match op with
  | some op =>
    if operandAllowed op ty then
      let current := Expr.variable ⟨ty, target.token.location⟩ binding
      return .assign stmt binding (.binary ⟨ty, e.location⟩ op current e)
    else fail (.invalidOperand op.symbol ty) target.token.location
  | none =>
    if e.ty ≠ ty then fail (.typeMismatch ty e.ty) e.location
    else return .assign stmt binding e

/-! ### Statements -/

/-- Run in a new innermost scope. -/
def inScope {α : Type} (m : BindM α) : BindM α := do
  modify fun b => { b with scopes := [] :: b.scopes }
  let a ← m
  modify fun b => { b with scopes := b.scopes.tail }
  return a

/-- Run inside a loop. -/
def inLoop {α : Type} (m : BindM α) : BindM α := do
  modify fun b => { b with loopDepth := b.loopDepth + 1 }
  let a ← m
  modify fun b => { b with loopDepth := b.loopDepth - 1 }
  return a

/-- A returned value, or none, against the function's type. -/
def bindReturn (location : Location) (value : Option Syntax.Expr) : BindM (Option Stmt) := do
  let expected := (← get).ret
  match value with
  | none =>
    if expected = .void then return some (.ret location none)
    else
      report (.typeMismatch expected .void) location
      return none
  | some e =>
    match ← attempt (bindExpr e (some expected)) with
    | none => return none
    | some e =>
      if e.ty ≠ expected then
        report (.typeMismatch expected e.ty) e.location
        return none
      else return some (.ret location (some e))

/-- A statement that only stands in loops. -/
def bindControl (keyword : String) (stmt : Stmt) : BindM (Option Stmt) := do
  if (← get).loopDepth = 0 then
    report (.outsideLoop keyword) stmt.location
    return none
  else return some stmt

/-- The bounds of a counted loop: two values of one integer type. -/
def bindBounds (start stop : Syntax.Expr) : BindM (Option (Expr × Expr)) := do
  match ← attempt (bindPair start stop none) with
  | none => return none
  | some (a, z) =>
    if a.ty.isInteger then return some (a, z)
    else
      report (.invalidOperand ".." a.ty) a.location
      return none

mutual

/-- Bind a statement; none if it fails. -/
def bindStmt : Syntax.Stmt → BindM (Option Stmt)
  | .block node body => do
    return some (.block node.token.location (← bindBlock body))
  | .var node decl => do
    match ← bindDeclaration decl with
    | none => return none
    | some (ty, init) =>
      let slot ← declareLocal decl.name.name ty decl.isConst
      let location := node.token.location
      return some (.assign location (.local slot)
        (init.getD (.ofValue (.zero ty) location)))
  | .assign node target op value => attempt (bindAssignment node.token.location target op value)
  | .expr node e => do
    return (← attempt (bindExpr e none)).map fun e => .expr node.token.location e
  | .cond node branches => do
    return (← bindBranches branches).map fun bs => .cond node.token.location bs
  | .while node cond body => do
    let c ← (bindCondition cond).run
    let stmts ← inLoop (bindBlock body)
    return (← record c).map fun c => .while node.token.location c stmts
  | .loop node body => do
    return some (.loop node.token.location (← inLoop (bindBlock body)))
  | .for node var start stop body => do
    match ← bindBounds start stop with
    | none => return none
    | some (a, z) => inScope do
      let limit ← declareLocal "$limit" a.ty true
      let slot ← declareLocal var.name a.ty false
      return some (.for node.token.location slot limit a z (← inLoop (bindBlock body)))
  | .ret node value => bindReturn node.token.location value
  | .break node => bindControl "break" (.break node.token.location)
  | .continue node => bindControl "continue" (.continue node.token.location)

/-- Bind the branches of a conditional; a condition that fails ends it. -/
def bindBranches : Syntax.Branches → BindM (Option Branches)
  | .none => return some .none
  | .otherwise body => do return some (.otherwise (← bindBlock body))
  | .branch cond body rest => do
    let c ← (bindCondition cond).run
    let stmts ← bindBlock body
    match ← record c with
    | none => return none
    | some c => return (← bindBranches rest).map fun bs => .branch c stmts bs

/-- Bind a block in a scope of its own. -/
def bindBlock : Syntax.Block → BindM (List Stmt)
  | .mk _ stmts => inScope (bindStmts stmts)

/-- Bind statements in order, without those that fail. -/
def bindStmts : List Syntax.Stmt → BindM (List Stmt)
  | [] => return []
  | s :: ss => do
    let bound ← bindStmt s
    return bound.toList ++ (← bindStmts ss)

end

/-! ### Programs -/

/-- The type of a declared name, nothing if there is no such type. -/
def declaredType (t : TypeName) : BindM Ty := do return (← attempt (resolveType t)).getD .void

/-- What a function's body is before the bodies are bound. -/
def declaredBody (body : Syntax.FunctionBody) (location : Location) : BindM Body := do
  match body with
  | .block _ => return .block []
  | .native symbol => return .native symbol
  | .intrinsic name =>
    match Intrinsic.ofName? name with
    | some f => return .intrinsic f
    | none =>
      report (.unknownIntrinsic name) location
      return .block []

/-- Declare a function; its number, or none if its name is taken. -/
def declareFunction (f : Syntax.Function) : BindM (Option Nat) := do
  let location := f.name.token.location
  if (← get).isDefined f.name.name then
    report (.duplicate f.name.name) location
    return none
  else
    let params ← f.params.mapM fun p => declaredType p.type
    let ret ← match f.ret with
      | some t => declaredType t
      | none => pure .void
    let body ← declaredBody f.body location
    let locals := f.params.zipWith (fun p ty => ⟨p.name.name, ty⟩) params
    modifyGet fun b =>
      (some b.functions.length,
        { b with functions := b.functions ++ [⟨f.name.name, params, ret, locals, body, location⟩] })

/-- Declare the functions of some items; for each item the number of its function, if it has one. -/
def declareFunctions (items : List Syntax.Item) : BindM (List (Option Nat)) :=
  items.mapM fun i =>
    match i.kind with
    | .function f => declareFunction f
    | _ => return none

/-- Bind a global variable. -/
def bindGlobal (decl : Syntax.VarDecl) : BindM Unit := do
  let location := decl.name.token.location
  if (← get).isDefined decl.name.name then report (.duplicate decl.name.name) location
  else
    match ← bindDeclaration decl with
    | none => return
    | some (ty, init) =>
      modify fun b =>
        { b with globals := b.globals ++ [⟨decl.name.name, ty, decl.isConst, init, location⟩] }

def bindGlobals (items : List Syntax.Item) : BindM Unit :=
  items.forM fun i =>
    match i.kind with
    | .variable decl => bindGlobal decl
    | _ => return

/-- The scope of the parameters; of two with one name the latter counts. -/
def paramScope (locals : List LocalSlot) : List (String × LocalEntry) :=
  (locals.zipIdx.map fun (l, slot) => (l.name, ⟨slot, false⟩)).reverse

/-- Bind the body of the function with number `id`. -/
def bindBody (id : Nat) (block : Syntax.Block) : BindM Unit := do
  match (← get).functions[id]? with
  | none => return
  | some f =>
    modify fun b =>
      { b with locals := f.locals, ret := f.ret, loopDepth := 0, scopes := [paramScope f.locals] }
    let stmts ← bindStmts block.stmts
    modify fun b =>
      let bound := { f with locals := b.locals, body := .block stmts }
      { b with functions := b.functions.set id bound, scopes := [], locals := [] }

def bindBodies (items : List (Syntax.Item × Option Nat)) : BindM Unit :=
  items.forM fun (i, id) =>
    match i.kind, id with
    | .function f, some id =>
      match f.body with
      | .block block => bindBody id block
      | _ => return
    | _, _ => return

/-- Bind a program; either it or all that is wrong with it. -/
def bind (p : Syntax.Program) : Except (List BindError) Program :=
  let items := p.items
  let work : BindM Unit := do
    let ids ← declareFunctions items
    bindGlobals items
    bindBodies (items.zip ids)
  let (_, b) := work.run {}
  if b.errors.isEmpty then .ok ⟨b.globals, b.functions⟩ else .error b.errors

/-- Bind an expression that refers to no variables. -/
def bindExpression (e : Syntax.Expr) : Except BindError Expr := ((bindExpr e none).run.run {}).1

end ScriptLang.Bound
