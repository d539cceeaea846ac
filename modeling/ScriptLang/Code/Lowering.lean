import ScriptLang.Code.Program
import ScriptLang.Diagnostic

/-!
# Lowering trees to stack code

Code is a list of instructions, put together from the code of the parts; the only state is the next
unused label of the function.  `&&` and `||` evaluate their right side only if the left one does not
decide.  A body that can end without a return returns the first value of its type.
-/

namespace ScriptLang.Code

open ScriptLang.Bound (Expr Stmt Branches Binding)

/-- What cannot be lowered or evaluated. -/
inductive LoweringError where
  | unsupported (construct : String) (location : Location)
  | notConstant (what : String) (location : Location)
  | evaluation (e : ValueError) (location : Location)
  /-- The tree is not one that binding gives. -/
  | internal (message : String) (location : Location)
deriving DecidableEq, Repr

namespace LoweringError

def location : LoweringError → Location
  | unsupported _ l | notConstant _ l | evaluation _ l | internal _ l => l

def codeName : LoweringError → String
  | unsupported .. => "unsupported"
  | notConstant .. => "not_constant"
  | evaluation .. => "evaluation"
  | internal .. => "internal"

def reason : LoweringError → String
  | unsupported construct _ => construct ++ " is not supported here"
  | notConstant what _ => what ++ " cannot be evaluated as a constant"
  | evaluation e _ => e.message
  | internal message _ => "internal lowering error: " ++ message

def help? : LoweringError → Option String
  | notConstant .. => some "only literals and operators are allowed"
  | _ => none

instance : Described LoweringError where
  code e := "scribble::ir::" ++ e.codeName
  message e := e.location.text ++ ": " ++ e.reason
  location? e := some e.location
  help? := help?

end LoweringError

/-- Lowering, with the next unused label as its state. -/
abbrev LowerM := StateT Label (Except LoweringError)

def freshLabel : LowerM Label := modifyGet fun l => (l, l + 1)

/-- An instruction made for a place. -/
def ins (location : Location) (op : Op) : Instruction := ⟨op, location⟩

/-! ### Expressions -/

def pushVariable (binding : Binding) : Op :=
  match binding with
  | .local slot => .pushLocal slot
  | .global id => .pushGlobal id

def popVariable (binding : Binding) : Op :=
  match binding with
  | .local slot => .popLocal slot
  | .global id => .popGlobal id

/-- The call of a function by its number.  Without a program nothing can be called. -/
def callee (program : Option Bound.Program) (function : Nat) (argc : Nat) (location : Location) :
    LowerM Op :=
  match program with
  | none => throw (.notConstant "a function call" location)
  | some p =>
    match p.functions[function]? with
    | none => throw (.internal ("no function with id " ++ toString function) location)
    | some f =>
      match f.body with
      | .native _ => return .callNative f.name argc
      | _ => return .call f.name argc

/-- The code of `&&` or `||`, whose left side decides if it is `decisive`. -/
def shortCircuit (place : Location) (decisive : Bool) (lhs rhs : LowerM (List Instruction)) :
    LowerM (List Instruction) := do
  let decided ← freshLabel
  let done ← freshLabel
  let l ← lhs
  let r ← rhs
  return l ++ ins place (if decisive then .jumpIfTrue decided else .jumpIfFalse decided) :: r ++
    [ins place (.jump done), ins place (.label decided), ins place (.pushConst (.bool decisive)),
      ins place (.label done)]

mutual

/-- The code that pushes the value of an expression, or nothing for a call without result. -/
def lowerExpr (program : Option Bound.Program) : Expr → LowerM (List Instruction)
  | .literal i v => return [ins i.location (.pushConst v)]
  | .variable i binding => return [ins i.location (pushVariable binding)]
  | .unary i op e => do
    return (← lowerExpr program e) ++ [ins i.location (.unary op)]
  | .binary i op l r =>
    match op with
    | .and => shortCircuit i.location false (lowerExpr program l) (lowerExpr program r)
    | .or => shortCircuit i.location true (lowerExpr program l) (lowerExpr program r)
    | op => do
      return (← lowerExpr program l) ++ (← lowerExpr program r) ++ [ins i.location (.binary op)]
  | .cast i e => do
    let code ← lowerExpr program e
    return if e.ty = i.ty then code else code ++ [ins i.location (.cast i.ty)]
  | .ternary i c y n => do
    let other ← freshLabel
    let done ← freshLabel
    let cond ← lowerExpr program c
    let yes ← lowerExpr program y
    let no ← lowerExpr program n
    return cond ++ ins i.location (.jumpIfFalse other) :: yes ++
      ins i.location (.jump done) :: ins i.location (.label other) :: no ++
      [ins i.location (.label done)]
  | .call i function args => do
    let op ← callee program function args.length i.location
    return (← lowerArgs program args) ++ [ins i.location op]

/-- The code that pushes arguments in order. -/
def lowerArgs (program : Option Bound.Program) : List Expr → LowerM (List Instruction)
  | [] => return []
  | e :: es => do return (← lowerExpr program e) ++ (← lowerArgs program es)

end

/-! ### Statements -/

/-- Where `continue` and `break` of the innermost loop go. -/
structure LoopLabels where
  continueTo : Label
  breakTo : Label

/-- The label for a statement that leaves a loop. -/
def loopTarget (loop : Option LoopLabels) (location : Location) (target : LoopLabels → Label) :
    LowerM (List Instruction) :=
  match loop with
  | some labels => return [ins location (.jump (target labels))]
  | none => throw (.internal "loop control outside of a loop" location)

mutual

/-- The code of a statement, which leaves the stack as it finds it. -/
def lowerStmt (program : Bound.Program) (loop : Option LoopLabels) : Stmt → LowerM (List Instruction)
  | .block _ body => lowerStmts program loop body
  | .assign l target value => do
    return (← lowerExpr (some program) value) ++ [ins l (popVariable target)]
  | .expr l e => do
    let code ← lowerExpr (some program) e
    return if e.ty = .void then code else code ++ [ins l .pop]
  | .cond l branches => do
    let done ← freshLabel
    return (← lowerBranches program loop l done branches) ++ [ins l (.label done)]
  | .while l cond body => do
    let top ← freshLabel
    let done ← freshLabel
    let c ← lowerExpr (some program) cond
    let b ← lowerStmts program (some ⟨top, done⟩) body
    return ins l (.label top) :: c ++ ins l (.jumpIfFalse done) :: b ++
      [ins l (.jump top), ins l (.label done)]
  | .loop l body => do
    let top ← freshLabel
    let done ← freshLabel
    let b ← lowerStmts program (some ⟨top, done⟩) body
    return ins l (.label top) :: b ++ [ins l (.jump top), ins l (.label done)]
  | .for l var limit start stop body => do
    let top ← freshLabel
    let step ← freshLabel
    let done ← freshLabel
    let a ← lowerExpr (some program) start
    let z ← lowerExpr (some program) stop
    let b ← lowerStmts program (some ⟨step, done⟩) body
    return a ++ ins l (.popLocal var) :: z ++
      [ins l (.popLocal limit), ins l (.label top), ins l (.pushLocal var), ins l (.pushLocal limit),
        ins l (.binary .lt), ins l (.jumpIfFalse done)] ++ b ++
      [ins l (.label step), ins l (.pushLocal var), ins l (.pushConst (.wrap start.ty 1)),
        ins l (.binary .add), ins l (.popLocal var), ins l (.jump top), ins l (.label done)]
  | .ret l value =>
    match value with
    | some e => do return (← lowerExpr (some program) e) ++ [ins l (.ret true)]
    | none => return [ins l (.ret false)]
  | .break l => loopTarget loop l LoopLabels.breakTo
  | .continue l => loopTarget loop l LoopLabels.continueTo

/-- The code of the branches of a conditional that ends at the label `done`. -/
def lowerBranches (program : Bound.Program) (loop : Option LoopLabels) (l : Location)
    (done : Label) : Branches → LowerM (List Instruction)
  | .none => return []
  | .otherwise body => lowerStmts program loop body
  | .branch cond body rest => do
    let next ← freshLabel
    let c ← lowerExpr (some program) cond
    let b ← lowerStmts program loop body
    let r ← lowerBranches program loop l done rest
    return c ++ ins l (.jumpIfFalse next) :: b ++
      ins l (.jump done) :: ins l (.label next) :: r

/-- The code of statements in order. -/
def lowerStmts (program : Bound.Program) (loop : Option LoopLabels) :
    List Stmt → LowerM (List Instruction)
  | [] => return []
  | s :: ss => do return (← lowerStmt program loop s) ++ (← lowerStmts program loop ss)

end

/-! ### Functions and programs -/

/-- The return at the end of a body that does not end in one. -/
def finalReturn (ret : Ty) (location : Location) : List Instruction :=
  if ret = .void then [ins location (.ret false)]
  else [ins location (.pushConst (.zero ret)), ins location (.ret true)]

/-- The code of a function's body. -/
def lowerBody (program : Bound.Program) (f : Bound.Function) (body : List Stmt) :
    Except LoweringError (List Instruction) := do
  let (code, _) ← (lowerStmts program none body).run 0
  let endsInReturn := (code.getLast?.map fun i => i.op.isReturn).getD false
  if endsInReturn then return code
  else return code ++ finalReturn f.ret ((body.getLast?.map Stmt.location).getD f.location)

/-- The signature of the functions of the machine. -/
def intrinsicSignature : Signature := ⟨[.string], .void⟩

def lowerFunction (program : Bound.Program) (f : Bound.Function) :
    Except LoweringError Function := do
  let signature : Signature := ⟨f.params, f.ret⟩
  let kind ← match f.body with
    | .native symbol => pure (.native symbol)
    | .intrinsic i =>
      if signature = intrinsicSignature then pure (FunctionKind.intrinsic i)
      else
        throw (.unsupported ("intrinsic '" ++ i.name ++ "' with signature " ++ signature.text)
          f.location)
    | .block body => do pure (.body (← lowerBody program f body))
  return ⟨f.name, signature, f.locals, kind, f.location⟩

/-- The code that sets globals, numbered from `id` on. -/
def lowerGlobals (program : Bound.Program) : (id : Nat) → List Bound.Global →
    LowerM (List Instruction)
  | _, [] => return []
  | id, g :: gs => do
    let code ← match g.init with
      | some e => do pure ((← lowerExpr (some program) e) ++ [ins g.location (.popGlobal id)])
      | none => pure []
    return code ++ (← lowerGlobals program (id + 1) gs)

/-- The function that sets all globals. -/
def lowerInit (program : Bound.Program) : Except LoweringError Function := do
  let location := (program.globals.head?.map Bound.Global.location).getD .unknown
  let (code, _) ← (lowerGlobals program 0 program.globals).run 0
  return ⟨initName, ⟨[], .void⟩, [], .body (code ++ [ins location (.ret false)]), location⟩

/-- Lower a program under a name, to begin with the function `entry`; or all that cannot be lowered. -/
def lower (program : Bound.Program) (name entry : String) :
    Except (List LoweringError) Program :=
  let lowered := lowerInit program :: program.functions.map (lowerFunction program)
  let errors := lowered.filterMap fun
    | .error e => some e
    | .ok _ => none
  let functions := lowered.filterMap Except.toOption
  if errors.isEmpty then
    .ok {
      name
      globals := program.globals.map fun g => ⟨g.name, g.ty, g.isConst⟩
      functions := functions.foldl Program.insertFunction []
      entry := (program.function? entry).map fun f => f.2.name }
  else .error errors

end ScriptLang.Code
