import ScriptLang.Machine.State
import ScriptLang.Proofs.Typing

/-!
# The meaning of a bound program

A bound program is evaluated on its tree, without code, operands or labels.  Globals are set in
order before the entry point is called; the variables of a function start with the arguments and
first values; operands and arguments are evaluated from left to right.  A call is made with the
*room* left for further calls, so that a program which calls too deep runs out of room.  A loop goes
round at most `rounds` times before the evaluation is given up; whatever is evaluated without being
given up is the meaning of the program.
-/

namespace ScriptLang.Bound

/-! ### States and results -/

/-- What evaluation changes: the variables and the text printed so far. -/
structure Store where
  globals : List Value
  /-- The variables of the innermost function. -/
  locals : List Value
  printed : String

/-- Why an evaluation has no result. -/
inductive Stop where
  | failed (e : Machine.RuntimeError)
  /-- A loop was to go round once more than allowed. -/
  | givenUp

/-- Evaluation, which keeps what was changed and printed when it fails. -/
abbrev Eval := EStateM Stop Store

/-- How the evaluation of statements ends. -/
inductive Completion where
  | normal
  | broke
  | continued
  | returned (v : Option Value)

/-- The value of a call whose body ended so.  A body that ends without a return gives the first
value of its type. -/
def Completion.result (ret : Ty) : Completion → Value
  | .returned v => v.getD .void
  | _ => .zero ret

/-- Whether a loop ends with a round that ended so, and how. -/
def Completion.afterRound : Completion → Option Completion
  | .normal => none
  | .continued => none
  | .broke => some .normal
  | .returned v => some (.returned v)

/-- A call of a function with arguments, made at a place. -/
abbrev Call := (function : Nat) → (args : List Value) → Location → Eval Value

/-! ### Variables and operations -/

/-- The value of a variable, if there is such a variable. -/
def Store.value? (σ : Store) : Binding → Option Value
  | .local slot => σ.locals[slot]?
  | .global id => σ.globals[id]?

/-- Give a variable a value. -/
def Store.write (σ : Store) (v : Value) : Binding → Store
  | .local slot => { σ with locals := σ.locals.set slot v }
  | .global id => { σ with globals := σ.globals.set id v }

def readVariable (b : Binding) : Eval Value := do
  let σ ← get
  return (σ.value? b).getD .void

def writeVariable (b : Binding) (v : Value) : Eval Unit := modify fun σ => σ.write v b

/-- The result of an operation written at a place. -/
def operate (location : Location) (r : Except ValueError Value) : Eval Value :=
  match r with
  | .ok v => return v
  | .error e => throw (.failed (.operation e location))

/-! ### Expressions -/

mutual

/-- The value of an expression.  The right side of `&&` and `||` is evaluated only if the left one
does not decide. -/
def evalExpr (call : Call) : Expr → Eval Value
  | .literal _ v => return v
  | .variable _ b => readVariable b
  | .unary i op e => do
    let v ← evalExpr call e
    operate i.location (Value.unary op v)
  | .binary i op l r => do
    let a ← evalExpr call l
    match op with
    | .and => if a.truthy then evalExpr call r else return .bool false
    | .or => if a.truthy then return .bool true else evalExpr call r
    | op => do
      let b ← evalExpr call r
      operate i.location (Value.binary op a b)
  | .cast i e => do
    let v ← evalExpr call e
    operate i.location (v.cast i.ty)
  | .ternary _ c y n => do
    let v ← evalExpr call c
    if v.truthy then evalExpr call y else evalExpr call n
  | .call i f args => do
    let vs ← evalArgs call args
    call f vs i.location

def evalArgs (call : Call) : List Expr → Eval (List Value)
  | [] => return []
  | e :: es => do
    let v ← evalExpr call e
    let vs ← evalArgs call es
    return v :: vs

end

/-- The left side of `&&` and `||` decides if its truth value is the one that does. -/
theorem evalExpr_logical (call : Call) (i : Info) {op : BinaryOp} (hop : op.isLogical = true)
    (l r : Expr) :
    evalExpr call (.binary i op l r) = (do
      let a ← evalExpr call l
      if a.truthy = (op == .or) then return .bool (op == .or) else evalExpr call r) := by
  cases op <;> simp only [BinaryOp.isLogical, Bool.false_eq_true] at hop
  · rw [evalExpr]
    congr 1
    funext a
    cases a.truthy <;> rfl
  · rw [evalExpr]
    congr 1

theorem evalExpr_binary (call : Call) (i : Info) {op : BinaryOp} (hop : op.isLogical = false)
    (l r : Expr) :
    evalExpr call (.binary i op l r) = (do
      let a ← evalExpr call l
      let b ← evalExpr call r
      operate i.location (Value.binary op a b)) := by
  cases op <;> first | exact absurd hop (by decide) | rw [evalExpr]

/-! ### Statements -/

/-- Go round until a round ends the loop. -/
def goRound (round : Eval (Option Completion)) : (rounds : Nat) → Eval Completion
  | 0 => throw .givenUp
  | rounds + 1 => do
    match ← round with
    | none => goRound round rounds
    | some c => return c

/-- A round that is one evaluation of the loop's body. -/
def roundOf (body : Eval Completion) : Eval (Option Completion) := do
  let c ← body
  return c.afterRound

/-- One round of a loop that goes on while a condition holds. -/
def whileRound (cond : Eval Value) (body : Eval Completion) : Eval (Option Completion) := do
  let v ← cond
  if v.truthy then roundOf body else return some .normal

/-- Add one to the counter of a loop, a variable of type `ty`. -/
def countUp (location : Location) (var : Nat) (ty : Ty) : Eval Unit := do
  let v ← readVariable (.local var)
  let next ← operate location (Value.binary .add v (.wrap ty 1))
  writeVariable (.local var) next

/-- Whether the counter is below the limit. -/
def belowLimit (location : Location) (var limit : Nat) : Eval Value := do
  let v ← readVariable (.local var)
  let z ← readVariable (.local limit)
  operate location (Value.binary .lt v z)

/-- One round of a loop that counts. -/
def countRound (location : Location) (var limit : Nat) (ty : Ty) (body : Eval Completion) :
    Eval (Option Completion) := do
  let below ← belowLimit location var limit
  if below.truthy then
    match ← roundOf body with
    | some c => return some c
    | none =>
      countUp location var ty
      return none
  else return some .normal

mutual

/-- Evaluate a statement.  A loop of the statement goes round at most `rounds` times. -/
def execStmt (rounds : Nat) (call : Call) : Stmt → Eval Completion
  | .block _ body => execStmts rounds call body
  | .assign _ target e => do
    let v ← evalExpr call e
    writeVariable target v
    return .normal
  | .expr _ e => do
    let _ ← evalExpr call e
    return .normal
  | .cond _ branches => execBranches rounds call branches
  | .while _ c body => goRound (whileRound (evalExpr call c) (execStmts rounds call body)) rounds
  | .loop _ body => goRound (roundOf (execStmts rounds call body)) rounds
  | .for l var limit a z body => do
    let start ← evalExpr call a
    writeVariable (.local var) start
    let stop ← evalExpr call z
    writeVariable (.local limit) stop
    goRound (countRound l var limit a.ty (execStmts rounds call body)) rounds
  | .ret _ none => return .returned none
  | .ret _ (some e) => do
    let v ← evalExpr call e
    return .returned (some v)
  | .break _ => return .broke
  | .continue _ => return .continued

def execBranches (rounds : Nat) (call : Call) : Branches → Eval Completion
  | .none => return .normal
  | .otherwise body => execStmts rounds call body
  | .branch c body rest => do
    let v ← evalExpr call c
    if v.truthy then execStmts rounds call body else execBranches rounds call rest

/-- Evaluate statements in order, up to the first that does not end normally. -/
def execStmts (rounds : Nat) (call : Call) : List Stmt → Eval Completion
  | [] => return .normal
  | s :: ss => do
    match ← execStmt rounds call s with
    | .normal => execStmts rounds call ss
    | c => return c

end

/-! ### Calls -/

/-- What a program is evaluated with: the libraries that native functions are found in, how many
functions may be active, and how often a loop may go round. -/
structure Setting where
  program : Program
  bridge : Native.Bridge
  maxCallDepth : Nat
  rounds : Nat

/-- The variables of a function that is called: the arguments, then first values. -/
def Function.startLocals (f : Function) (args : List Value) : List Value :=
  args ++ (f.locals.drop args.length).map fun l => Value.zero l.ty

/-- Evaluate the body of a function with variables of its own. -/
def Function.activate (f : Function) (args : List Value) (body : Eval Completion) : Eval Value := do
  let outer := (← get).locals
  modify fun σ => { σ with locals := f.startLocals args }
  let c ← body
  modify fun σ => { σ with locals := outer }
  return c.result f.ret

/-- What a function of the machine prints. -/
def Intrinsic.output (f : Intrinsic) (args : List Value) : String :=
  (args.head?.map Value.text).getD "" ++ if f = .println then "\n" else ""

/-- Call a function; `enter` is how one that is written in the language is called. -/
def Setting.invoke (s : Setting)
    (enter : Function → List Stmt → (args : List Value) → Location → Eval Value) : Call :=
  fun id args location =>
    match s.program.functions[id]? with
    | none => throw (.failed (.unknownFunction ("#" ++ toString id) location))
    | some f =>
      match f.body with
      | .block stmts => enter f stmts args location
      | .intrinsic i => do
        modify fun σ => { σ with printed := σ.printed ++ i.output args }
        return .void
      | .native symbol =>
        match (s.bridge.callNamed symbol f.signature args).1 with
        | .ok c => return c.value
        | .error e => throw (.failed (.native f.name e location))

/-- Call a function with room for so many functions written in the language. -/
def Setting.call (s : Setting) : (room : Nat) → Call
  | 0 => s.invoke fun f _ _ location =>
    throw (.failed (.stackOverflow f.name s.maxCallDepth location))
  | room + 1 => s.invoke fun f stmts args _ =>
    f.activate args (execStmts s.rounds (s.call room) stmts)

/-! ### Programs -/

/-- The room that the first function leaves for others. -/
def Setting.room (s : Setting) : Nat := s.maxCallDepth - 1

/-- Set the globals, numbered from `id` on. -/
def initGlobals (call : Call) : (id : Nat) → List Global → Eval Unit
  | _, [] => return
  | id, g :: gs => do
    match g.init with
    | some e => do
      let v ← evalExpr call e
      writeVariable (.global id) v
    | none => pure ()
    initGlobals call (id + 1) gs

/-- Set the globals and evaluate the body of the function `f`. -/
def Setting.run (s : Setting) (f : Function) : Eval Value := do
  initGlobals (s.call s.room) 0 s.program.globals
  f.activate [] (execStmts s.rounds (s.call s.room) f.stmts)

/-- Before a program runs, every global has the first value of its type. -/
def Program.firstStore (p : Program) : Store := ⟨p.globals.map fun g => .zero g.ty, [], ""⟩

/-- What the whole program comes to when it begins with the function `f`. -/
def Setting.evaluate (s : Setting) (f : Function) : EStateM.Result Stop Store Value :=
  (s.run f).run s.program.firstStore

/-! ### Stores that fit -/

/-- Every variable has a value of its type. -/
structure Store.Fits (Γ : Env) (σ : Store) : Prop where
  globals : σ.globals.map Value.type = Γ.globals
  locals : σ.locals.map Value.type = Γ.locals

theorem Store.Fits.value?_eq {Γ : Env} {σ : Store} (h : σ.Fits Γ) {b : Binding} {ty : Ty}
    (hb : Γ.type? b = some ty) : ∃ v, σ.value? b = some v ∧ v.type = ty := by
  cases b with
  | «local» slot =>
    rw [Env.type?, ← h.locals, List.getElem?_map] at hb
    exact Option.map_eq_some_iff.1 hb
  | «global» id =>
    rw [Env.type?, ← h.globals, List.getElem?_map] at hb
    exact Option.map_eq_some_iff.1 hb

theorem map_set_of_getElem? {α β : Type} {f : α → β} {as : List α} {k : Nat} {a : α}
    (h : (as.map f)[k]? = some (f a)) : (as.set k a).map f = as.map f := by
  rw [List.map_set]
  refine List.ext_getElem? fun j => ?_
  rw [List.getElem?_set]
  split
  · rename_i same
    subst same
    split
    · exact h.symm
    · rename_i out
      rw [List.getElem?_eq_none (Nat.le_of_not_lt out)]
  · rfl

theorem Store.Fits.write {Γ : Env} {σ : Store} (h : σ.Fits Γ) {b : Binding} {v : Value}
    (hb : Γ.type? b = some v.type) : (σ.write v b).Fits Γ := by
  cases b with
  | «local» slot =>
    rw [Env.type?, ← h.locals] at hb
    exact ⟨h.globals, (map_set_of_getElem? hb).trans h.locals⟩
  | «global» id =>
    rw [Env.type?, ← h.globals] at hb
    exact ⟨(map_set_of_getElem? hb).trans h.globals, h.locals⟩

end ScriptLang.Bound
