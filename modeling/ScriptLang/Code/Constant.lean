import ScriptLang.Code.Lowering

/-!
# Constant expressions

An expression of literals, operators, casts and conditionals is evaluated by running its own code on
a stack of its own.  All jumps in such code go forward, so a jump drops the code before its label.
-/

namespace ScriptLang.Code

namespace Constant

/-- Why the code of an expression has no value. -/
def underflow (i : Instruction) : LoweringError := .internal "operand stack underflow" i.location

/-- The code from the label on. -/
def jumpTo (i : Instruction) (l : Label) (code : List Instruction) :
    Except LoweringError { rest : List Instruction // rest.length ≤ code.length } :=
  let rest := code.dropWhile fun j => !j.op.marks l
  if rest.isEmpty then .error (.internal ("undefined label " ++ labelText l) i.location)
  else .ok ⟨rest, (List.dropWhile_sublist _).length_le⟩

def lift (i : Instruction) (r : Except ValueError Value) : Except LoweringError Value :=
  r.mapError fun e => .evaluation e i.location

/-- What an operation that is no jump does to the stack, whose top comes first. -/
def step (i : Instruction) (stack : List Value) : Except LoweringError (List Value) :=
  match i.op, stack with
  | .pushConst v, stack => .ok (v :: stack)
  | .unary op, v :: stack => (lift i (Value.unary op v)).map (· :: stack)
  | .binary op, r :: l :: stack => (lift i (Value.binary op l r)).map (· :: stack)
  | .cast ty, v :: stack => (lift i (v.cast ty)).map (· :: stack)
  | .pop, _ :: stack => .ok stack
  | .label _, stack => .ok stack
  | .pushLocal _, _ | .pushGlobal _, _ => .error (.notConstant "a variable" i.location)
  | .unary _, _ | .binary _, _ | .cast _, _ | .pop, _ => .error (underflow i)
  | op, _ => .error (.notConstant ("'" ++ op.mnemonic ++ "'") i.location)

/-- Run code to its end; the stack that is left. -/
def run (code : List Instruction) (stack : List Value) : Except LoweringError (List Value) :=
  match code with
  | [] => .ok stack
  | i :: code =>
    match i.op, stack with
    | .jump l, stack =>
      match jumpTo i l code with
      | .ok rest => run rest.1 stack
      | .error e => .error e
    | .jumpIfFalse l, v :: stack =>
      if v.truthy then run code stack
      else
        match jumpTo i l code with
        | .ok rest => run rest.1 stack
        | .error e => .error e
    | .jumpIfTrue l, v :: stack =>
      if v.truthy then
        match jumpTo i l code with
        | .ok rest => run rest.1 stack
        | .error e => .error e
      else run code stack
    | .jumpIfFalse _, [] | .jumpIfTrue _, [] => .error (underflow i)
    | _, stack =>
      match step i stack with
      | .ok stack => run code stack
      | .error e => .error e
termination_by code.length
decreasing_by
  all_goals
    first
    | exact Nat.lt_succ_of_le rest.2
    | exact Nat.lt_succ_self _

end Constant

/-- The value of a constant expression. -/
def evaluate (e : Bound.Expr) : Except LoweringError Value := do
  let (code, _) ← (lowerExpr none e).run 0
  match ← Constant.run code [] with
  | v :: _ => return v
  | [] => throw (.internal "expression left no value" e.location)

end ScriptLang.Code
