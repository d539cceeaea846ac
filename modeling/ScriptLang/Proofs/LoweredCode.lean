import Mathlib.Data.List.Forall2
import ScriptLang.Code.Lowering

/-!
# What lowered code is made of

For each construct, the code that lowering gives for it and the labels that its parts are given,
read off a lowering that succeeds.  `lowerExpr_run_eq` and the other `_run_eq` lemmas are the only
ones that unfold the lowering.
-/

namespace ScriptLang.Code

open ScriptLang.Bound (Expr Stmt Branches Binding)

/-! ### The monad -/

theorem run_bind_eq_ok {α β : Type} {x : LowerM α} {f : α → LowerM β} {l l' : Label} {b : β} :
    (x >>= f).run l = .ok (b, l') ↔
      ∃ a m, x.run l = .ok (a, m) ∧ (f a).run m = .ok (b, l') := by
  rw [StateT.run_bind]
  cases h : x.run l with
  | error e => simp [bind, Except.bind]
  | ok r =>
    obtain ⟨a, m⟩ := r
    constructor
    · intro h'
      exact ⟨a, m, rfl, h'⟩
    · rintro ⟨a', m', ha, hf⟩
      cases ha
      exact hf

theorem run_pure_eq_ok {α : Type} {a b : α} {l l' : Label} :
    (pure a : LowerM α).run l = .ok (b, l') ↔ b = a ∧ l' = l := by
  rw [StateT.run_pure]
  constructor
  · intro h
    cases h
    exact ⟨rfl, rfl⟩
  · rintro ⟨rfl, rfl⟩
    rfl

theorem run_throw_eq_ok {α : Type} {e : LoweringError} {a : α} {l l' : Label} :
    ¬ (throw e : LowerM α).run l = .ok (a, l') := by
  intro h
  cases h

theorem freshLabel_run_eq_ok {a l l' : Label} :
    freshLabel.run l = .ok (a, l') ↔ a = l ∧ l' = l + 1 := by
  constructor
  · intro h
    cases h
    exact ⟨rfl, rfl⟩
  · rintro ⟨rfl, rfl⟩
    rfl

/-! ### Parts of code -/

/-- The part stands in the code from the place `pc` on. -/
def CodeAt (code : List Instruction) (pc : Nat) : (part : List Instruction) → Prop
  | [] => True
  | i :: part => code[pc]? = some i ∧ CodeAt code (pc + 1) part

@[simp] theorem codeAt_nil (code : List Instruction) (pc : Nat) : CodeAt code pc [] := trivial

@[simp] theorem codeAt_cons {code part : List Instruction} {pc : Nat} {i : Instruction} :
    CodeAt code pc (i :: part) ↔ code[pc]? = some i ∧ CodeAt code (pc + 1) part :=
  Iff.rfl

@[simp] theorem codeAt_append {code b : List Instruction} : ∀ {a : List Instruction} {pc : Nat},
    CodeAt code pc (a ++ b) ↔ CodeAt code pc a ∧ CodeAt code (pc + a.length) b
  | [], pc => by simp
  | i :: a, pc => by
    rw [List.cons_append, codeAt_cons, codeAt_cons, codeAt_append, and_assoc, List.length_cons,
      Nat.add_assoc pc 1, Nat.add_comm 1]

theorem codeAt_append_left (before : List Instruction) : ∀ (part after : List Instruction),
    CodeAt (before ++ (part ++ after)) before.length part
  | [], _ => trivial
  | i :: part, after => by
    refine ⟨by simp, ?_⟩
    have tail := codeAt_append_left (before ++ [i]) part after
    rwa [List.append_assoc, List.length_append] at tail

theorem codeAt_prefix (part after : List Instruction) : CodeAt (part ++ after) 0 part :=
  codeAt_append_left [] part after

theorem codeAt_self (code : List Instruction) : CodeAt code 0 code := by
  simpa using codeAt_prefix code []

/-! ### Expressions -/

-- All lemmas below need the equations of the lowering, which are made here once.
attribute [local simp] lowerExpr lowerArgs lowerStmt lowerBranches lowerStmts lowerGlobals

section

variable {program : Option Bound.Program} {l l' : Label} {code : List Instruction}

theorem lowerExpr_literal_run_eq {i : Bound.Info} {v : Value}
    (h : (lowerExpr program (.literal i v)).run l = .ok (code, l')) :
    code = [ins i.location (.pushConst v)] ∧ l' = l := by
  rwa [lowerExpr, run_pure_eq_ok] at h

theorem lowerExpr_variable_run_eq {i : Bound.Info} {b : Binding}
    (h : (lowerExpr program (.variable i b)).run l = .ok (code, l')) :
    code = [ins i.location (pushVariable b)] ∧ l' = l := by
  rwa [lowerExpr, run_pure_eq_ok] at h

theorem lowerExpr_unary_run_eq {i : Bound.Info} {op : UnaryOp} {e : Expr}
    (h : (lowerExpr program (.unary i op e)).run l = .ok (code, l')) :
    ∃ c, (lowerExpr program e).run l = .ok (c, l') ∧ code = c ++ [ins i.location (.unary op)] := by
  rw [lowerExpr, run_bind_eq_ok] at h
  obtain ⟨c, m, hc, h⟩ := h
  rw [run_pure_eq_ok] at h
  obtain ⟨rfl, rfl⟩ := h
  exact ⟨c, hc, rfl⟩

/-- The code of `&&` and `||`, whose left side decides if it is `decisive`. -/
def shortCircuitCode (place : Location) (decisive : Bool) (l : Label) (lhs rhs : List Instruction) :
    List Instruction :=
  lhs ++ ins place (if decisive then .jumpIfTrue l else .jumpIfFalse l) :: rhs ++
    [ins place (.jump (l + 1)), ins place (.label l), ins place (.pushConst (.bool decisive)),
      ins place (.label (l + 1))]

theorem shortCircuit_run_eq {place : Location} {decisive : Bool}
    {lhs rhs : LowerM (List Instruction)}
    (h : (shortCircuit place decisive lhs rhs).run l = .ok (code, l')) :
    ∃ a m b, lhs.run (l + 2) = .ok (a, m) ∧ rhs.run m = .ok (b, l') ∧
      code = shortCircuitCode place decisive l a b := by
  simp only [shortCircuit, run_bind_eq_ok, freshLabel_run_eq_ok, run_pure_eq_ok] at h
  obtain ⟨_, _, ⟨rfl, rfl⟩, _, _, ⟨rfl, rfl⟩, a, m, ha, b, _, hb, rfl, rfl⟩ := h
  exact ⟨a, m, b, ha, hb, rfl⟩

theorem lowerExpr_logical_run_eq {i : Bound.Info} {op : BinaryOp} {a b : Expr}
    (hop : op.isLogical = true)
    (h : (lowerExpr program (.binary i op a b)).run l = .ok (code, l')) :
    ∃ ca m cb, (lowerExpr program a).run (l + 2) = .ok (ca, m) ∧
      (lowerExpr program b).run m = .ok (cb, l') ∧
      code = shortCircuitCode i.location (op == .or) l ca cb := by
  cases op <;> simp only [BinaryOp.isLogical, Bool.false_eq_true] at hop
  · rw [lowerExpr] at h
    exact shortCircuit_run_eq h
  · rw [lowerExpr] at h
    exact shortCircuit_run_eq h

theorem lowerExpr_binary_run_eq {i : Bound.Info} {op : BinaryOp} {a b : Expr}
    (hop : op.isLogical = false)
    (h : (lowerExpr program (.binary i op a b)).run l = .ok (code, l')) :
    ∃ ca m cb, (lowerExpr program a).run l = .ok (ca, m) ∧
      (lowerExpr program b).run m = .ok (cb, l') ∧
      code = ca ++ cb ++ [ins i.location (.binary op)] := by
  have hd : (do
      let x ← lowerExpr program a
      let y ← lowerExpr program b
      return x ++ y ++ [ins i.location (.binary op)] : LowerM (List Instruction)).run l =
        .ok (code, l') := by
    cases op <;> first | exact absurd hop (by decide) | exact h
  rw [run_bind_eq_ok] at hd
  obtain ⟨ca, m, ha, hd⟩ := hd
  rw [run_bind_eq_ok] at hd
  obtain ⟨cb, m', hb, hd⟩ := hd
  rw [run_pure_eq_ok] at hd
  obtain ⟨rfl, rfl⟩ := hd
  exact ⟨ca, m, cb, ha, hb, rfl⟩

theorem lowerExpr_cast_run_eq {i : Bound.Info} {e : Expr}
    (h : (lowerExpr program (.cast i e)).run l = .ok (code, l')) :
    ∃ c, (lowerExpr program e).run l = .ok (c, l') ∧
      code = if e.ty = i.ty then c else c ++ [ins i.location (.cast i.ty)] := by
  rw [lowerExpr, run_bind_eq_ok] at h
  obtain ⟨c, m, hc, h⟩ := h
  rw [run_pure_eq_ok] at h
  obtain ⟨rfl, rfl⟩ := h
  exact ⟨c, hc, rfl⟩

theorem lowerExpr_ternary_run_eq {i : Bound.Info} {c y n : Expr}
    (h : (lowerExpr program (.ternary i c y n)).run l = .ok (code, l')) :
    ∃ cc m cy m' cn, (lowerExpr program c).run (l + 2) = .ok (cc, m) ∧
      (lowerExpr program y).run m = .ok (cy, m') ∧ (lowerExpr program n).run m' = .ok (cn, l') ∧
      code = cc ++ ins i.location (.jumpIfFalse l) :: cy ++
        ins i.location (.jump (l + 1)) :: ins i.location (.label l) :: cn ++
        [ins i.location (.label (l + 1))] := by
  simp only [lowerExpr, run_bind_eq_ok, freshLabel_run_eq_ok, run_pure_eq_ok] at h
  obtain ⟨_, _, ⟨rfl, rfl⟩, _, _, ⟨rfl, rfl⟩, cc, m, hc, cy, m', hy, cn, _, hn, rfl, rfl⟩ := h
  exact ⟨cc, m, cy, m', cn, hc, hy, hn, rfl⟩

/-- The operation that calls the function `f`. -/
def callOp (f : Bound.Function) (argc : Nat) : Op :=
  match f.body with
  | .native _ => .callNative f.name argc
  | _ => .call f.name argc

theorem callee_run_eq {program : Bound.Program} {function argc : Nat} {place : Location} {op : Op}
    (h : (callee (some program) function argc place).run l = .ok (op, l')) :
    l' = l ∧ ∃ f, program.functions[function]? = some f ∧ op = callOp f argc := by
  simp only [callee] at h
  cases hf : program.functions[function]? with
  | none =>
    rw [hf] at h
    exact absurd h run_throw_eq_ok
  | some f =>
    simp only [hf] at h
    cases hb : f.body <;> simp only [hb, run_pure_eq_ok] at h <;> obtain ⟨rfl, rfl⟩ := h <;>
      exact ⟨rfl, f, rfl, by simp [callOp, hb]⟩

theorem lowerExpr_call_run_eq {program : Bound.Program} {i : Bound.Info} {function : Nat}
    {args : List Expr}
    (h : (lowerExpr (some program) (.call i function args)).run l = .ok (code, l')) :
    ∃ f c, program.functions[function]? = some f ∧
      (lowerArgs (some program) args).run l = .ok (c, l') ∧
      code = c ++ [ins i.location (callOp f args.length)] := by
  rw [lowerExpr, run_bind_eq_ok] at h
  obtain ⟨op, m, hop, h⟩ := h
  obtain ⟨rfl, f, hf, rfl⟩ := callee_run_eq hop
  rw [run_bind_eq_ok] at h
  obtain ⟨c, m', hc, h⟩ := h
  rw [run_pure_eq_ok] at h
  obtain ⟨rfl, rfl⟩ := h
  exact ⟨f, c, hf, hc, rfl⟩

theorem lowerArgs_nil_run_eq (h : (lowerArgs program []).run l = .ok (code, l')) :
    code = [] ∧ l' = l := by
  rwa [lowerArgs, run_pure_eq_ok] at h

theorem lowerArgs_cons_run_eq {e : Expr} {es : List Expr}
    (h : (lowerArgs program (e :: es)).run l = .ok (code, l')) :
    ∃ c m cs, (lowerExpr program e).run l = .ok (c, m) ∧
      (lowerArgs program es).run m = .ok (cs, l') ∧ code = c ++ cs := by
  simp only [lowerArgs, run_bind_eq_ok, run_pure_eq_ok] at h
  obtain ⟨c, m, hc, cs, _, hcs, rfl, rfl⟩ := h
  exact ⟨c, m, cs, hc, hcs, rfl⟩

end

/-! ### Statements -/

section

variable {program : Bound.Program} {loop : Option LoopLabels} {l l' : Label}
  {code : List Instruction} {place : Location}

theorem loopTarget_run_eq {target : LoopLabels → Label}
    (h : (loopTarget loop place target).run l = .ok (code, l')) :
    l' = l ∧ ∃ labels, loop = some labels ∧ code = [ins place (.jump (target labels))] := by
  cases loop with
  | none => exact absurd h run_throw_eq_ok
  | some labels =>
    simp only [loopTarget, run_pure_eq_ok] at h
    obtain ⟨rfl, rfl⟩ := h
    exact ⟨rfl, labels, rfl, rfl⟩

theorem lowerStmt_assign_run_eq {target : Binding} {e : Expr}
    (h : (lowerStmt program loop (.assign place target e)).run l = .ok (code, l')) :
    ∃ c, (lowerExpr (some program) e).run l = .ok (c, l') ∧
      code = c ++ [ins place (popVariable target)] := by
  simp only [lowerStmt, run_bind_eq_ok, run_pure_eq_ok] at h
  obtain ⟨c, _, hc, rfl, rfl⟩ := h
  exact ⟨c, hc, rfl⟩

theorem lowerStmt_expr_run_eq {e : Expr}
    (h : (lowerStmt program loop (.expr place e)).run l = .ok (code, l')) :
    ∃ c, (lowerExpr (some program) e).run l = .ok (c, l') ∧
      code = if e.ty = .void then c else c ++ [ins place .pop] := by
  simp only [lowerStmt, run_bind_eq_ok, run_pure_eq_ok] at h
  obtain ⟨c, _, hc, rfl, rfl⟩ := h
  exact ⟨c, hc, rfl⟩

theorem lowerStmt_cond_run_eq {branches : Branches}
    (h : (lowerStmt program loop (.cond place branches)).run l = .ok (code, l')) :
    ∃ c, (lowerBranches program loop place l branches).run (l + 1) = .ok (c, l') ∧
      code = c ++ [ins place (.label l)] := by
  simp only [lowerStmt, run_bind_eq_ok, freshLabel_run_eq_ok, run_pure_eq_ok] at h
  obtain ⟨_, _, ⟨rfl, rfl⟩, c, _, hc, rfl, rfl⟩ := h
  exact ⟨c, hc, rfl⟩

theorem lowerStmt_while_run_eq {cond : Expr} {body : List Stmt}
    (h : (lowerStmt program loop (.while place cond body)).run l = .ok (code, l')) :
    ∃ c m b, (lowerExpr (some program) cond).run (l + 2) = .ok (c, m) ∧
      (lowerStmts program (some ⟨l, l + 1⟩) body).run m = .ok (b, l') ∧
      code = ins place (.label l) :: c ++ ins place (.jumpIfFalse (l + 1)) :: b ++
        [ins place (.jump l), ins place (.label (l + 1))] := by
  simp only [lowerStmt, run_bind_eq_ok, freshLabel_run_eq_ok, run_pure_eq_ok] at h
  obtain ⟨_, _, ⟨rfl, rfl⟩, _, _, ⟨rfl, rfl⟩, c, m, hc, b, _, hb, rfl, rfl⟩ := h
  exact ⟨c, m, b, hc, hb, rfl⟩

theorem lowerStmt_loop_run_eq {body : List Stmt}
    (h : (lowerStmt program loop (.loop place body)).run l = .ok (code, l')) :
    ∃ b, (lowerStmts program (some ⟨l, l + 1⟩) body).run (l + 2) = .ok (b, l') ∧
      code = ins place (.label l) :: b ++ [ins place (.jump l), ins place (.label (l + 1))] := by
  simp only [lowerStmt, run_bind_eq_ok, freshLabel_run_eq_ok, run_pure_eq_ok] at h
  obtain ⟨_, _, ⟨rfl, rfl⟩, _, _, ⟨rfl, rfl⟩, b, _, hb, rfl, rfl⟩ := h
  exact ⟨b, hb, rfl⟩

/-- The code of a counted loop with labels from `l` on and a counter of type `ty`. -/
def forCode (place : Location) (l : Label) (var limit : Nat) (ty : Ty)
    (start stop body : List Instruction) : List Instruction :=
  start ++ ins place (.popLocal var) :: stop ++
    [ins place (.popLocal limit), ins place (.label l), ins place (.pushLocal var),
      ins place (.pushLocal limit), ins place (.binary .lt), ins place (.jumpIfFalse (l + 2))] ++
    body ++
    [ins place (.label (l + 1)), ins place (.pushLocal var), ins place (.pushConst (.wrap ty 1)),
      ins place (.binary .add), ins place (.popLocal var), ins place (.jump l),
      ins place (.label (l + 2))]

theorem lowerStmt_for_run_eq {var limit : Nat} {start stop : Expr} {body : List Stmt}
    (h : (lowerStmt program loop (.for place var limit start stop body)).run l = .ok (code, l')) :
    ∃ a m z m' b, (lowerExpr (some program) start).run (l + 3) = .ok (a, m) ∧
      (lowerExpr (some program) stop).run m = .ok (z, m') ∧
      (lowerStmts program (some ⟨l + 1, l + 2⟩) body).run m' = .ok (b, l') ∧
      code = forCode place l var limit start.ty a z b := by
  simp only [lowerStmt, run_bind_eq_ok, freshLabel_run_eq_ok, run_pure_eq_ok] at h
  obtain ⟨_, _, ⟨rfl, rfl⟩, _, _, ⟨rfl, rfl⟩, _, _, ⟨rfl, rfl⟩, a, m, ha, z, m', hz, b, _, hb,
    rfl, rfl⟩ := h
  exact ⟨a, m, z, m', b, ha, hz, hb, rfl⟩

theorem lowerStmt_ret_none_run_eq
    (h : (lowerStmt program loop (.ret place none)).run l = .ok (code, l')) :
    code = [ins place (.ret false)] ∧ l' = l := by
  rwa [lowerStmt, run_pure_eq_ok] at h

theorem lowerStmt_ret_some_run_eq {e : Expr}
    (h : (lowerStmt program loop (.ret place (some e))).run l = .ok (code, l')) :
    ∃ c, (lowerExpr (some program) e).run l = .ok (c, l') ∧
      code = c ++ [ins place (.ret true)] := by
  simp only [lowerStmt, run_bind_eq_ok, run_pure_eq_ok] at h
  obtain ⟨c, _, hc, rfl, rfl⟩ := h
  exact ⟨c, hc, rfl⟩

theorem lowerBranches_none_run_eq {done : Label}
    (h : (lowerBranches program loop place done .none).run l = .ok (code, l')) :
    code = [] ∧ l' = l := by
  rwa [lowerBranches, run_pure_eq_ok] at h

theorem lowerBranches_branch_run_eq {done : Label} {cond : Expr} {body : List Stmt}
    {rest : Branches}
    (h : (lowerBranches program loop place done (.branch cond body rest)).run l = .ok (code, l')) :
    ∃ c m b m' r, (lowerExpr (some program) cond).run (l + 1) = .ok (c, m) ∧
      (lowerStmts program loop body).run m = .ok (b, m') ∧
      (lowerBranches program loop place done rest).run m' = .ok (r, l') ∧
      code = c ++ ins place (.jumpIfFalse l) :: b ++
        ins place (.jump done) :: ins place (.label l) :: r := by
  simp only [lowerBranches, run_bind_eq_ok, freshLabel_run_eq_ok, run_pure_eq_ok] at h
  obtain ⟨_, _, ⟨rfl, rfl⟩, c, m, hc, b, m', hb, r, _, hr, rfl, rfl⟩ := h
  exact ⟨c, m, b, m', r, hc, hb, hr, rfl⟩

theorem lowerStmts_nil_run_eq (h : (lowerStmts program loop []).run l = .ok (code, l')) :
    code = [] ∧ l' = l := by
  rwa [lowerStmts, run_pure_eq_ok] at h

theorem lowerStmts_cons_run_eq {s : Stmt} {ss : List Stmt}
    (h : (lowerStmts program loop (s :: ss)).run l = .ok (code, l')) :
    ∃ c m cs, (lowerStmt program loop s).run l = .ok (c, m) ∧
      (lowerStmts program loop ss).run m = .ok (cs, l') ∧ code = c ++ cs := by
  simp only [lowerStmts, run_bind_eq_ok, run_pure_eq_ok] at h
  obtain ⟨c, m, hc, cs, _, hcs, rfl, rfl⟩ := h
  exact ⟨c, m, cs, hc, hcs, rfl⟩

end

/-! ### Functions -/

/-- The last instruction of the code is a return. -/
def EndsInReturn (code : List Instruction) : Prop :=
  ∃ i, code.getLast? = some i ∧ i.op.isReturn = true

theorem finalReturn_endsInReturn (ret : Ty) (place : Location) :
    EndsInReturn (finalReturn ret place) := by
  unfold finalReturn
  split
  · exact ⟨_, rfl, rfl⟩
  · exact ⟨_, rfl, rfl⟩

/-- The code of a body is that of its statements, with a return behind unless there is one. -/
theorem lowerBody_eq_ok {program : Bound.Program} {f : Bound.Function} {body : List Stmt}
    {code : List Instruction} (h : lowerBody program f body = .ok code) :
    ∃ c l, (lowerStmts program none body).run 0 = .ok (c, l) ∧
      ((code = c ∧ EndsInReturn c) ∨ ∃ place, code = c ++ finalReturn f.ret place) := by
  unfold lowerBody at h
  cases hs : (lowerStmts program none body).run 0 with
  | error e =>
    rw [hs] at h
    cases h
  | ok r =>
    obtain ⟨c, l⟩ := r
    rw [hs] at h
    refine ⟨c, l, rfl, ?_⟩
    simp only [bind, Except.bind] at h
    split at h
    · rename_i ends
      cases h
      left
      refine ⟨rfl, ?_⟩
      cases hl : code.getLast? with
      | none => simp [hl] at ends
      | some i =>
        rw [hl] at ends
        exact ⟨i, hl, ends⟩
    · cases h
      exact .inr ⟨_, rfl⟩

theorem lowerBody_endsInReturn {program : Bound.Program} {f : Bound.Function} {body : List Stmt}
    {code : List Instruction} (h : lowerBody program f body = .ok code) : EndsInReturn code := by
  obtain ⟨c, _, _, ⟨rfl, ends⟩ | ⟨place, rfl⟩⟩ := lowerBody_eq_ok h
  · exact ends
  · obtain ⟨i, hi, hr⟩ := finalReturn_endsInReturn f.ret place
    exact ⟨i, by rw [List.getLast?_append, hi]; rfl, hr⟩

/-- What the kind of a lowered function is made from. -/
inductive LoweredKind (program : Bound.Program) (f : Bound.Function) : FunctionKind → Prop
  | body {stmts : List Stmt} {code : List Instruction} (written : f.body = .block stmts)
      (lowered : lowerBody program f stmts = .ok code) : LoweredKind program f (.body code)
  | native {symbol : String} (bound : f.body = .native symbol) :
      LoweredKind program f (.native symbol)
  | intrinsic {i : Bound.Intrinsic} (given : f.body = .intrinsic i)
      (takes : (⟨f.params, f.ret⟩ : Signature) = intrinsicSignature) :
      LoweredKind program f (.intrinsic i)

/-- The function `g` is what lowering makes of the function `f`. -/
structure Lowered (program : Bound.Program) (f : Bound.Function) (g : Function) : Prop where
  name : g.name = f.name
  signature : g.signature = ⟨f.params, f.ret⟩
  locals : g.locals = f.locals
  kind : LoweredKind program f g.kind

theorem lowerFunction_eq_ok {program : Bound.Program} {f : Bound.Function} {g : Function}
    (h : lowerFunction program f = .ok g) : Lowered program f g := by
  unfold lowerFunction at h
  cases hb : f.body with
  | block stmts =>
    cases hc : lowerBody program f stmts with
    | error e =>
      simp only [hb, hc, bind, Except.bind] at h
      cases h
    | ok code =>
      simp only [hb, hc, bind, Except.bind] at h
      cases h
      exact ⟨rfl, rfl, rfl, .body hb hc⟩
  | native symbol =>
    simp only [hb, bind, Except.bind] at h
    cases h
    exact ⟨rfl, rfl, rfl, .native hb⟩
  | intrinsic i =>
    simp only [hb, bind, Except.bind] at h
    split at h
    · rename_i takes
      cases h
      exact ⟨rfl, rfl, rfl, .intrinsic hb takes⟩
    · cases h

/-! ### The function that sets the globals -/

section

variable {program : Bound.Program} {l l' : Label} {code : List Instruction}

theorem lowerGlobals_nil_run_eq {id : Nat}
    (h : (lowerGlobals program id []).run l = .ok (code, l')) : code = [] ∧ l' = l := by
  rwa [lowerGlobals, run_pure_eq_ok] at h

theorem lowerGlobals_none_run_eq {id : Nat} {g : Bound.Global} {gs : List Bound.Global}
    (hg : g.init = none) (h : (lowerGlobals program id (g :: gs)).run l = .ok (code, l')) :
    (lowerGlobals program (id + 1) gs).run l = .ok (code, l') := by
  simp only [lowerGlobals, hg, run_bind_eq_ok, run_pure_eq_ok] at h
  obtain ⟨_, _, ⟨rfl, rfl⟩, c, _, hc, rfl, rfl⟩ := h
  exact hc

theorem lowerGlobals_some_run_eq {id : Nat} {g : Bound.Global} {gs : List Bound.Global} {e : Expr}
    (hg : g.init = some e) (h : (lowerGlobals program id (g :: gs)).run l = .ok (code, l')) :
    ∃ c m cs, (lowerExpr (some program) e).run l = .ok (c, m) ∧
      (lowerGlobals program (id + 1) gs).run m = .ok (cs, l') ∧
      code = c ++ [ins g.location (.popGlobal id)] ++ cs := by
  simp only [lowerGlobals, hg, run_bind_eq_ok, run_pure_eq_ok] at h
  obtain ⟨c, m, hc, _, _, ⟨rfl, rfl⟩, cs, _, hcs, rfl, rfl⟩ := h
  exact ⟨c, _, cs, hc, hcs, rfl⟩

end

theorem lowerInit_eq_ok {program : Bound.Program} {g : Function} (h : lowerInit program = .ok g) :
    ∃ c l place, (lowerGlobals program 0 program.globals).run 0 = .ok (c, l) ∧
      g.name = initName ∧ g.signature = ⟨[], .void⟩ ∧ g.locals = [] ∧
      g.kind = .body (c ++ [ins place (.ret false)]) := by
  unfold lowerInit at h
  cases hs : (lowerGlobals program 0 program.globals).run 0 with
  | error e =>
    simp only [hs, bind, Except.bind] at h
    cases h
  | ok r =>
    simp only [hs, bind, Except.bind] at h
    cases h
    exact ⟨r.1, r.2, _, rfl, rfl, rfl, rfl, rfl⟩

/-! ### Programs -/

/-- All results of a list, if `error?` finds no error among them. -/
theorem forall₂_filterMap_toOption {α ε : Type} {error? : Except ε α → Option ε}
    (herror : ∀ e, error? (.error e) = some e) : ∀ {rs : List (Except ε α)},
    rs.filterMap error? = [] →
    List.Forall₂ (fun r a => r = .ok a) rs (rs.filterMap Except.toOption)
  | [], _ => .nil
  | .error e :: rs, h => by simp [herror] at h
  | .ok a :: rs, h => by
    rw [List.filterMap_eq_nil_iff] at h
    refine .cons rfl (forall₂_filterMap_toOption herror ?_)
    exact List.filterMap_eq_nil_iff.2 fun r hr => h r (List.mem_cons_of_mem _ hr)

theorem lower_eq_ok {program : Bound.Program} {name entry : String} {code : Program}
    (h : lower program name entry = .ok code) :
    ∃ init fs, lowerInit program = .ok init ∧
      List.Forall₂ (fun f g => lowerFunction program f = .ok g) program.functions fs ∧
      code.globals = program.globals.map (fun g => ⟨g.name, g.ty, g.isConst⟩) ∧
      code.functions = (init :: fs).foldl Program.insertFunction [] ∧
      code.entry = (program.function? entry).map fun f => f.2.name := by
  unfold lower at h
  simp only at h
  split at h
  · rename_i none_failed
    cases h
    have all := forall₂_filterMap_toOption (fun _ => rfl) (List.isEmpty_iff.1 none_failed)
    obtain ⟨init, fs, hinit, hfs, heq⟩ := List.forall₂_cons_left_iff.1 all
    rw [heq]
    exact ⟨init, fs, hinit, List.forall₂_map_left_iff.1 hfs, rfl, rfl, rfl⟩
  · cases h

/-- Functions under names of their own are all kept, in order. -/
theorem foldl_insertFunction_of_nodup : ∀ (before : List Function) {fs : List Function},
    ((before ++ fs).map Function.name).Nodup →
    fs.foldl Program.insertFunction before = before ++ fs
  | before, [], _ => by simp
  | before, f :: fs, h => by
    have hnew : (before.any fun g => g.name == f.name) = false := by
      rw [List.any_eq_false]
      intro g hg heq
      rw [List.map_append, List.nodup_append] at h
      exact h.2.2 g.name (List.mem_map_of_mem hg) f.name (by simp) (beq_iff_eq.1 heq)
    rw [List.foldl_cons, Program.insertFunction, if_neg (by simp [hnew]),
      foldl_insertFunction_of_nodup (before ++ [f]) (by simpa using h), List.append_assoc]
    rfl

theorem mem_insertFunction {fs : List Function} {f g : Function}
    (h : g ∈ Program.insertFunction fs f) : g = f ∨ (g ∈ fs ∧ g.name ≠ f.name) := by
  unfold Program.insertFunction at h
  by_cases hany : (fs.any fun k => k.name == f.name) = true
  · rw [if_pos hany] at h
    obtain ⟨k, hk, rfl⟩ := List.mem_map.1 h
    by_cases same : (k.name == f.name) = true
    · rw [if_pos same]
      exact .inl rfl
    · rw [if_neg same]
      exact .inr ⟨hk, fun hname => same (beq_iff_eq.2 hname)⟩
  · rw [if_neg hany] at h
    rcases List.mem_append.1 h with hg | hg
    · exact .inr ⟨hg, fun hname => hany (List.any_eq_true.2 ⟨g, hg, beq_iff_eq.2 hname⟩)⟩
    · exact .inl (List.mem_singleton.1 hg)

/-- Of functions put under their names, an earlier one is kept if no later one has its name. -/
theorem mem_foldl_insertFunction {g : Function} : ∀ (fs : List Function) {before : List Function},
    g ∈ fs.foldl Program.insertFunction before →
    g ∈ fs ∨ (g ∈ before ∧ ∀ f ∈ fs, g.name ≠ f.name)
  | [], before, h => .inr ⟨h, fun f hf => by cases hf⟩
  | f :: fs, before, h => by
    rcases mem_foldl_insertFunction fs h with hg | ⟨hg, others⟩
    · exact .inl (List.mem_cons_of_mem _ hg)
    · rcases mem_insertFunction hg with rfl | ⟨hg, hname⟩
      · exact .inl List.mem_cons_self
      · refine .inr ⟨hg, fun f' hf' => ?_⟩
        rcases List.mem_cons.1 hf' with rfl | hf'
        · exact hname
        · exact others f' hf'

end ScriptLang.Code
