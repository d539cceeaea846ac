import ScriptLang.Code.Constant
import ScriptLang.Proofs.Labels
import ScriptLang.Proofs.Outcomes

/-!
# What constant expressions come to

The evaluator of constants runs flat code with labels.  `constantValue` reads the value of an
expression off its tree; running the code of an expression does what the tree says in front of
whatever code and on top of whatever stack (`pushes_lowerExpr`), so both agree.  Calls are refused when
the code is made, wherever they stand; variables only when evaluation comes to them.
-/

namespace ScriptLang.Code

open ScriptLang.Bound (Expr Binding)

/-! ### The value of a tree -/

/-- The result of an operation written at a place. -/
def resultAt (place : Location) (r : Except ValueError Value) : Except LoweringError Value :=
  r.mapError fun e => .evaluation e place

/-- The value of an expression by its parts: operands from left to right, and of `&&`, `||` and a
conditional only the side that is chosen. -/
def constantValue : Expr → Except LoweringError Value
  | .literal _ v => return v
  | .variable i _ => throw (.notConstant "a variable" i.location)
  | .unary i op e => do
    let v ← constantValue e
    resultAt i.location (Value.unary op v)
  | .binary i op l r => do
    let a ← constantValue l
    match op with
    | .and => if a.truthy then constantValue r else return .bool false
    | .or => if a.truthy then return .bool true else constantValue r
    | op => do
      let b ← constantValue r
      resultAt i.location (Value.binary op a b)
  | .cast i e => do
    let v ← constantValue e
    if e.ty = i.ty then return v else resultAt i.location (v.cast i.ty)
  | .ternary _ c y n => do
    let v ← constantValue c
    if v.truthy then constantValue y else constantValue n
  | .call i _ _ => throw (.notConstant "a function call" i.location)

/-- Only literals, operators, casts and conditionals. -/
def isConstant : Expr → Bool
  | .literal .. => true
  | .variable .. | .call .. => false
  | .unary _ _ e | .cast _ e => isConstant e
  | .binary _ _ l r => isConstant l && isConstant r
  | .ternary _ c y n => isConstant c && isConstant y && isConstant n

/-- The place of the first call, a call coming before its arguments. -/
def firstCall? : Expr → Option Location
  | .literal .. | .variable .. => none
  | .unary _ _ e | .cast _ e => firstCall? e
  | .binary _ _ l r => (firstCall? l).or (firstCall? r)
  | .ternary _ c y n => (firstCall? c).or ((firstCall? y).or (firstCall? n))
  | .call i _ _ => some i.location

-- All lemmas below need these equations, which are made here once.
attribute [local simp] lowerExpr constantValue isConstant firstCall?

/-- The left side of `&&` and `||` decides if its truth value is the one that does. -/
theorem constantValue_logical (i : Bound.Info) {op : BinaryOp} (hop : op.isLogical = true)
    (l r : Expr) :
    constantValue (.binary i op l r) = (do
      let a ← constantValue l
      if a.truthy = (op == .or) then return .bool (op == .or) else constantValue r) := by
  cases op <;> simp only [BinaryOp.isLogical, Bool.false_eq_true] at hop
  · rw [constantValue]
    congr 1
    funext a
    cases a.truthy <;> rfl
  · rw [constantValue]
    congr 1

theorem constantValue_binary (i : Bound.Info) {op : BinaryOp} (hop : op.isLogical = false)
    (l r : Expr) :
    constantValue (.binary i op l r) = (do
      let a ← constantValue l
      let b ← constantValue r
      resultAt i.location (Value.binary op a b)) := by
  cases op <;> first | exact absurd hop (by decide) | rw [constantValue]

theorem firstCall?_of_isConstant : ∀ {e : Expr}, isConstant e = true → firstCall? e = none
  | .literal .., _ => rfl
  | .unary _ _ e, h => firstCall?_of_isConstant (e := e) h
  | .cast _ e, h => firstCall?_of_isConstant (e := e) h
  | .binary _ _ l r, h => by
    obtain ⟨hl, hr⟩ := (Bool.and_eq_true _ _).mp h
    rw [firstCall?, firstCall?_of_isConstant hl, firstCall?_of_isConstant hr]
    rfl
  | .ternary _ c y n, h => by
    obtain ⟨h, hn⟩ := (Bool.and_eq_true _ _).mp h
    obtain ⟨hc, hy⟩ := (Bool.and_eq_true _ _).mp h
    rw [firstCall?, firstCall?_of_isConstant hc, firstCall?_of_isConstant hy,
      firstCall?_of_isConstant hn]
    rfl

/-! ### Lowering without a program -/

theorem lowerExpr_logical (program : Option Bound.Program) (i : Bound.Info) {op : BinaryOp}
    (hop : op.isLogical = true) (l r : Expr) :
    lowerExpr program (.binary i op l r) =
      shortCircuit i.location (op == .or) (lowerExpr program l) (lowerExpr program r) := by
  cases op <;> simp only [BinaryOp.isLogical, Bool.false_eq_true] at hop
  · rw [lowerExpr]
    rfl
  · rw [lowerExpr]
    rfl

theorem lowerExpr_binary (program : Option Bound.Program) (i : Bound.Info) {op : BinaryOp}
    (hop : op.isLogical = false) (l r : Expr) :
    lowerExpr program (.binary i op l r) = (do
      return (← lowerExpr program l) ++ (← lowerExpr program r) ++
        [ins i.location (.binary op)]) := by
  cases op <;> first | exact absurd hop (by decide) | rfl

/-- Lowering is refused at this call; if there is none, there is code. -/
def Refused {α : Type} (x : LowerM α) : (call : Option Location) → Prop
  | some place => ∀ l, x.run l = .error (.notConstant "a function call" place)
  | none => ∀ l, ∃ r, x.run l = .ok r

theorem Refused.pure {α : Type} (a : α) : Refused (pure a : LowerM α) none := fun l => ⟨(a, l), rfl⟩

theorem Refused.freshLabel : Refused freshLabel none := fun l => ⟨(l, l + 1), rfl⟩

/-- What is refused first is refused. -/
theorem Refused.bind {α β : Type} {x : LowerM α} {f : α → LowerM β} {c d : Option Location}
    (hx : Refused x c) (hf : ∀ a, Refused (f a) d) : Refused (x >>= f) (c.or d) := by
  cases c with
  | some place =>
    intro l
    rw [StateT.run_bind, hx l]
    rfl
  | none =>
    have run (l : Label) : ∃ a m, (x >>= f).run l = (f a).run m := by
      obtain ⟨⟨a, m⟩, hl⟩ := hx l
      exact ⟨a, m, by rw [StateT.run_bind, hl]; rfl⟩
    cases d with
    | some place =>
      intro l
      obtain ⟨a, m, h⟩ := run l
      exact h.trans (hf a m)
    | none =>
      intro l
      obtain ⟨a, m, h⟩ := run l
      obtain ⟨r, hr⟩ := hf a m
      exact ⟨r, h.trans hr⟩

theorem Refused.shortCircuit {place : Location} {decisive : Bool}
    {lhs rhs : LowerM (List Instruction)} {c d : Option Location} (hl : Refused lhs c)
    (hr : Refused rhs d) : Refused (shortCircuit place decisive lhs rhs) (c.or d) := by
  have sides (decided done : Label) : Refused (do
      let l ← lhs
      let r ← rhs
      return l ++ ins place (if decisive then .jumpIfTrue decided else .jumpIfFalse decided) :: r ++
        [ins place (.jump done), ins place (.label decided),
          ins place (.pushConst (.bool decisive)), ins place (.label done)]) (c.or d) := by
    rw [← Option.or_none (o := d)]
    exact hl.bind fun _ => hr.bind fun _ => .pure _
  exact Refused.freshLabel.bind fun decided => Refused.freshLabel.bind (sides decided)

/-- Without a program the first call is refused, and nothing else. -/
theorem lowerExpr_refused : ∀ e : Expr, Refused (lowerExpr none e) (firstCall? e)
  | .literal i v => by
    rw [lowerExpr]
    exact .pure _
  | .variable i b => by
    rw [lowerExpr]
    exact .pure _
  | .unary i op e => by
    rw [lowerExpr, firstCall?, ← Option.or_none (o := firstCall? e)]
    exact (lowerExpr_refused e).bind fun _ => .pure _
  | .binary i op l r => by
    rw [firstCall?]
    cases hop : op.isLogical with
    | true =>
      rw [lowerExpr_logical none i hop]
      exact (lowerExpr_refused l).shortCircuit (lowerExpr_refused r)
    | false =>
      rw [lowerExpr_binary none i hop, ← Option.or_none (o := firstCall? r)]
      exact (lowerExpr_refused l).bind fun _ => (lowerExpr_refused r).bind fun _ => .pure _
  | .cast i e => by
    rw [lowerExpr, firstCall?, ← Option.or_none (o := firstCall? e)]
    exact (lowerExpr_refused e).bind fun _ => .pure _
  | .ternary i c y n => by
    rw [lowerExpr, firstCall?, ← Option.or_none (o := firstCall? n)]
    exact Refused.freshLabel.bind fun _ => Refused.freshLabel.bind fun _ =>
      (lowerExpr_refused c).bind fun _ => (lowerExpr_refused y).bind fun _ =>
        (lowerExpr_refused n).bind fun _ => .pure _
  | .call i f args => by
    intro l
    rw [lowerExpr]
    rfl

/-- A program makes no difference to an expression without calls. -/
theorem lowerExpr_of_no_call (program : Option Bound.Program) : ∀ {e : Expr}, firstCall? e = none →
    lowerExpr program e = lowerExpr none e
  | .literal .., _ => by rw [lowerExpr, lowerExpr]
  | .variable .., _ => by rw [lowerExpr, lowerExpr]
  | .unary _ _ e, h => by
    rw [lowerExpr, lowerExpr, lowerExpr_of_no_call program (e := e) h]
  | .binary _ op l r, h => by
    obtain ⟨hl, hr⟩ := Option.or_eq_none_iff.1 h
    cases hop : op.isLogical with
    | true => rw [lowerExpr_logical _ _ hop, lowerExpr_logical _ _ hop,
        lowerExpr_of_no_call program hl, lowerExpr_of_no_call program hr]
    | false => rw [lowerExpr_binary _ _ hop, lowerExpr_binary _ _ hop,
        lowerExpr_of_no_call program hl, lowerExpr_of_no_call program hr]
  | .cast _ e, h => by
    rw [lowerExpr, lowerExpr, lowerExpr_of_no_call program (e := e) h]
  | .ternary _ c y n, h => by
    obtain ⟨hc, h⟩ := Option.or_eq_none_iff.1 h
    obtain ⟨hy, hn⟩ := Option.or_eq_none_iff.1 h
    rw [lowerExpr, lowerExpr, lowerExpr_of_no_call program hc, lowerExpr_of_no_call program hy,
      lowerExpr_of_no_call program hn]

theorem lowerExpr_none_places {e : Expr} (calls : firstCall? e = none) {l l' : Label}
    {code : List Instruction} (h : (lowerExpr none e).run l = .ok (code, l')) :
    Places code l l' := by
  rw [← lowerExpr_of_no_call (some {}) calls] at h
  exact lowerExpr_places e h

/-! ### Single instructions -/

namespace Constant

attribute [local simp] Constant.step

/-- What is no jump changes the stack, and the code behind goes on with that. -/
theorem run_cons {op : Op} (jumps : op.target? = none) (place : Location) (code : List Instruction)
    (stack : List Value) :
    run (ins place op :: code) stack = step (ins place op) stack >>= run code := by
  conv_lhs => unfold run
  cases op <;> cases jumps <;> dsimp only [ins] <;>
    cases h : step ⟨_, place⟩ stack <;> rfl

/-- An operation that gives a value of those on the stack. -/
theorem run_operation {op : Op} (jumps : op.target? = none) {place : Location}
    {before stack : List Value} {r : Except ValueError Value}
    (hstep : step (ins place op) before = (lift (ins place op) r).map (· :: stack))
    (code : List Instruction) : run (ins place op :: code) before =
      resultAt place r >>= fun v => run code (v :: stack) := by
  rw [run_cons jumps, hstep]
  cases r <;> rfl

/-- A jump goes to the label, past code that does not mark it. -/
theorem jumpTo_append {l : Label} {skipped : List Instruction} (free : placements l skipped = 0)
    (i : Instruction) (place : Location) (code : List Instruction) :
    ∃ h, jumpTo i l (skipped ++ ins place (.label l) :: code) =
      .ok ⟨ins place (.label l) :: code, h⟩ := by
  have found : (skipped ++ ins place (.label l) :: code).dropWhile (fun j => !j.op.marks l) =
      ins place (.label l) :: code := by
    rw [List.dropWhile_append_of_pos fun j mem => ?_, List.dropWhile_cons_of_neg]
    · simp [Op.marks]
    · have unmarked := List.countP_eq_zero.1 free j mem
      simpa using unmarked
  refine ⟨by simp, ?_⟩
  simp only [jumpTo, found, List.isEmpty_cons, Bool.false_eq_true, if_false]

theorem run_label (place : Location) (l : Label) (code : List Instruction) (stack : List Value) :
    run (ins place (.label l) :: code) stack = run code stack := by
  rw [run_cons rfl]
  rfl

theorem run_jump {l : Label} {skipped : List Instruction} (free : placements l skipped = 0)
    (place place' : Location) (code : List Instruction) (stack : List Value) :
    run (ins place (.jump l) :: (skipped ++ ins place' (.label l) :: code)) stack =
      run code stack := by
  obtain ⟨h, jump⟩ := jumpTo_append free (ins place (.jump l)) place' code
  conv_lhs => unfold run
  dsimp only [ins] at jump ⊢
  rw [jump]
  exact run_label place' l code stack

/-- A jump on a condition: `when` says which truth value of the condition makes it. -/
theorem run_jumpIf (when : Bool) {l : Label} {skipped : List Instruction}
    (free : placements l skipped = 0) (place place' : Location) (code : List Instruction)
    (v : Value) (stack : List Value) :
    run (ins place (if when then .jumpIfTrue l else .jumpIfFalse l) ::
        (skipped ++ ins place' (.label l) :: code)) (v :: stack) =
      if v.truthy = when then run code stack
      else run (skipped ++ ins place' (.label l) :: code) stack := by
  cases when
  all_goals
    obtain ⟨h, jump⟩ := jumpTo_append free (ins place _) place' code
    conv_lhs => unfold run
    dsimp only [ins] at jump ⊢
    simp only [Bool.false_eq_true, if_true, if_false]
    rw [jump]
    cases v.truthy <;> first | rfl | exact run_label place' l code stack

end Constant

/-! ### Code of expressions -/

/-- No label from `l'` on is marked, and none before `l`. -/
theorem Places.placements_eq_zero {code : List Instruction} {l l' k : Nat} (h : Places code l l')
    (outside : k < l ∨ l' ≤ k) : placements k code = 0 := by
  rw [h.count, if_neg (by omega)]

/-- Whatever code stands behind it and whatever is on the stack, the code pushes the value, or fails
with the error. -/
def Pushes (code : List Instruction) (r : Except LoweringError Value) : Prop :=
  ∀ (rest : List Instruction) (stack : List Value),
    Constant.run (code ++ rest) stack = r >>= fun v => Constant.run rest (v :: stack)

namespace Pushes

variable {c cy cn : List Instruction} {r ry rn : Except LoweringError Value} {l : Label}

/-- What comes behind uses up the value that has been pushed. -/
theorem behind (h : Pushes c r) {after : List Instruction} {f : Value → Except LoweringError Value}
    (hf : ∀ rest stack v, Constant.run (after ++ rest) (v :: stack) =
      f v >>= fun w => Constant.run rest (w :: stack)) : Pushes (c ++ after) (r >>= f) := by
  intro rest stack
  rw [List.append_assoc, h, bind_assoc]
  congr 1
  funext v
  exact hf rest stack v

/-- The right side is passed over if the left one is decisive. -/
theorem shortCircuit (h : Pushes c r) (hy : Pushes cy ry) (free : placements l cy = 0)
    (place : Location) (decisive : Bool) :
    Pushes (shortCircuitCode place decisive l c cy)
      (r >>= fun v => if v.truthy = decisive then return .bool decisive else ry) := by
  have skipped : placements l (cy ++ [ins place (.jump (l + 1))]) = 0 := by
    rw [placements_append, free]
    rfl
  have passed : placements (l + 1)
      [ins place (.label l), ins place (.pushConst (.bool decisive))] = 0 := by
    simp [placements_cons, Op.marks]
  rw [shortCircuitCode, List.append_assoc]
  refine h.behind fun rest stack v => ?_
  have jumpIf := Constant.run_jumpIf decisive skipped place place
    (ins place (.pushConst (.bool decisive)) :: ins place (.label (l + 1)) :: rest) v stack
  have jump := Constant.run_jump passed place place rest
  simp only [List.append_assoc, List.cons_append, List.nil_append] at jumpIf jump ⊢
  rw [jumpIf]
  split
  · exact (Constant.run_cons rfl ..).trans (Constant.run_label ..)
  · rw [hy]
    congr 1
    funext w
    exact jump (w :: stack)

/-- One of the sides is chosen, and the other one passed over. -/
theorem choice (h : Pushes c r) (hy : Pushes cy ry) (hn : Pushes cn rn)
    (yfree : placements l cy = 0) (nfree : placements (l + 1) cn = 0) (place : Location) :
    Pushes (c ++ ins place (.jumpIfFalse l) :: cy ++
        ins place (.jump (l + 1)) :: ins place (.label l) :: cn ++ [ins place (.label (l + 1))])
      (r >>= fun v => if v.truthy then ry else rn) := by
  have skipped : placements l (cy ++ [ins place (.jump (l + 1))]) = 0 := by
    rw [placements_append, yfree]
    rfl
  have passed : placements (l + 1) (ins place (.label l) :: cn) = 0 := by
    rw [placements_cons, nfree]
    simp [Op.marks]
  rw [List.append_assoc, List.append_assoc]
  refine h.behind fun rest stack v => ?_
  have jumpIf := Constant.run_jumpIf false skipped place place
    (cn ++ ins place (.label (l + 1)) :: rest) v stack
  have jump := Constant.run_jump passed place place rest
  simp only [List.append_assoc, List.cons_append, List.nil_append] at jumpIf jump ⊢
  refine jumpIf.trans ?_
  cases v.truthy with
  | true =>
    refine (hy _ stack).trans ?_
    congr 1
    funext w
    exact jump (w :: stack)
  | false =>
    refine (hn _ stack).trans ?_
    congr 1
    funext w
    exact Constant.run_label ..

end Pushes

/-- The code of an expression pushes the value of the tree. -/
theorem pushes_lowerExpr : ∀ (e : Expr) {l l' : Label} {code : List Instruction},
    firstCall? e = none → (lowerExpr none e).run l = .ok (code, l') → Pushes code (constantValue e)
  | .literal i v, l, l', code, _, hrun => by
    obtain ⟨rfl, rfl⟩ := lowerExpr_literal_run_eq hrun
    exact fun rest stack => Constant.run_cons rfl ..
  | .variable i b, l, l', code, _, hrun => by
    obtain ⟨rfl, rfl⟩ := lowerExpr_variable_run_eq hrun
    cases b <;> exact fun rest stack => Constant.run_cons rfl ..
  | .unary i op e, l, l', code, calls, hrun => by
    obtain ⟨c, hc, rfl⟩ := lowerExpr_unary_run_eq hrun
    rw [constantValue]
    exact (pushes_lowerExpr e calls hc).behind fun rest stack v =>
      Constant.run_operation rfl rfl rest
  | .binary i op a b, l, l', code, calls, hrun => by
    obtain ⟨acalls, bcalls⟩ := Option.or_eq_none_iff.1 calls
    cases hop : op.isLogical with
    | true =>
      obtain ⟨ca, m, cb, ha, hb, rfl⟩ := lowerExpr_logical_run_eq hop hrun
      have pa := lowerExpr_none_places acalls ha
      have pb := lowerExpr_none_places bcalls hb
      rw [constantValue_logical i hop]
      exact (pushes_lowerExpr a acalls ha).shortCircuit (pushes_lowerExpr b bcalls hb)
        (pb.placements_eq_zero (.inl (by have := pa.le; omega))) i.location _
    | false =>
      obtain ⟨ca, m, cb, ha, hb, rfl⟩ := lowerExpr_binary_run_eq hop hrun
      rw [constantValue_binary i hop, List.append_assoc]
      refine (pushes_lowerExpr a acalls ha).behind fun rest stack v => ?_
      rw [List.append_assoc, pushes_lowerExpr b bcalls hb, bind_assoc]
      congr 1
      funext w
      exact Constant.run_operation rfl rfl rest
  | .cast i e, l, l', code, calls, hrun => by
    obtain ⟨c, hc, rfl⟩ := lowerExpr_cast_run_eq hrun
    rw [constantValue]
    by_cases same : e.ty = i.ty
    · simp only [if_pos same, bind_pure]
      exact pushes_lowerExpr e calls hc
    · simp only [if_neg same]
      exact (pushes_lowerExpr e calls hc).behind fun rest stack v =>
        Constant.run_operation rfl rfl rest
  | .ternary i c y n, l, l', code, calls, hrun => by
    obtain ⟨cc, m, cy, m', cn, hc, hy, hn, rfl⟩ := lowerExpr_ternary_run_eq hrun
    obtain ⟨ccalls, calls⟩ := Option.or_eq_none_iff.1 calls
    obtain ⟨ycalls, ncalls⟩ := Option.or_eq_none_iff.1 calls
    have pc := lowerExpr_none_places ccalls hc
    have py := lowerExpr_none_places ycalls hy
    have pn := lowerExpr_none_places ncalls hn
    have cle := pc.le
    have yle := py.le
    rw [constantValue]
    exact (pushes_lowerExpr c ccalls hc).choice (pushes_lowerExpr y ycalls hy)
      (pushes_lowerExpr n ncalls hn) (py.placements_eq_zero (.inl (by omega)))
      (pn.placements_eq_zero (.inl (by omega))) i.location
  | .call i f args, l, l', code, calls, hrun => by
    cases calls

/-! ### What evaluation comes to -/

/-- An expression without calls evaluates to what its tree says. -/
theorem evaluate_of_no_call {e : Expr} (calls : firstCall? e = none) :
    evaluate e = constantValue e := by
  have refused := lowerExpr_refused e
  rw [calls] at refused
  obtain ⟨⟨code, l⟩, hrun⟩ := refused 0
  have run := pushes_lowerExpr e calls hrun [] []
  rw [List.append_nil] at run
  rw [evaluate, hrun]
  change (Constant.run code [] >>= _) = _
  rw [run]
  cases constantValue e with
  | error _ => rfl
  | ok v =>
    change (Constant.run [] [v] >>= _) = _
    rw [Constant.run]
    rfl

/-- The first call of an expression is refused, whatever else it contains. -/
theorem evaluate_of_call {e : Expr} {place : Location} (call : firstCall? e = some place) :
    evaluate e = .error (.notConstant "a function call" place) := by
  have refused := lowerExpr_refused e
  rw [call] at refused
  rw [evaluate, refused 0]
  rfl

/-- Evaluation of an expression comes to a part of it: what is evaluated before the part has a
value, and the part is in no side that is not chosen. -/
inductive ComesTo : Expr → Expr → Prop
  | self (e : Expr) : ComesTo e e
  | unary {i : Bound.Info} {op : UnaryOp} {e p : Expr} (inside : ComesTo e p) :
      ComesTo (.unary i op e) p
  | cast {i : Bound.Info} {e p : Expr} (inside : ComesTo e p) : ComesTo (.cast i e) p
  | left {i : Bound.Info} {op : BinaryOp} {l r p : Expr} (inside : ComesTo l p) :
      ComesTo (.binary i op l r) p
  | right {i : Bound.Info} {op : BinaryOp} {l r p : Expr} {v : Value}
      (before : constantValue l = .ok v)
      (undecided : op.isLogical = true → v.truthy ≠ (op == .or)) (inside : ComesTo r p) :
      ComesTo (.binary i op l r) p
  | cond {i : Bound.Info} {c y n p : Expr} (inside : ComesTo c p) : ComesTo (.ternary i c y n) p
  | yes {i : Bound.Info} {c y n p : Expr} {v : Value} (before : constantValue c = .ok v)
      (chosen : v.truthy = true) (inside : ComesTo y p) : ComesTo (.ternary i c y n) p
  | no {i : Bound.Info} {c y n p : Expr} {v : Value} (before : constantValue c = .ok v)
      (chosen : v.truthy = false) (inside : ComesTo n p) : ComesTo (.ternary i c y n) p

/-- The operation that an expression is fails on the values of its operands. -/
inductive OperationFails : Expr → ValueError → Prop
  | unary {i : Bound.Info} {op : UnaryOp} {e : Expr} {v : Value} {x : ValueError}
      (operand : constantValue e = .ok v) (fails : Value.unary op v = .error x) :
      OperationFails (.unary i op e) x
  | binary {i : Bound.Info} {op : BinaryOp} {l r : Expr} {v w : Value} {x : ValueError}
      (both : op.isLogical = false) (left : constantValue l = .ok v)
      (right : constantValue r = .ok w) (fails : Value.binary op v w = .error x) :
      OperationFails (.binary i op l r) x
  | cast {i : Bound.Info} {e : Expr} {v : Value} {x : ValueError} (differ : e.ty ≠ i.ty)
      (operand : constantValue e = .ok v) (fails : v.cast i.ty = .error x) :
      OperationFails (.cast i e) x

/-- A variable has no value, and an operation none if it fails. -/
inductive Stops : Expr → LoweringError → Prop
  | name (i : Bound.Info) (b : Binding) :
      Stops (.variable i b) (.notConstant "a variable" i.location)
  | operation {p : Expr} {x : ValueError} (fails : OperationFails p x) :
      Stops p (.evaluation x p.location)

/-- Why an expression has no value: it contains a call, or evaluation comes to a part that has
none. -/
inductive Rejects (e : Expr) : LoweringError → Prop
  | call {place : Location} (call : firstCall? e = some place) :
      Rejects e (.notConstant "a function call" place)
  | part {p : Expr} {err : LoweringError} (calls : firstCall? e = none) (comes : ComesTo e p)
      (stops : Stops p err) : Rejects e err

theorem resultAt_eq_error {place : Location} {r : Except ValueError Value} {err : LoweringError} :
    resultAt place r = .error err ↔ ∃ x, r = .error x ∧ err = .evaluation x place := by
  cases r with
  | ok v => exact ⟨nofun, fun ⟨_, h, _⟩ => nomatch h⟩
  | error x =>
    constructor
    · intro h
      cases h
      exact ⟨x, rfl, rfl⟩
    · rintro ⟨_, ⟨⟩, rfl⟩
      rfl

theorem OperationFails.constantValue_eq {p : Expr} {x : ValueError} (h : OperationFails p x) :
    constantValue p = .error (.evaluation x p.location) := by
  cases h with
  | unary operand fails =>
    rw [constantValue, operand]
    exact resultAt_eq_error.2 ⟨x, fails, rfl⟩
  | binary both left right fails =>
    rw [constantValue_binary _ both, left, right]
    exact resultAt_eq_error.2 ⟨x, fails, rfl⟩
  | cast differ operand fails =>
    simp only [constantValue, operand, if_neg differ]
    exact resultAt_eq_error.2 ⟨x, fails, rfl⟩

theorem Stops.constantValue_eq {p : Expr} {err : LoweringError} (h : Stops p err) :
    constantValue p = .error err := by
  cases h with
  | name i b => rw [constantValue]; rfl
  | operation fails => exact fails.constantValue_eq

/-- The error of a part that evaluation comes to is the error of the whole. -/
theorem ComesTo.constantValue_eq {e p : Expr} (h : ComesTo e p) {err : LoweringError}
    (fails : constantValue p = .error err) : constantValue e = .error err := by
  induction h with
  | self => exact fails
  | unary inside ih => rw [constantValue, ih fails]; rfl
  | cast inside ih => rw [constantValue, ih fails]; rfl
  | left inside ih => rw [constantValue, ih fails]; rfl
  | @right i op l r p v before undecided inside ih =>
    cases hop : op.isLogical with
    | true =>
      rw [constantValue_logical _ hop, before]
      exact (if_neg (undecided hop)).trans (ih fails)
    | false => rw [constantValue_binary _ hop, before, ih fails]; rfl
  | cond inside ih => rw [constantValue, ih fails]; rfl
  | yes before chosen inside ih =>
    rw [constantValue, before]
    exact (if_pos chosen).trans (ih fails)
  | no before chosen inside ih =>
    rw [constantValue, before]
    exact (if_neg (by rw [chosen]; decide)).trans (ih fails)

/-- The parts that evaluation comes to are constant if the whole is. -/
theorem ComesTo.isConstant {e p : Expr} (h : ComesTo e p) (constant : isConstant e = true) :
    Code.isConstant p = true := by
  induction h with
  | self => exact constant
  | unary inside ih => exact ih constant
  | cast inside ih => exact ih constant
  | left inside ih => exact ih ((Bool.and_eq_true _ _).mp constant).1
  | right _ _ inside ih => exact ih ((Bool.and_eq_true _ _).mp constant).2
  | cond inside ih =>
    exact ih ((Bool.and_eq_true _ _).mp ((Bool.and_eq_true _ _).mp constant).1).1
  | yes _ _ inside ih =>
    exact ih ((Bool.and_eq_true _ _).mp ((Bool.and_eq_true _ _).mp constant).1).2
  | no _ _ inside ih => exact ih ((Bool.and_eq_true _ _).mp constant).2

/-- If an expression without calls has no value, evaluation comes to a part that has none. -/
theorem stops_of_constantValue : ∀ (e : Expr) {err : LoweringError}, firstCall? e = none →
    constantValue e = .error err → ∃ p, ComesTo e p ∧ Stops p err
  | .literal i v, err, _, h => by
    rw [constantValue] at h
    cases h
  | .variable i b, err, _, h => by
    rw [constantValue] at h
    cases h
    exact ⟨_, .self _, .name i b⟩
  | .unary i op e, err, calls, h => by
    rw [constantValue] at h
    obtain inner | ⟨v, operand, h⟩ := of_bind_eq_error h
    · obtain ⟨p, comes, stops⟩ := stops_of_constantValue e calls inner
      exact ⟨p, .unary comes, stops⟩
    · obtain ⟨x, fails, rfl⟩ := resultAt_eq_error.1 h
      exact ⟨_, .self _, .operation (.unary operand fails)⟩
  | .binary i op l r, err, calls, h => by
    obtain ⟨lcalls, rcalls⟩ := Option.or_eq_none_iff.1 calls
    have onLeft (inner : constantValue l = .error err) :
        ∃ p, ComesTo (.binary i op l r) p ∧ Stops p err := by
      obtain ⟨p, comes, stops⟩ := stops_of_constantValue l lcalls inner
      exact ⟨p, .left comes, stops⟩
    have onRight {v : Value} (before : constantValue l = .ok v)
        (undecided : op.isLogical = true → v.truthy ≠ (op == .or))
        (inner : constantValue r = .error err) :
        ∃ p, ComesTo (.binary i op l r) p ∧ Stops p err := by
      obtain ⟨p, comes, stops⟩ := stops_of_constantValue r rcalls inner
      exact ⟨p, .right before undecided comes, stops⟩
    cases hop : op.isLogical with
    | true =>
      rw [constantValue_logical i hop] at h
      obtain inner | ⟨v, before, h⟩ := of_bind_eq_error h
      · exact onLeft inner
      · split at h
        · cases h
        · next decided => exact onRight before (fun _ => decided) h
    | false =>
      rw [constantValue_binary i hop] at h
      obtain inner | ⟨v, before, h⟩ := of_bind_eq_error h
      · exact onLeft inner
      · obtain inner | ⟨w, after, h⟩ := of_bind_eq_error h
        · exact onRight before (fun logical => nomatch hop.symm.trans logical) inner
        · obtain ⟨x, fails, rfl⟩ := resultAt_eq_error.1 h
          exact ⟨_, .self _, .operation (.binary hop before after fails)⟩
  | .cast i e, err, calls, h => by
    rw [constantValue] at h
    obtain inner | ⟨v, operand, h⟩ := of_bind_eq_error h
    · obtain ⟨p, comes, stops⟩ := stops_of_constantValue e calls inner
      exact ⟨p, .cast comes, stops⟩
    · split at h
      · cases h
      · next differ =>
        obtain ⟨x, fails, rfl⟩ := resultAt_eq_error.1 h
        exact ⟨_, .self _, .operation (.cast differ operand fails)⟩
  | .ternary i c y n, err, calls, h => by
    obtain ⟨ccalls, calls⟩ := Option.or_eq_none_iff.1 calls
    obtain ⟨ycalls, ncalls⟩ := Option.or_eq_none_iff.1 calls
    rw [constantValue] at h
    obtain inner | ⟨v, before, h⟩ := of_bind_eq_error h
    · obtain ⟨p, comes, stops⟩ := stops_of_constantValue c ccalls inner
      exact ⟨p, .cond comes, stops⟩
    · split at h
      · next chosen =>
        obtain ⟨p, comes, stops⟩ := stops_of_constantValue y ycalls h
        exact ⟨p, .yes before chosen comes, stops⟩
      · next chosen =>
        obtain ⟨p, comes, stops⟩ := stops_of_constantValue n ncalls h
        exact ⟨p, .no before (eq_false_of_ne_true chosen) comes, stops⟩
  | .call i f args, err, calls, h => by cases calls

/-- An expression of literals, operators, casts and conditionals evaluates to the value of its tree.
If it has none, an operation that evaluation comes to fails, and is the place of the error. -/
theorem evaluate_constant {e : Expr} (constant : isConstant e = true) :
    evaluate e = constantValue e ∧ ∀ err, evaluate e = .error err →
      ∃ p x, ComesTo e p ∧ OperationFails p x ∧ err = .evaluation x p.location := by
  have calls := firstCall?_of_isConstant constant
  have same := evaluate_of_no_call calls
  refine ⟨same, fun err h => ?_⟩
  obtain ⟨p, comes, stops⟩ := stops_of_constantValue e calls (same.symm.trans h)
  cases stops with
  | name i b => cases comes.isConstant constant
  | operation fails => exact ⟨p, _, comes, fails, rfl⟩

/-- `true && 0 ? 1 : (i64) (7 / 0)`, whose last operation stands at a place of its own. -/
def dividing : Expr :=
  let place (column : Nat) : Location := ⟨"t", column, 1, column + 1⟩
  let number (n : Int) (column : Nat) : Expr :=
    .literal ⟨.int .i32, place column⟩ (.ofInt .i32 n)
  .ternary ⟨.int .i64, place 10⟩
    (.binary ⟨.bool, place 5⟩ .and (.literal ⟨.bool, place 0⟩ (.bool true)) (number 0 8))
    (number 1 12)
    (.cast ⟨.int .i64, place 16⟩ (.binary ⟨.int .i32, place 25⟩ .div (number 7 23) (number 0 27)))

theorem evaluate_dividing :
    evaluate dividing = .error (.evaluation .divisionByZero ⟨"t", 25, 1, 26⟩) :=
  (evaluate_constant (e := dividing) rfl).1

/-- Evaluation fails in no other way than by a call anywhere, or a variable or a failing operation
that it comes to; and it gives no other value than that of the tree. -/
theorem evaluate_rejects_iff (e : Expr) :
    (∀ err, evaluate e = .error err ↔ Rejects e err) ∧
      ∀ v, evaluate e = .ok v ↔ firstCall? e = none ∧ constantValue e = .ok v := by
  cases calls : firstCall? e with
  | some place =>
    have same := evaluate_of_call calls
    refine ⟨fun err => ⟨fun h => ?_, fun h => ?_⟩, fun v => ⟨fun h => ?_, nofun⟩⟩
    · cases same.symm.trans h
      exact .call calls
    · cases h with
      | call call =>
        cases calls.symm.trans call
        exact same
      | part none _ _ => cases calls.symm.trans none
    · cases same.symm.trans h
  | none =>
    have same := evaluate_of_no_call calls
    refine ⟨fun err => ⟨fun h => ?_, fun h => ?_⟩, fun v => by simp [same]⟩
    · obtain ⟨p, comes, stops⟩ := stops_of_constantValue e calls (same.symm.trans h)
      exact .part calls comes stops
    · cases h with
      | call call => cases calls.symm.trans call
      | part _ comes stops => exact same.trans (comes.constantValue_eq stops.constantValue_eq)

/-- `true ? 1 : x` -/
def choosing : Expr :=
  .ternary ⟨.int .i32, .unknown⟩ (.literal ⟨.bool, .unknown⟩ (.bool true))
    (.literal ⟨.int .i32, .unknown⟩ (.ofInt .i32 1)) (.variable ⟨.int .i32, .unknown⟩ (.local 0))

/-- A variable that evaluation does not come to goes unnoticed. -/
theorem evaluate_choosing : evaluate choosing = .ok (.ofInt .i32 1) :=
  ((evaluate_rejects_iff choosing).2 _).2 ⟨rfl, rfl⟩

end ScriptLang.Code
