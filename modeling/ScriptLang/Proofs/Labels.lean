import Mathlib.Tactic.SplitIfs
import ScriptLang.Proofs.LoweredCode

/-!
# Labels of lowered code

Lowering numbers labels in order, and marks each label that it takes exactly once
(`lowerStmts_places`).  So no label is marked twice in the code of a function
(`Lowered.placements_le_one`), and every way of looking one up finds the same place.
-/

namespace ScriptLang.Code

open ScriptLang.Bound (Expr Stmt Branches Binding)

/-- How often the code marks the label `k`. -/
def placements (k : Nat) (code : List Instruction) : Nat := code.countP fun i => i.op.marks k

@[simp] theorem placements_nil (k : Nat) : placements k [] = 0 := rfl

theorem placements_cons (k : Nat) (i : Instruction) (code : List Instruction) :
    placements k (i :: code) = placements k code + if i.op.marks k then 1 else 0 :=
  List.countP_cons

@[simp] theorem placements_append (k : Nat) (a b : List Instruction) :
    placements k (a ++ b) = placements k a + placements k b :=
  List.countP_append

@[simp] theorem ins_op (place : Location) (op : Op) : (ins place op).op = op := rfl

/-- Labels are compared as the numbers that they are. -/
theorem label_beq_eq_true {a b : Nat} :
    (instBEqOfDecidableEq : BEq Label).beq a b = true ↔ a = b :=
  beq_iff_eq

theorem marks_of_not_isLabel {op : Op} (h : op.isLabel = false) (k : Nat) : op.marks k = false := by
  cases op <;> first | rfl | cases h

/-- The code marks exactly the labels from `l` up to `l'`, each once. -/
structure Places (code : List Instruction) (l l' : Nat) : Prop where
  le : l ≤ l'
  count : ∀ k, placements k code = if l ≤ k ∧ k < l' then 1 else 0

theorem Places.nil (l : Nat) : Places [] l l := by
  refine ⟨Nat.le_refl l, fun k => ?_⟩
  rw [if_neg (by omega)]
  rfl

theorem Places.append {a b : List Instruction} {l m l' : Nat} (ha : Places a l m)
    (hb : Places b m l') : Places (a ++ b) l l' := by
  refine ⟨Nat.le_trans ha.le hb.le, fun k => ?_⟩
  have h1 := ha.le
  have h2 := hb.le
  rw [placements_append, ha.count, hb.count]
  split_ifs <;> omega

/-- An instruction that marks nothing. -/
theorem Places.ins {op : Op} (h : op.isLabel = false) (place : Location) (l : Nat) :
    Places [ins place op] l l := by
  refine ⟨Nat.le_refl l, fun k => ?_⟩
  rw [placements_cons, ins_op, marks_of_not_isLabel h, placements_nil,
    if_neg (show ¬ (l ≤ k ∧ k < l) by omega)]
  rfl

/-- An instruction that marks nothing can be put behind. -/
theorem Places.concat {code : List Instruction} {l l' : Nat} {op : Op} (hc : Places code l l')
    (h : op.isLabel = false) (place : Location) : Places (code ++ [Code.ins place op]) l l' :=
  hc.append (.ins h place l')

/-! ### Expressions -/

theorem pushVariable_isLabel (b : Binding) : (pushVariable b).isLabel = false := by
  cases b <;> rfl

theorem popVariable_isLabel (b : Binding) : (popVariable b).isLabel = false := by
  cases b <;> rfl

theorem callOp_isLabel (f : Bound.Function) (argc : Nat) : (callOp f argc).isLabel = false := by
  unfold callOp
  split <;> rfl

theorem shortCircuitCode_places {place : Location} {decisive : Bool} {l m l' : Nat}
    {a b : List Instruction} (ha : Places a (l + 2) m) (hb : Places b m l') :
    Places (shortCircuitCode place decisive l a b) l l' := by
  have h1 := ha.le
  have h2 := hb.le
  refine ⟨by omega, fun k => ?_⟩
  cases decisive <;>
    simp only [shortCircuitCode, placements_append, placements_cons, placements_nil, ins_op,
      Op.marks,
      label_beq_eq_true, Bool.false_eq_true, reduceIte, ha.count, hb.count] <;>
    split_ifs <;> omega

variable {program : Bound.Program}

mutual

theorem lowerExpr_places : ∀ (e : Expr) {l l' : Nat} {code : List Instruction},
    (lowerExpr (some program) e).run l = .ok (code, l') → Places code l l'
  | .literal i v, l, l', code, h => by
    obtain ⟨rfl, rfl⟩ := lowerExpr_literal_run_eq h
    exact .ins rfl _ _
  | .variable i b, l, l', code, h => by
    obtain ⟨rfl, rfl⟩ := lowerExpr_variable_run_eq h
    exact .ins (pushVariable_isLabel b) _ _
  | .unary i op e, l, l', code, h => by
    obtain ⟨c, hc, rfl⟩ := lowerExpr_unary_run_eq h
    exact (lowerExpr_places e hc).concat rfl _
  | .binary i op a b, l, l', code, h => by
    cases hop : op.isLogical with
    | true =>
      obtain ⟨ca, m, cb, ha, hb, rfl⟩ := lowerExpr_logical_run_eq hop h
      exact shortCircuitCode_places (lowerExpr_places a ha) (lowerExpr_places b hb)
    | false =>
      obtain ⟨ca, m, cb, ha, hb, rfl⟩ := lowerExpr_binary_run_eq hop h
      exact ((lowerExpr_places a ha).append (lowerExpr_places b hb)).concat rfl _
  | .cast i e, l, l', code, h => by
    obtain ⟨c, hc, rfl⟩ := lowerExpr_cast_run_eq h
    split
    · exact lowerExpr_places e hc
    · exact (lowerExpr_places e hc).concat rfl _
  | .ternary i c y n, l, l', code, h => by
    obtain ⟨cc, m, cy, m', cn, hc, hy, hn, rfl⟩ := lowerExpr_ternary_run_eq h
    have pc := lowerExpr_places c hc
    have py := lowerExpr_places y hy
    have pn := lowerExpr_places n hn
    have h1 := pc.le
    have h2 := py.le
    have h3 := pn.le
    refine ⟨by omega, fun k => ?_⟩
    simp only [placements_append, placements_cons, placements_nil, ins_op, Op.marks,
      label_beq_eq_true, Bool.false_eq_true, ite_false, pc.count, py.count, pn.count]
    split_ifs <;> omega
  | .call i f args, l, l', code, h => by
    obtain ⟨g, c, _, hc, rfl⟩ := lowerExpr_call_run_eq h
    exact (lowerArgs_places args hc).concat (callOp_isLabel g _) _

theorem lowerArgs_places : ∀ (es : List Expr) {l l' : Nat} {code : List Instruction},
    (lowerArgs (some program) es).run l = .ok (code, l') → Places code l l'
  | [], l, l', code, h => by
    obtain ⟨rfl, rfl⟩ := lowerArgs_nil_run_eq h
    exact .nil _
  | e :: es, l, l', code, h => by
    obtain ⟨c, m, cs, hc, hcs, rfl⟩ := lowerArgs_cons_run_eq h
    exact (lowerExpr_places e hc).append (lowerArgs_places es hcs)

end

/-! ### Statements -/

mutual

theorem lowerStmt_places : ∀ (s : Stmt) {loop : Option LoopLabels} {l l' : Nat}
    {code : List Instruction},
    (lowerStmt program loop s).run l = .ok (code, l') → Places code l l'
  | .block _ body, loop, l, l', code, h => lowerStmts_places body h
  | .assign _ target e, loop, l, l', code, h => by
    obtain ⟨c, hc, rfl⟩ := lowerStmt_assign_run_eq h
    exact (lowerExpr_places e hc).concat (popVariable_isLabel target) _
  | .expr _ e, loop, l, l', code, h => by
    obtain ⟨c, hc, rfl⟩ := lowerStmt_expr_run_eq h
    split
    · exact lowerExpr_places e hc
    · exact (lowerExpr_places e hc).concat rfl _
  | .cond _ branches, loop, l, l', code, h => by
    obtain ⟨c, hc, rfl⟩ := lowerStmt_cond_run_eq h
    have p := lowerBranches_places branches hc
    have h1 := p.le
    refine ⟨by omega, fun k => ?_⟩
    simp only [placements_append, placements_cons, placements_nil, ins_op, Op.marks,
      label_beq_eq_true, p.count]
    split_ifs <;> omega
  | .while _ c body, loop, l, l', code, h => by
    obtain ⟨cc, m, cb, hc, hb, rfl⟩ := lowerStmt_while_run_eq h
    have pc := lowerExpr_places c hc
    have pb := lowerStmts_places body hb
    have h1 := pc.le
    have h2 := pb.le
    refine ⟨by omega, fun k => ?_⟩
    simp only [List.cons_append, placements_append, placements_cons, placements_nil, ins_op,
      Op.marks,
      label_beq_eq_true, Bool.false_eq_true, ite_false, pc.count, pb.count]
    split_ifs <;> omega
  | .loop _ body, loop, l, l', code, h => by
    obtain ⟨cb, hb, rfl⟩ := lowerStmt_loop_run_eq h
    have pb := lowerStmts_places body hb
    have h1 := pb.le
    refine ⟨by omega, fun k => ?_⟩
    simp only [List.cons_append, placements_append, placements_cons, placements_nil, ins_op,
      Op.marks,
      label_beq_eq_true, Bool.false_eq_true, ite_false, pb.count]
    split_ifs <;> omega
  | .for _ var limit a z body, loop, l, l', code, h => by
    obtain ⟨ca, m, cz, m', cb, ha, hz, hb, rfl⟩ := lowerStmt_for_run_eq h
    have pa := lowerExpr_places a ha
    have pz := lowerExpr_places z hz
    have pb := lowerStmts_places body hb
    have h1 := pa.le
    have h2 := pz.le
    have h3 := pb.le
    refine ⟨by omega, fun k => ?_⟩
    simp only [forCode, placements_append, placements_cons, placements_nil, ins_op, Op.marks,
      label_beq_eq_true, Bool.false_eq_true, ite_false, pa.count, pz.count, pb.count]
    split_ifs <;> omega
  | .ret _ none, loop, l, l', code, h => by
    obtain ⟨rfl, rfl⟩ := lowerStmt_ret_none_run_eq h
    exact .ins rfl _ _
  | .ret _ (some e), loop, l, l', code, h => by
    obtain ⟨c, hc, rfl⟩ := lowerStmt_ret_some_run_eq h
    exact (lowerExpr_places e hc).concat rfl _
  | .break _, loop, l, l', code, h => by
    rw [lowerStmt] at h
    obtain ⟨rfl, labels, _, rfl⟩ := loopTarget_run_eq h
    exact .ins rfl _ _
  | .continue _, loop, l, l', code, h => by
    rw [lowerStmt] at h
    obtain ⟨rfl, labels, _, rfl⟩ := loopTarget_run_eq h
    exact .ins rfl _ _

theorem lowerBranches_places : ∀ (bs : Branches) {loop : Option LoopLabels} {place : Location}
    {done l l' : Nat} {code : List Instruction},
    (lowerBranches program loop place done bs).run l = .ok (code, l') → Places code l l'
  | .none, loop, place, done, l, l', code, h => by
    obtain ⟨rfl, rfl⟩ := lowerBranches_none_run_eq h
    exact .nil _
  | .otherwise body, loop, place, done, l, l', code, h => lowerStmts_places body h
  | .branch c body rest, loop, place, done, l, l', code, h => by
    obtain ⟨cc, m, cb, m', cr, hc, hb, hr, rfl⟩ := lowerBranches_branch_run_eq h
    have pc := lowerExpr_places c hc
    have pb := lowerStmts_places body hb
    have pr := lowerBranches_places rest hr
    have h1 := pc.le
    have h2 := pb.le
    have h3 := pr.le
    refine ⟨by omega, fun k => ?_⟩
    simp only [placements_append, placements_cons, ins_op, Op.marks,
      label_beq_eq_true, Bool.false_eq_true, ite_false, pc.count, pb.count, pr.count]
    split_ifs <;> omega

theorem lowerStmts_places : ∀ (ss : List Stmt) {loop : Option LoopLabels} {l l' : Nat}
    {code : List Instruction},
    (lowerStmts program loop ss).run l = .ok (code, l') → Places code l l'
  | [], loop, l, l', code, h => by
    obtain ⟨rfl, rfl⟩ := lowerStmts_nil_run_eq h
    exact .nil _
  | s :: ss, loop, l, l', code, h => by
    obtain ⟨c, m, cs, hc, hcs, rfl⟩ := lowerStmts_cons_run_eq h
    exact (lowerStmt_places s hc).append (lowerStmts_places ss hcs)

end

/-! ### Functions -/

theorem finalReturn_placements (ret : Ty) (place : Location) (k : Nat) :
    placements k (finalReturn ret place) = 0 := by
  unfold finalReturn
  split <;> rfl

/-- No label is placed twice in a function. -/
theorem Lowered.placements_le_one {f : Bound.Function} {g : Function} (h : Lowered program f g)
    (k : Nat) : placements k g.code ≤ 1 := by
  have hk := h.kind
  unfold Function.code
  cases hg : g.kind with
  | native symbol => exact Nat.zero_le 1
  | intrinsic i => exact Nat.zero_le 1
  | body code =>
    rw [hg] at hk
    cases hk with
    | body written lowered =>
      obtain ⟨c, l, hc, hcode⟩ := lowerBody_eq_ok lowered
      have placed : placements k c ≤ 1 := by
        rw [(lowerStmts_places _ hc).count]
        split_ifs <;> omega
      obtain ⟨rfl, _⟩ | ⟨place, rfl⟩ := hcode
      · exact placed
      · rw [placements_append, finalReturn_placements]
        exact placed

theorem lowerGlobals_places : ∀ (gs : List Bound.Global) {id l l' : Nat} {code : List Instruction},
    (lowerGlobals program id gs).run l = .ok (code, l') → Places code l l'
  | [], id, l, l', code, h => by
    obtain ⟨rfl, rfl⟩ := lowerGlobals_nil_run_eq h
    exact .nil _
  | g :: gs, id, l, l', code, h => by
    cases hg : g.init with
    | none => exact lowerGlobals_places gs (lowerGlobals_none_run_eq hg h)
    | some e =>
      obtain ⟨c, m, cs, hc, hcs, rfl⟩ := lowerGlobals_some_run_eq hg h
      exact ((lowerExpr_places e hc).concat rfl _).append (lowerGlobals_places gs hcs)

theorem lowerInit_placements_le_one {g : Function} (h : lowerInit program = .ok g) (k : Nat) :
    placements k g.code ≤ 1 := by
  obtain ⟨c, l, place, hc, _, _, _, hk⟩ := lowerInit_eq_ok h
  rw [Function.code, hk, placements_append, (lowerGlobals_places _ hc).count]
  simp only [placements_cons, placements_nil, ins_op, Op.marks, Bool.false_eq_true, ite_false]
  split_ifs <;> omega

end ScriptLang.Code
