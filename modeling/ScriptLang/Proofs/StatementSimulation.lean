import ScriptLang.Proofs.Simulation

/-!
# The machine follows the evaluation of statements

The code of a statement leaves no operands behind.  A statement that does not end normally leaves
the machine before a jump to a label of the innermost loop or before a return; loops are followed
round by round (`goRound_simulates`), whatever their condition and their body do as long as their
code does it too (`whileRound_simulates`, `countRound_simulates`).
-/

namespace ScriptLang.Machine

open Bound (Binding Branches Call Completion Env Eval Expr Setting Stmt Store Stores roundOf)
open Code (CodeAt Instruction LoopLabels codeAt_append codeAt_cons ins lowerBranches lowerStmt
  lowerStmts)

variable {image : Image} {max : Nat} {s : Setting} {t : Activation image} {call : Call}
  {types : List Ty} {Γ : Env} {ret : Ty}

/-! ### How statements end -/

/-- A value of the type `ret` is returned, or none if that is `void`. -/
def Returns (ret : Ty) : Option Value → Prop
  | none => ret = .void
  | some v => v.type = ret ∧ ret ≠ .void

/-- Where the machine stands after statements that ended so. -/
def Completed (t : Activation image) (Γ : Env) (loop : Option LoopLabels) (ret : Ty) (fin : Nat) :
    Completion → Store → Config → Prop
  | .normal, σ, c => σ.Fits Γ ∧ c = t.config σ fin []
  | .broke, σ, c => σ.Fits Γ ∧ ∃ labels pc place, loop = some labels ∧
      t.code[pc]? = some (ins place (.jump labels.breakTo)) ∧ c = t.config σ pc []
  | .continued, σ, c => σ.Fits Γ ∧ ∃ labels pc place, loop = some labels ∧
      t.code[pc]? = some (ins place (.jump labels.continueTo)) ∧ c = t.config σ pc []
  | .returned v, σ, c => σ.Fits Γ ∧ Returns ret v ∧ ∃ pc place,
      t.code[pc]? = some (ins place (.ret v.isSome)) ∧ c = t.config σ pc v.toList

/-- After statements that ended normally the run goes on from `fin` to `fin'`. -/
theorem Simulates.completed {loop : Option LoopLabels} {c : Config} {fin fin' : Nat}
    {r : EStateM.Result Bound.Stop Store Completion}
    (h : Simulates image max c r (Completed t Γ loop ret fin))
    (hnext : ∀ σ, Reaches image max (t.config σ fin []) (t.config σ fin' [])) :
    Simulates image max c r (Completed t Γ loop ret fin') := by
  refine h.trans fun ending σ c' _ hc => ?_
  cases ending with
  | normal =>
    obtain ⟨hσ, rfl⟩ := hc
    exact ⟨_, ⟨hσ, rfl⟩, hnext σ⟩
  | broke => exact ⟨c', hc, .refl c'⟩
  | continued => exact ⟨c', hc, .refl c'⟩
  | returned v => exact ⟨c', hc, .refl c'⟩

/-! ### Loops -/

/-- Where the machine stands after a round: before the next one at `top`, or where the loop leaves
it. -/
def AfterRound (t : Activation image) (Γ : Env) (top : Nat)
    (K : Completion → Store → Config → Prop) :
    Option Completion → Store → Config → Prop
  | none, σ, c => σ.Fits Γ ∧ c = t.config σ top []
  | some ending, σ, c => K ending σ c

/-- A loop is followed if each of its rounds is. -/
theorem goRound_simulates {round : Eval (Option Completion)} {top : Nat}
    {K : Completion → Store → Config → Prop}
    (h : ∀ σ, σ.Fits Γ → Simulates image max (t.config σ top []) (round σ) (AfterRound t Γ top K)) :
    ∀ (rounds : Nat) (σ : Store), σ.Fits Γ →
      Simulates image max (t.config σ top []) (Bound.goRound round rounds σ) K := by
  intro rounds
  induction rounds with
  | zero =>
    intro σ _
    trivial
  | succ rounds ih =>
    intro σ hσ
    rw [Bound.goRound]
    refine (h σ hσ).bind fun next σ' c' hc => ?_
    cases next with
    | none =>
      obtain ⟨hσ', rfl⟩ := hc
      exact ih σ' hσ'
    | some ending => exact .pure hc

/-- The body of a loop is one round of it: from the body's end and from the label for `continue` the
run goes on to `next`, from the label for `break` to `out`. -/
theorem roundOf_simulates {body : Eval Completion} {labels : LoopLabels} (loop : Option LoopLabels)
    {c : Config} {σ : Store} {fin again left next out : Nat}
    (h : Simulates image max c (body σ) (Completed t Γ (some labels) ret fin))
    (hfin : ∀ σ, Reaches image max (t.config σ fin []) (t.config σ next []))
    (hagain : image.labelPlace? t.index labels.continueTo = some again)
    (hcontinue : ∀ σ, Reaches image max (t.config σ again []) (t.config σ next []))
    (hleft : image.labelPlace? t.index labels.breakTo = some left)
    (hbreak : ∀ σ, Reaches image max (t.config σ left []) (t.config σ out [])) :
    Simulates image max c (roundOf body σ) (AfterRound t Γ next (Completed t Γ loop ret out)) := by
  refine h.bind fun ending σ' c' hc => ?_
  cases ending with
  | normal =>
    obtain ⟨hσ', rfl⟩ := hc
    exact .of_reaches (hfin σ') (.pure ⟨hσ', rfl⟩)
  | continued =>
    obtain ⟨hσ', _, pc, place, same, hjump, rfl⟩ := hc
    cases same
    exact .of_reaches ((Activation.reaches_jump hagain hjump).trans (hcontinue σ'))
      (.pure ⟨hσ', rfl⟩)
  | broke =>
    obtain ⟨hσ', _, pc, place, same, hjump, rfl⟩ := hc
    cases same
    refine .of_reaches ((Activation.reaches_jump hleft hjump).trans (hbreak σ')) ?_
    exact Simulates.pure (a := some Completion.normal) ⟨hσ', rfl⟩
  | returned v => exact Simulates.pure (a := some (Completion.returned v)) hc

/-! ### Counted loops -/

/-- The code that compares the counter with the limit. -/
theorem belowLimit_simulates {σ : Store} {place : Location} {var limit pc : Nat} {ty : Ty}
    (hvar : Γ.type? (.local var) = some ty) (hlimit : Γ.type? (.local limit) = some ty)
    (hσ : σ.Fits Γ)
    (hcode : CodeAt t.code pc
      [ins place (.pushLocal var), ins place (.pushLocal limit), ins place (.binary .lt)]) :
    Simulates image max (t.config σ pc []) (Bound.belowLimit place var limit σ)
      (Pushed t Γ (pc + 1 + 1 + 1) [] .bool) := by
  obtain ⟨hfirst, hsecond, hop, _⟩ := hcode
  refine (readVariable_simulates hvar hσ hfirst).bind ?_
  rintro v σ' c' ⟨hv, hσ', rfl⟩
  refine (readVariable_simulates hlimit hσ' hsecond).bind ?_
  rintro w σ'' c' ⟨_, hσ'', rfl⟩
  exact operate_simulates [w, v] rfl hσ'' (fun u hu => Value.binary_type hu) hop
    fun _ => rfl

/-- The code that adds one to the counter. -/
theorem countUp_simulates {σ : Store} {place : Location} {var pc : Nat} {ty : Ty}
    (hvar : Γ.type? (.local var) = some ty) (hσ : σ.Fits Γ)
    (hcode : CodeAt t.code pc
      [ins place (.pushLocal var), ins place (.pushConst (.wrap ty 1)), ins place (.binary .add),
        ins place (.popLocal var)]) :
    Simulates image max (t.config σ pc []) (Bound.countUp place var ty σ)
      (Done t Γ (pc + 1 + 1 + 1 + 1) []) := by
  obtain ⟨hread, hone, hop, hwrite, _⟩ := hcode
  refine (readVariable_simulates hvar hσ hread).bind ?_
  rintro v σ' c' ⟨hv, hσ', rfl⟩
  refine .of_reaches (Activation.reaches_pushConst hone) ?_
  have summed : ∀ u, Value.binary .add v (.wrap ty 1) = .ok u → u.type = ty := fun u hu =>
    (Value.binary_type hu).trans hv
  refine (operate_simulates [.wrap ty 1, v] rfl hσ' summed hop fun _ => rfl).bind ?_
  rintro w σ'' c' ⟨hw, hσ'', rfl⟩
  exact writeVariable_simulates (b := .local var) (by rw [hvar, hw]) hσ'' hwrite

/-! ### Rounds -/

section

variable {place : Location} {l : Code.Label} {body : Eval Completion} {top fin : Nat}

/-- A round of a loop with a condition begins at the label `l`, and goes on there or past the label
behind the loop. -/
theorem whileRound_simulates (hloads : Loads s.program s.bridge image) (loop : Option LoopLabels)
    {cond : Eval Value} {ty : Ty} {exit : Nat}
    (htop : t.code[top]? = some (ins place (.label l)))
    (hcond : ∀ σ, σ.Fits Γ →
      Simulates image max (t.config σ (top + 1) []) (cond σ) (Pushed t Γ exit [] ty))
    (hexit : t.code[exit]? = some (ins place (.jumpIfFalse (l + 1))))
    (hbody : ∀ σ, σ.Fits Γ → Simulates image max (t.config σ (exit + 1) []) (body σ)
      (Completed t Γ (some ⟨l, l + 1⟩) ret fin))
    (hback : t.code[fin]? = some (ins place (.jump l)))
    (hdone : t.code[fin + 1]? = some (ins place (.label (l + 1)))) {σ : Store}
    (hσ : σ.Fits Γ) :
    Simulates image max (t.config σ top []) (Bound.whileRound cond body σ)
      (AfterRound t Γ top (Completed t Γ loop ret (fin + 1 + 1))) := by
  have htop_at := labelPlace?_of_codeAt hloads htop
  have hdone_at := labelPlace?_of_codeAt hloads hdone
  refine .of_reaches (Activation.reaches_label htop) ?_
  refine (hcond σ hσ).bind ?_
  rintro v σ' c' ⟨_, hσ', rfl⟩
  refine .of_reaches (Activation.reaches_jumpIf false hdone_at hexit) ?_
  cases v.truthy with
  | true =>
    exact roundOf_simulates loop (hbody σ' hσ') (fun _ => Activation.reaches_jump htop_at hback)
      htop_at (fun _ => .refl _) hdone_at fun _ => Activation.reaches_label hdone
  | false =>
    refine .of_reaches (Activation.reaches_label hdone) ?_
    exact Simulates.pure (a := some Completion.normal) ⟨hσ', rfl⟩

/-- A round of a counted loop begins at the label `l` with the comparison, and goes on there once
the counter has been raised, or past the label behind the loop. -/
theorem countRound_simulates (hloads : Loads s.program s.bridge image) (loop : Option LoopLabels)
    {var limit : Nat} {ty : Ty} (hvar : Γ.type? (.local var) = some ty)
    (hlimit : Γ.type? (.local limit) = some ty)
    (hbefore : CodeAt t.code top [ins place (.label l), ins place (.pushLocal var),
      ins place (.pushLocal limit), ins place (.binary .lt), ins place (.jumpIfFalse (l + 2))])
    (hbody : ∀ σ, σ.Fits Γ → Simulates image max (t.config σ (top + 1 + 1 + 1 + 1 + 1) []) (body σ)
      (Completed t Γ (some ⟨l + 1, l + 2⟩) ret fin))
    (hbehind : CodeAt t.code fin [ins place (.label (l + 1)), ins place (.pushLocal var),
      ins place (.pushConst (.wrap ty 1)), ins place (.binary .add), ins place (.popLocal var),
      ins place (.jump l), ins place (.label (l + 2))]) {σ : Store} (hσ : σ.Fits Γ) :
    Simulates image max (t.config σ top []) (Bound.countRound place var limit ty body σ)
      (AfterRound t Γ top (Completed t Γ loop ret (fin + 1 + 1 + 1 + 1 + 1 + 1 + 1))) := by
  obtain ⟨htop, hreadVar, hreadLimit, hless, hexit, _⟩ := hbefore
  obtain ⟨hstep, hcount, hone, hadd, hstore, hback, hdone, _⟩ := hbehind
  have hdone_at := labelPlace?_of_codeAt hloads hdone
  refine .of_reaches (Activation.reaches_label htop) ?_
  refine (belowLimit_simulates hvar hlimit hσ ⟨hreadVar, hreadLimit, hless, trivial⟩).bind ?_
  rintro b σ₁ c₁ ⟨_, hσ₁, rfl⟩
  refine .of_reaches (Activation.reaches_jumpIf false hdone_at hexit) ?_
  cases b.truthy with
  | false =>
    refine .of_reaches (Activation.reaches_label hdone) ?_
    exact Simulates.pure (a := some Completion.normal) ⟨hσ₁, rfl⟩
  | true =>
    refine (roundOf_simulates loop (hbody σ₁ hσ₁) (fun _ => Activation.reaches_label hstep)
      (labelPlace?_of_codeAt hloads hstep) (fun _ => Activation.reaches_label hstep) hdone_at
      fun _ => Activation.reaches_label hdone).bind ?_
    intro next σ₂ c₂ h
    cases next with
    | some ending => exact Simulates.pure (a := some ending) h
    | none =>
      obtain ⟨hσ₂, rfl⟩ := h
      refine (countUp_simulates hvar hσ₂ ⟨hcount, hone, hadd, hstore, trivial⟩).bind ?_
      rintro _ σ₃ c₃ ⟨hσ₃, rfl⟩
      refine .of_reaches (Activation.reaches_jump (labelPlace?_of_codeAt hloads htop) hback) ?_
      exact Simulates.pure (a := none) ⟨hσ₃, rfl⟩

end

/-! ### Statements -/

mutual

/-- The code of a statement does what the statement does. -/
theorem execStmt_simulates (hloads : Loads s.program s.bridge image) (hcall : CallsRun s t call) :
    ∀ (st : Stmt) {loop : Option LoopLabels} {inLoop : Bool} {l l' : Code.Label}
    {code : List Instruction} {pc fin : Nat} {σ : Store},
    st.Typed (Stores (s.program.env types)) (s.program.env types) ret inLoop → st.VoidFree →
    (lowerStmt s.program loop st).run l = .ok (code, l') → CodeAt t.code pc code →
    fin = pc + code.length → σ.Fits (s.program.env types) →
    Simulates image s.maxCallDepth (t.config σ pc []) (Bound.execStmt s.rounds call st σ)
      (Completed t (s.program.env types) loop ret fin)
  | .block _ body, loop, inLoop, l, l', code, pc, fin, σ, htyped, hfree, hrun, hcode, hfin, hσ => by
    rw [Bound.execStmt]
    exact execStmts_simulates hloads hcall body htyped hfree hrun hcode hfin hσ
  | .assign _ target e, loop, inLoop, l, l', code, pc, fin, σ, htyped, hfree, hrun, hcode, hfin,
      hσ => by
    obtain ⟨c, hc, rfl⟩ := Code.lowerStmt_assign_run_eq hrun
    obtain ⟨hec, hop⟩ := codeAt_append.1 hcode
    obtain rfl : fin = pc + c.length + 1 := by simp [hfin, Nat.add_assoc]
    rw [Bound.execStmt]
    refine (evalExpr_simulates hloads hcall e htyped.1 hfree hc hec rfl hσ).bind ?_
    rintro v σ' c' ⟨hv, hσ', rfl⟩
    refine (writeVariable_simulates (by rw [htyped.2, hv]) hσ' hop.1).bind ?_
    rintro _ σ'' c' ⟨hσ'', rfl⟩
    exact Simulates.pure (a := Completion.normal) ⟨hσ'', rfl⟩
  | .expr _ e, loop, inLoop, l, l', code, pc, fin, σ, htyped, hfree, hrun, hcode, hfin, hσ => by
    obtain ⟨c, hc, rfl⟩ := Code.lowerStmt_expr_run_eq hrun
    rw [Bound.execStmt]
    split at hcode
    · rename_i isVoid
      rw [if_pos isVoid] at hfin
      refine (evalStatement_simulates hloads hcall htyped hfree hc hcode hσ).bind ?_
      rintro v σ' c' ⟨_, hσ', rfl⟩
      rw [if_pos isVoid, ← hfin]
      exact Simulates.pure (a := Completion.normal) ⟨hσ', rfl⟩
    · rename_i notVoid
      rw [if_neg notVoid] at hfin
      obtain ⟨hec, hop⟩ := codeAt_append.1 hcode
      obtain rfl : fin = pc + c.length + 1 := by simp [hfin, Nat.add_assoc]
      refine (evalStatement_simulates hloads hcall htyped hfree hc hec hσ).bind ?_
      rintro v σ' c' ⟨_, hσ', rfl⟩
      rw [if_neg notVoid]
      refine .of_reaches (Activation.reaches_pop hop.1) ?_
      exact Simulates.pure (a := Completion.normal) ⟨hσ', rfl⟩
  | .cond _ branches, loop, inLoop, l, l', code, pc, fin, σ, htyped, hfree, hrun, hcode, hfin,
      hσ => by
    obtain ⟨c, hc, rfl⟩ := Code.lowerStmt_cond_run_eq hrun
    obtain ⟨hbs, hdone⟩ := codeAt_append.1 hcode
    obtain rfl : fin = pc + c.length + 1 := by simp [hfin, Nat.add_assoc]
    rw [Bound.execStmt]
    exact (execBranches_simulates hloads hcall branches htyped hfree hc hbs rfl
      (labelPlace?_of_codeAt hloads hdone.1) hσ).completed
      fun σ' => Activation.reaches_label hdone.1
  | .while _ c body, loop, inLoop, l, l', code, pc, fin, σ, htyped, hfree, hrun, hcode, hfin,
      hσ => by
    obtain ⟨cc, m, cb, hc, hb, rfl⟩ := Code.lowerStmt_while_run_eq hrun
    obtain ⟨ctyped, _, btyped⟩ := htyped
    simp only [List.append_assoc, List.cons_append, codeAt_append, codeAt_cons] at hcode
    obtain ⟨htop, hcc, hexit, hcb, hback, hdone, _⟩ := hcode
    obtain rfl : fin = pc + 1 + cc.length + 1 + cb.length + 1 + 1 := by
      simp only [hfin, List.length_append, List.length_cons, List.length_nil]
      omega
    rw [Bound.execStmt]
    refine goRound_simulates (fun σ' hσ' => ?_) s.rounds σ hσ
    exact whileRound_simulates hloads loop htop
      (fun _ => evalExpr_simulates hloads hcall c ctyped hfree.1 hc hcc rfl) hexit
      (fun _ => execStmts_simulates hloads hcall body btyped hfree.2 hb hcb rfl) hback hdone hσ'
  | .loop _ body, loop, inLoop, l, l', code, pc, fin, σ, htyped, hfree, hrun, hcode, hfin, hσ => by
    obtain ⟨cb, hb, rfl⟩ := Code.lowerStmt_loop_run_eq hrun
    simp only [List.cons_append, codeAt_append, codeAt_cons] at hcode
    obtain ⟨htop, hcb, hback, hdone, _⟩ := hcode
    have htop_at := labelPlace?_of_codeAt hloads htop
    obtain rfl : fin = pc + 1 + cb.length + 1 + 1 := by
      simp only [hfin, List.length_append, List.length_cons, List.length_nil]
      omega
    rw [Bound.execStmt]
    refine goRound_simulates (fun σ' hσ' => ?_) s.rounds σ hσ
    refine .of_reaches (Activation.reaches_label htop) ?_
    exact roundOf_simulates loop (execStmts_simulates hloads hcall body htyped hfree hb hcb rfl hσ')
      (fun _ => Activation.reaches_jump htop_at hback) htop_at (fun _ => .refl _)
      (labelPlace?_of_codeAt hloads hdone) fun _ => Activation.reaches_label hdone
  | .for place var limit a z body, loop, inLoop, l, l', code, pc, fin, σ, htyped, hfree, hrun,
      hcode, hfin, hσ => by
    obtain ⟨ca, m, cz, m', cb, ha, hz, hb, rfl⟩ := Code.lowerStmt_for_run_eq hrun
    obtain ⟨atyped, ztyped, same, _, hvar, hlimit, btyped⟩ := htyped
    obtain ⟨afree, zfree, bfree⟩ := hfree
    simp only [Code.forCode, List.append_assoc, List.cons_append, List.nil_append, codeAt_append,
      codeAt_cons] at hcode
    obtain ⟨hca, hsetVar, hcz, hsetLimit, htop, hreadVar, hreadLimit, hless, hexit, hcb, hstep,
      hcount, hone, hadd, hstore, hback, hdone, _⟩ := hcode
    obtain rfl : fin = pc + ca.length + 1 + cz.length + 1 + 1 + 1 + 1 + 1 + 1 + cb.length +
        1 + 1 + 1 + 1 + 1 + 1 + 1 := by
      simp only [hfin, Code.forCode, List.length_append, List.length_cons, List.length_nil]
      omega
    rw [Bound.execStmt]
    refine (evalExpr_simulates hloads hcall a atyped afree ha hca rfl hσ).bind ?_
    rintro v σ₁ c₁ ⟨hv, hσ₁, rfl⟩
    refine (writeVariable_simulates (b := .local var) (by rw [hvar, hv]) hσ₁ hsetVar).bind ?_
    rintro _ σ₂ c₂ ⟨hσ₂, rfl⟩
    refine (evalExpr_simulates hloads hcall z ztyped zfree hz hcz rfl hσ₂).bind ?_
    rintro w σ₃ c₃ ⟨hw, hσ₃, rfl⟩
    refine (writeVariable_simulates (b := .local limit) (by rw [hlimit, hw, same]) hσ₃
      hsetLimit).bind ?_
    rintro _ σ₄ c₄ ⟨hσ₄, rfl⟩
    refine goRound_simulates (fun σ' hσ' => ?_) s.rounds σ₄ hσ₄
    exact countRound_simulates hloads loop hvar hlimit
      ⟨htop, hreadVar, hreadLimit, hless, hexit, trivial⟩
      (fun _ => execStmts_simulates hloads hcall body btyped bfree hb hcb rfl)
      ⟨hstep, hcount, hone, hadd, hstore, hback, hdone, trivial⟩ hσ'
  | .ret place none, loop, inLoop, l, l', code, pc, fin, σ, htyped, hfree, hrun, hcode, hfin,
      hσ => by
    obtain ⟨rfl, rfl⟩ := Code.lowerStmt_ret_none_run_eq hrun
    rw [Bound.execStmt]
    exact Simulates.pure (a := Completion.returned none) ⟨hσ, htyped, pc, place, hcode.1, rfl⟩
  | .ret place (some e), loop, inLoop, l, l', code, pc, fin, σ, htyped, hfree, hrun, hcode, hfin,
      hσ => by
    obtain ⟨c, hc, rfl⟩ := Code.lowerStmt_ret_some_run_eq hrun
    obtain ⟨hec, hop⟩ := codeAt_append.1 hcode
    rw [Bound.execStmt]
    refine (evalExpr_simulates hloads hcall e htyped.1 hfree hc hec rfl hσ).bind ?_
    rintro v σ' c' ⟨hv, hσ', rfl⟩
    exact Simulates.pure (a := Completion.returned (some v))
      ⟨hσ', ⟨hv.trans htyped.2, htyped.2 ▸ hfree.ty_ne_void⟩, pc + c.length, place, hop.1, rfl⟩
  | .break place, loop, inLoop, l, l', code, pc, fin, σ, htyped, hfree, hrun, hcode, hfin, hσ => by
    rw [lowerStmt] at hrun
    obtain ⟨rfl, labels, hloop, rfl⟩ := Code.loopTarget_run_eq hrun
    rw [Bound.execStmt]
    exact Simulates.pure (a := Completion.broke) ⟨hσ, labels, pc, place, hloop, hcode.1, rfl⟩
  | .continue place, loop, inLoop, l, l', code, pc, fin, σ, htyped, hfree, hrun, hcode, hfin,
      hσ => by
    rw [lowerStmt] at hrun
    obtain ⟨rfl, labels, hloop, rfl⟩ := Code.loopTarget_run_eq hrun
    rw [Bound.execStmt]
    exact Simulates.pure (a := Completion.continued) ⟨hσ, labels, pc, place, hloop, hcode.1, rfl⟩

/-- The code of branches does what the branch taken does, and goes on at the label `done`. -/
theorem execBranches_simulates (hloads : Loads s.program s.bridge image)
    (hcall : CallsRun s t call) :
    ∀ (bs : Branches) {loop : Option LoopLabels} {inLoop : Bool} {place : Location}
    {done l l' : Code.Label} {code : List Instruction} {pc fin : Nat} {σ : Store},
    bs.Typed (Stores (s.program.env types)) (s.program.env types) ret inLoop → bs.VoidFree →
    (lowerBranches s.program loop place done bs).run l = .ok (code, l') → CodeAt t.code pc code →
    fin = pc + code.length → image.labelPlace? t.index done = some fin →
    σ.Fits (s.program.env types) →
    Simulates image s.maxCallDepth (t.config σ pc []) (Bound.execBranches s.rounds call bs σ)
      (Completed t (s.program.env types) loop ret fin)
  | .none, loop, inLoop, place, done, l, l', code, pc, fin, σ, htyped, hfree, hrun, hcode, hfin,
      hdone, hσ => by
    obtain ⟨rfl, rfl⟩ := Code.lowerBranches_none_run_eq hrun
    subst hfin
    rw [Bound.execBranches]
    exact Simulates.pure (a := Completion.normal) ⟨hσ, rfl⟩
  | .otherwise body, loop, inLoop, place, done, l, l', code, pc, fin, σ, htyped, hfree, hrun, hcode,
      hfin, hdone, hσ => by
    rw [Bound.execBranches]
    exact execStmts_simulates hloads hcall body htyped hfree hrun hcode hfin hσ
  | .branch c body rest, loop, inLoop, place, done, l, l', code, pc, fin, σ, htyped, hfree, hrun,
      hcode, hfin, hdone, hσ => by
    obtain ⟨cc, m, cb, m', cr, hc, hb, hr, rfl⟩ := Code.lowerBranches_branch_run_eq hrun
    obtain ⟨ctyped, _, btyped, rtyped⟩ := htyped
    obtain ⟨cfree, bfree, rfree⟩ := hfree
    simp only [List.append_assoc, List.cons_append, codeAt_append, codeAt_cons] at hcode
    obtain ⟨hcc, hexit, hcb, hskip, hnext, hcr⟩ := hcode
    have hrest : fin = pc + cc.length + 1 + cb.length + 1 + 1 + cr.length := by
      simp only [hfin, List.length_append, List.length_cons]
      omega
    rw [Bound.execBranches]
    refine (evalExpr_simulates hloads hcall c ctyped cfree hc hcc rfl hσ).bind ?_
    rintro v σ' c' ⟨_, hσ', rfl⟩
    refine .of_reaches (Activation.reaches_jumpIf false
      (labelPlace?_of_codeAt hloads hnext) hexit) ?_
    cases v.truthy with
    | true =>
      exact (execStmts_simulates hloads hcall body btyped bfree hb hcb rfl hσ').completed
        fun _ => Activation.reaches_jump hdone hskip
    | false =>
      refine .of_reaches (Activation.reaches_label hnext) ?_
      exact execBranches_simulates hloads hcall rest rtyped rfree hr hcr hrest hdone hσ'

/-- The code of statements does what they do in order. -/
theorem execStmts_simulates (hloads : Loads s.program s.bridge image) (hcall : CallsRun s t call) :
    ∀ (ss : List Stmt) {loop : Option LoopLabels} {inLoop : Bool} {l l' : Code.Label}
    {code : List Instruction} {pc fin : Nat} {σ : Store},
    Bound.stmtsTyped (Stores (s.program.env types)) (s.program.env types) ret inLoop ss →
    Bound.stmtsVoidFree ss → (lowerStmts s.program loop ss).run l = .ok (code, l') →
    CodeAt t.code pc code → fin = pc + code.length → σ.Fits (s.program.env types) →
    Simulates image s.maxCallDepth (t.config σ pc []) (Bound.execStmts s.rounds call ss σ)
      (Completed t (s.program.env types) loop ret fin)
  | [], loop, inLoop, l, l', code, pc, fin, σ, htyped, hfree, hrun, hcode, hfin, hσ => by
    obtain ⟨rfl, rfl⟩ := Code.lowerStmts_nil_run_eq hrun
    subst hfin
    rw [Bound.execStmts]
    exact Simulates.pure (a := Completion.normal) ⟨hσ, rfl⟩
  | st :: ss, loop, inLoop, l, l', code, pc, fin, σ, htyped, hfree, hrun, hcode, hfin, hσ => by
    obtain ⟨c, m, cs, hc, hcs, rfl⟩ := Code.lowerStmts_cons_run_eq hrun
    obtain ⟨hst, hss⟩ := codeAt_append.1 hcode
    rw [List.length_append, ← Nat.add_assoc] at hfin
    rw [Bound.execStmts]
    refine (execStmt_simulates hloads hcall st htyped.1 hfree.1 hc hst rfl hσ).bind ?_
    intro ending σ' c' h
    cases ending with
    | normal =>
      obtain ⟨hσ', rfl⟩ := h
      exact execStmts_simulates hloads hcall ss htyped.2 hfree.2 hcs hss hfin hσ'
    | broke => exact Simulates.pure (a := Completion.broke) h
    | continued => exact Simulates.pure (a := Completion.continued) h
    | returned v => exact Simulates.pure (a := Completion.returned v) h

end

end ScriptLang.Machine
