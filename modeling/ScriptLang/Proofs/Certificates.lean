import ScriptLang.Proofs.BinderSoundness
import ScriptLang.Proofs.Heights
import ScriptLang.Proofs.Images

/-!
# The operands of lowered programs

The code of a function in which nothing silent is taken as an operand is *certified*: for some
heights of its labels it fits, from no operands on (`Lowered.certified`).  Of the code of every
function it is known that it ends in a return, and that one without value stands only where there is
no result.
-/

namespace ScriptLang.Code

open ScriptLang.Bound (Binding Branches Env Expr Stmt)

/-! ### Returns without value -/

/-- Only if there is no result is there a return without value. -/
def Answers (ret : Ty) (code : List Instruction) : Prop :=
  ∀ i ∈ code, i.op = .ret false → ret = .void

section

variable {ret : Ty} {a b code : List Instruction}

theorem Answers.nil : Answers ret [] := by
  intro i hi
  cases hi

theorem Answers.cons {place : Location} {op : Op} (h : op ≠ .ret false) (rest : Answers ret code) :
    Answers ret (ins place op :: code) := by
  intro i hi hop
  rcases List.mem_cons.1 hi with rfl | hi
  · exact absurd hop h
  · exact rest i hi hop

theorem Answers.append (ha : Answers ret a) (hb : Answers ret b) : Answers ret (a ++ b) := by
  intro i hi
  rcases List.mem_append.1 hi with hi | hi
  · exact ha i hi
  · exact hb i hi

theorem pushVariable_ne_ret (b : Binding) : pushVariable b ≠ .ret false := by
  cases b <;> exact nofun

theorem popVariable_ne_ret (b : Binding) : popVariable b ≠ .ret false := by
  cases b <;> exact nofun

theorem callOp_ne_ret (f : Bound.Function) (argc : Nat) : callOp f argc ≠ .ret false := by
  unfold callOp
  cases f.body <;> exact nofun

theorem shortCircuitCode_answers {place : Location} {decisive : Bool} {l : Label}
    (ha : Answers ret a) (hb : Answers ret b) :
    Answers ret (shortCircuitCode place decisive l a b) := by
  refine (ha.append (.cons ?_ hb)).append ?_
  · cases decisive <;> exact nofun
  · exact .cons nofun (.cons nofun (.cons nofun (.cons nofun .nil)))

variable {program : Bound.Program}

mutual

theorem lowerExpr_answers : ∀ (e : Expr) {l l' : Nat} {code : List Instruction},
    (lowerExpr (some program) e).run l = .ok (code, l') → Answers ret code
  | .literal i v, l, l', code, hrun => by
    obtain ⟨rfl, rfl⟩ := lowerExpr_literal_run_eq hrun
    exact .cons nofun .nil
  | .variable i b, l, l', code, hrun => by
    obtain ⟨rfl, rfl⟩ := lowerExpr_variable_run_eq hrun
    exact .cons (pushVariable_ne_ret b) .nil
  | .unary i op e, l, l', code, hrun => by
    obtain ⟨c, hc, rfl⟩ := lowerExpr_unary_run_eq hrun
    exact (lowerExpr_answers e hc).append (.cons nofun .nil)
  | .binary i op a b, l, l', code, hrun => by
    cases hop : op.isLogical with
    | true =>
      obtain ⟨ca, m, cb, hca, hcb, rfl⟩ := lowerExpr_logical_run_eq hop hrun
      exact shortCircuitCode_answers (lowerExpr_answers a hca) (lowerExpr_answers b hcb)
    | false =>
      obtain ⟨ca, m, cb, hca, hcb, rfl⟩ := lowerExpr_binary_run_eq hop hrun
      exact ((lowerExpr_answers a hca).append (lowerExpr_answers b hcb)).append (.cons nofun .nil)
  | .cast i e, l, l', code, hrun => by
    obtain ⟨c, hc, rfl⟩ := lowerExpr_cast_run_eq hrun
    by_cases same : e.ty = i.ty
    · rw [if_pos same]
      exact lowerExpr_answers e hc
    · rw [if_neg same]
      exact (lowerExpr_answers e hc).append (.cons nofun .nil)
  | .ternary i c y n, l, l', code, hrun => by
    obtain ⟨cc, m, cy, m', cn, hc, hy, hn, rfl⟩ := lowerExpr_ternary_run_eq hrun
    apply Answers.append
    · apply Answers.append
      · exact (lowerExpr_answers c hc).append (.cons nofun (lowerExpr_answers y hy))
      · exact .cons nofun (.cons nofun (lowerExpr_answers n hn))
    · exact .cons nofun .nil
  | .call i id args, l, l', code, hrun => by
    obtain ⟨f, c, _, hc, rfl⟩ := lowerExpr_call_run_eq hrun
    exact (lowerArgs_answers args hc).append (.cons (callOp_ne_ret f _) .nil)

theorem lowerArgs_answers : ∀ (es : List Expr) {l l' : Nat} {code : List Instruction},
    (lowerArgs (some program) es).run l = .ok (code, l') → Answers ret code
  | [], l, l', code, hrun => by
    obtain ⟨rfl, rfl⟩ := lowerArgs_nil_run_eq hrun
    exact .nil
  | e :: es, l, l', code, hrun => by
    obtain ⟨c, m, cs, hc, hcs, rfl⟩ := lowerArgs_cons_run_eq hrun
    exact (lowerExpr_answers e hc).append (lowerArgs_answers es hcs)

end

variable {Γ : Env} {stores : Binding → Expr → Prop}

mutual

theorem lowerStmt_answers : ∀ (st : Stmt) {inLoop : Bool} {loop : Option LoopLabels} {l l' : Nat}
    {code : List Instruction}, st.Typed stores Γ ret inLoop →
    (lowerStmt program loop st).run l = .ok (code, l') → Answers ret code
  | .block _ body, inLoop, loop, l, l', code, typed, hrun => lowerStmts_answers body typed hrun
  | .assign _ target e, inLoop, loop, l, l', code, typed, hrun => by
    obtain ⟨c, hc, rfl⟩ := lowerStmt_assign_run_eq hrun
    exact (lowerExpr_answers e hc).append (.cons (popVariable_ne_ret target) .nil)
  | .expr _ e, inLoop, loop, l, l', code, typed, hrun => by
    obtain ⟨c, hc, rfl⟩ := lowerStmt_expr_run_eq hrun
    by_cases hty : e.ty = .void
    · rw [if_pos hty]
      exact lowerExpr_answers e hc
    · rw [if_neg hty]
      exact (lowerExpr_answers e hc).append (.cons nofun .nil)
  | .cond _ branches, inLoop, loop, l, l', code, typed, hrun => by
    obtain ⟨c, hc, rfl⟩ := lowerStmt_cond_run_eq hrun
    exact (lowerBranches_answers branches typed hc).append (.cons nofun .nil)
  | .while _ c body, inLoop, loop, l, l', code, typed, hrun => by
    obtain ⟨cc, m, cb, hc, hb, rfl⟩ := lowerStmt_while_run_eq hrun
    apply Answers.append
    · apply Answers.append
      · exact .cons nofun (lowerExpr_answers c hc)
      · exact .cons nofun (lowerStmts_answers body typed.2.2 hb)
    · exact .cons nofun (.cons nofun .nil)
  | .loop _ body, inLoop, loop, l, l', code, typed, hrun => by
    obtain ⟨cb, hb, rfl⟩ := lowerStmt_loop_run_eq hrun
    apply Answers.append
    · exact .cons nofun (lowerStmts_answers body typed hb)
    · exact .cons nofun (.cons nofun .nil)
  | .for _ var limit a z body, inLoop, loop, l, l', code, typed, hrun => by
    obtain ⟨ca, m, cz, m', cb, ha, hz, hb, rfl⟩ := lowerStmt_for_run_eq hrun
    obtain ⟨_, _, _, _, _, _, typedB⟩ := typed
    apply Answers.append
    · apply Answers.append
      · apply Answers.append
        · exact (lowerExpr_answers a ha).append (.cons nofun (lowerExpr_answers z hz))
        · exact .cons nofun (.cons nofun
            (.cons nofun (.cons nofun (.cons nofun (.cons nofun .nil)))))
      · exact lowerStmts_answers body typedB hb
    · exact .cons nofun (.cons nofun (.cons nofun (.cons nofun (.cons nofun (.cons nofun
        (.cons nofun .nil))))))
  | .ret _ none, inLoop, loop, l, l', code, typed, hrun => by
    obtain ⟨rfl, rfl⟩ := lowerStmt_ret_none_run_eq hrun
    exact fun _ _ _ => typed
  | .ret _ (some e), inLoop, loop, l, l', code, typed, hrun => by
    obtain ⟨c, hc, rfl⟩ := lowerStmt_ret_some_run_eq hrun
    exact (lowerExpr_answers e hc).append (.cons nofun .nil)
  | .break _, inLoop, loop, l, l', code, typed, hrun => by
    rw [lowerStmt] at hrun
    obtain ⟨rfl, labels, _, rfl⟩ := loopTarget_run_eq hrun
    exact .cons nofun .nil
  | .continue _, inLoop, loop, l, l', code, typed, hrun => by
    rw [lowerStmt] at hrun
    obtain ⟨rfl, labels, _, rfl⟩ := loopTarget_run_eq hrun
    exact .cons nofun .nil

theorem lowerBranches_answers : ∀ (bs : Branches) {inLoop : Bool} {loop : Option LoopLabels}
    {place : Location} {done l l' : Nat} {code : List Instruction},
    bs.Typed stores Γ ret inLoop →
    (lowerBranches program loop place done bs).run l = .ok (code, l') → Answers ret code
  | .none, inLoop, loop, place, done, l, l', code, typed, hrun => by
    obtain ⟨rfl, rfl⟩ := lowerBranches_none_run_eq hrun
    exact .nil
  | .otherwise body, inLoop, loop, place, done, l, l', code, typed, hrun =>
    lowerStmts_answers body typed hrun
  | .branch c body rest, inLoop, loop, place, done, l, l', code, typed, hrun => by
    obtain ⟨cc, m, cb, m', cr, hc, hb, hr, rfl⟩ := lowerBranches_branch_run_eq hrun
    apply Answers.append
    · exact (lowerExpr_answers c hc).append (.cons nofun (lowerStmts_answers body typed.2.2.1 hb))
    · exact .cons nofun (.cons nofun (lowerBranches_answers rest typed.2.2.2 hr))

theorem lowerStmts_answers : ∀ (ss : List Stmt) {inLoop : Bool} {loop : Option LoopLabels}
    {l l' : Nat} {code : List Instruction}, Bound.stmtsTyped stores Γ ret inLoop ss →
    (lowerStmts program loop ss).run l = .ok (code, l') → Answers ret code
  | [], inLoop, loop, l, l', code, typed, hrun => by
    obtain ⟨rfl, rfl⟩ := lowerStmts_nil_run_eq hrun
    exact .nil
  | st :: ss, inLoop, loop, l, l', code, typed, hrun => by
    obtain ⟨c, m, cs, hc, hcs, rfl⟩ := lowerStmts_cons_run_eq hrun
    exact (lowerStmt_answers st typed.1 hc).append (lowerStmts_answers ss typed.2 hcs)

end

theorem finalReturn_answers (ret : Ty) (place : Location) :
    Answers ret (finalReturn ret place) := by
  unfold finalReturn
  by_cases h : ret = .void
  · exact fun _ _ _ => h
  · rw [if_neg h]
    exact .cons nofun (.cons nofun .nil)

end

/-! ### What is known of a program -/

/-- The program was bound; and if numbers of operands are to be exact, its assignments fit and no
variable is of type `void`. -/
structure Promises (program : Bound.Program) (exact : Bool) : Prop where
  typed : program.Typed Bound.BinderStores
  exactly : exact = true → program.WellTyped ∧ program.NoVoid

section

variable {program : Bound.Program} {exact : Bool}

/-- What the assignments of a program with these promises store. -/
def Stored (exact : Bool) (Γ : Env) (target : Binding) (e : Expr) : Prop :=
  Bound.BinderStores Γ target e ∧ (exact = true → Bound.Stores Γ target e)

theorem Promises.stmts_typed (promises : Promises program exact) {f : Bound.Function}
    (hf : f ∈ program.functions) :
    Bound.stmtsTyped (Stored exact (program.env f.localTypes))
      (program.env f.localTypes) f.ret false
      f.stmts := by
  cases exact with
  | false =>
    refine Bound.stmtsTyped_mono (.refl _) (fun t e _ stored => ⟨stored, nofun⟩)
      (promises.typed.functions_typed f hf).stmts_typed
  | true =>
    have wellTyped := (promises.exactly rfl).1
    exact Bound.stmtsTyped_mono (.refl _) (fun t e _ stored => ⟨.inl stored, fun _ => stored⟩)
      (wellTyped.functions_typed f hf).stmts_typed

theorem Promises.env_noVoid (promises : Promises program exact) (hexact : exact = true)
    {locals : List Ty} (hlocals : ∀ ty ∈ locals, ty ≠ .void) : (program.env locals).NoVoid := by
  obtain ⟨wellTyped, noVoid⟩ := promises.exactly hexact
  refine ⟨hlocals, fun ty hty => ?_, fun sig hsig ty hty => ?_⟩
  · obtain ⟨g, hg, rfl⟩ := List.mem_map.1 hty
    exact noVoid.globals g hg
  · obtain ⟨f, hf, rfl⟩ := List.mem_map.1 hsig
    exact noVoid.locals f hf ty ((wellTyped.functions_typed f hf).params_first.subset hty)

/-! ### Certificates -/

/-- What the code of a lowered function can rely on. -/
def siteOf (program : Bound.Program) (exact : Bool) (g : Function) : Site :=
  ⟨program, g.signature.ret, g.locals.length, exact⟩

/-- For some heights the code of the function fits, from no operands on. -/
def Certified (program : Bound.Program) (exact : Bool) (g : Function) : Prop :=
  ∃ heights h', Fits (siteOf program exact g) heights 0 g.code h'

theorem certified_of_no_code {g : Function} (h : g.code = []) : Certified program exact g := by
  refine ⟨fun _ => 0, 0, ?_⟩
  rw [h]
  exact .nil 0

theorem finalReturn_fits (s : Site) (heights : Nat → Nat) (place : Location) :
    ∃ h', Fits s heights 0 (finalReturn s.ret place) h' := by
  unfold finalReturn
  by_cases h : s.ret = .void
  · rw [if_pos h]
    exact ⟨0, .cons h (.nil 0)⟩
  · rw [if_neg h]
    have first : Shifts s heights (.pushConst (.zero s.ret)) 0 1 := rfl
    have second : Shifts s heights (.ret true) 1 0 :=
      (if_neg fun hexact => h hexact.2).mpr Nat.one_pos
    exact ⟨0, .cons first (.cons second (.nil 0))⟩

/-- A function in which nothing silent is taken as an operand is certified. -/
theorem Lowered.certified {f : Bound.Function} {g : Function} (lowered : Lowered program f g)
    (hf : f ∈ program.functions) (promises : Promises program exact)
    (balanced : exact = false → Bound.stmtsBalanced f.stmts) : Certified program exact g := by
  have hkind := lowered.kind
  cases hg : g.kind with
  | native symbol => exact certified_of_no_code (by rw [Function.code, hg])
  | intrinsic i => exact certified_of_no_code (by rw [Function.code, hg])
  | body code =>
    rw [hg] at hkind
    cases hkind with
    | @body stmts _ written hbody =>
      obtain ⟨c, l, hc, hcode⟩ := lowerBody_eq_ok hbody
      have hstmts : f.stmts = stmts := by
        rw [Bound.Function.stmts, written]
      have hret : (siteOf program exact g).ret = f.ret := by
        rw [siteOf, lowered.signature]
      have covers : (siteOf program exact g).Covers (program.env f.localTypes) := by
        refine ⟨rfl, ?_, fun hexact => ?_⟩
        · rw [siteOf, lowered.locals]
          exact Nat.le_of_eq (List.length_map _)
        · exact promises.env_noVoid hexact ((promises.exactly hexact).2.locals f hf)
      have typed := promises.stmts_typed hf
      rw [← hret, hstmts] at typed
      rw [hstmts] at balanced
      have noLoop : Loops (fun _ => True) none := by
        intro labels hlabels
        cases hlabels
      obtain ⟨_, own, fits⟩ := lowerStmts_fitting covers (fun _ _ stored => stored) stmts _ typed
        balanced noLoop hc
      have begins := fits own (fun _ _ _ => rfl) trivial
      rw [Certified, Function.code, hg]
      obtain ⟨rfl, _⟩ | ⟨place, rfl⟩ := hcode
      · exact ⟨own, 0, begins⟩
      · obtain ⟨h', ends⟩ := finalReturn_fits (siteOf program exact g) own place
        rw [hret] at ends
        exact ⟨own, h', begins.append ends⟩

/-! ### The function that sets the globals -/

theorem lowerGlobals_fitting {s : Site} (outer : (Nat → Nat) → Prop) (hs : s.program = program)
    (hexact : s.exact = exact) (promises : Promises program exact) :
    ∀ (gs : List Bound.Global) {id l l' : Nat} {code : List Instruction},
      (∀ g ∈ gs, g ∈ program.globals) →
      (exact = false → ∀ g ∈ gs, ∀ e, g.init = some e → e.Valued) →
      (lowerGlobals program id gs).run l = .ok (code, l') → Fitting s outer l l' 0 code 0
  | [], id, l, l', code, known, loose, hrun => by
    obtain ⟨rfl, rfl⟩ := lowerGlobals_nil_run_eq hrun
    exact .nil _ 0
  | g :: gs, id, l, l', code, known, loose, hrun => by
    have knownRest : ∀ g ∈ gs, g ∈ program.globals :=
      fun g hg => known g (List.mem_cons_of_mem _ hg)
    have looseRest : exact = false → ∀ g ∈ gs, ∀ e, g.init = some e → e.Valued :=
      fun h g hg => loose h g (List.mem_cons_of_mem _ hg)
    cases hg : g.init with
    | none =>
      exact lowerGlobals_fitting outer hs hexact promises gs knownRest looseRest
        (lowerGlobals_none_run_eq hg hrun)
    | some e =>
      obtain ⟨c, m, cs, hc, hcs, rfl⟩ := lowerGlobals_some_run_eq hg hrun
      have hmem := known g List.mem_cons_self
      obtain ⟨typed, hty⟩ := promises.typed.globals_typed g hmem e hg
      have covers : s.Covers (program.env []) := by
        refine ⟨by rw [hs]; rfl, Nat.zero_le _, fun h => ?_⟩
        exact promises.env_noVoid (hexact.symm.trans h) nofun
      have valued : e.Valued := by
        refine valued_of_typed covers typed (fun h => ?_) fun h => ?_
        · rw [hty]
          exact (promises.exactly (hexact.symm.trans h)).2.globals g hmem
        · exact loose (hexact.symm.trans h) g List.mem_cons_self e hg
      rw [← hs] at hc
      have he := pushes_of_valued covers typed valued outer 0 hc
      have stored : Fitting s outer m m 1 [ins g.location (.popGlobal id)] 0 :=
        .cons (fun heights _ => rfl) (.nil _ 0)
      exact (he.append stored).append
        (lowerGlobals_fitting outer hs hexact promises gs knownRest looseRest hcs)

theorem lowerInit_certified {g : Function} (lowered : lowerInit program = .ok g)
    (promises : Promises program exact)
    (loose : exact = false → ∀ g ∈ program.globals, ∀ e, g.init = some e → e.Valued) :
    Certified program exact g := by
  obtain ⟨c, l, place, hc, _, hsignature, _, hkind⟩ := lowerInit_eq_ok lowered
  obtain ⟨_, own, fits⟩ := lowerGlobals_fitting (s := siteOf program exact g)
    (fun _ => True) rfl rfl
    promises program.globals (fun g hg => hg) loose hc
  refine ⟨own, 0, ?_⟩
  rw [Function.code, hkind]
  have begins := fits own (fun _ _ _ => rfl) trivial
  have hret : (siteOf program exact g).ret = .void := by
    rw [siteOf, hsignature]
  exact begins.append (.cons hret (.nil 0))

end

end ScriptLang.Code
