import ScriptLang.Proofs.Footing
import ScriptLang.Proofs.LoweringSucceeds

/-!
# Generated code can be linked

Whatever the code of a closed program refers to is there: the label of every jump is placed in the
same function, and every function that is called is called as it was declared
(`Code.lowerStmts_refers`).  So linking finds everything but the symbols of native functions, and
fails only if there is no function to begin with (`links_of_bind`).
-/

namespace ScriptLang.Bound

/-- Whether the function is bound to a symbol of a library. -/
def Function.isNative (f : Function) : Bool :=
  match f.body with
  | .native _ => true
  | _ => false

end ScriptLang.Bound

namespace ScriptLang.Code

open ScriptLang.Bound (Binding Branches Expr Stmt)

/-! ### What an operation refers to -/

/-- The function that the operation calls, with how many arguments, and whether as a native one. -/
def Op.call? : Op → Option (String × Nat × Bool)
  | call name argc => some (name, argc, false)
  | callNative name argc => some (name, argc, true)
  | _ => none

/-- The function is one of the program's, and is called as it was declared. -/
def Declared (program : Bound.Program) (name : String) (argc : Nat) (native : Bool) : Prop :=
  ∃ f ∈ program.functions, f.name = name ∧ f.params.length = argc ∧ f.isNative = native

/-- The operation goes to one of these labels if it goes anywhere, and calls a function as it was
declared if it calls one. -/
structure Op.RefersTo (program : Bound.Program) (labels : Label → Prop) (op : Op) : Prop where
  target : ∀ l, op.target? = some l → labels l
  call : ∀ name argc native, op.call? = some (name, argc, native) →
    Declared program name argc native

section

variable {program : Bound.Program} {labels : Label → Prop} {op : Op}

theorem Op.RefersTo.plain (stays : op.target? = none) (quiet : op.call? = none) :
    op.RefersTo program labels :=
  ⟨fun _ h => absurd (stays.symm.trans h) nofun,
    fun _ _ _ h => absurd (quiet.symm.trans h) nofun⟩

theorem Op.RefersTo.goes {l : Label} (goes : op.target? = some l) (quiet : op.call? = none)
    (hl : labels l) : op.RefersTo program labels := by
  refine ⟨fun k h => ?_, fun _ _ _ h => absurd (quiet.symm.trans h) nofun⟩
  cases goes.symm.trans h
  exact hl

theorem pushVariable_refersTo (b : Binding) : (pushVariable b).RefersTo program labels := by
  cases b <;> exact .plain rfl rfl

theorem popVariable_refersTo (b : Binding) : (popVariable b).RefersTo program labels := by
  cases b <;> exact .plain rfl rfl

theorem callOp_refersTo {f : Bound.Function} (hf : f ∈ program.functions) {argc : Nat}
    (args : f.params.length = argc) : (callOp f argc).RefersTo program labels := by
  have goesOn : (callOp f argc).target? = none := by
    unfold callOp
    cases f.body <;> rfl
  have calls : (callOp f argc).call? = some (f.name, argc, f.isNative) := by
    unfold callOp Bound.Function.isNative
    cases f.body <;> rfl
  refine ⟨fun _ h => absurd (goesOn.symm.trans h) nofun, fun name n native h => ?_⟩
  cases calls.symm.trans h
  exact ⟨f, hf, rfl, args, rfl⟩

/-! ### What code refers to -/

/-- All operations of the code refer to these labels, and to functions as they were declared. -/
def Refers (program : Bound.Program) (labels : Label → Prop) (code : List Instruction) : Prop :=
  ∀ i ∈ code, i.op.RefersTo program labels

variable {a b code : List Instruction}

theorem Refers.nil : Refers program labels [] := nofun

theorem Refers.cons {place : Location} (h : op.RefersTo program labels)
    (rest : Refers program labels code) : Refers program labels (ins place op :: code) := by
  intro i hi
  rcases List.mem_cons.1 hi with rfl | hi
  · exact h
  · exact rest i hi

theorem Refers.append (ha : Refers program labels a) (hb : Refers program labels b) :
    Refers program labels (a ++ b) := by
  intro i hi
  rcases List.mem_append.1 hi with hi | hi
  · exact ha i hi
  · exact hb i hi

theorem Refers.concat {place : Location} (ha : Refers program labels a)
    (h : op.RefersTo program labels) : Refers program labels (a ++ [ins place op]) :=
  ha.append (.cons h .nil)

/-- The labels from `l` up to `l'` are among these. -/
def Within (labels : Label → Prop) (l l' : Nat) : Prop := ∀ k, l ≤ k → k < l' → labels k

theorem Within.mono {l l' m m' : Nat} (h : Within labels l l') (hl : l ≤ m) (hl' : m' ≤ l') :
    Within labels m m' :=
  fun k hm hm' => h k (Nat.le_trans hl hm) (Nat.lt_of_lt_of_le hm' hl')

theorem shortCircuitCode_refers {place : Location} {decisive : Bool} {l : Nat} (first : labels l)
    (second : labels (l + 1)) (ha : Refers program labels a) (hb : Refers program labels b) :
    Refers program labels (shortCircuitCode place decisive l a b) := by
  refine (ha.append (.cons ?_ hb)).append ?_
  · cases decisive <;> exact .goes rfl rfl first
  · exact .cons (.goes rfl rfl second) (.cons (.plain rfl rfl) (.cons (.plain rfl rfl)
      (.cons (.plain rfl rfl) .nil)))

variable {locals : Nat}

-- In both inductions the labels are any that include those which the code takes for itself.
mutual

theorem lowerExpr_refers : ∀ (e : Expr) {l l' : Nat} {code : List Instruction},
    e.Closed (program.extent locals) → (lowerExpr (some program) e).run l = .ok (code, l') →
    Within labels l l' → Refers program labels code
  | .literal i v, l, l', code, closed, hrun, own => by
    obtain ⟨rfl, rfl⟩ := lowerExpr_literal_run_eq hrun
    exact .cons (.plain rfl rfl) .nil
  | .variable i b, l, l', code, closed, hrun, own => by
    obtain ⟨rfl, rfl⟩ := lowerExpr_variable_run_eq hrun
    exact .cons (pushVariable_refersTo b) .nil
  | .unary i op e, l, l', code, closed, hrun, own => by
    obtain ⟨c, hc, rfl⟩ := lowerExpr_unary_run_eq hrun
    exact (lowerExpr_refers e closed hc own).concat (.plain rfl rfl)
  | .binary i op a b, l, l', code, closed, hrun, own => by
    cases hop : op.isLogical with
    | true =>
      obtain ⟨ca, m, cb, ha, hb, rfl⟩ := lowerExpr_logical_run_eq hop hrun
      have h1 := (lowerExpr_places a ha).le
      have h2 := (lowerExpr_places b hb).le
      exact shortCircuitCode_refers (own l (by omega) (by omega)) (own (l + 1) (by omega) (by omega))
        (lowerExpr_refers a closed.1 ha (own.mono (by omega) (by omega)))
        (lowerExpr_refers b closed.2 hb (own.mono (by omega) (by omega)))
    | false =>
      obtain ⟨ca, m, cb, ha, hb, rfl⟩ := lowerExpr_binary_run_eq hop hrun
      have h1 := (lowerExpr_places a ha).le
      have h2 := (lowerExpr_places b hb).le
      exact ((lowerExpr_refers a closed.1 ha (own.mono (by omega) h2)).append
        (lowerExpr_refers b closed.2 hb (own.mono h1 (by omega)))).concat (.plain rfl rfl)
  | .cast i e, l, l', code, closed, hrun, own => by
    obtain ⟨c, hc, rfl⟩ := lowerExpr_cast_run_eq hrun
    have parts := lowerExpr_refers e closed hc own
    by_cases same : e.ty = i.ty
    · rwa [if_pos same]
    · rw [if_neg same]
      exact parts.concat (.plain rfl rfl)
  | .ternary i c y n, l, l', code, closed, hrun, own => by
    obtain ⟨cc, m, cy, m', cn, hc, hy, hn, rfl⟩ := lowerExpr_ternary_run_eq hrun
    have h1 := (lowerExpr_places c hc).le
    have h2 := (lowerExpr_places y hy).le
    have h3 := (lowerExpr_places n hn).le
    have first : labels l := own l (by omega) (by omega)
    have second : labels (l + 1) := own (l + 1) (by omega) (by omega)
    have rc := lowerExpr_refers c closed.1 hc (own.mono (by omega) (by omega))
    have ry := lowerExpr_refers y closed.2.1 hy (own.mono (by omega) (by omega))
    have rn := lowerExpr_refers n closed.2.2 hn (own.mono (by omega) (by omega))
    refine ((rc.append (.cons (.goes rfl rfl first) ry)).append ?_).concat (.plain rfl rfl)
    exact .cons (.goes rfl rfl second) (.cons (.plain rfl rfl) rn)
  | .call i id args, l, l', code, closed, hrun, own => by
    obtain ⟨f, c, hf, hc, rfl⟩ := lowerExpr_call_run_eq hrun
    have arity := closed.2
    rw [Bound.Program.extent, List.getElem?_map, hf, Option.map_some, Option.some.injEq] at arity
    exact (lowerArgs_refers args closed.1 hc own).concat
      (callOp_refersTo (List.mem_of_getElem? hf) arity)

theorem lowerArgs_refers : ∀ (es : List Expr) {l l' : Nat} {code : List Instruction},
    Bound.argsClosed (program.extent locals) es →
    (lowerArgs (some program) es).run l = .ok (code, l') → Within labels l l' →
    Refers program labels code
  | [], l, l', code, closed, hrun, own => by
    obtain ⟨rfl, rfl⟩ := lowerArgs_nil_run_eq hrun
    exact .nil
  | e :: es, l, l', code, closed, hrun, own => by
    obtain ⟨c, m, cs, hc, hcs, rfl⟩ := lowerArgs_cons_run_eq hrun
    have h1 := (lowerExpr_places e hc).le
    have h2 := (lowerArgs_places es hcs).le
    exact (lowerExpr_refers e closed.1 hc (own.mono (Nat.le_refl l) h2)).append
      (lowerArgs_refers es closed.2 hcs (own.mono h1 (Nat.le_refl l')))

end

/-- The labels of the loop are among these, if there is one. -/
def HasLoop (labels : Label → Prop) (loop : Option LoopLabels) : Prop :=
  ∀ own, loop = some own → labels own.continueTo ∧ labels own.breakTo

theorem hasLoop_none : HasLoop labels none := by
  intro own h
  cases h

theorem hasLoop_some {c d : Label} (hc : labels c) (hd : labels d) :
    HasLoop labels (some ⟨c, d⟩) := by
  intro own h
  cases h
  exact ⟨hc, hd⟩

mutual

theorem lowerStmt_refers : ∀ (s : Stmt) {inLoop : Bool} {loop : Option LoopLabels} {l l' : Nat}
    {code : List Instruction}, s.Closed (program.extent locals) inLoop →
    (lowerStmt program loop s).run l = .ok (code, l') → Within labels l l' →
    HasLoop labels loop → Refers program labels code
  | .block _ body, inLoop, loop, l, l', code, closed, hrun, own, looped =>
    lowerStmts_refers body closed hrun own looped
  | .assign _ target e, inLoop, loop, l, l', code, closed, hrun, own, looped => by
    obtain ⟨c, hc, rfl⟩ := lowerStmt_assign_run_eq hrun
    exact (lowerExpr_refers e closed.2 hc own).concat (popVariable_refersTo target)
  | .expr _ e, inLoop, loop, l, l', code, closed, hrun, own, looped => by
    obtain ⟨c, hc, rfl⟩ := lowerStmt_expr_run_eq hrun
    have parts := lowerExpr_refers e closed hc own
    by_cases silent : e.ty = .void
    · rwa [if_pos silent]
    · rw [if_neg silent]
      exact parts.concat (.plain rfl rfl)
  | .cond _ branches, inLoop, loop, l, l', code, closed, hrun, own, looped => by
    obtain ⟨c, hc, rfl⟩ := lowerStmt_cond_run_eq hrun
    have h1 := (lowerBranches_places branches hc).le
    exact (lowerBranches_refers branches closed hc (own.mono (by omega) (Nat.le_refl l'))
      (own l (by omega) (by omega)) looped).concat (.plain rfl rfl)
  | .while _ c body, inLoop, loop, l, l', code, closed, hrun, own, looped => by
    obtain ⟨cc, m, cb, hc, hb, rfl⟩ := lowerStmt_while_run_eq hrun
    have h1 := (lowerExpr_places c hc).le
    have h2 := (lowerStmts_places body hb).le
    have top : labels l := own l (by omega) (by omega)
    have done : labels (l + 1) := own (l + 1) (by omega) (by omega)
    have rc := lowerExpr_refers c closed.1 hc (own.mono (by omega) h2)
    have rb := lowerStmts_refers body closed.2 hb (own.mono (by omega) (Nat.le_refl l'))
      (hasLoop_some top done)
    refine (Refers.append (.cons (.plain rfl rfl) rc) (.cons (.goes rfl rfl done) rb)).append ?_
    exact .cons (.goes rfl rfl top) (.cons (.plain rfl rfl) .nil)
  | .loop _ body, inLoop, loop, l, l', code, closed, hrun, own, looped => by
    obtain ⟨cb, hb, rfl⟩ := lowerStmt_loop_run_eq hrun
    have h1 := (lowerStmts_places body hb).le
    have top : labels l := own l (by omega) (by omega)
    have done : labels (l + 1) := own (l + 1) (by omega) (by omega)
    have rb := lowerStmts_refers body closed hb (own.mono (by omega) (Nat.le_refl l'))
      (hasLoop_some top done)
    exact (Refers.cons (.plain rfl rfl) rb).append
      (.cons (.goes rfl rfl top) (.cons (.plain rfl rfl) .nil))
  | .for _ var limit a z body, inLoop, loop, l, l', code, closed, hrun, own, looped => by
    obtain ⟨ca, m, cz, m', cb, ha, hz, hb, rfl⟩ := lowerStmt_for_run_eq hrun
    obtain ⟨_, _, aclosed, zclosed, bclosed⟩ := closed
    have h1 := (lowerExpr_places a ha).le
    have h2 := (lowerExpr_places z hz).le
    have h3 := (lowerStmts_places body hb).le
    have top : labels l := own l (by omega) (by omega)
    have step : labels (l + 1) := own (l + 1) (by omega) (by omega)
    have done : labels (l + 2) := own (l + 2) (by omega) (by omega)
    have ra := lowerExpr_refers a aclosed ha (own.mono (by omega) (by omega))
    have rz := lowerExpr_refers z zclosed hz (own.mono (by omega) h3)
    have rb := lowerStmts_refers body bclosed hb (own.mono (by omega) (Nat.le_refl l'))
      (hasLoop_some step done)
    refine ((ra.append (.cons (.plain rfl rfl) rz)).append ?_ |>.append rb).append ?_
    · exact .cons (.plain rfl rfl) (.cons (.plain rfl rfl) (.cons (.plain rfl rfl)
        (.cons (.plain rfl rfl) (.cons (.plain rfl rfl) (.cons (.goes rfl rfl done) .nil)))))
    · exact .cons (.plain rfl rfl) (.cons (.plain rfl rfl) (.cons (.plain rfl rfl)
        (.cons (.plain rfl rfl) (.cons (.plain rfl rfl) (.cons (.goes rfl rfl top)
          (.cons (.plain rfl rfl) .nil))))))
  | .ret _ none, inLoop, loop, l, l', code, closed, hrun, own, looped => by
    obtain ⟨rfl, rfl⟩ := lowerStmt_ret_none_run_eq hrun
    exact .cons (.plain rfl rfl) .nil
  | .ret _ (some e), inLoop, loop, l, l', code, closed, hrun, own, looped => by
    obtain ⟨c, hc, rfl⟩ := lowerStmt_ret_some_run_eq hrun
    exact (lowerExpr_refers e closed hc own).concat (.plain rfl rfl)
  | .break _, inLoop, loop, l, l', code, closed, hrun, own, looped => by
    rw [lowerStmt] at hrun
    obtain ⟨rfl, labels, hloop, rfl⟩ := loopTarget_run_eq hrun
    exact .cons (.goes rfl rfl (looped labels hloop).2) .nil
  | .continue _, inLoop, loop, l, l', code, closed, hrun, own, looped => by
    rw [lowerStmt] at hrun
    obtain ⟨rfl, labels, hloop, rfl⟩ := loopTarget_run_eq hrun
    exact .cons (.goes rfl rfl (looped labels hloop).1) .nil

theorem lowerBranches_refers : ∀ (bs : Branches) {inLoop : Bool} {loop : Option LoopLabels}
    {place : Location} {done l l' : Nat} {code : List Instruction},
    bs.Closed (program.extent locals) inLoop →
    (lowerBranches program loop place done bs).run l = .ok (code, l') → Within labels l l' →
    labels done → HasLoop labels loop → Refers program labels code
  | .none, inLoop, loop, place, done, l, l', code, closed, hrun, own, hdone, looped => by
    obtain ⟨rfl, rfl⟩ := lowerBranches_none_run_eq hrun
    exact .nil
  | .otherwise body, inLoop, loop, place, done, l, l', code, closed, hrun, own, hdone, looped =>
    lowerStmts_refers body closed hrun own looped
  | .branch c body rest, inLoop, loop, place, done, l, l', code, closed, hrun, own, hdone,
      looped => by
    obtain ⟨cc, m, cb, m', cr, hc, hb, hr, rfl⟩ := lowerBranches_branch_run_eq hrun
    have h1 := (lowerExpr_places c hc).le
    have h2 := (lowerStmts_places body hb).le
    have h3 := (lowerBranches_places rest hr).le
    have next : labels l := own l (by omega) (by omega)
    have rc := lowerExpr_refers c closed.1 hc (own.mono (by omega) (by omega))
    have rb := lowerStmts_refers body closed.2.1 hb (own.mono (by omega) h3) looped
    have rr := lowerBranches_refers rest closed.2.2 hr (own.mono (by omega) (Nat.le_refl l')) hdone
      looped
    exact (rc.append (.cons (.goes rfl rfl next) rb)).append
      (.cons (.goes rfl rfl hdone) (.cons (.plain rfl rfl) rr))

theorem lowerStmts_refers : ∀ (ss : List Stmt) {inLoop : Bool} {loop : Option LoopLabels}
    {l l' : Nat} {code : List Instruction}, Bound.stmtsClosed (program.extent locals) inLoop ss →
    (lowerStmts program loop ss).run l = .ok (code, l') → Within labels l l' →
    HasLoop labels loop → Refers program labels code
  | [], inLoop, loop, l, l', code, closed, hrun, own, looped => by
    obtain ⟨rfl, rfl⟩ := lowerStmts_nil_run_eq hrun
    exact .nil
  | s :: ss, inLoop, loop, l, l', code, closed, hrun, own, looped => by
    obtain ⟨c, m, cs, hc, hcs, rfl⟩ := lowerStmts_cons_run_eq hrun
    have h1 := (lowerStmt_places s hc).le
    have h2 := (lowerStmts_places ss hcs).le
    exact (lowerStmt_refers s closed.1 hc (own.mono (Nat.le_refl l) h2) looped).append
      (lowerStmts_refers ss closed.2 hcs (own.mono h1 (Nat.le_refl l')) looped)

end

theorem lowerGlobals_refers : ∀ (gs : List Bound.Global) {id l l' : Nat} {code : List Instruction},
    (∀ g ∈ gs, ∀ e, g.init = some e → e.Closed (program.extent locals)) →
    (lowerGlobals program id gs).run l = .ok (code, l') → Within labels l l' →
    Refers program labels code
  | [], id, l, l', code, closed, hrun, own => by
    obtain ⟨rfl, rfl⟩ := lowerGlobals_nil_run_eq hrun
    exact .nil
  | g :: gs, id, l, l', code, closed, hrun, own => by
    have rest : ∀ g' ∈ gs, ∀ e, g'.init = some e → e.Closed (program.extent locals) :=
      fun g' hg' => closed g' (List.mem_cons_of_mem g hg')
    cases hg : g.init with
    | none => exact lowerGlobals_refers gs rest (lowerGlobals_none_run_eq hg hrun) own
    | some e =>
      obtain ⟨c, m, cs, hc, hcs, rfl⟩ := lowerGlobals_some_run_eq hg hrun
      have h1 := (lowerExpr_places e hc).le
      have h2 := (lowerGlobals_places gs hcs).le
      have re := lowerExpr_refers e (closed g List.mem_cons_self e hg) hc
        (own.mono (Nat.le_refl l) h2)
      exact (re.concat (.plain rfl rfl)).append
        (lowerGlobals_refers gs rest hcs (own.mono h1 (Nat.le_refl l')))

/-! ### Functions -/

/-- The labels that the code takes are placed in it once each, and it jumps to no others; every
function that it calls is called as it was declared. -/
structure SelfContained (program : Bound.Program) (code : List Instruction) : Prop where
  labels : ∃ n, ∀ k, placements k code = if k < n then 1 else 0
  refers : Refers program (fun k => placements k code = 1) code

/-- Code that refers to its own labels alone is self-contained with an end that has none. -/
theorem selfContained_append {c ending : List Instruction} {n : Nat} (placed : Places c 0 n)
    (refers : ∀ labels, Within labels 0 n → Refers program labels c)
    (places : ∀ k, placements k ending = 0) (plain : ∀ labels, Refers program labels ending) :
    SelfContained program (c ++ ending) := by
  have count : ∀ k, placements k (c ++ ending) = if k < n then 1 else 0 := by
    intro k
    rw [placements_append, placed.count, places]
    simp only [Nat.zero_le, true_and, Nat.add_zero]
  refine ⟨⟨n, count⟩, (refers _ fun k _ hk => ?_).append (plain _)⟩
  rw [count, if_pos hk]

theorem selfContained_nil : SelfContained program [] := by
  refine ⟨⟨0, fun k => ?_⟩, .nil⟩
  rw [placements_nil, if_neg (Nat.not_lt_zero k)]

theorem finalReturn_refers (ret : Ty) (place : Location) :
    Refers program labels (finalReturn ret place) := by
  unfold finalReturn
  split
  · exact .cons (.plain rfl rfl) .nil
  · exact .cons (.plain rfl rfl) (.cons (.plain rfl rfl) .nil)

theorem Lowered.selfContained {f : Bound.Function} {g : Function} (lowered : Lowered program f g)
    (closed : Bound.stmtsClosed (program.extent locals) false f.stmts) :
    SelfContained program g.code := by
  have hkind := lowered.kind
  cases hg : g.kind with
  | native symbol =>
    rw [Function.code, hg]
    exact selfContained_nil
  | intrinsic i =>
    rw [Function.code, hg]
    exact selfContained_nil
  | body code =>
    rw [hg] at hkind
    cases hkind with
    | body written hbody =>
      rw [Bound.Function.stmts, written] at closed
      rw [Function.code, hg]
      obtain ⟨c, l, hc, hcode⟩ := lowerBody_eq_ok hbody
      have refers : ∀ labels, Within labels 0 l → Refers program labels c :=
        fun labels own => lowerStmts_refers _ closed hc own hasLoop_none
      obtain ⟨rfl, _⟩ | ⟨place, rfl⟩ := hcode
      · have whole := selfContained_append (lowerStmts_places _ hc) refers placements_nil
          fun _ => .nil
        rwa [List.append_nil] at whole
      · exact selfContained_append (lowerStmts_places _ hc) refers
          (finalReturn_placements f.ret place) fun _ => finalReturn_refers f.ret place

theorem lowerInit_selfContained {g : Function} (lowered : lowerInit program = .ok g)
    (closed : program.Closed) : SelfContained program g.code := by
  obtain ⟨c, l, place, hc, _, _, _, hkind⟩ := lowerInit_eq_ok lowered
  rw [Function.code, hkind]
  refine selfContained_append (lowerGlobals_places _ hc)
    (fun labels own => lowerGlobals_refers _ closed.inits_closed hc own) (fun k => ?_)
    fun _ => .cons (.plain rfl rfl) .nil
  rw [placements_cons, placements_nil]
  rfl

theorem Lowered.endsInReturn {f : Bound.Function} {g : Function} (lowered : Lowered program f g)
    {c : List Instruction} (hg : g.kind = .body c) : EndsInReturn c := by
  have hkind := lowered.kind
  rw [hg] at hkind
  cases hkind with
  | body _ hbody => exact lowerBody_endsInReturn hbody

theorem Lowered.isNative_eq {f : Bound.Function} {g : Function} (lowered : Lowered program f g) :
    g.isNative = f.isNative := by
  have hkind := lowered.kind
  unfold Function.isNative Bound.Function.isNative
  generalize g.kind = kind at hkind
  cases hkind with
  | body written _ => rw [written]
  | native bound => rw [bound]
  | intrinsic given _ => rw [given]

end

/-! ### Programs -/

theorem mem_names_insertFunction {fs : List Function} {f : Function} {name : String}
    (h : name = f.name ∨ name ∈ fs.map Function.name) :
    name ∈ (Program.insertFunction fs f).map Function.name := by
  unfold Program.insertFunction
  by_cases there : (fs.any fun g => g.name == f.name) = true
  · rw [if_pos there, List.map_map]
    have kept : fs.map (Function.name ∘ fun g => if g.name == f.name then f else g) =
        fs.map Function.name := by
      refine List.map_congr_left fun g _ => ?_
      by_cases same : (g.name == f.name) = true
      · exact (congrArg Function.name (if_pos same)).trans (beq_iff_eq.1 same).symm
      · exact congrArg Function.name (if_neg same)
    rw [kept]
    obtain rfl | h := h
    · obtain ⟨g, hg, same⟩ := List.any_eq_true.1 there
      exact beq_iff_eq.1 same ▸ List.mem_map_of_mem hg
    · exact h
  · rw [if_neg there, List.map_append, List.mem_append]
    exact h.symm.imp_right fun h => List.mem_singleton.2 h

theorem mem_names_foldl_insertFunction {name : String} : ∀ (fs : List Function)
    {before : List Function}, name ∈ before.map Function.name ∨ name ∈ fs.map Function.name →
    name ∈ (fs.foldl Program.insertFunction before).map Function.name
  | [], _, h => h.resolve_right List.not_mem_nil
  | f :: fs, before, h => by
    refine mem_names_foldl_insertFunction fs ?_
    rw [List.map_cons, List.mem_cons] at h
    obtain h | h | h := h
    · exact .inl (mem_names_insertFunction (.inr h))
    · exact .inl (mem_names_insertFunction (.inl h))
    · exact .inr h

end ScriptLang.Code

namespace ScriptLang.Machine

open Code (Declared EndsInReturn SelfContained placements signatureFaults)

section

variable {program : Bound.Program} {code : Code.Program} {bridge : Native.Bridge}
  {name entry : String}

theorem function?_eq_some {g : Code.Function} (h : code.function? name = some g) :
    g ∈ code.functions ∧ g.name = name := by
  unfold Code.Program.function? at h
  exact ⟨List.mem_of_find?_eq_some h, by simpa using List.find?_some h⟩

/-- A function of a program with distinct names is found in the code under its name. -/
theorem function?_of_lower (names : (program.functions.map Bound.Function.name).Nodup)
    (h : Code.lower program name entry = .ok code) {f : Bound.Function}
    (hf : f ∈ program.functions) :
    ∃ g, code.function? f.name = some g ∧ Code.Lowered program f g := by
  obtain ⟨init, fs, _, hfs, _, hfunctions, _⟩ := Code.lower_eq_ok h
  have listed : f.name ∈ code.functions.map Code.Function.name := by
    rw [hfunctions]
    refine Code.mem_names_foldl_insertFunction _ (.inr (List.mem_map.2 ?_))
    obtain ⟨k, hk⟩ := List.mem_iff_getElem?.1 hf
    obtain ⟨g, hg, made⟩ := forall₂_getElem? hfs hk
    exact ⟨g, List.mem_cons_of_mem init (List.mem_of_getElem? hg),
      (Code.lowerFunction_eq_ok made).name⟩
  obtain ⟨g₀, hg₀, hname₀⟩ := List.mem_map.1 listed
  cases found : code.function? f.name with
  | none => exact absurd (beq_iff_eq.2 hname₀) (List.find?_eq_none.1 found g₀ hg₀)
  | some g =>
    obtain ⟨hg, hname⟩ := function?_eq_some found
    refine ⟨g, rfl, ?_⟩
    obtain ⟨f', hf', lowered⟩ | ⟨_, others⟩ := mem_functions_of_lower h hg
    · have same := List.inj_on_of_nodup_map names hf' hf (lowered.name.symm.trans hname)
      rwa [same] at lowered
    · exact absurd hname.symm (others f hf)

theorem functionIndex?_isSome_of_function? {g : Code.Function} (h : code.function? name = some g) :
    (functionIndex? code name).isSome = true := by
  obtain ⟨hg, hname⟩ := function?_eq_some h
  rw [functionIndex?, List.findIdx?_isSome, List.any_eq_true]
  exact ⟨g, hg, beq_iff_eq.2 hname⟩

/-! ### Linking -/

theorem labelPlaces_isSome {c : List Code.Instruction} {l : Code.Label}
    (once : placements l c = 1) : ((labelPlaces c).lookup l).isSome = true := by
  have there : 0 < c.countP fun i => i.op.marks l := by
    rw [← placements, once]
    exact Nat.one_pos
  obtain ⟨i, hi, marks⟩ := List.countP_pos_iff.1 there
  obtain ⟨k, hk⟩ := List.mem_iff_getElem?.1 hi
  rw [labelPlaces_lookup hk ((marks_iff_marked? i l).1 marks) (Nat.le_of_eq once)]
  rfl

/-- Self-contained code refers to nothing that linking could miss. -/
theorem linkFunction_errors {f : Code.Function} (contained : SelfContained program f.code)
    (found : ∀ {n argc native}, Declared program n argc native →
      (functionIndex? code n).isSome = true) :
    (linkFunction code bridge false f).2 = [] := by
  have nothing : f.code.filterMap (unlinkable code f (labelPlaces f.code)) = [] := by
    refine List.filterMap_eq_nil_iff.2 fun i hi => ?_
    obtain ⟨target, call⟩ := contained.refers i hi
    unfold unlinkable
    cases hop : i.op with
    | call n argc => exact if_pos (found (call n argc false (by rw [hop]; rfl)))
    | callNative n argc => exact if_pos (found (call n argc true (by rw [hop]; rfl)))
    | jump l | jumpIfFalse l | jumpIfTrue l =>
      exact if_pos (labelPlaces_isSome (target l (by rw [hop]; rfl)))
    | _ => rfl
  unfold linkFunction
  dsimp only
  split
  · rw [if_neg (Bool.false_ne_true)]
    exact nothing
  · exact nothing

/-- Code that is found whole is linked exactly if there is something to begin with. -/
theorem link_eq_of_complete (bridge : Native.Bridge) (complete : ∀ f ∈ code.functions,
      (linkFunction code bridge false f).2 = []) :
    match code.entry.bind (functionIndex? code) with
    | some _ => ∃ e, link code bridge false = .ok e
    | none => link code bridge false = .error [.noEntryPoint (code.entry.getD "")] := by
  have nothing : (code.functions.map (linkFunction code bridge false)).flatMap Prod.snd = [] := by
    refine List.flatMap_eq_nil_iff.2 fun r hr => ?_
    obtain ⟨f, hf, rfl⟩ := List.mem_map.1 hr
    exact complete f hf
  unfold link
  dsimp only
  rw [nothing]
  cases code.entry.bind (functionIndex? code) with
  | some index => exact ⟨_, rfl⟩
  | none => rfl

/-! ### Runs -/

theorem driveUnder_footed : ∀ (fuel : Nat) (stops : Nat → Bool) {m : Machine}
    (sent : Array Emission), m.Footed → (m.driveUnder stops fuel sent).1.Footed
  | 0, _, _, _, footed => footed
  | fuel + 1, stops, m, sent, footed => by
    have stepped := step_footed footed (stops 0)
    unfold driveUnder
    dsimp only
    split
    · exact stepped
    · exact driveUnder_footed fuel _ _ stepped

theorem answer_footed {m : Machine} (footed : m.Footed) (r : Request) :
    (m.answer r).machine.Footed := by
  cases r with
  | pause => exact footed.withStepper _
  | addBreakpoint line => exact footed.withStepper _
  | removeBreakpoint line => exact footed.withStepper _
  | resume mode stops fuel =>
    have opened := (opening_footed footed mode).1
    change (m.resumeUnder mode stops fuel).1.Footed
    rw [resumeUnder_eq]
    split
    · exact opened
    · exact driveUnder_footed fuel stops _ opened

/-- Wherever requests lead, the active functions stand inside their code. -/
theorem answers_footed : ∀ (rs : List Request) {m : Machine}, m.Footed →
    ∀ t ∈ m.answers rs, t.machine.Footed ∧ t.machine.image = m.image
  | [], _, _, _, ht => absurd ht List.not_mem_nil
  | r :: rs, m, footed, t, ht => by
    have answered := answer_footed footed r
    have same := answer_image m r
    rw [answers] at ht
    obtain rfl | ht := List.mem_cons.1 ht
    · exact ⟨answered, same⟩
    · obtain ⟨later, image⟩ := answers_footed rs answered t ht
      exact ⟨later, image.trans same⟩

/-! ### Programs that were bound -/

variable (program code) in
/-- What is known of a function of generated code: the labels that it takes are placed once each, it
jumps to no others, it calls functions of the program as they were declared, which are found under
their names, and its body ends in a return. -/
structure Linkable (g : Code.Function) : Prop where
  labels : ∃ n, ∀ k, placements k g.code = if k < n then 1 else 0
  jumps : ∀ i ∈ g.code, ∀ l, i.op.target? = some l → placements l g.code = 1
  calls : ∀ i ∈ g.code, ∀ called argc native, i.op.call? = some (called, argc, native) →
    Declared program called argc native ∧ ∃ g', code.function? called = some g' ∧
      g'.signature.params.length = argc ∧ g'.isNative = native
  ends : ∀ body, g.kind = .body body → EndsInReturn body

theorem linkable_of_lower (closed : program.Closed)
    (names : (program.functions.map Bound.Function.name).Nodup)
    (h : Code.lower program name entry = .ok code) {g : Code.Function} (hg : g ∈ code.functions) :
    SelfContained program g.code ∧ Linkable program code g := by
  have contained : SelfContained program g.code ∧
      ∀ body, g.kind = .body body → EndsInReturn body := by
    obtain ⟨f, hf, lowered⟩ | ⟨lowered, _⟩ := mem_functions_of_lower h hg
    · exact ⟨lowered.selfContained (closed.stmts_closed f hf), fun _ => lowered.endsInReturn⟩
    · exact ⟨Code.lowerInit_selfContained lowered closed,
        fun _ hkind => (body_of_lowerInit lowered hkind).1⟩
  obtain ⟨⟨labels, refers⟩, ends⟩ := contained
  refine ⟨⟨labels, refers⟩, labels, fun i hi => (refers i hi).target, ?_, ends⟩
  intro i hi called argc native hcall
  have declared := (refers i hi).call called argc native hcall
  refine ⟨declared, ?_⟩
  obtain ⟨f, hf, rfl, rfl, rfl⟩ := declared
  obtain ⟨g', found, lowered⟩ := function?_of_lower names h hf
  exact ⟨g', found, by rw [lowered.signature], lowered.isNative_eq⟩

/-- A lowered program without native functions to find is linked unless nothing has the name of its
entry point. -/
theorem link_eq_error_iff_of_lower (closed : program.Closed)
    (names : (program.functions.map Bound.Function.name).Nodup)
    (h : Code.lower program name entry = .ok code) (bridge : Native.Bridge)
    (es : List LinkError) : link code bridge false = .error es ↔
      es = [.noEntryPoint ""] ∧ ∀ f ∈ program.functions, f.name ≠ entry := by
  have found : ∀ {n argc native}, Declared program n argc native →
      (functionIndex? code n).isSome = true := by
    rintro n argc native ⟨f, hf, rfl, _, _⟩
    obtain ⟨g, hg, _⟩ := function?_of_lower names h hf
    exact functionIndex?_isSome_of_function? hg
  have linked := link_eq_of_complete bridge fun g hg =>
    linkFunction_errors (linkable_of_lower closed names h hg).1 found
  obtain ⟨_, _, _, _, _, _, hentry⟩ := Code.lower_eq_ok h
  by_cases there : ∃ f ∈ program.functions, f.name = entry
  · obtain ⟨f, hf, hname⟩ := there
    have isSome : (code.entry.bind (functionIndex? code)).isSome = true := by
      cases hfind : program.function? entry with
      | none =>
        obtain ⟨k, hk⟩ := List.mem_iff_getElem?.1 hf
        have absent := List.find?_eq_none.1 (Option.map_eq_none_iff.1 hfind) (f, k)
          (List.mk_mem_zipIdx_iff_getElem?.2 hk)
        exact absurd (beq_iff_eq.2 hname) absent
      | some p =>
        have hp : program.functions[p.1]? = some p.2 := getElem?_of_function? hfind
        obtain ⟨g, hg, _⟩ := function?_of_lower names h (List.mem_of_getElem? hp)
        rw [hentry, hfind]
        exact functionIndex?_isSome_of_function? hg
    obtain ⟨index, hindex⟩ := Option.isSome_iff_exists.1 isSome
    rw [hindex] at linked
    obtain ⟨e, he⟩ := linked
    rw [he]
    exact ⟨nofun, fun ⟨_, absent⟩ => absurd hname (absent f hf)⟩
  · have absent : ∀ f ∈ program.functions, f.name ≠ entry := fun f hf hname => there ⟨f, hf, hname⟩
    have hnone : program.function? entry = none := by
      refine Option.map_eq_none_iff.2 (List.find?_eq_none.2 fun p hp => ?_)
      have hmem := List.mem_of_getElem? (List.mem_zipIdx_iff_getElem?.1 hp)
      exact fun same => absent p.1 hmem (beq_iff_eq.1 same)
    rw [hentry, hnone] at linked
    rw [show link code bridge false = _ from linked]
    constructor
    · intro same
      exact ⟨(Except.error.inj same).symm, absent⟩
    · rintro ⟨rfl, _⟩
      rfl

/-- Of a program that was bound, lowering reports the signatures that the machine's functions do not
have, and nothing else.  What it gives is complete: every function is linkable, in no run does a
function come to the end of its code, and linking that leaves native functions aside fails only if
there is no function with the name of the entry point. -/
theorem links_of_bind {source : Syntax.Program} (hbind : Bound.bind source = .ok program)
    (name entry : String) :
    (∀ es, Code.lower program name entry = .error es ↔
      es = signatureFaults program ∧ es ≠ []) ∧
    ∀ code, Code.lower program name entry = .ok code →
      (∀ g ∈ code.functions, Linkable program code g) ∧
      (∀ bridge image, IsImage code bridge image → ∀ max requests,
        ∀ t ∈ (limited image max).answers requests, ∀ frame ∈ t.machine.frames, ∀ g body,
          image.function? frame.function = some g → g.kind = .body body →
            frame.next < body.length) ∧
      ∀ bridge es, link code bridge false = .error es ↔
        es = [.noEntryPoint ""] ∧ ∀ f ∈ program.functions, f.name ≠ entry := by
  have closed := Bound.closed_of_bind hbind
  have names := Bound.nodup_names_of_bind hbind
  refine ⟨fun es => ?_, fun code hlower => ⟨fun g hg => ?_, ?_, ?_⟩⟩
  · have lowered := Code.lower_eq_of_closed closed name entry
    cases hfaults : signatureFaults program with
    | nil =>
      rw [hfaults] at lowered
      obtain ⟨code, hcode⟩ := lowered
      rw [hcode]
      exact ⟨nofun, fun ⟨nothing, something⟩ => absurd nothing something⟩
    | cons fault faults =>
      rw [hfaults] at lowered
      rw [show Code.lower program name entry = _ from lowered]
      constructor
      · intro same
        cases same
        exact ⟨rfl, nofun⟩
      · rintro ⟨rfl, _⟩
        rfl
  · exact (linkable_of_lower closed names hlower hg).2
  · intro bridge image himage max requests t ht frame hframe g body hg hkind
    have promises : Code.Promises program false := ⟨Bound.typed_of_bind hbind, nofun⟩
    have sourced := sourced_of_lower promises names hlower himage
    have begun : (limited image max).Footed := ⟨⟨_, sourced, limited_sound max⟩, nofun, .inl rfl⟩
    obtain ⟨footed, same⟩ := answers_footed requests begun t ht
    have inside := footed.inside frame hframe g (by rw [same]; exact hg)
    rw [Code.Function.code, hkind] at inside
    obtain ⟨i, hi, _⟩ := (linkable_of_lower closed names hlower
      (List.mem_of_getElem? ((himage.function?_eq _).symm.trans hg))).2.ends body hkind
    refine inside.resolve_left fun nothing => ?_
    rw [show body = [] from nothing] at hi
    cases hi
  · exact fun bridge es => link_eq_error_iff_of_lower closed names hlower bridge es

end

/-- `func wait(n: i32) { loop { if (n < 1) { break; } n -= 1; } } func main() { wait(3); }`, without
places. -/
def waiting : Syntax.Program :=
  let node : Syntax.Node := ⟨0, default⟩
  let ident (name : String) : Syntax.Ident := ⟨name, default⟩
  let number (n : Int) : Syntax.Expr := .integer node n none
  let leave : Syntax.Branches :=
    .branch (.binary node .lt (.name node "n") (number 1)) (.mk node [.break node]) .none
  let rest : Syntax.Stmt := .assign node (ident "n") (some .sub) (number 1)
  ⟨[⟨"", [
    ⟨node, .function ⟨ident "wait", [⟨ident "n", ⟨"i32", default⟩⟩], none,
      .block (.mk node [.loop node (.mk node [.cond node leave, rest])])⟩⟩,
    ⟨node, .function ⟨ident "main", [], none,
      .block (.mk node [.expr node (.call node (ident "wait") [number 3])])⟩⟩]⟩]⟩

/-- The program can be linked to begin with one of its functions, and not to begin with another. -/
theorem waiting_links : ∃ program code other, Bound.bind waiting = .ok program ∧
    Code.lower program "waiting" "main" = .ok code ∧
    Code.lower program "waiting" "start" = .ok other ∧
    (∀ g ∈ code.functions, Linkable program code g) ∧
    (∀ es, link code Native.Bridge.platform false ≠ .error es) ∧
    link other Native.Bridge.platform false = .error [.noEntryPoint ""] := by
  refine ⟨_, _, _, rfl, rfl, rfl, ?_, fun es failed => ?_, ?_⟩
  · exact ((links_of_bind (rfl : Bound.bind waiting = .ok _) "waiting" "main").2 _ rfl).1
  · have linked := (links_of_bind (rfl : Bound.bind waiting = .ok _) "waiting" "main").2 _ rfl
    exact absurd ((linked.2.2 _ _).1 failed).2 (by decide)
  · have linked := (links_of_bind (rfl : Bound.bind waiting = .ok _) "waiting" "start").2 _ rfl
    exact (linked.2.2 _ _).2 ⟨rfl, by decide⟩

end ScriptLang.Machine
