import ScriptLang.Proofs.StatementSimulation

/-!
# The machine follows the evaluation of calls

A body whose code ends in a return never ends normally, so that the machine always comes to a
return.  A function that is called runs on the frame of its caller, with one call less of room; by
induction on the room the machine follows all calls (`callsRun_call`).
-/

namespace ScriptLang.Machine

open Bound (Call Completion Env Eval Expr Setting Stmt Store Stores)
open Code (CodeAt EndsInReturn Instruction LoopLabels codeAt_append ins lowerStmt lowerStmts)

/-! ### Bodies that end in a return -/

theorem eval_bind_eq_ok {α β : Type} {x : Eval α} {k : α → Eval β} {σ σ' : Store} {b : β}
    (h : (x >>= k) σ = .ok b σ') : ∃ a σ₁, x σ = .ok a σ₁ ∧ k a σ₁ = .ok b σ' := by
  change EStateM.bind x k σ = .ok b σ' at h
  unfold EStateM.bind at h
  cases hx : x σ with
  | ok a σ₁ =>
    rw [hx] at h
    exact ⟨a, σ₁, rfl, h⟩
  | error e σ₁ =>
    rw [hx] at h
    cases h

theorem endsInReturn_append {a b : List Instruction} (hb : b ≠ []) :
    EndsInReturn (a ++ b) ↔ EndsInReturn b := by
  unfold EndsInReturn
  rw [List.getLast?_append, List.getLast?_eq_some_getLast hb, Option.some_or]

theorem not_endsInReturn_concat (code : List Instruction) {place : Location} {op : Code.Op}
    (h : op.isReturn = false) : ¬ EndsInReturn (code ++ [ins place op]) := by
  rw [endsInReturn_append (by simp)]
  rintro ⟨i, hi, hr⟩
  cases hi
  change op.isReturn = true at hr
  rw [h] at hr
  cases hr

theorem callOp_isReturn (f : Bound.Function) (argc : Nat) :
    (Code.callOp f argc).isReturn = false := by
  unfold Code.callOp
  split <;> rfl

section

variable {program : Bound.Program} {rounds : Nat} {call : Call}

mutual

/-- A statement whose code ends in a return does not end normally. -/
theorem execStmt_ne_normal : ∀ (st : Stmt) {loop : Option LoopLabels} {l l' : Code.Label}
    {code : List Instruction}, st.VoidFree → (lowerStmt program loop st).run l = .ok (code, l') →
    EndsInReturn code → ∀ σ σ', Bound.execStmt rounds call st σ ≠ .ok .normal σ'
  | .block _ body, loop, l, l', code, hfree, hrun, ends, σ, σ' => by
    rw [Bound.execStmt]
    exact execStmts_ne_normal body hfree hrun ends σ σ'
  | .assign _ target e, loop, l, l', code, hfree, hrun, ends, σ, σ' => by
    obtain ⟨c, _, rfl⟩ := Code.lowerStmt_assign_run_eq hrun
    exact absurd ends (not_endsInReturn_concat _ (by cases target <;> rfl))
  | .expr _ e, loop, l, l', code, hfree, hrun, ends, σ, σ' => by
    obtain ⟨c, hc, rfl⟩ := Code.lowerStmt_expr_run_eq hrun
    split at ends
    · rename_i isVoid
      cases e with
      | call i f args =>
        obtain ⟨g, c', _, _, rfl⟩ := Code.lowerExpr_call_run_eq hc
        exact absurd ends (not_endsInReturn_concat _ (callOp_isReturn g _))
      | _ => exact absurd isVoid (Expr.VoidFree.ty_ne_void hfree)
    · exact absurd ends (not_endsInReturn_concat _ rfl)
  | .cond _ branches, loop, l, l', code, hfree, hrun, ends, σ, σ' => by
    obtain ⟨c, _, rfl⟩ := Code.lowerStmt_cond_run_eq hrun
    exact absurd ends (not_endsInReturn_concat _ rfl)
  | .while place c body, loop, l, l', code, hfree, hrun, ends, σ, σ' => by
    obtain ⟨cc, m, cb, _, _, rfl⟩ := Code.lowerStmt_while_run_eq hrun
    rw [endsInReturn_append (by simp)] at ends
    exact absurd ends (not_endsInReturn_concat [ins place (.jump l)] rfl)
  | .loop place body, loop, l, l', code, hfree, hrun, ends, σ, σ' => by
    obtain ⟨cb, _, rfl⟩ := Code.lowerStmt_loop_run_eq hrun
    rw [endsInReturn_append (by simp)] at ends
    exact absurd ends (not_endsInReturn_concat [ins place (.jump l)] rfl)
  | .for place var limit a z body, loop, l, l', code, hfree, hrun, ends, σ, σ' => by
    obtain ⟨ca, m, cz, m', cb, _, _, _, rfl⟩ := Code.lowerStmt_for_run_eq hrun
    rw [Code.forCode, endsInReturn_append (by simp)] at ends
    obtain ⟨i, hi, hr⟩ := ends
    cases hi
    cases hr
  | .ret place none, loop, l, l', code, hfree, hrun, ends, σ, σ' => by
    rw [Bound.execStmt]
    intro h
    cases h
  | .ret place (some e), loop, l, l', code, hfree, hrun, ends, σ, σ' => by
    rw [Bound.execStmt]
    intro h
    obtain ⟨v, σ₁, _, h⟩ := eval_bind_eq_ok h
    cases h
  | .break place, loop, l, l', code, hfree, hrun, ends, σ, σ' => by
    rw [Bound.execStmt]
    intro h
    cases h
  | .continue place, loop, l, l', code, hfree, hrun, ends, σ, σ' => by
    rw [Bound.execStmt]
    intro h
    cases h

theorem execStmts_ne_normal : ∀ (ss : List Stmt) {loop : Option LoopLabels} {l l' : Code.Label}
    {code : List Instruction}, Bound.stmtsVoidFree ss →
    (lowerStmts program loop ss).run l = .ok (code, l') → EndsInReturn code →
    ∀ σ σ', Bound.execStmts rounds call ss σ ≠ .ok .normal σ'
  | [], loop, l, l', code, hfree, hrun, ends, σ, σ' => by
    obtain ⟨rfl, rfl⟩ := Code.lowerStmts_nil_run_eq hrun
    obtain ⟨i, hi, _⟩ := ends
    cases hi
  | st :: ss, loop, l, l', code, hfree, hrun, ends, σ, σ' => by
    obtain ⟨c, m, cs, hc, hcs, rfl⟩ := Code.lowerStmts_cons_run_eq hrun
    rw [Bound.execStmts]
    intro h
    obtain ⟨ending, σ₁, hst, h⟩ := eval_bind_eq_ok h
    cases ending with
    | normal =>
      by_cases hnil : cs = []
      · rw [hnil, List.append_nil] at ends
        exact execStmt_ne_normal st hfree.1 hc ends σ σ₁ hst
      · rw [endsInReturn_append hnil] at ends
        exact execStmts_ne_normal ss hfree.2 hcs ends σ₁ σ' h
    | broke => cases h
    | continued => cases h
    | returned v => cases h

end

end

variable {image : Image} {max : Nat} {s : Setting} {f : Bound.Function} {g : Code.Function}

/-- The machine stands at a return that gives the value of a call whose body ended so. -/
def AtReturn (t : Activation image) (Γ : Env) (ret : Ty) : Completion → Store → Config → Prop :=
  fun ending σ c => σ.Fits Γ ∧ ∃ result pc place,
    t.code[pc]? = some (ins place (.ret result.isSome)) ∧ c = t.config σ pc result.toList ∧
      Returns ret result ∧ ending.result ret = result.getD .void

/-- The code behind a body that can end without a return. -/
theorem reaches_finalReturn {t : Activation image} {ret : Ty} {place : Location} {pc : Nat}
    {σ : Store} {Γ : Env} (hσ : σ.Fits Γ) (hcode : CodeAt t.code pc (Code.finalReturn ret place)) :
    ∃ c, AtReturn t Γ ret .normal σ c ∧ Reaches image max (t.config σ pc []) c := by
  unfold Code.finalReturn at hcode
  split at hcode
  · rename_i isVoid
    refine ⟨_, ⟨hσ, none, pc, place, hcode.1, rfl, isVoid, ?_⟩, .refl _⟩
    rw [isVoid]
    rfl
  · rename_i notVoid
    refine ⟨_, ⟨hσ, some (.zero ret), pc + 1, place, hcode.2.1, rfl,
      ⟨Value.zero_type ret, notVoid⟩, rfl⟩, ?_⟩
    exact Activation.reaches_pushConst hcode.1

/-- The code of a body comes to a return, or the evaluation of the body fails. -/
theorem body_simulates {t : Activation image} {call : Call} {stmts : List Stmt}
    {code : List Instruction} (hloads : Loads s.program s.bridge image) (hcall : CallsRun s t call)
    (htyped : f.Typed Stores s.program) (hfree : Bound.stmtsVoidFree f.stmts)
    (hbody : f.body = .block stmts) (hlowered : Code.lowerBody s.program f stmts = .ok code)
    (hcode : t.code = code) {σ : Store} (hσ : σ.Fits (s.program.env f.localTypes)) :
    Simulates image s.maxCallDepth (t.config σ 0 []) (Bound.execStmts s.rounds call stmts σ)
      (AtReturn t (s.program.env f.localTypes) f.ret) := by
  have hstmts : f.stmts = stmts := by rw [Bound.Function.stmts, hbody]
  have typed := htyped.stmts_typed
  rw [hstmts] at typed hfree
  obtain ⟨c, l, hrun, hends⟩ := Code.lowerBody_eq_ok hlowered
  have hc : CodeAt t.code 0 c := by
    rw [hcode]
    obtain ⟨rfl, _⟩ | ⟨place, rfl⟩ := hends
    · exact Code.codeAt_self _
    · exact Code.codeAt_prefix c _
  refine (execStmts_simulates hloads hcall stmts typed hfree hrun hc rfl hσ).trans ?_
  intro ending σ' c' hr hending
  cases ending with
  | normal =>
    obtain ⟨hσ', rfl⟩ := hending
    obtain ⟨rfl, ends⟩ | ⟨place, rfl⟩ := hends
    · exact absurd hr (execStmts_ne_normal stmts hfree hrun ends σ σ')
    · have whole := Code.codeAt_self t.code
      rw [hcode, codeAt_append, ← hcode] at whole
      exact reaches_finalReturn hσ' whole.2
  | broke =>
    obtain ⟨_, _, _, _, hloop, _⟩ := hending
    cases hloop
  | continued =>
    obtain ⟨_, _, _, _, hloop, _⟩ := hending
    cases hloop
  | returned v =>
    obtain ⟨hσ', hreturns, pc, place, hi, rfl⟩ := hending
    exact ⟨_, ⟨hσ', v, pc, place, hi, rfl, hreturns, rfl⟩, .refl _⟩

/-! ### Calls -/

/-- The variables of a function that is called fit its declaration. -/
theorem startLocals_types (htyped : f.Typed Stores s.program) {args : List Value}
    (hargs : args.map Value.type = f.params) :
    (f.startLocals args).map Value.type = f.localTypes := by
  obtain ⟨rest, hrest⟩ := htyped.params_first
  have hlen : args.length = f.params.length := by simpa using congrArg List.length hargs
  have zeros : ((f.locals.drop args.length).map fun l => Value.zero l.ty).map Value.type =
      f.localTypes.drop args.length := by
    rw [Bound.Function.localTypes, ← List.map_drop, List.map_map]
    exact List.map_congr_left fun l _ => Value.zero_type l.ty
  rw [Bound.Function.startLocals, List.map_append, zeros, hargs, ← hrest, hlen, List.drop_left]

/-- Evaluating a body with variables of its own leaves those of the caller alone. -/
theorem activate_eq {args : List Value} {body : Eval Completion} {σ : Store} :
    f.activate args body σ =
      match body { σ with locals := f.startLocals args } with
      | .ok ending σ' => .ok (ending.result f.ret) { σ' with locals := σ.locals }
      | .error e σ' => .error e σ' := by
  change EStateM.bind body _ _ = _
  unfold EStateM.bind
  cases body { σ with locals := f.startLocals args } <;> rfl

section

variable {t : Activation image} {id pc : Nat} {args operands : List Value} {place : Location}
  {σ : Store}

/-- The operation calls the function `g` with arguments that are on the operands. -/
def Invokes (t : Activation image) (σ : Store) (pc : Nat) (operands : List Value) (place : Location)
    (op : Code.Op) (index : Nat) (g : Code.Function) (args : List Value) : Prop :=
  ∀ m : Machine, m.image = image →
    (t.context σ pc (args.reverse ++ operands) place).execute m op =
      (t.context σ pc (args.reverse ++ operands) place).invoke m operands index g args

/-- A call takes its arguments off the operands. -/
theorem invokes_callOp (hloads : Loads s.program s.bridge image)
    (hf : s.program.functions[id]? = some f) (hg : image.function? (id + 1) = some g)
    (lowered : Code.Lowered s.program f g) (hargs : args.length = f.params.length)
    (hi : t.code[pc]? = some (ins place (Code.callOp f args.length))) :
    Invokes t σ pc operands place (Code.callOp f args.length) (id + 1) g args := by
  intro m hm
  have hcalled : called? (ins place (Code.callOp f args.length)) = some f.name := by
    unfold called? Code.callOp ins
    cases f.body <;> rfl
  have hcallee := hloads.callee t.loaded hi hf hcalled
  have hexecute : (t.context σ pc (args.reverse ++ operands) place).execute m
      (Code.callOp f args.length) =
        (t.context σ pc (args.reverse ++ operands) place).call m f.name args.length := by
    unfold Code.callOp
    cases f.body <;> rfl
  have hcount : ¬ g.signature.params.length ≠ args.length := by
    rw [lowered.signature, hargs]
    exact fun h => h rfl
  have henough : ¬ (args.reverse ++ operands).length < args.length := by simp
  have hdrop : (args.reverse ++ operands).drop args.length = operands :=
    List.drop_left' (List.length_reverse)
  have htake : ((args.reverse ++ operands).take args.length).reverse = args := by
    rw [List.take_left' List.length_reverse, List.reverse_reverse]
  rw [hexecute]
  simp only [Context.call, Activation.context, contextAt, hm, hcallee, hg, bind, Option.bind, pure,
    if_neg hcount, if_neg henough, hdrop, htake]

/-- A function of the machine prints its argument. -/
theorem reaches_intrinsic {i : Bound.Intrinsic} (hg : g.kind = .intrinsic i)
    (hi : t.code[pc]? = some (ins place (Code.callOp f args.length)))
    (hx : Invokes t σ pc operands place (Code.callOp f args.length) (id + 1) g args) :
    Reaches image max (t.config σ pc (args.reverse ++ operands))
      (t.config { σ with printed := σ.printed ++ i.output args } (pc + 1) operands) := by
  have hout : printedBy (.output ((args.head?.map Value.text).getD "") ::
      if i = .println then [Emission.output "\n"] else []) = i.output args := by
    unfold Bound.Intrinsic.output
    split <;> simp [printedBy, Emission.output?]
  rw [← hout]
  refine (stepsTo_of_executes t.loaded hi (Code.callOp_isLabel f _) _
    fun m hm _ hglobals => ?_).reaches
  have invoked := hx m hm
  simp only [Context.invoke, hg] at invoked
  rw [← hglobals]
  exact invoked

variable (max) in
/-- A function of a library gives a result or fails. -/
theorem native_simulates (hloads : Loads s.program s.bridge image) {symbol : String}
    (hg : image.function? (id + 1) = some g) (lowered : Code.Lowered s.program f g)
    (hkind : g.kind = .native symbol)
    (hi : t.code[pc]? = some (ins place (Code.callOp f args.length)))
    (hx : Invokes t σ pc operands place (Code.callOp f args.length) (id + 1) g args) :
    match (s.bridge.callNamed symbol f.signature args).1 with
    | .ok c => c.value.type = f.ret ∧
      Reaches image max (t.config σ pc (args.reverse ++ operands))
        (t.config σ (pc + 1) (if f.ret = .void then operands else c.value :: operands))
    | .error e => Ends image max (t.config σ pc (args.reverse ++ operands))
        ⟨.error (.ofError (RuntimeError.native f.name e place)), some (.native f.name e place),
          σ.globals, σ.printed⟩ := by
  have hcall := hloads.native hg hkind args
  rw [lowered.signature] at hcall
  have invoked (m : Machine) (hm : m.image = image) := hx m hm
  simp only [Context.invoke, hkind, Context.withOperands] at invoked
  cases hr : (s.bridge.callNamed symbol f.signature args).1 with
  | ok c =>
    have hcalled : image.callNative (id + 1) args = .ok c.value := by
      rw [hcall]
      exact congrArg (Except.map Native.Call.value) hr
    refine ⟨Native.callNamed_value_type hr, ?_⟩
    have passed : Executes image max σ.globals
        (contextAt t.index t.function pc σ.locals (args.reverse ++ operands) t.below place)
        (Code.callOp f args.length) fun m => .ok ⟨{ m with
          globals := σ.globals
          frames := ⟨t.index, pc + 1, σ.locals,
            if f.ret = .void then operands else c.value :: operands⟩ :: t.below }, [], .next⟩ := by
      intro m hm _ hglobals
      have h := invoked m hm
      rw [← hm] at hcalled
      simp only [hcalled, lowered.signature] at h
      refine h.trans ?_
      rw [← hglobals]
      split <;> rfl
    simpa [Activation.config] using
      (stepsTo_of_executes t.loaded hi (Code.callOp_isLabel f _) [] passed).reaches
  | error e =>
    have hcalled : image.callNative (id + 1) args = .error e := by
      rw [hcall]
      exact congrArg (Except.map Native.Call.value) hr
    refine ends_of_executes_error t.loaded hi (Code.callOp_isLabel f _) fun m hm _ _ => ?_
    have h := invoked m hm
    rw [← hm] at hcalled
    simp only [hcalled, lowered.name] at h
    exact h

/-- A function written in the language that is called from `t`. -/
def Activation.callee (t : Activation image) (σ : Store) (pc : Nat) (operands : List Value)
    (hg : image.function? (id + 1) = some g) : Activation image :=
  ⟨t.phase, id + 1, g, ⟨t.index, pc + 1, σ.locals, operands⟩ :: t.below, hg⟩

/-- While there is room, a function that is called begins with its arguments. -/
theorem reaches_callee {code : List Instruction} (hg : image.function? (id + 1) = some g)
    (lowered : Code.Lowered s.program f g) (hkind : g.kind = .body code)
    (hroom : t.below.length + 1 < max)
    (hi : t.code[pc]? = some (ins place (Code.callOp f args.length)))
    (hx : Invokes t σ pc operands place (Code.callOp f args.length) (id + 1) g args) :
    Reaches image max (t.config σ pc (args.reverse ++ operands))
      ((t.callee σ pc operands hg).config { σ with locals := f.startLocals args } 0 []) := by
  have hlocals : initialLocals g args = f.startLocals args := by
    rw [initialLocals, lowered.locals, Bound.Function.startLocals]
  rw [Activation.config, Activation.config, Activation.callee, ← hlocals]
  refine (stepsTo_of_executes_enter t.loaded hi (Code.callOp_isLabel f _)
    fun m hm hmax _ => ?_).reaches
  have invoked := hx m hm
  simp only [Context.invoke, hkind, Context.withOperands, Activation.context, contextAt, hmax,
    List.length_cons, if_neg (Nat.not_le_of_lt hroom)] at invoked
  rw [← hmax] at invoked
  exact invoked

/-- Without room the call is the end. -/
theorem ends_of_overflow {code : List Instruction} (lowered : Code.Lowered s.program f g)
    (hkind : g.kind = .body code) (hroom : max ≤ t.below.length + 1)
    (hi : t.code[pc]? = some (ins place (Code.callOp f args.length)))
    (hx : Invokes t σ pc operands place (Code.callOp f args.length) (id + 1) g args) :
    Ends image max (t.config σ pc (args.reverse ++ operands))
      ⟨.error (.ofError (RuntimeError.stackOverflow f.name max place)),
        some (.stackOverflow f.name max place), σ.globals, σ.printed⟩ := by
  refine ends_of_executes_error t.loaded hi (Code.callOp_isLabel f _) fun m hm hmax _ => ?_
  have invoked := hx m hm
  simp only [Context.invoke, hkind, Context.withOperands, Activation.context, contextAt, hmax,
    List.length_cons, if_pos hroom, lowered.name] at invoked
  exact invoked

/-- A function that was called gives its result to the caller. -/
theorem reaches_caller {hg : image.function? (id + 1) = some g} {σ' : Store} {q : Nat}
    {place' : Location} {result : Option Value}
    (hi : g.code[q]? = some (ins place' (.ret result.isSome))) :
    Reaches image max ((t.callee σ pc operands hg).config σ' q result.toList)
      (t.config { σ' with locals := σ.locals } (pc + 1) (result.toList ++ operands)) :=
  (stepsTo_of_executes_leave hg hi rfl rfl (executes_ret result)).reaches

end

/-- The code of `t` calls a function that is written in the language. -/
structure CallsWritten (s : Setting) (t : Activation image) (σ : Store) (pc : Nat)
    (operands : List Value) (place : Location) (id : Nat) (f : Bound.Function) (stmts : List Stmt)
    (args : List Value) (g : Code.Function) (code : List Instruction) : Prop where
  declared : s.program.functions[id]? = some f
  written : f.body = .block stmts
  args_types : args.map Value.type = f.params
  found : image.function? (id + 1) = some g
  lowered : Code.Lowered s.program f g
  kind : g.kind = .body code
  body : Code.lowerBody s.program f stmts = .ok code
  call : t.code[pc]? = some (ins place (Code.callOp f args.length))
  invokes : Invokes t σ pc operands place (Code.callOp f args.length) (id + 1) g args

/-- Calls are followed if those of functions written in the language are. -/
theorem callsRun_invoke (hloads : Loads s.program s.bridge image) {t : Activation image}
    {enter : Bound.Function → List Stmt → (args : List Value) → Location → Eval Value}
    (henter : ∀ {σ pc operands place id f stmts args g code} {Γ : Env}, σ.Fits Γ →
      Γ.globals = s.program.globals.map Bound.Global.ty →
      CallsWritten s t σ pc operands place id f stmts args g code →
      Simulates image s.maxCallDepth (t.config σ pc (args.reverse ++ operands))
        (enter f stmts args place σ) (Returned t Γ (pc + 1) operands f.ret)) :
    CallsRun s t (s.invoke enter) := by
  intro id f args place Γ σ pc operands hf hargs hσ hglobals hi
  obtain ⟨g, hg, lowered⟩ := hloads.function hf
  have hlen : args.length = f.params.length := by simpa using congrArg List.length hargs
  have hx : Invokes t σ pc operands place (Code.callOp f args.length) (id + 1) g args :=
    invokes_callOp hloads hf hg lowered hlen hi
  rw [Setting.invoke]
  simp only [hf]
  have hkind := lowered.kind
  cases hk : g.kind with
  | body code =>
    rw [hk] at hkind
    cases hkind with
    | body written body =>
      simp only [written]
      exact henter hσ hglobals ⟨hf, written, hargs, hg, lowered, hk, body, hi, hx⟩
  | intrinsic i =>
    rw [hk] at hkind
    cases hkind with
    | intrinsic given takes =>
      have hret : f.ret = .void := congrArg Signature.ret takes
      simp only [given]
      refine ⟨_, ⟨hret.symm, ⟨hσ.globals, hσ.locals⟩, ?_⟩, reaches_intrinsic hk hi hx⟩
      rw [if_pos hret]
  | native symbol =>
    rw [hk] at hkind
    cases hkind with
    | native bound =>
      have called := native_simulates s.maxCallDepth hloads hg lowered hk hi hx
      simp only [bound]
      cases hr : (s.bridge.callNamed symbol f.signature args).1 with
      | ok c =>
        rw [hr] at called
        exact ⟨_, ⟨called.1, hσ, rfl⟩, called.2⟩
      | error e =>
        rw [hr] at called
        exact called

/-- The result of a call is pushed on the operands of the caller unless its type is `void`. -/
theorem Returns.toList_append {ret : Ty} {result : Option Value} (h : Returns ret result)
    (operands : List Value) :
    result.toList ++ operands =
      if ret = .void then operands else result.getD .void :: operands := by
  cases result with
  | none =>
    rw [if_pos (show ret = .void from h)]
    rfl
  | some v =>
    rw [if_neg h.2]
    rfl

theorem Returns.getD_type {ret : Ty} {result : Option Value} (h : Returns ret result) :
    (result.getD .void).type = ret := by
  cases result with
  | none => exact Eq.symm h
  | some v => exact h.1

/-- The machine follows calls with the room that is left. -/
theorem callsRun_call (hloads : Loads s.program s.bridge image) (typed : s.program.WellTyped)
    (free : s.program.VoidFree) : ∀ (room : Nat) (t : Activation image),
    s.maxCallDepth - (t.below.length + 1) = room → CallsRun s t (s.call room) := by
  intro room
  induction room with
  | zero =>
    intro t hroom
    refine callsRun_invoke hloads fun _ _ h => ?_
    exact ends_of_overflow h.lowered h.kind (by omega) h.call h.invokes
  | succ room ih =>
    intro t hroom
    refine callsRun_invoke hloads
      fun {σ pc operands place id f stmts args g code Γ} hσ hglobals h => ?_
    have mem : f ∈ s.program.functions := List.mem_of_getElem? h.declared
    have ftyped := typed.functions_typed f mem
    have fits : Store.Fits (s.program.env f.localTypes) { σ with locals := f.startLocals args } :=
      ⟨hσ.globals.trans hglobals, startLocals_types ftyped h.args_types⟩
    have hcode : (t.callee σ pc operands h.found).code = code := by
      rw [Activation.code, Activation.callee, Code.Function.code, h.kind]
    have calls : CallsRun s (t.callee σ pc operands h.found) (s.call room) :=
      ih _ (by simp only [Activation.callee, List.length_cons]; omega)
    refine .of_reaches (reaches_callee h.found h.lowered h.kind (by omega) h.call h.invokes) ?_
    rw [activate_eq]
    have run := body_simulates hloads calls ftyped
      (free.stmts_free f mem) h.written h.body hcode fits
    cases hr : Bound.execStmts s.rounds (s.call room) stmts
      { σ with locals := f.startLocals args } with
    | error e σ' =>
      rw [hr] at run
      exact run.of_error
    | ok ending σ' =>
      rw [hr] at run
      obtain ⟨c, ⟨hσ', result, q, place', hi, rfl, hreturns, hvalue⟩, reached⟩ := run
      refine ⟨_, ⟨?_, ⟨?_, hσ.locals⟩, ?_⟩, reached.trans (reaches_caller hi)⟩
      · rw [hvalue]
        exact hreturns.getD_type
      · rw [hglobals]
        exact hσ'.globals
      · rw [hvalue, hreturns.toList_append]

end ScriptLang.Machine
