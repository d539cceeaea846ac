import ScriptLang.Proofs.Evaluation
import ScriptLang.Proofs.Execution
import ScriptLang.Proofs.Images
import ScriptLang.Proofs.ResultTypes

/-!
# The machine follows the evaluation of expressions

`Simulates` ties the outcome of an evaluation to a run: a result to a configuration that is reached,
a failure to an end.  Evaluations put together with `>>=` are followed by runs put together
(`Simulates.bind`), so that each construct is followed by the run of its code.
-/

namespace ScriptLang.Machine

open Bound (Binding Call Env Eval Expr Setting Stop Store)
open Code (CodeAt Instruction codeAt_append codeAt_cons ins lowerArgs lowerExpr)

/-! ### Evaluations and runs -/

/-- If the evaluation has a result, then the run that stands at `c` reaches a configuration that
goes with it; if it failed, then the run ends with that failure. -/
def Simulates {α : Type} (image : Image) (max : Nat) (c : Config) (r : EStateM.Result Stop Store α)
    (K : α → Store → Config → Prop) : Prop :=
  match r with
  | .ok a σ => ∃ c', K a σ c' ∧ Reaches image max c c'
  | .error (.failed e) σ =>
    Ends image max c ⟨.error (.ofError e), some e, σ.globals, σ.printed⟩
  | .error .givenUp _ => True

section

variable {α β : Type} {image : Image} {max : Nat} {c c' : Config} {σ : Store}
  {K : α → Store → Config → Prop}

/-- A failure is a failure of whatever was to come. -/
theorem Simulates.of_error {e : Stop} {K' : β → Store → Config → Prop}
    (h : Simulates image max c (.error e σ : EStateM.Result Stop Store α) K) :
    Simulates image max c (.error e σ : EStateM.Result Stop Store β) K' := by
  cases e with
  | failed e => exact h
  | givenUp => trivial

theorem Simulates.of_reaches {r : EStateM.Result Stop Store α} (h : Reaches image max c c')
    (hr : Simulates image max c' r K) : Simulates image max c r K := by
  cases r with
  | ok a σ =>
    obtain ⟨c'', hK, h'⟩ := hr
    exact ⟨c'', hK, h.trans h'⟩
  | error e σ =>
    cases e with
    | failed e => exact h.ends hr
    | givenUp => trivial

theorem Simulates.pure {a : α} (h : K a σ c) :
    Simulates image max c ((Pure.pure a : Eval α) σ) K :=
  ⟨c, h, .refl c⟩

theorem Simulates.bind {x : Eval α} {k : α → Eval β} {K' : β → Store → Config → Prop}
    (hx : Simulates image max c (x σ) K)
    (hk : ∀ a σ' c', K a σ' c' → Simulates image max c' (k a σ') K') :
    Simulates image max c ((x >>= k) σ) K' := by
  change Simulates image max c (EStateM.bind x k σ) K'
  unfold EStateM.bind
  cases hr : x σ with
  | ok a σ' =>
    rw [hr] at hx
    obtain ⟨c', hK, h⟩ := hx
    exact .of_reaches h (hk a σ' c' hK)
  | error e σ' =>
    rw [hr] at hx
    exact hx.of_error

theorem Simulates.trans {r : EStateM.Result Stop Store α} {K' : α → Store → Config → Prop}
    (h : Simulates image max c r K)
    (hK : ∀ a σ c', r = .ok a σ → K a σ c' → ∃ c'', K' a σ c'' ∧ Reaches image max c' c'') :
    Simulates image max c r K' := by
  cases r with
  | ok a σ =>
    obtain ⟨c', h', reached⟩ := h
    obtain ⟨c'', h'', further⟩ := hK _ _ _ rfl h'
    exact ⟨c'', h'', reached.trans further⟩
  | error e σ => exact h.of_error

theorem Simulates.mono {r : EStateM.Result Stop Store α} {K' : α → Store → Config → Prop}
    (h : Simulates image max c r K) (hK : ∀ a σ c, K a σ c → K' a σ c) :
    Simulates image max c r K' :=
  h.trans fun a σ c' _ h' => ⟨c', hK a σ c' h', .refl c'⟩

end

/-! ### Active functions -/

/-- A function that is active, with the functions below it. -/
structure Activation (image : Image) where
  phase : Phase
  index : Nat
  function : Code.Function
  below : List Frame
  loaded : image.function? index = some function

variable {image : Image}

/-- The function stands at `pc` with these operands, everything else as in the store. -/
def Activation.config (t : Activation image) (σ : Store) (pc : Nat) (operands : List Value) :
    Config :=
  ⟨t.phase, σ.globals, ⟨t.index, pc, σ.locals, operands⟩ :: t.below, σ.printed⟩

/-- The code of the function that is active. -/
def Activation.code (t : Activation image) : List Instruction := t.function.code

section

variable {max : Nat} {t : Activation image} {σ : Store} {pc : Nat} {operands : List Value}
  {place : Location}

theorem Activation.reaches_label {l : Code.Label}
    (hi : t.code[pc]? = some (ins place (.label l))) :
    Reaches image max (t.config σ pc operands) (t.config σ (pc + 1) operands) :=
  (stepsTo_label t.loaded hi).reaches

theorem Activation.reaches_pushConst {v : Value}
    (hi : t.code[pc]? = some (ins place (.pushConst v))) :
    Reaches image max (t.config σ pc operands) (t.config σ (pc + 1) (v :: operands)) :=
  (stepsTo_pushConst t.loaded hi).reaches

theorem Activation.reaches_pop {v : Value} (hi : t.code[pc]? = some (ins place .pop)) :
    Reaches image max (t.config σ pc (v :: operands)) (t.config σ (pc + 1) operands) :=
  (stepsTo_pop t.loaded hi).reaches

theorem Activation.reaches_jump {l : Code.Label} {k : Nat}
    (hk : image.labelPlace? t.index l = some k) (hi : t.code[pc]? = some (ins place (.jump l))) :
    Reaches image max (t.config σ pc operands) (t.config σ k operands) :=
  (stepsTo_jump t.loaded hk hi).reaches

/-- A jump on a condition: `when` says which truth value of the condition makes it. -/
theorem Activation.reaches_jumpIf (when : Bool) {v : Value} {l : Code.Label} {k : Nat}
    (hk : image.labelPlace? t.index l = some k)
    (hi : t.code[pc]? = some (ins place (if when then .jumpIfTrue l else .jumpIfFalse l))) :
    Reaches image max (t.config σ pc (v :: operands))
      (t.config σ (if v.truthy = when then k else pc + 1) operands) :=
  (stepsTo_jumpIf t.loaded when hk hi).reaches

/-! ### Variables and operations -/

/-- The value is of type `ty` and has been pushed on the operands. -/
def Pushed (t : Activation image) (Γ : Env) (pc : Nat) (operands : List Value) (ty : Ty) :
    Value → Store → Config → Prop :=
  fun v σ c => v.type = ty ∧ σ.Fits Γ ∧ c = t.config σ pc (v :: operands)

/-- Nothing is left on the operands but what was there. -/
def Done {α : Type} (t : Activation image) (Γ : Env) (pc : Nat) (operands : List Value) :
    α → Store → Config → Prop :=
  fun _ σ c => σ.Fits Γ ∧ c = t.config σ pc operands

theorem readVariable_simulates {Γ : Env} {b : Binding} {ty : Ty} (hb : Γ.type? b = some ty)
    (hσ : σ.Fits Γ) (hi : t.code[pc]? = some (ins place (Code.pushVariable b))) :
    Simulates image max (t.config σ pc operands) (Bound.readVariable b σ)
      (Pushed t Γ (pc + 1) operands ty) := by
  obtain ⟨v, hv, hty⟩ := hσ.value?_eq hb
  have hread : Bound.readVariable b σ = .ok v σ := by
    change EStateM.Result.ok ((σ.value? b).getD .void) σ = .ok v σ
    rw [hv, Option.getD_some]
  rw [hread]
  refine ⟨_, ⟨hty, hσ, rfl⟩, ?_⟩
  cases b with
  | «local» slot => exact (stepsTo_pushLocal t.loaded hv hi).reaches
  | «global» id => exact (stepsTo_pushGlobal t.loaded hv hi).reaches

theorem writeVariable_simulates {Γ : Env} {b : Binding} {v : Value} (hb : Γ.type? b = some v.type)
    (hσ : σ.Fits Γ) (hi : t.code[pc]? = some (ins place (Code.popVariable b))) :
    Simulates image max (t.config σ pc (v :: operands)) (Bound.writeVariable b v σ)
      (Done t Γ (pc + 1) operands) := by
  obtain ⟨w, hw, _⟩ := hσ.value?_eq hb
  refine ⟨_, ⟨hσ.write hb, rfl⟩, ?_⟩
  cases b with
  | «local» slot =>
    obtain ⟨hlt, _⟩ := List.getElem?_eq_some_iff.1 hw
    have stored : StepsTo image max (t.config σ pc (v :: operands))
        (t.config { σ with locals := putAt σ.locals slot v } (pc + 1) operands) :=
      stepsTo_popLocal t.loaded hi
    rw [putAt_of_lt hlt] at stored
    exact stored.reaches
  | «global» id =>
    obtain ⟨hlt, _⟩ := List.getElem?_eq_some_iff.1 hw
    exact (stepsTo_popGlobal t.loaded hlt hi).reaches

/-- The context in which the machine executes the instruction at `pc`. -/
def Activation.context (t : Activation image) (σ : Store) (pc : Nat) (operands : List Value)
    (place : Location) : Context :=
  contextAt t.index t.function pc σ.locals operands t.below place

/-- An operator or a cast, of which it is known what the machine pushes. -/
theorem operate_simulates {Γ : Env} {op : Code.Op} (before : List Value) {ty : Ty}
    {r : Except ValueError Value} (hl : op.isLabel = false) (hσ : σ.Fits Γ)
    (hr : ∀ v, r = .ok v → v.type = ty) (hi : t.code[pc]? = some (ins place op))
    (hx : ∀ m, (t.context σ pc before place).execute m op =
      (t.context σ pc before place).push m operands r) :
    Simulates image max (t.config σ pc before) (Bound.operate place r σ)
      (Pushed t Γ (pc + 1) operands ty) := by
  cases r with
  | ok v => exact ⟨_, ⟨hr v rfl, hσ, rfl⟩, (stepsTo_of_push t.loaded hl hi hx).reaches⟩
  | error e => exact ends_of_push t.loaded hl hi hx

end

/-! ### Expressions -/

/-- The value is of type `ty` and, unless that is `void`, has been pushed on the operands. -/
def Returned (t : Activation image) (Γ : Env) (pc : Nat) (operands : List Value) (ty : Ty) :
    Value → Store → Config → Prop :=
  fun v σ c => v.type = ty ∧ σ.Fits Γ ∧
    c = t.config σ pc (if ty = .void then operands else v :: operands)

/-- What evaluation does for calls the machine does for the calls in the code of `t`: the arguments
are taken off the operands and the result, if there is one, is pushed. -/
def CallsRun (s : Setting) (t : Activation image) (call : Call) : Prop :=
  ∀ {id : Nat} {f : Bound.Function} {args : List Value} {place : Location} {Γ : Env} {σ : Store}
    {pc : Nat} {operands : List Value},
    s.program.functions[id]? = some f → args.map Value.type = f.params → σ.Fits Γ →
      Γ.globals = s.program.globals.map Bound.Global.ty →
      t.code[pc]? = some (ins place (Code.callOp f args.length)) →
      Simulates image s.maxCallDepth (t.config σ pc (args.reverse ++ operands))
        (call id args place σ) (Returned t Γ (pc + 1) operands f.ret)

section

variable {s : Setting} {t : Activation image} {call : Call} {types : List Ty}

theorem labelPlace?_of_codeAt (hloads : Loads s.program s.bridge image) {pc : Nat}
    {place : Location} {l : Code.Label} (hi : t.code[pc]? = some (ins place (.label l))) :
    image.labelPlace? t.index l = some pc :=
  hloads.label t.loaded hi

/-- The values are of these types and have been pushed in order. -/
def AllPushed (t : Activation image) (Γ : Env) (pc : Nat) (operands : List Value) (tys : List Ty) :
    List Value → Store → Config → Prop :=
  fun vs σ c => vs.map Value.type = tys ∧ σ.Fits Γ ∧ c = t.config σ pc (vs.reverse ++ operands)

/-- A call whose arguments are evaluated by their code. -/
theorem evalCall_simulates (hcall : CallsRun s t call) {i : Bound.Info} {id : Nat}
    {f : Bound.Function} {es : List Expr} {σ : Store} {pc q : Nat} {operands : List Value}
    (hf : s.program.functions[id]? = some f)
    (hsig : (s.program.env types).signatures[id]? = some ⟨es.map Expr.ty, i.ty⟩)
    (hi : t.code[q]? = some (ins i.location (Code.callOp f es.length)))
    (hargs : Simulates image s.maxCallDepth (t.config σ pc operands) (Bound.evalArgs call es σ)
      (AllPushed t (s.program.env types) q operands (es.map Expr.ty))) :
    Simulates image s.maxCallDepth (t.config σ pc operands)
      (Bound.evalExpr call (.call i id es) σ)
      (Returned t (s.program.env types) (q + 1) operands i.ty) := by
  rw [Bound.Program.env, List.getElem?_map, hf, Option.map_some, Option.some.injEq] at hsig
  obtain ⟨hparams, hret⟩ := Signature.mk.inj hsig
  rw [Bound.evalExpr]
  refine hargs.bind ?_
  rintro vs σ' c' ⟨hvs, hσ', rfl⟩
  have hlen : vs.length = es.length := by simpa using congrArg List.length hvs
  rw [← hlen] at hi
  rw [← hret]
  exact hcall hf (hvs.trans hparams.symm) hσ' rfl hi

section

variable {max : Nat} {Γ : Env} {c : Config} {σ : Store} {operands : List Value} {ty : Ty}
  {v : Value} {place : Location} {l : Code.Label} {start skip : Nat}

/-- A value that has been pushed is still there where the run goes on to. -/
theorem Simulates.pushed {r : EStateM.Result Stop Store Value} {pc pc' : Nat}
    (h : Simulates image max c r (Pushed t Γ pc operands ty))
    (hnext : ∀ v σ, Reaches image max (t.config σ pc (v :: operands))
      (t.config σ pc' (v :: operands))) :
    Simulates image max c r (Pushed t Γ pc' operands ty) := by
  refine h.trans ?_
  rintro v σ c' _ ⟨hv, hσ, rfl⟩
  exact ⟨_, ⟨hv, hσ, rfl⟩, hnext v σ⟩

/-- The left side of `&&` or `||` has been pushed: the right side is evaluated unless the left one
decides. -/
theorem shortCircuit_simulates (hloads : Loads s.program s.bridge image) {decisive : Bool}
    {rhs : Eval Value} (isBool : ty = .bool) (hσ : σ.Fits Γ)
    (hjump : t.code[start]? =
      some (ins place (if decisive then .jumpIfTrue l else .jumpIfFalse l)))
    (hrhs : Simulates image max (t.config σ (start + 1) operands) (rhs σ)
      (Pushed t Γ skip operands ty))
    (hbehind : CodeAt t.code skip [ins place (.jump (l + 1)), ins place (.label l),
      ins place (.pushConst (.bool decisive)), ins place (.label (l + 1))]) :
    Simulates image max (t.config σ start (v :: operands))
      ((if v.truthy = decisive then return .bool decisive else rhs : Eval Value) σ)
      (Pushed t Γ (skip + 1 + 1 + 1 + 1) operands .bool) := by
  subst isBool
  obtain ⟨hskip, hdecided, hpush, hdone, _⟩ := hbehind
  refine .of_reaches
    (Activation.reaches_jumpIf decisive (labelPlace?_of_codeAt hloads hdecided) hjump) ?_
  split
  · refine .of_reaches (Activation.reaches_label hdecided) ?_
    refine .of_reaches (Activation.reaches_pushConst hpush) ?_
    exact .of_reaches (Activation.reaches_label hdone) (.pure ⟨rfl, hσ, rfl⟩)
  · exact hrhs.pushed fun _ _ =>
      (Activation.reaches_jump (labelPlace?_of_codeAt hloads hdone) hskip).trans
        (Activation.reaches_label hdone)

/-- The condition of a choice has been pushed: one of the two values is evaluated. -/
theorem choice_simulates (hloads : Loads s.program s.bridge image) {l' : Code.Label} {done : Nat}
    {yes no : Eval Value} {tyYes tyNo : Ty} (sameYes : tyYes = ty) (sameNo : tyNo = ty)
    (hjump : t.code[start]? = some (ins place (.jumpIfFalse l)))
    (hyes : Simulates image max (t.config σ (start + 1) operands) (yes σ)
      (Pushed t Γ skip operands tyYes))
    (hskip : t.code[skip]? = some (ins place (.jump l')))
    (hother : t.code[skip + 1]? = some (ins place (.label l)))
    (hno : Simulates image max (t.config σ (skip + 1 + 1) operands) (no σ)
      (Pushed t Γ done operands tyNo))
    (hdone : t.code[done]? = some (ins place (.label l'))) :
    Simulates image max (t.config σ start (v :: operands)) ((if v.truthy then yes else no) σ)
      (Pushed t Γ (done + 1) operands ty) := by
  subst sameYes sameNo
  refine .of_reaches
    (Activation.reaches_jumpIf false (labelPlace?_of_codeAt hloads hother) hjump) ?_
  cases v.truthy with
  | true =>
    exact hyes.pushed fun _ _ =>
      (Activation.reaches_jump (labelPlace?_of_codeAt hloads hdone) hskip).trans
        (Activation.reaches_label hdone)
  | false =>
    refine .of_reaches (Activation.reaches_label hother) ?_
    exact hno.pushed fun _ _ => Activation.reaches_label hdone

end

mutual

/-- The code of an expression pushes its value. -/
theorem evalExpr_simulates (hloads : Loads s.program s.bridge image) (hcall : CallsRun s t call) :
    ∀ (e : Expr) {l l' : Code.Label} {code : List Instruction}
    {pc fin : Nat} {operands : List Value} {σ : Store}, e.WellTyped (s.program.env types) →
    e.VoidFree → (lowerExpr (some s.program) e).run l = .ok (code, l') → CodeAt t.code pc code →
    fin = pc + code.length → σ.Fits (s.program.env types) →
    Simulates image s.maxCallDepth (t.config σ pc operands) (Bound.evalExpr call e σ)
      (Pushed t (s.program.env types) fin operands e.ty)
  | .literal i v, l, l', code, pc, fin, operands, σ, htyped, hfree, hrun, hcode, hfin, hσ => by
    obtain ⟨rfl, rfl⟩ := Code.lowerExpr_literal_run_eq hrun
    subst hfin
    rw [Bound.evalExpr]
    exact .of_reaches (Activation.reaches_pushConst hcode.1) (.pure ⟨htyped.1.symm, hσ, rfl⟩)
  | .variable i b, l, l', code, pc, fin, operands, σ, htyped, hfree, hrun, hcode, hfin, hσ => by
    obtain ⟨rfl, rfl⟩ := Code.lowerExpr_variable_run_eq hrun
    subst hfin
    rw [Bound.evalExpr]
    exact readVariable_simulates htyped hσ hcode.1
  | .unary i op e, l, l', code, pc, fin, operands, σ, htyped, hfree, hrun, hcode, hfin, hσ => by
    obtain ⟨c, hc, rfl⟩ := Code.lowerExpr_unary_run_eq hrun
    obtain ⟨typed, _, hty⟩ := htyped
    obtain ⟨hec, hop⟩ := codeAt_append.1 hcode
    obtain rfl : fin = pc + c.length + 1 := by simp [hfin, Nat.add_assoc]
    rw [Bound.evalExpr]
    refine (evalExpr_simulates hloads hcall e typed hfree.2 hc hec rfl hσ).bind ?_
    rintro v σ' c' ⟨hv, hσ', rfl⟩
    refine operate_simulates (v :: operands) rfl hσ' (fun w hw => ?_) hop.1 fun _ => rfl
    rw [Value.unary_type hw, hv]
    exact hty.symm
  | .binary i op a b, l, l', code, pc, fin, operands, σ, htyped, hfree, hrun, hcode, hfin, hσ => by
    obtain ⟨atyped, btyped, same, allowed, hty⟩ := htyped
    cases hop : op.isLogical with
    | true =>
      obtain ⟨ca, m, cb, ha, hb, rfl⟩ := Code.lowerExpr_logical_run_eq hop hrun
      obtain ⟨isBool, resultBool⟩ := Value.logical_types hop allowed
      have hbool : (Expr.binary i op a b).ty = .bool := hty.trans resultBool
      simp only [Code.shortCircuitCode, List.append_assoc, List.cons_append, codeAt_append,
        codeAt_cons] at hcode
      obtain ⟨hca, hjump, hcb, hskip, hdecided, hpush, hdone, _⟩ := hcode
      obtain rfl : fin = pc + ca.length + 1 + cb.length + 1 + 1 + 1 + 1 := by
        simp only [hfin, Code.shortCircuitCode, List.length_append, List.length_cons,
          List.length_nil]
        omega
      rw [Bound.evalExpr_logical call i hop]
      refine (evalExpr_simulates hloads hcall a atyped hfree.2.1 ha hca rfl hσ).bind ?_
      rintro v σ' c' ⟨_, hσ', rfl⟩
      rw [hbool]
      exact shortCircuit_simulates hloads (same.symm.trans isBool) hσ' hjump
        (evalExpr_simulates hloads hcall b btyped hfree.2.2 hb hcb rfl hσ')
        ⟨hskip, hdecided, hpush, hdone, trivial⟩
    | false =>
      obtain ⟨ca, m, cb, ha, hb, rfl⟩ := Code.lowerExpr_binary_run_eq hop hrun
      rw [List.append_assoc, codeAt_append, codeAt_append] at hcode
      obtain ⟨hca, hcb, hinstr, _⟩ := hcode
      obtain rfl : fin = pc + ca.length + cb.length + 1 := by simp [hfin, Nat.add_assoc]
      rw [Bound.evalExpr_binary call i hop]
      refine (evalExpr_simulates hloads hcall a atyped hfree.2.1 ha hca rfl hσ).bind ?_
      rintro v σ' c' ⟨hv, hσ', rfl⟩
      refine (evalExpr_simulates hloads hcall b btyped hfree.2.2 hb hcb rfl hσ').bind ?_
      rintro w σ'' c' ⟨hw, hσ'', rfl⟩
      refine operate_simulates (w :: v :: operands) rfl hσ'' (fun u hu => ?_) hinstr
        fun _ => rfl
      rw [Value.binary_type hu, hv]
      exact hty.symm
  | .cast i e, l, l', code, pc, fin, operands, σ, htyped, hfree, hrun, hcode, hfin, hσ => by
    obtain ⟨c, hc, rfl⟩ := Code.lowerExpr_cast_run_eq hrun
    rw [Bound.evalExpr]
    split at hcode
    · rename_i same
      rw [if_pos same] at hfin
      refine (evalExpr_simulates hloads hcall e htyped.1 hfree.2 hc hcode hfin hσ).bind ?_
      rintro v σ' c' ⟨hv, hσ', rfl⟩
      have hty : v.type = i.ty := hv.trans same
      rw [← hty, Value.cast_self]
      exact .pure ⟨hty, hσ', rfl⟩
    · rename_i differ
      rw [if_neg differ] at hfin
      obtain ⟨hec, hop⟩ := codeAt_append.1 hcode
      obtain rfl : fin = pc + c.length + 1 := by simp [hfin, Nat.add_assoc]
      refine (evalExpr_simulates hloads hcall e htyped.1 hfree.2 hc hec rfl hσ).bind ?_
      rintro v σ' c' ⟨hv, hσ', rfl⟩
      exact operate_simulates (v :: operands) rfl hσ' (fun w hw => Value.cast_type hw) hop.1
        fun _ => rfl
  | .ternary i c y n, l, l', code, pc, fin, operands, σ, htyped, hfree, hrun, hcode, hfin, hσ => by
    obtain ⟨cc, m, cy, m', cn, hc, hy, hn, rfl⟩ := Code.lowerExpr_ternary_run_eq hrun
    obtain ⟨ctyped, ytyped, ntyped, _, same, hty⟩ := htyped
    obtain ⟨_, cfree, yfree, nfree⟩ := hfree
    simp only [List.append_assoc, List.cons_append, codeAt_append, codeAt_cons] at hcode
    obtain ⟨hcc, hjump, hcy, hskip, hother, hcn, hdone, _⟩ := hcode
    obtain rfl : fin = pc + cc.length + 1 + cy.length + 1 + 1 + cn.length + 1 := by
      simp only [hfin, List.length_append, List.length_cons, List.length_nil]
      omega
    rw [Bound.evalExpr]
    refine (evalExpr_simulates hloads hcall c ctyped cfree hc hcc rfl hσ).bind ?_
    rintro v σ' c' ⟨_, hσ', rfl⟩
    exact choice_simulates hloads hty.symm (same.symm.trans hty.symm) hjump
      (evalExpr_simulates hloads hcall y ytyped yfree hy hcy rfl hσ') hskip hother
      (evalExpr_simulates hloads hcall n ntyped nfree hn hcn rfl hσ') hdone
  | .call i f args, l, l', code, pc, fin, operands, σ, htyped, hfree, hrun, hcode, hfin, hσ => by
    obtain ⟨g, c, hg, hc, rfl⟩ := Code.lowerExpr_call_run_eq hrun
    obtain ⟨hargs, hop⟩ := codeAt_append.1 hcode
    obtain rfl : fin = pc + c.length + 1 := by simp [hfin, Nat.add_assoc]
    refine (evalCall_simulates hcall hg htyped.2 hop.1
      (evalArgs_simulates hloads hcall args htyped.1 hfree.2 hc hargs rfl hσ)).mono ?_
    rintro v σ' c' ⟨hv, hσ', rfl⟩
    rw [if_neg hfree.1]
    exact ⟨hv, hσ', rfl⟩

/-- The code of arguments pushes their values. -/
theorem evalArgs_simulates (hloads : Loads s.program s.bridge image) (hcall : CallsRun s t call) :
    ∀ (es : List Expr) {l l' : Code.Label} {code : List Instruction}
    {pc fin : Nat} {operands : List Value} {σ : Store},
    Bound.argsWellTyped (s.program.env types) es → Bound.argsVoidFree es →
    (lowerArgs (some s.program) es).run l = .ok (code, l') → CodeAt t.code pc code →
    fin = pc + code.length → σ.Fits (s.program.env types) →
    Simulates image s.maxCallDepth (t.config σ pc operands) (Bound.evalArgs call es σ)
      (AllPushed t (s.program.env types) fin operands (es.map Expr.ty))
  | [], l, l', code, pc, fin, operands, σ, htyped, hfree, hrun, hcode, hfin, hσ => by
    obtain ⟨rfl, rfl⟩ := Code.lowerArgs_nil_run_eq hrun
    subst hfin
    rw [Bound.evalArgs]
    exact .pure ⟨rfl, hσ, rfl⟩
  | e :: es, l, l', code, pc, fin, operands, σ, htyped, hfree, hrun, hcode, hfin, hσ => by
    obtain ⟨c, m, cs, hc, hcs, rfl⟩ := Code.lowerArgs_cons_run_eq hrun
    obtain ⟨hec, hescs⟩ := codeAt_append.1 hcode
    rw [List.length_append, ← Nat.add_assoc] at hfin
    rw [Bound.evalArgs]
    refine (evalExpr_simulates hloads hcall e htyped.1 hfree.1 hc hec rfl hσ).bind ?_
    rintro v σ' c' ⟨hv, hσ', rfl⟩
    refine (evalArgs_simulates hloads hcall es htyped.2 hfree.2 hcs hescs hfin hσ').bind ?_
    rintro vs σ'' c' ⟨hvs, hσ'', rfl⟩
    refine .pure ⟨?_, hσ'', ?_⟩
    · rw [List.map_cons, List.map_cons, hv, hvs]
    · rw [List.reverse_cons, List.append_assoc]
      rfl

end

/-- The code of an expression that may be a call without result. -/
theorem evalStatement_simulates (hloads : Loads s.program s.bridge image)
    (hcall : CallsRun s t call)
    {e : Expr} {l l' : Code.Label} {code : List Instruction} {pc : Nat} {operands : List Value}
    {σ : Store} (htyped : e.WellTyped (s.program.env types)) (hfree : e.VoidFreeStatement)
    (hrun : (lowerExpr (some s.program) e).run l = .ok (code, l')) (hcode : CodeAt t.code pc code)
    (hσ : σ.Fits (s.program.env types)) :
    Simulates image s.maxCallDepth (t.config σ pc operands) (Bound.evalExpr call e σ)
      (Returned t (s.program.env types) (pc + code.length) operands e.ty) := by
  have valued (h : e.VoidFree) : Simulates image s.maxCallDepth (t.config σ pc operands)
      (Bound.evalExpr call e σ)
      (Returned t (s.program.env types) (pc + code.length) operands e.ty) := by
    refine (evalExpr_simulates hloads hcall e htyped h hrun hcode rfl hσ).mono ?_
    rintro v σ' c' ⟨hv, hσ', rfl⟩
    refine ⟨hv, hσ', ?_⟩
    rw [if_neg h.ty_ne_void]
  cases e with
  | call i f args =>
    obtain ⟨g, c, hg, hc, rfl⟩ := Code.lowerExpr_call_run_eq hrun
    obtain ⟨hargs, hop⟩ := codeAt_append.1 hcode
    rw [List.length_append, ← Nat.add_assoc]
    exact evalCall_simulates hcall hg htyped.2 hop.1
      (evalArgs_simulates hloads hcall args htyped.1 hfree hc hargs rfl hσ)
  | _ => exact valued hfree

end

end ScriptLang.Machine
