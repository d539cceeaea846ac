import ScriptLang.Proofs.ConstantEvaluation
import ScriptLang.Proofs.LinkedCode
import ScriptLang.Proofs.MeaningPreserved

/-!
# Constants at run time

A global that is set to a constant gets the value that the constant evaluates to, and if evaluation
fails the run ends with the same error at the same place (`constant_runs`).  The machine's run of a
constant's code follows the tree as the evaluator does, whether or not the types in it fit, so
nothing is asked of them.
-/

namespace ScriptLang.Machine

open Bound (Expr Store)
open Code (CodeAt Instruction codeAt_append codeAt_cons constantValue firstCall? ins isConstant
  lowerExpr resultAt)

variable {image : Image} {max : Nat} {t : Activation image} {σ : Store} {operands : List Value}

/-! ### Runs through the code of a constant -/

variable (max t σ) in
/-- The run from the configuration pushes the value and comes to the place `fin`; if there is no
value because of an operation, it ends with the error of the operation. -/
def Delivers (c : Config) (fin : Nat) (operands : List Value) :
    Except Code.LoweringError Value → Prop
  | .ok v => Reaches image max c (t.config σ fin (v :: operands))
  | .error (.evaluation x place) =>
    Ends image max c ⟨.error (.ofError (RuntimeError.operation x place)),
      some (.operation x place), σ.globals, σ.printed⟩
  | .error _ => True

theorem Delivers.of_reaches {c c' : Config} {fin : Nat} {r : Except Code.LoweringError Value}
    (first : Reaches image max c c') (h : Delivers max t σ c' fin operands r) :
    Delivers max t σ c fin operands r := by
  cases r with
  | ok v => exact first.trans h
  | error e =>
    cases e with
    | evaluation x place => exact first.ends h
    | _ => trivial

theorem Delivers.bind {c : Config} {mid fin : Nat} {before : List Value}
    {r : Except Code.LoweringError Value} {f : Value → Except Code.LoweringError Value}
    (h : Delivers max t σ c mid before r)
    (hf : ∀ v, Delivers max t σ (t.config σ mid (v :: before)) fin operands (f v)) :
    Delivers max t σ c fin operands (r >>= f) := by
  cases r with
  | ok v => exact .of_reaches h (hf v)
  | error e =>
    cases e with
    | evaluation x place => exact h
    | _ => trivial

/-- From the place that is reached the run goes on to another. -/
theorem Delivers.trans {c : Config} {mid fin : Nat} {r : Except Code.LoweringError Value}
    (h : Delivers max t σ c mid operands r)
    (further : ∀ v, Reaches image max (t.config σ mid (v :: operands))
      (t.config σ fin (v :: operands))) : Delivers max t σ c fin operands r := by
  cases r with
  | ok v => exact Reaches.trans h (further v)
  | error e =>
    cases e with
    | evaluation x place => exact h
    | _ => trivial

theorem delivers_operation {op : Code.Op} {before : List Value} {pc : Nat} {place : Location}
    {r : Except ValueError Value} (hl : op.isLabel = false) (hi : t.code[pc]? = some (ins place op))
    (hx : ∀ m, (t.context σ pc before place).execute m op =
      (t.context σ pc before place).push m operands r) :
    Delivers max t σ (t.config σ pc before) (pc + 1) operands (resultAt place r) := by
  cases r with
  | ok v => exact (stepsTo_of_push t.loaded hl hi hx).reaches
  | error e => exact ends_of_push t.loaded hl hi hx

/-- The machine finds the labels in the code of the function where they are. -/
def FindsLabels (t : Activation image) : Prop :=
  ∀ {pc : Nat} {place : Location} {l : Code.Label}, t.code[pc]? = some (ins place (.label l)) →
    image.labelPlace? t.index l = some pc

/-- The code of a constant pushes the value of its tree, or ends the run with the error. -/
theorem constant_delivers {program : Option Bound.Program} (labels : FindsLabels t) : ∀ (e : Expr)
    {l l' : Code.Label} {code : List Instruction} {pc fin : Nat} {operands : List Value},
    isConstant e = true → (lowerExpr program e).run l = .ok (code, l') → CodeAt t.code pc code →
    fin = pc + code.length →
    Delivers max t σ (t.config σ pc operands) fin operands (constantValue e)
  | .literal i v, l, l', code, pc, fin, operands, _, hrun, hcode, hfin => by
    obtain ⟨rfl, rfl⟩ := Code.lowerExpr_literal_run_eq hrun
    subst hfin
    rw [constantValue]
    exact Activation.reaches_pushConst hcode.1
  | .variable i b, l, l', code, pc, fin, operands, constant, hrun, hcode, hfin => by cases constant
  | .unary i op e, l, l', code, pc, fin, operands, constant, hrun, hcode, hfin => by
    obtain ⟨c, hc, rfl⟩ := Code.lowerExpr_unary_run_eq hrun
    obtain ⟨hec, hop⟩ := codeAt_append.1 hcode
    obtain rfl : fin = pc + c.length + 1 := by simp [hfin, Nat.add_assoc]
    rw [constantValue]
    refine (constant_delivers labels e constant hc hec rfl).bind fun v => ?_
    exact delivers_operation rfl hop.1 fun _ => rfl
  | .binary i op a b, l, l', code, pc, fin, operands, constant, hrun, hcode, hfin => by
    obtain ⟨aconstant, bconstant⟩ := (Bool.and_eq_true _ _).mp constant
    cases hop : op.isLogical with
    | true =>
      obtain ⟨ca, m, cb, ha, hb, rfl⟩ := Code.lowerExpr_logical_run_eq hop hrun
      simp only [Code.shortCircuitCode, List.append_assoc, List.cons_append, codeAt_append,
        codeAt_cons] at hcode
      obtain ⟨hca, hjump, hcb, hskip, hdecided, hpush, hdone, _⟩ := hcode
      obtain rfl : fin = pc + ca.length + 1 + cb.length + 1 + 1 + 1 + 1 := by
        simp only [hfin, Code.shortCircuitCode, List.length_append, List.length_cons,
          List.length_nil]
        omega
      rw [Code.constantValue_logical i hop]
      refine (constant_delivers labels a aconstant ha hca rfl).bind fun v => ?_
      refine .of_reaches (Activation.reaches_jumpIf (op == .or) (labels hdecided) hjump) ?_
      split
      · refine .of_reaches (Activation.reaches_label hdecided) ?_
        refine .of_reaches (Activation.reaches_pushConst hpush) ?_
        exact Activation.reaches_label hdone
      · refine (constant_delivers labels b bconstant hb hcb rfl).trans fun w => ?_
        exact (Activation.reaches_jump (labels hdone) hskip).trans (Activation.reaches_label hdone)
    | false =>
      obtain ⟨ca, m, cb, ha, hb, rfl⟩ := Code.lowerExpr_binary_run_eq hop hrun
      rw [List.append_assoc, codeAt_append, codeAt_append] at hcode
      obtain ⟨hca, hcb, hinstr, _⟩ := hcode
      obtain rfl : fin = pc + ca.length + cb.length + 1 := by simp [hfin, Nat.add_assoc]
      rw [Code.constantValue_binary i hop]
      refine (constant_delivers labels a aconstant ha hca rfl).bind fun v => ?_
      refine (constant_delivers labels b bconstant hb hcb rfl).bind fun w => ?_
      exact delivers_operation rfl hinstr fun _ => rfl
  | .cast i e, l, l', code, pc, fin, operands, constant, hrun, hcode, hfin => by
    obtain ⟨c, hc, rfl⟩ := Code.lowerExpr_cast_run_eq hrun
    rw [constantValue]
    split at hcode
    · next same =>
      rw [if_pos same] at hfin
      refine (constant_delivers labels e constant hc hcode hfin).bind fun v => ?_
      rw [if_pos same]
      exact .refl _
    · next differ =>
      rw [if_neg differ] at hfin
      obtain ⟨hec, hop⟩ := codeAt_append.1 hcode
      obtain rfl : fin = pc + c.length + 1 := by simp [hfin, Nat.add_assoc]
      refine (constant_delivers labels e constant hc hec rfl).bind fun v => ?_
      rw [if_neg differ]
      exact delivers_operation rfl hop.1 fun _ => rfl
  | .ternary i c y n, l, l', code, pc, fin, operands, constant, hrun, hcode, hfin => by
    obtain ⟨cc, m, cy, m', cn, hc, hy, hn, rfl⟩ := Code.lowerExpr_ternary_run_eq hrun
    obtain ⟨constant, nconstant⟩ := (Bool.and_eq_true _ _).mp constant
    obtain ⟨cconstant, yconstant⟩ := (Bool.and_eq_true _ _).mp constant
    simp only [List.append_assoc, List.cons_append, codeAt_append, codeAt_cons] at hcode
    obtain ⟨hcc, hjump, hcy, hskip, hother, hcn, hdone, _⟩ := hcode
    obtain rfl : fin = pc + cc.length + 1 + cy.length + 1 + 1 + cn.length + 1 := by
      simp only [hfin, List.length_append, List.length_cons, List.length_nil]
      omega
    rw [constantValue]
    refine (constant_delivers labels c cconstant hc hcc rfl).bind fun v => ?_
    refine .of_reaches (Activation.reaches_jumpIf false (labels hother) hjump) ?_
    cases v.truthy with
    | true =>
      refine (constant_delivers labels y yconstant hy hcy rfl).trans fun w => ?_
      exact (Activation.reaches_jump (labels hdone) hskip).trans (Activation.reaches_label hdone)
    | false =>
      refine .of_reaches (Activation.reaches_label hother) ?_
      exact (constant_delivers labels n nconstant hn hcn rfl).trans fun w =>
        Activation.reaches_label hdone
  | .call i f args, l, l', code, pc, fin, operands, constant, hrun, hcode, hfin => by cases constant

/-! ### Programs that set one global -/

theorem exitCode_zero (ty : Ty) : exitCode (some (.zero ty)) = 0 := by
  cases ty with
  | int t =>
    obtain ⟨signed, width⟩ := t
    cases signed <;> cases width <;> rfl
  | _ => rfl

/-- A body without statements ends the run with the code zero. -/
theorem empty_ends {program : Bound.Program} {f : Bound.Function} {g : Code.Function} {index : Nat}
    {globals locals : List Value} {printed : String} (loaded : image.function? index = some g)
    (lowered : Code.Lowered program f g) (empty : f.body = .block []) :
    Ends image max ⟨.entry, globals, [⟨index, 0, locals, []⟩], printed⟩
      ⟨.code 0, none, globals, printed⟩ := by
  obtain ⟨place, hcode⟩ : ∃ place, g.code = Code.finalReturn f.ret place := by
    have made := lowered.kind
    rw [Code.Function.code]
    cases hk : g.kind with
    | intrinsic i =>
      rw [hk] at made
      cases made with
      | intrinsic given _ => cases empty.symm.trans given
    | native symbol =>
      rw [hk] at made
      cases made with
      | native bound => cases empty.symm.trans bound
    | body code =>
      rw [hk] at made
      cases made with
      | body written lowered =>
        cases empty.symm.trans written
        obtain ⟨c, l, hc, last⟩ := Code.lowerBody_eq_ok lowered
        obtain ⟨rfl, _⟩ := Code.lowerStmts_nil_run_eq hc
        obtain ⟨_, i, nothing, _⟩ | ⟨place, same⟩ := last
        · cases nothing
        · exact ⟨place, same⟩
  have leaves {pc : Nat} (result : Option Value)
      (hi : g.code[pc]? = some ⟨.ret result.isSome, place⟩) (zero : exitCode result = 0) :
      Ends image max ⟨.entry, globals, [⟨index, pc, locals, result.toList⟩], printed⟩
        ⟨.code 0, none, globals, printed⟩ := by
    rw [← zero]
    exact ends_of_executes_leave loaded hi rfl rfl rfl (executes_ret result)
  unfold Code.finalReturn at hcode
  split at hcode
  · exact leaves none (by rw [hcode]; rfl) rfl
  · exact (stepsTo_pushConst loaded (by rw [hcode]; rfl)).reaches.ends
      (leaves (some (.zero f.ret)) (by rw [hcode]; rfl) (exitCode_zero _))

/-- Whether natives are to be found makes no difference to a program that has none. -/
theorem link_eq_of_not_native {code : Code.Program} {bridge : Native.Bridge} {natives : Bool}
    (none : ∀ f ∈ code.functions, f.isNative = false) :
    link code bridge natives = link code bridge false := by
  have same : code.functions.map (linkFunction code bridge natives) =
      code.functions.map (linkFunction code bridge false) := by
    refine List.map_congr_left fun f mem => ?_
    have plain := none f mem
    unfold Code.Function.isNative at plain
    unfold linkFunction
    cases hk : f.kind with
    | native symbol => simp [hk] at plain
    | _ => rfl
  unfold link
  rw [same]

/-- The program's only global is set to a constant, and its only function does nothing. -/
structure SetsConstant (p : Bound.Program) (g : Bound.Global) (f : Bound.Function) (e : Expr) :
    Prop where
  globals : p.globals = [g]
  functions : p.functions = [f]
  init : g.init = some e
  constant : isConstant e = true
  params : f.params = []
  empty : f.body = .block []
  named : f.name ≠ Code.initName

theorem closed_of_isConstant (x : Bound.Extent) : ∀ {e : Expr}, isConstant e = true → e.Closed x
  | .literal .., _ => trivial
  | .unary _ _ e, h => closed_of_isConstant x (e := e) h
  | .cast _ e, h => closed_of_isConstant x (e := e) h
  | .binary _ _ l r, h => by
    obtain ⟨hl, hr⟩ := (Bool.and_eq_true _ _).mp h
    exact ⟨closed_of_isConstant x hl, closed_of_isConstant x hr⟩
  | .ternary _ c y n, h => by
    obtain ⟨h, hn⟩ := (Bool.and_eq_true _ _).mp h
    obtain ⟨hc, hy⟩ := (Bool.and_eq_true _ _).mp h
    exact ⟨closed_of_isConstant x hc, closed_of_isConstant x hy, closed_of_isConstant x hn⟩

section

variable {p : Bound.Program} {g : Bound.Global} {f : Bound.Function} {e : Expr}
  {code : Code.Program} {bridge : Native.Bridge} {name : String}

theorem SetsConstant.closed (h : SetsConstant p g f e) : p.Closed where
  inits_closed g' mem e' init := by
    rw [h.globals, List.mem_singleton] at mem
    subst mem
    cases h.init.symm.trans init
    exact closed_of_isConstant _ h.constant
  stmts_closed f' mem := by
    rw [h.functions, List.mem_singleton] at mem
    subst mem
    rw [Bound.Function.stmts, h.empty]
    trivial

theorem SetsConstant.distinct (h : SetsConstant p g f e) : p.NamesDistinct := by
  refine ⟨?_, fun f' mem => ?_⟩
  · rw [h.functions]
    exact List.nodup_singleton _
  · rw [h.functions, List.mem_singleton] at mem
    exact mem ▸ h.named

theorem SetsConstant.function? (h : SetsConstant p g f e) : p.function? f.name = some (0, f) := by
  simp [Bound.Program.function?, h.functions]

theorem SetsConstant.lowers (h : SetsConstant p g f e) (name : String) :
    ∃ code, Code.lower p name f.name = .ok code := by
  have lowered := Code.lower_eq_of_closed h.closed name f.name
  rwa [Code.signatureFaults_eq_nil fun f' mem i given => by
    rw [h.functions, List.mem_singleton] at mem
    cases h.empty.symm.trans (mem ▸ given)] at lowered

theorem SetsConstant.isNative_eq (h : SetsConstant p g f e)
    (hlower : Code.lower p name f.name = .ok code) {k : Code.Function} (mem : k ∈ code.functions) :
    k.isNative = false := by
  obtain ⟨f', mem', lowered⟩ | ⟨made, _⟩ := mem_functions_of_lower hlower mem
  · rw [h.functions, List.mem_singleton] at mem'
    rw [lowered.isNative_eq, Bound.Function.isNative, mem', h.empty]
  · obtain ⟨_, _, _, _, _, _, _, hkind⟩ := Code.lowerInit_eq_ok made
    rw [Code.Function.isNative, hkind]

theorem SetsConstant.links (h : SetsConstant p g f e)
    (hlower : Code.lower p name f.name = .ok code) (bridge : Native.Bridge) (natives : Bool) :
    ∃ x, link code bridge natives = .ok x := by
  have found : ∃ x, link code bridge false = .ok x := by
    cases hlink : link code bridge false with
    | ok x => exact ⟨x, rfl⟩
    | error es =>
      have absent := ((link_eq_error_iff_of_lower h.closed h.distinct.nodup hlower bridge es).1
        hlink).2 f (by rw [h.functions]; exact List.mem_singleton_self f)
      exact absurd rfl absent
  rwa [link_eq_of_not_native fun k mem => h.isNative_eq hlower mem]

/-- The run begins in the code that sets the global. -/
theorem SetsConstant.runsTo_of_ends (h : SetsConstant p g f e)
    (hlower : Code.lower p name f.name = .ok code) (himage : IsImage code bridge image)
    {ending : Ending}
    (ends : Ends image max ⟨.init, [.zero g.ty], [⟨0, 0, [], []⟩], ""⟩ ending) :
    RunsTo (limited image max) ending := by
  have hloads := loads_of_lower h.distinct hlower himage
  have hentry := entry?_of_lower h.distinct hlower himage h.function?
  obtain ⟨init, hindex, hinit, hlowered⟩ := hloads.init
  obtain ⟨m, sent, hresume, stands⟩ := resume_stands (s := ⟨p, bridge, max, 0⟩) hloads hentry
    hindex hinit hlowered
  rw [Bound.Program.firstStore, h.globals] at stands
  obtain ⟨fuel, m', sent', hdrive, hend⟩ := ends m sent stands
  exact ⟨fuel, m', sent', by rw [hresume, hdrive], hend⟩

/-- If the constant has a value, that is what the run leaves; if not, the run ends with the error of
the operation that fails, at the place of the operation. -/
theorem constant_runs (h : SetsConstant p g f e) (name : String) (bridge : Native.Bridge) :
    ∃ code, Code.lower p name f.name = .ok code ∧
      (∀ natives, ∃ x, link code bridge natives = .ok x) ∧
      ∀ image max, IsImage code bridge image →
        (∀ v, Code.evaluate e = .ok v →
          RunsTo (limited image max) ⟨.code 0, none, [v], ""⟩) ∧
        ∀ x place, Code.evaluate e = .error (.evaluation x place) →
          RunsTo (limited image max) ⟨.error (.ofError (RuntimeError.operation x place)),
            some (.operation x place), [.zero g.ty], ""⟩ := by
  obtain ⟨code, hlower⟩ := h.lowers name
  refine ⟨code, hlower, h.links hlower bridge, fun image max himage => ?_⟩
  have hloads := loads_of_lower h.distinct hlower himage
  have hentry := entry?_of_lower h.distinct hlower himage h.function?
  obtain ⟨init, hindex, hinit, hlowered⟩ := hloads.init
  -- The code of the function that sets the globals is that of the constant, a store and a return.
  obtain ⟨c, l, place, hrun, _, _, _, hkind⟩ := Code.lowerInit_eq_ok hlowered
  rw [h.globals] at hrun
  obtain ⟨ce, m, cs, hce, hnil, rfl⟩ := Code.lowerGlobals_some_run_eq h.init hrun
  obtain ⟨rfl, _⟩ := Code.lowerGlobals_nil_run_eq hnil
  let t : Activation image := ⟨.init, 0, init, [], hinit⟩
  let σ : Store := ⟨[.zero g.ty], [], ""⟩
  have hcode : t.code = ce ++ ins g.location (.popGlobal 0) :: [ins place (.ret false)] := by
    simp [Activation.code, Code.Function.code, t, hkind]
  have whole := Code.codeAt_self t.code
  rw [hcode, codeAt_append, ← hcode] at whole
  obtain ⟨hcon, hstore, hret, _⟩ := whole
  have delivers : Delivers max t σ (t.config σ 0 []) (0 + ce.length) [] (constantValue e) :=
    constant_delivers (fun hi => hloads.label hinit hi) e h.constant hce hcon rfl
  rw [← Code.evaluate_of_no_call (Code.firstCall?_of_isConstant h.constant)] at delivers
  refine ⟨fun v hv => h.runsTo_of_ends hlower himage ?_,
    fun x place hx => h.runsTo_of_ends hlower himage ?_⟩
  · rw [hv] at delivers
    have first : p.functions[0]? = some f := by rw [h.functions, List.getElem?_cons_zero]
    obtain ⟨k, hk, lowered⟩ := hloads.function first
    have stored : StepsTo image max (t.config σ (0 + ce.length) [v])
        (t.config ⟨[v], [], ""⟩ (0 + ce.length + 1) []) :=
      stepsTo_popGlobal hinit Nat.zero_lt_one hstore
    have hparams : k.signature.params = [] := by rw [lowered.signature, h.params]
    have entered : StepsTo image max (t.config ⟨[v], [], ""⟩ (0 + ce.length + 1) [])
        ⟨.entry, [v], [⟨1, 0, initialLocals k [], []⟩], ""⟩ :=
      stepsTo_of_executes_leave_init hinit hret rfl rfl rfl hentry hk hparams (executes_ret none)
    exact ((Reaches.trans delivers stored.reaches).trans entered.reaches).ends
      (empty_ends hk lowered h.empty)
  · rw [hx] at delivers
    exact delivers

end

/-- `var g: i64 = e; func main() { }` -/
def setting (e : Expr) : Bound.Program :=
  { globals := [⟨"g", .int .i64, false, some e, .unknown⟩]
    functions := [⟨"main", [], .void, [], .block [], .unknown⟩] }

theorem setting_setsConstant {e : Expr} (constant : isConstant e = true) :
    SetsConstant (setting e) ⟨"g", .int .i64, false, some e, .unknown⟩
      ⟨"main", [], .void, [], .block [], .unknown⟩ e :=
  ⟨rfl, rfl, rfl, constant, rfl, rfl, by decide⟩

/-- `6 * 7` -/
def product : Expr :=
  let number (n : Int) : Expr := .literal ⟨.int .i64, .unknown⟩ (.ofInt .i64 n)
  .binary ⟨.int .i64, .unknown⟩ .mul (number 6) (number 7)

theorem product_and_dividing_run :
    (∃ code, Code.lower (setting product) "ir" "main" = .ok code ∧
      ∀ image max, IsImage code Native.Bridge.platform image →
        RunsTo (limited image max) ⟨.code 0, none, [.ofInt .i64 42], ""⟩) ∧
    ∃ code, Code.lower (setting Code.dividing) "ir" "main" = .ok code ∧
      ∀ image max, IsImage code Native.Bridge.platform image →
        let e : RuntimeError := .operation .divisionByZero ⟨"t", 25, 1, 26⟩
        RunsTo (limited image max) ⟨.error (.ofError e), some e, [.ofInt .i64 0], ""⟩ := by
  obtain ⟨code, hcode, _, runs⟩ := constant_runs (setting_setsConstant (e := product) rfl) "ir"
    Native.Bridge.platform
  obtain ⟨code', hcode', _, runs'⟩ := constant_runs (setting_setsConstant (e := Code.dividing) rfl)
    "ir" Native.Bridge.platform
  exact ⟨⟨code, hcode, fun image max h =>
      (runs image max h).1 _ ((Code.evaluate_of_no_call rfl).trans rfl)⟩,
    code', hcode', fun image max h =>
      (runs' image max h).2 _ _ ((Code.evaluate_of_no_call rfl).trans rfl)⟩

end ScriptLang.Machine
