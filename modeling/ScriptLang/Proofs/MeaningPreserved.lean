import ScriptLang.Native.Library
import ScriptLang.Proofs.CallSimulation
import ScriptLang.Proofs.LoweringSucceeds

/-!
# Lowering preserves meaning

A well-typed program is lowered, and every image of the lowered program runs to what the program
evaluates to: the same text printed, the same globals, and the result as exit code or the same error
at the same place.
-/

namespace ScriptLang.Machine

open Bound (Call Env Eval Expr Info Setting Stmt Store Stores)
open Code (CodeAt Instruction codeAt_append codeAt_cons ins)

/-! ### What is promised -/

/-- What the run of a program comes to if its evaluation came to this; nothing is said of an
evaluation that was given up. -/
def endingOf : EStateM.Result Bound.Stop Store Value → Option Ending
  | .ok v σ => some ⟨.code (exitCode (some v)), none, σ.globals, σ.printed⟩
  | .error (.failed e) σ => some ⟨.error (.ofError e), some e, σ.globals, σ.printed⟩
  | .error .givenUp _ => none

/-- With enough steps the program runs to this end. -/
def RunsTo (m : Machine) (e : Ending) : Prop :=
  ∃ fuel m' sent, m.resume .run false fuel = (m', sent, .exited e.status) ∧ m'.error = e.error ∧
    m'.globals = e.globals ∧ printedBy sent.toList = e.printed

variable {image : Image} {max : Nat} {s : Setting}

/-! ### The globals -/

/-- The code that sets globals does what setting them in order does. -/
theorem initGlobals_simulates {t : Activation image} {call : Call}
    (hloads : Loads s.program s.bridge image) (hcall : CallsRun s t call)
    (typed : ∀ g ∈ s.program.globals, g.WellTyped s.program)
    (free : ∀ g ∈ s.program.globals, ∀ e, g.init = some e → e.VoidFree) :
    ∀ (gs : List Bound.Global) {id : Nat} {l l' : Code.Label} {code : List Instruction}
    {pc fin : Nat}
      {σ : Store}, s.program.globals.drop id = gs →
      (Code.lowerGlobals s.program id gs).run l = .ok (code, l') → CodeAt t.code pc code →
      fin = pc + code.length → σ.Fits (s.program.env []) →
      Simulates image s.maxCallDepth (t.config σ pc []) (Bound.initGlobals call id gs σ)
        (Done t (s.program.env []) fin [])
  | [], id, l, l', code, pc, fin, σ, hdrop, hrun, hcode, hfin, hσ => by
    obtain ⟨rfl, rfl⟩ := Code.lowerGlobals_nil_run_eq hrun
    subst hfin
    rw [Bound.initGlobals]
    exact .pure ⟨hσ, rfl⟩
  | g :: gs, id, l, l', code, pc, fin, σ, hdrop, hrun, hcode, hfin, hσ => by
    have hid : s.program.globals[id]? = some g := by
      rw [← List.head?_drop, hdrop, List.head?_cons]
    have hnext : s.program.globals.drop (id + 1) = gs := by
      rw [← List.tail_drop, hdrop, List.tail_cons]
    have mem : g ∈ s.program.globals := List.mem_of_getElem? hid
    rw [Bound.initGlobals]
    cases hg : g.init with
    | none =>
      have rest := Code.lowerGlobals_none_run_eq hg hrun
      exact initGlobals_simulates hloads hcall typed free gs hnext rest hcode hfin hσ
    | some e =>
      obtain ⟨c, m, cs, hc, hcs, rfl⟩ := Code.lowerGlobals_some_run_eq hg hrun
      obtain ⟨etyped, hty⟩ := typed g mem e hg
      simp only [List.append_assoc, List.cons_append, List.nil_append, codeAt_append,
        codeAt_cons] at hcode
      obtain ⟨hec, hstore, hrest⟩ := hcode
      have hlen : fin = pc + c.length + 1 + cs.length := by
        simp only [hfin, List.length_append, List.length_cons, List.length_nil]
        omega
      have htarget : (s.program.env []).type? (.global id) = some e.ty := by
        rw [Env.type?, Bound.Program.env, List.getElem?_map, hid, Option.map_some, hty]
      refine (evalExpr_simulates hloads hcall e etyped (free g mem e hg) hc hec rfl hσ).bind ?_
      rintro v σ' c' ⟨hv, hσ', rfl⟩
      refine (writeVariable_simulates (b := .global id) (by rw [htarget, hv]) hσ' hstore).bind ?_
      rintro _ σ'' c' ⟨hσ'', rfl⟩
      exact initGlobals_simulates hloads hcall typed free gs hnext hcs hrest hlen hσ''

/-! ### The entry point -/

/-- The machine stands at the return of the entry point, which gives this value. -/
def AtExit (t : Activation image) : Value → Store → Config → Prop :=
  fun v σ c => ∃ (σ' : Store) (result : Option Value) (pc : Nat) (place : Location),
    t.code[pc]? = some (ins place (.ret result.isSome)) ∧
    c = t.config σ' pc result.toList ∧ σ'.globals = σ.globals ∧ σ'.printed = σ.printed ∧
      v = result.getD .void

theorem exitCode_getD (result : Option Value) :
    exitCode (some (result.getD .void)) = exitCode result := by
  cases result <;> rfl

/-- From the return of the entry point the run ends. -/
theorem Simulates.ends {t : Activation image} (hphase : t.phase = .entry) (hbelow : t.below = [])
    {c : Config} {r : EStateM.Result Bound.Stop Store Value} {e : Ending}
    (h : Simulates image max c r (AtExit t)) (he : endingOf r = some e) : Ends image max c e := by
  cases r with
  | ok v σ =>
    obtain ⟨c', ⟨σ', result, pc, place, hi, rfl, hglobals, hprinted, rfl⟩, reached⟩ := h
    cases he
    rw [exitCode_getD, ← hglobals, ← hprinted]
    exact reached.ends (ends_of_executes_leave t.loaded hi rfl hbelow hphase (executes_ret result))
  | error stop σ =>
    cases stop with
    | failed e' =>
      cases he
      exact h
    | givenUp => cases he

section

variable {f : Bound.Function} {g : Code.Function} {id : Nat} {stmts : List Stmt}

/-- The entry point, once it has begun. -/
theorem entry_simulates (hloads : Loads s.program s.bridge image) (typed : s.program.WellTyped)
    (free : s.program.VoidFree) (hf : s.program.functions[id]? = some f) (hparams : f.params = [])
    (hbody : f.body = .block stmts) (hg : image.function? (id + 1) = some g)
    (lowered : Code.Lowered s.program f g) {σ : Store} (hσ : σ.Fits (s.program.env [])) :
    Simulates image s.maxCallDepth
      ⟨.entry, σ.globals, [⟨id + 1, 0, initialLocals g [], []⟩], σ.printed⟩
      (f.activate [] (Bound.execStmts s.rounds (s.call s.room) f.stmts) σ)
      (AtExit ⟨.entry, id + 1, g, [], hg⟩) := by
  have mem : f ∈ s.program.functions := List.mem_of_getElem? hf
  have ftyped := typed.functions_typed f mem
  have hstmts : f.stmts = stmts := by rw [Bound.Function.stmts, hbody]
  have hlocals : initialLocals g [] = f.startLocals [] := by
    rw [initialLocals, lowered.locals, Bound.Function.startLocals]
  have fits : Store.Fits (s.program.env f.localTypes) { σ with locals := f.startLocals [] } :=
    ⟨hσ.globals, startLocals_types ftyped hparams.symm⟩
  have hkind := lowered.kind
  cases hk : g.kind with
  | intrinsic i =>
    rw [hk] at hkind
    cases hkind with
    | intrinsic given _ => rw [hbody] at given; cases given
  | native symbol =>
    rw [hk] at hkind
    cases hkind with
    | native bound => rw [hbody] at bound; cases bound
  | body code =>
    rw [hk] at hkind
    cases hkind with
    | body written hlowered =>
      rw [hbody] at written
      cases written
      have hcode : (⟨.entry, id + 1, g, [], hg⟩ : Activation image).code = code := by
        rw [Activation.code, Code.Function.code, hk]
      have calls : CallsRun s (⟨.entry, id + 1, g, [], hg⟩ : Activation image) (s.call s.room) :=
        callsRun_call hloads typed free s.room _ rfl
      have run := body_simulates hloads calls ftyped
        (free.stmts_free f mem) hbody hlowered hcode fits
      rw [activate_eq, hstmts, hlocals]
      cases hr : Bound.execStmts s.rounds (s.call s.room) stmts
          { σ with locals := f.startLocals [] } with
      | error e σ' =>
        rw [hr] at run
        exact run.of_error
      | ok ending σ' =>
        rw [hr] at run
        obtain ⟨c, ⟨_, result, pc, place, hi, rfl, _, hvalue⟩, reached⟩ := run
        exact ⟨_, ⟨σ', result, pc, place, hi, rfl, rfl, rfl, hvalue⟩, reached⟩

/-- The run of a loaded program from its first instruction. -/
theorem ends_of_evaluate (hloads : Loads s.program s.bridge image) (typed : s.program.WellTyped)
    (free : s.program.VoidFree) (hf : s.program.functions[id]? = some f) (hparams : f.params = [])
    (hbody : f.body = .block stmts) (hentry : image.entry? = some (id + 1)) {init : Code.Function}
    (hinit : image.function? 0 = some init) (hlowered : Code.lowerInit s.program = .ok init)
    {e : Ending} (he : endingOf (s.evaluate f) = some e) :
    Ends image s.maxCallDepth ⟨.init, s.program.firstStore.globals, [⟨0, 0, [], []⟩], ""⟩ e := by
  obtain ⟨g, hg, lowered⟩ := hloads.function hf
  obtain ⟨c, l, place, hrun, _, _, _, hkind⟩ := Code.lowerInit_eq_ok hlowered
  let t : Activation image := ⟨.init, 0, init, [], hinit⟩
  have hcode : t.code = c ++ [ins place (.ret false)] := by
    rw [Activation.code, Code.Function.code, hkind]
  have whole := Code.codeAt_self t.code
  rw [hcode, codeAt_append, ← hcode] at whole
  have fits : Store.Fits (s.program.env []) s.program.firstStore := by
    refine ⟨?_, rfl⟩
    rw [Bound.Program.firstStore, Bound.Program.env, List.map_map]
    exact List.map_congr_left fun g _ => Value.zero_type g.ty
  have calls : CallsRun s t (s.call s.room) := callsRun_call hloads typed free s.room t rfl
  have hsignature : g.signature.params = [] := by rw [lowered.signature, hparams]
  have run : Simulates image s.maxCallDepth (t.config s.program.firstStore 0 [])
      (s.evaluate f) (AtExit ⟨.entry, id + 1, g, [], hg⟩) := by
    refine (initGlobals_simulates hloads calls typed.globals_typed free.global_inits
      s.program.globals rfl hrun whole.1 rfl fits).bind ?_
    rintro _ σ c' ⟨hσ, rfl⟩
    refine .of_reaches (stepsTo_of_executes_leave_init hinit whole.2.1 rfl rfl rfl hentry hg
      hsignature (executes_ret none)).reaches ?_
    exact entry_simulates hloads typed free hf hparams hbody hg lowered hσ
  exact run.ends rfl rfl he

end

/-! ### Whole runs -/

/-- A program begins with the function that sets its globals. -/
theorem resume_stands (hloads : Loads s.program s.bridge image) {entry : Nat}
    (hentry : image.entry? = some entry) {init : Code.Function} (hindex : image.init? = some 0)
    (hinit : image.function? 0 = some init) (hlowered : Code.lowerInit s.program = .ok init) :
    ∃ m' sent, (∀ fuel, (limited image max).resume .run false fuel = drive false fuel m' sent) ∧
      Stands image max m' sent ⟨.init, s.program.firstStore.globals, [⟨0, 0, [], []⟩], ""⟩ := by
  obtain ⟨_, _, _, _, _, hsignature, hlocals, _⟩ := Code.lowerInit_eq_ok hlowered
  have hparams : init.signature.params = [] := by rw [hsignature]
  have hstart : initialLocals init [] = [] := by
    rw [initialLocals, hlocals]
    rfl
  have hglobals : (image.program.globals.map fun g => Value.zero g.ty) =
      s.program.firstStore.globals := by
    have types := congrArg (List.map Value.zero) hloads.globals
    rwa [List.map_map, List.map_map] at types
  let m' : Machine :=
    { image, globals := s.program.firstStore.globals, frames := [⟨0, 0, [], []⟩]
      stepper := ({} : Stepper).enter.resume .run, phase := .init, maxCallDepth := max }
  refine ⟨m', [send .programStart (.program image.program.name (ofImage image).entryName),
    send .functionEntry (.function init.name 1)].toArray, fun fuel => ?_, ?_⟩
  · simp only [resume, limited, ofImage, start, hentry, hindex, enterRoot, hinit, hparams, enter,
      Advance.after, hstart, hglobals]
    rfl
  · exact ⟨rfl, rfl, rfl, rfl, rfl, rfl, rfl, rfl, rfl, rfl⟩

/-- A well-typed program without values of type `void` is lowered, and whatever it evaluates to,
every image of it runs to that: the text printed, the globals, and the result or the error are the
same. -/
theorem lowering_preserves_meaning (s : Setting) (typed : s.program.WellTyped)
    (free : s.program.VoidFree) (distinct : s.program.NamesDistinct)
    (fit : Code.IntrinsicsFit s.program) (name entry : String) {id : Nat} {f : Bound.Function}
    {stmts : List Stmt} (hf : s.program.function? entry = some (id, f)) (hparams : f.params = [])
    (hbody : f.body = .block stmts) :
    ∃ code, Code.lower s.program name entry = .ok code ∧
      ∀ image, IsImage code s.bridge image → ∀ e, endingOf (s.evaluate f) = some e →
        RunsTo (limited image s.maxCallDepth) e := by
  obtain ⟨code, hcode⟩ := Code.lower_eq_ok_of_wellTyped typed fit name entry
  refine ⟨code, hcode, fun image himage e he => ?_⟩
  have hloads := loads_of_lower distinct hcode himage
  have hentry := entry?_of_lower distinct hcode himage hf
  obtain ⟨init, hindex, hinit, hlowered⟩ := hloads.init
  have ends := ends_of_evaluate hloads typed free
    (getElem?_of_function? hf) hparams hbody hentry hinit
    hlowered he
  obtain ⟨m, sent, hresume, stands⟩ := resume_stands hloads hentry hindex hinit hlowered
  obtain ⟨fuel, m', sent', hdrive, hend⟩ := ends m sent stands
  exact ⟨fuel, m', sent', by rw [hresume, hdrive], hend⟩

/-- A program that sets a global to one, adds the numbers below three to it by calls of a function,
prints a text and returns the sum. -/
def summing : Bound.Program :=
  let place : Location := .unknown
  let i32 : Info := ⟨.int .i32, place⟩
  let number (n : Int) : Expr := .literal i32 (.wrap (.int .i32) n)
  let total : Expr := .variable i32 (.global 0)
  let sum : Expr := .binary i32 .add (.variable i32 (.local 0)) (.variable i32 (.local 1))
  { globals := [⟨"total", .int .i32, false, some (number 1), place⟩]
    functions :=
      [⟨"main", [], .int .i32, [⟨"$limit", .int .i32⟩, ⟨"i", .int .i32⟩], .block
          [.for place 1 0 (number 0) (number 3)
            [.assign place (.global 0) (.call i32 1 [total, .variable i32 (.local 1)])],
          .expr place (.call ⟨.void, place⟩ 2 [.literal ⟨.string, place⟩ (.string "done")]),
          .ret place (some total)], place⟩,
        ⟨"add", [.int .i32, .int .i32], .int .i32, [⟨"a", .int .i32⟩, ⟨"b", .int .i32⟩],
          .block [.ret place (some sum)], place⟩,
        Bound.implicitFunction .print place] }

theorem summing_wellTyped : summing.WellTyped where
  globals_typed := by
    simp only [summing, List.mem_cons, List.not_mem_nil, or_false, forall_eq]
    rintro e ⟨⟩
    exact ⟨⟨rfl, by decide⟩, rfl⟩
  functions_typed := by
    simp only [summing, List.mem_cons, List.not_mem_nil, or_false, forall_eq_or_imp, forall_eq]
    refine ⟨⟨⟨_, rfl⟩, ?_⟩, ⟨⟨_, rfl⟩, ?_⟩, ⟨⟨_, rfl⟩, trivial⟩⟩
    all_goals repeat' first | exact trivial | rfl | apply And.intro | nofun

theorem summing_voidFree : summing.VoidFree where
  global_types := by decide
  global_inits := by simp [summing, Expr.VoidFree]
  local_types := by decide
  stmts_free := by
    simp [summing, Bound.Function.stmts, Bound.stmtsVoidFree, Stmt.VoidFree, Expr.VoidFree,
      Bound.argsVoidFree, Expr.VoidFreeStatement, Bound.implicitFunction]

/-- The sum is the exit code. -/
theorem summing_runsTo_four :
    ∃ code, Code.lower summing "sums" "main" = .ok code ∧
      ∀ image, IsImage code Native.Bridge.platform image →
        RunsTo (limited image 10) ⟨.code 4, none, [.wrap (.int .i32) 4], "done"⟩ := by
  have fit : Code.IntrinsicsFit summing := by
    simp [Code.IntrinsicsFit, summing, Bound.implicitFunction, Bound.Function.signature,
      Code.intrinsicSignature]
  obtain ⟨code, hcode, h⟩ := lowering_preserves_meaning ⟨summing, Native.Bridge.platform, 10, 5⟩
    summing_wellTyped summing_voidFree ⟨by decide, by decide⟩ fit "sums" "main" rfl rfl rfl
  exact ⟨code, hcode, fun image himage => h image himage _ rfl⟩

end ScriptLang.Machine
