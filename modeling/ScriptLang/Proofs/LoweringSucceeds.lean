import ScriptLang.Proofs.ClosedTrees
import ScriptLang.Proofs.LoweredCode

/-!
# Which programs are lowered

Lowering refuses calls of functions that do not exist, loop control outside of loops, and functions
of the machine with another signature than theirs.  A closed program has neither of the first two, so
that only the last can keep it from being lowered (`lower_eq_of_closed`).
-/

namespace ScriptLang.Code

open ScriptLang.Bound (Branches Expr Stmt)

/-- The lowering gives code, whatever the next label. -/
def Succeeds {α : Type} (x : LowerM α) : Prop := ∀ l, ∃ a l', x.run l = .ok (a, l')

theorem Succeeds.pure {α : Type} (a : α) : Succeeds (Pure.pure a) := fun l => ⟨a, l, rfl⟩

theorem Succeeds.bind {α β : Type} {x : LowerM α} {f : α → LowerM β} (hx : Succeeds x)
    (hf : ∀ a, Succeeds (f a)) : Succeeds (x >>= f) := by
  intro l
  obtain ⟨a, m, ha⟩ := hx l
  obtain ⟨b, l', hb⟩ := hf a m
  exact ⟨b, l', run_bind_eq_ok.2 ⟨a, m, ha, hb⟩⟩

theorem freshLabel_succeeds : Succeeds freshLabel := fun l => ⟨l, l + 1, rfl⟩

theorem shortCircuit_succeeds {place : Location} {decisive : Bool}
    {lhs rhs : LowerM (List Instruction)} (hl : Succeeds lhs) (hr : Succeeds rhs) :
    Succeeds (shortCircuit place decisive lhs rhs) :=
  freshLabel_succeeds.bind fun _ => freshLabel_succeeds.bind fun _ => hl.bind fun _ =>
    hr.bind fun _ => .pure _

variable {program : Bound.Program} {locals : Nat}

theorem callee_succeeds {id argc arity : Nat} {place : Location}
    (h : (program.extent locals).arities[id]? = some arity) :
    Succeeds (callee (some program) id argc place) := by
  rw [Bound.Program.extent, List.getElem?_map] at h
  obtain ⟨f, hf, _⟩ := Option.map_eq_some_iff.1 h
  simp only [callee, hf]
  cases f.body <;> exact .pure _

mutual

theorem lowerExpr_succeeds : ∀ (e : Expr), e.Closed (program.extent locals) →
    Succeeds (lowerExpr (some program) e)
  | .literal i v, _ => by
    rw [lowerExpr]
    exact .pure _
  | .variable i b, _ => by
    rw [lowerExpr]
    exact .pure _
  | .unary i op e, h => by
    rw [lowerExpr]
    exact (lowerExpr_succeeds e h).bind fun _ => .pure _
  | .binary i op a b, h => by
    have ha := lowerExpr_succeeds a h.1
    have hb := lowerExpr_succeeds b h.2
    have strict : Succeeds (do
        let x ← lowerExpr (some program) a
        let y ← lowerExpr (some program) b
        return x ++ y ++ [ins i.location (.binary op)] : LowerM (List Instruction)) :=
      ha.bind fun _ => hb.bind fun _ => .pure _
    cases op with
    | and | or =>
      rw [lowerExpr]
      exact shortCircuit_succeeds ha hb
    | _ => exact strict
  | .cast i e, h => by
    rw [lowerExpr]
    exact (lowerExpr_succeeds e h).bind fun _ => .pure _
  | .ternary i c y n, h => by
    rw [lowerExpr]
    exact freshLabel_succeeds.bind fun _ => freshLabel_succeeds.bind fun _ =>
      (lowerExpr_succeeds c h.1).bind fun _ => (lowerExpr_succeeds y h.2.1).bind fun _ =>
        (lowerExpr_succeeds n h.2.2).bind fun _ => .pure _
  | .call i f args, h => by
    rw [lowerExpr]
    exact (callee_succeeds h.2).bind fun _ => (lowerArgs_succeeds args h.1).bind fun _ => .pure _

theorem lowerArgs_succeeds : ∀ (es : List Expr), Bound.argsClosed (program.extent locals) es →
    Succeeds (lowerArgs (some program) es)
  | [], _ => by
    rw [lowerArgs]
    exact .pure _
  | e :: es, h => by
    rw [lowerArgs]
    exact (lowerExpr_succeeds e h.1).bind fun _ => (lowerArgs_succeeds es h.2).bind fun _ => .pure _

end

theorem loopTarget_succeeds {loop : Option LoopLabels} {place : Location}
    {target : LoopLabels → Label} (h : loop.isSome = true) :
    Succeeds (loopTarget loop place target) := by
  cases loop with
  | none => cases h
  | some labels => exact .pure _

mutual

theorem lowerStmt_succeeds : ∀ (s : Stmt) {loop : Option LoopLabels} {inLoop : Bool},
    s.Closed (program.extent locals) inLoop →
    (inLoop = true → loop.isSome = true) →
    Succeeds (lowerStmt program loop s)
  | .block _ body, loop, inLoop, h, hin => by
    rw [lowerStmt]
    exact lowerStmts_succeeds body h hin
  | .assign _ target e, loop, inLoop, h, hin => by
    rw [lowerStmt]
    exact (lowerExpr_succeeds e h.2).bind fun _ => .pure _
  | .expr _ e, loop, inLoop, h, hin => by
    rw [lowerStmt]
    exact (lowerExpr_succeeds e h).bind fun _ => .pure _
  | .cond place branches, loop, inLoop, h, hin => by
    rw [lowerStmt]
    exact freshLabel_succeeds.bind fun _ =>
      (lowerBranches_succeeds branches h hin).bind fun _ => .pure _
  | .while _ c body, loop, inLoop, h, hin => by
    rw [lowerStmt]
    exact freshLabel_succeeds.bind fun _ => freshLabel_succeeds.bind fun _ =>
      (lowerExpr_succeeds c h.1).bind fun _ =>
        (lowerStmts_succeeds body h.2 fun _ => rfl).bind fun _ => .pure _
  | .loop _ body, loop, inLoop, h, hin => by
    rw [lowerStmt]
    exact freshLabel_succeeds.bind fun _ => freshLabel_succeeds.bind fun _ =>
      (lowerStmts_succeeds body h fun _ => rfl).bind fun _ => .pure _
  | .for _ var limit a z body, loop, inLoop, h, hin => by
    obtain ⟨_, _, aclosed, zclosed, bclosed⟩ := h
    rw [lowerStmt]
    exact freshLabel_succeeds.bind fun _ => freshLabel_succeeds.bind fun _ =>
      freshLabel_succeeds.bind fun _ => (lowerExpr_succeeds a aclosed).bind fun _ =>
        (lowerExpr_succeeds z zclosed).bind fun _ =>
          (lowerStmts_succeeds body bclosed fun _ => rfl).bind fun _ =>
          .pure _
  | .ret _ none, loop, inLoop, h, hin => by
    rw [lowerStmt]
    exact .pure _
  | .ret _ (some e), loop, inLoop, h, hin => by
    rw [lowerStmt]
    exact (lowerExpr_succeeds e h).bind fun _ => .pure _
  | .break _, loop, inLoop, h, hin => by
    rw [lowerStmt]
    exact loopTarget_succeeds (hin h)
  | .continue _, loop, inLoop, h, hin => by
    rw [lowerStmt]
    exact loopTarget_succeeds (hin h)

theorem lowerBranches_succeeds : ∀ (bs : Branches) {loop : Option LoopLabels} {inLoop : Bool}
    {place : Location}
    {done : Label},
    bs.Closed (program.extent locals) inLoop →
    (inLoop = true → loop.isSome = true) →
    Succeeds (lowerBranches program loop place done bs)
  | .none, loop, inLoop, place, done, h, hin => by
    rw [lowerBranches]
    exact .pure _
  | .otherwise body, loop, inLoop, place, done, h, hin => by
    rw [lowerBranches]
    exact lowerStmts_succeeds body h hin
  | .branch c body rest, loop, inLoop, place, done, h, hin => by
    rw [lowerBranches]
    exact freshLabel_succeeds.bind fun _ => (lowerExpr_succeeds c h.1).bind fun _ =>
      (lowerStmts_succeeds body h.2.1 hin).bind fun _ =>
        (lowerBranches_succeeds rest h.2.2 hin).bind fun _ => .pure _

theorem lowerStmts_succeeds : ∀ (ss : List Stmt) {loop : Option LoopLabels} {inLoop : Bool},
    Bound.stmtsClosed (program.extent locals) inLoop ss →
    (inLoop = true → loop.isSome = true) →
    Succeeds (lowerStmts program loop ss)
  | [], loop, inLoop, h, hin => by
    rw [lowerStmts]
    exact .pure _
  | s :: ss, loop, inLoop, h, hin => by
    rw [lowerStmts]
    exact (lowerStmt_succeeds s h.1 hin).bind fun _ =>
      (lowerStmts_succeeds ss h.2 hin).bind fun _ => .pure _

end

theorem lowerGlobals_succeeds : ∀ (id : Nat) (gs : List Bound.Global),
    (∀ g ∈ gs, ∀ e, g.init = some e → e.Closed (program.extent locals)) →
      Succeeds (lowerGlobals program id gs)
  | id, [], _ => by
    rw [lowerGlobals]
    exact .pure _
  | id, g :: gs, h => by
    have rest := lowerGlobals_succeeds (id + 1) gs fun g' hg' => h g' (List.mem_cons_of_mem g hg')
    rw [lowerGlobals]
    cases hg : g.init with
    | none => exact (Succeeds.pure []).bind fun _ => rest.bind fun _ => .pure _
    | some e =>
      have closed := h g List.mem_cons_self e hg
      exact (lowerExpr_succeeds e closed).bind fun _ => (Succeeds.pure _).bind fun _ =>
        rest.bind fun _ => .pure _

/-! ### Functions -/

theorem lowerBody_eq_ok_of_closed {f : Bound.Function} {body : List Stmt}
    (closed : Bound.stmtsClosed (program.extent locals) false body) :
    ∃ code, lowerBody program f body = .ok code := by
  have succeeds : Succeeds (lowerStmts program none body) :=
    lowerStmts_succeeds body closed fun outside => outside
  obtain ⟨c, l, hc⟩ := succeeds 0
  unfold lowerBody
  rw [hc]
  simp only [bind, Except.bind]
  split
  · exact ⟨_, rfl⟩
  · exact ⟨_, rfl⟩

/-- What lowering finds wrong with a function of a closed program: it is one of the machine's, with
another signature than theirs. -/
def signatureFault? (f : Bound.Function) : Option LoweringError :=
  match f.body with
  | .intrinsic i =>
    if f.signature = intrinsicSignature then none
    else
      some (.unsupported ("intrinsic '" ++ i.name ++ "' with signature " ++ f.signature.text)
        f.location)
  | _ => none

theorem lowerFunction_eq_of_closed {f : Bound.Function}
    (closed : Bound.stmtsClosed (program.extent locals) false f.stmts) :
    match signatureFault? f with
    | some e => lowerFunction program f = .error e
    | none => ∃ g, lowerFunction program f = .ok g := by
  unfold signatureFault? lowerFunction
  cases hb : f.body with
  | block body =>
    rw [Bound.Function.stmts, hb] at closed
    obtain ⟨code, hcode⟩ := lowerBody_eq_ok_of_closed (f := f) closed
    simp only [hcode]
    exact ⟨_, rfl⟩
  | native symbol => exact ⟨_, rfl⟩
  | intrinsic i =>
    by_cases takes : f.signature = intrinsicSignature
    · have takes' : (⟨f.params, f.ret⟩ : Signature) = intrinsicSignature := takes
      simp only [if_pos takes, if_pos takes']
      exact ⟨_, rfl⟩
    · have takes' : ¬ (⟨f.params, f.ret⟩ : Signature) = intrinsicSignature := takes
      simp only [if_neg takes, if_neg takes']
      rfl

theorem lowerInit_eq_ok_of_closed (closed : program.Closed) : ∃ g, lowerInit program = .ok g := by
  obtain ⟨c, l, hc⟩ := lowerGlobals_succeeds 0 program.globals closed.inits_closed 0
  unfold lowerInit
  rw [hc]
  exact ⟨_, rfl⟩

/-! ### Programs -/

/-- What lowering finds wrong with a closed program. -/
def signatureFaults (program : Bound.Program) : List LoweringError :=
  program.functions.filterMap signatureFault?

theorem filterMap_error_of_closed (closed : program.Closed)
    {error? : Except LoweringError Function → Option LoweringError}
    (herror : ∀ e, error? (.error e) = some e) (hok : ∀ g, error? (.ok g) = none) :
    (lowerInit program :: program.functions.map (lowerFunction program)).filterMap error? =
      signatureFaults program := by
  obtain ⟨init, hinit⟩ := lowerInit_eq_ok_of_closed closed
  rw [hinit, List.filterMap_cons_none (hok init), List.filterMap_map]
  refine List.filterMap_congr fun f hf => ?_
  have lowered := lowerFunction_eq_of_closed (closed.stmts_closed f hf)
  rw [Function.comp_apply]
  split at lowered
  · next e fault => rw [lowered, fault, herror]
  · next fault =>
    obtain ⟨g, hg⟩ := lowered
    rw [hg, fault, hok]

/-- The errors that lowering reports of a closed program are those of its signatures. -/
theorem lower_eq_of_closed (closed : program.Closed) (name entry : String) :
    match signatureFaults program with
    | [] => ∃ code, lower program name entry = .ok code
    | e :: es => lower program name entry = .error (e :: es) := by
  unfold lower
  dsimp only
  rw [filterMap_error_of_closed closed (fun _ => rfl) (fun _ => rfl)]
  cases signatureFaults program with
  | nil => exact ⟨_, rfl⟩
  | cons e es => rfl

/-- Every function of the machine has the machine's signature. -/
def IntrinsicsFit (program : Bound.Program) : Prop :=
  ∀ f ∈ program.functions, ∀ i, f.body = .intrinsic i → f.signature = intrinsicSignature

theorem signatureFaults_eq_nil (fit : IntrinsicsFit program) : signatureFaults program = [] := by
  refine List.filterMap_eq_nil_iff.2 fun f hf => ?_
  unfold signatureFault?
  cases hb : f.body with
  | intrinsic i => exact if_pos (fit f hf i hb)
  | _ => rfl

theorem lower_eq_ok_of_wellTyped (typed : program.WellTyped) (fit : IntrinsicsFit program)
    (name entry : String) : ∃ code, lower program name entry = .ok code := by
  have lowered := lower_eq_of_closed (Bound.Program.WellTyped.closed typed) name entry
  rwa [signatureFaults_eq_nil fit] at lowered

end ScriptLang.Code
