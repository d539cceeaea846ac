import ScriptLang.Proofs.LoopSlots
import ScriptLang.Proofs.LoweredCode

/-!
# The code of counted loops

Code stores only to the slots that its statements store to or count with
(`lowerStmts_storedSlots`), and the code of an expression stores to none.  Every counted loop of a
function stands somewhere in the function's code with the code of its bounds and of its body
(`exists_loopAt`).
-/

namespace ScriptLang.Code

open ScriptLang.Bound (Binding Branches CountedLoop Expr Stmt stmtsLoops stmtsStored)

/-! ### Stored slots -/

/-- The slot that the operation stores to, if it stores to one. -/
def Op.stores? : Op → Option Nat
  | .popLocal slot => some slot
  | _ => none

/-- The slots that the code stores to. -/
def storedSlots (code : List Instruction) : List Nat := code.filterMap fun i => i.op.stores?

@[simp] theorem storedSlots_nil : storedSlots [] = [] := rfl

@[simp] theorem storedSlots_append (a b : List Instruction) :
    storedSlots (a ++ b) = storedSlots a ++ storedSlots b := List.filterMap_append

@[simp] theorem storedSlots_cons (place : Location) (op : Op) (code : List Instruction) :
    storedSlots (ins place op :: code) = op.stores?.toList ++ storedSlots code := by
  cases h : op.stores? with
  | none => exact List.filterMap_cons_none h
  | some slot => exact List.filterMap_cons_some h

@[simp] theorem pushVariable_stores? (b : Binding) : (pushVariable b).stores? = none := by
  cases b <;> rfl

@[simp] theorem callOp_stores? (f : Bound.Function) (argc : Nat) :
    (callOp f argc).stores? = none := by
  unfold callOp
  split <;> rfl

variable {program : Bound.Program}

mutual

theorem lowerExpr_storedSlots : ∀ (e : Expr) {l l' : Label} {code : List Instruction},
    (lowerExpr (some program) e).run l = .ok (code, l') → storedSlots code = []
  | .literal i v, l, l', code, h => by
    obtain ⟨rfl, -⟩ := lowerExpr_literal_run_eq h
    rfl
  | .variable i b, l, l', code, h => by
    obtain ⟨rfl, -⟩ := lowerExpr_variable_run_eq h
    simp
  | .unary i op e, l, l', code, h => by
    obtain ⟨c, hc, rfl⟩ := lowerExpr_unary_run_eq h
    simp [lowerExpr_storedSlots e hc, Op.stores?]
  | .binary i op a b, l, l', code, h => by
    cases hop : op.isLogical with
    | true =>
      obtain ⟨ca, m, cb, ha, hb, rfl⟩ := lowerExpr_logical_run_eq hop h
      have first := lowerExpr_storedSlots a ha
      have second := lowerExpr_storedSlots b hb
      cases op == .or <;> simp [shortCircuitCode, first, second, Op.stores?]
    | false =>
      obtain ⟨ca, m, cb, ha, hb, rfl⟩ := lowerExpr_binary_run_eq hop h
      simp [lowerExpr_storedSlots a ha, lowerExpr_storedSlots b hb, Op.stores?]
  | .cast i e, l, l', code, h => by
    obtain ⟨c, hc, rfl⟩ := lowerExpr_cast_run_eq h
    split
    · exact lowerExpr_storedSlots e hc
    · simp [lowerExpr_storedSlots e hc, Op.stores?]
  | .ternary i c y n, l, l', code, h => by
    obtain ⟨cc, m, cy, m', cn, hc, hy, hn, rfl⟩ := lowerExpr_ternary_run_eq h
    simp [lowerExpr_storedSlots c hc, lowerExpr_storedSlots y hy, lowerExpr_storedSlots n hn,
      Op.stores?]
  | .call i f args, l, l', code, h => by
    obtain ⟨g, c, _, hc, rfl⟩ := lowerExpr_call_run_eq h
    simp [lowerArgs_storedSlots args hc]

theorem lowerArgs_storedSlots : ∀ (es : List Expr) {l l' : Label} {code : List Instruction},
    (lowerArgs (some program) es).run l = .ok (code, l') → storedSlots code = []
  | [], l, l', code, h => by
    obtain ⟨rfl, -⟩ := lowerArgs_nil_run_eq h
    rfl
  | e :: es, l, l', code, h => by
    obtain ⟨c, m, cs, hc, hcs, rfl⟩ := lowerArgs_cons_run_eq h
    simp [lowerExpr_storedSlots e hc, lowerArgs_storedSlots es hcs]

end

/-- The slot is stored to by one of these assignments, or one of these loops counts with it. -/
def SetsSlot (stored : List (Binding × Expr)) (loops : List CountedLoop) (slot : Nat) : Prop :=
  (∃ e, (.local slot, e) ∈ stored) ∨ ∃ l ∈ loops, slot ∈ [l.var, l.limit]

section

variable {stored stored' : List (Binding × Expr)} {loops loops' : List CountedLoop} {slot : Nat}

theorem SetsSlot.left (h : SetsSlot stored loops slot) :
    SetsSlot (stored ++ stored') (loops ++ loops') slot :=
  h.imp (fun ⟨e, he⟩ => ⟨e, List.mem_append_left _ he⟩)
    fun ⟨l, hl, hslot⟩ => ⟨l, List.mem_append_left _ hl, hslot⟩

theorem SetsSlot.right (h : SetsSlot stored' loops' slot) :
    SetsSlot (stored ++ stored') (loops ++ loops') slot :=
  h.imp (fun ⟨e, he⟩ => ⟨e, List.mem_append_right _ he⟩)
    fun ⟨l, hl, hslot⟩ => ⟨l, List.mem_append_right _ hl, hslot⟩

end

mutual

/-- The code of a statement stores to the slots that the statement stores to or counts with. -/
theorem lowerStmt_storedSlots : ∀ (s : Stmt) {loop : Option LoopLabels} {l l' : Label}
    {code : List Instruction}, (lowerStmt program loop s).run l = .ok (code, l') →
    ∀ slot ∈ storedSlots code, SetsSlot s.stored s.loops slot
  | .block _ body, loop, l, l', code, h => lowerStmts_storedSlots body h
  | .assign _ target e, loop, l, l', code, h => by
    obtain ⟨c, hc, rfl⟩ := lowerStmt_assign_run_eq h
    intro slot hslot
    cases target with
    | «local» k =>
      simp [lowerExpr_storedSlots e hc, popVariable, Op.stores?] at hslot
      exact .inl ⟨e, hslot ▸ List.mem_singleton_self _⟩
    | «global» id => simp [lowerExpr_storedSlots e hc, popVariable, Op.stores?] at hslot
  | .expr _ e, loop, l, l', code, h => by
    obtain ⟨c, hc, rfl⟩ := lowerStmt_expr_run_eq h
    split <;> simp [lowerExpr_storedSlots e hc, Op.stores?]
  | .cond _ branches, loop, l, l', code, h => by
    obtain ⟨c, hc, rfl⟩ := lowerStmt_cond_run_eq h
    exact fun slot hslot =>
      lowerBranches_storedSlots branches hc slot (by simpa [Op.stores?] using hslot)
  | .while _ c body, loop, l, l', code, h => by
    obtain ⟨cc, m, cb, hc, hb, rfl⟩ := lowerStmt_while_run_eq h
    exact fun slot hslot => lowerStmts_storedSlots body hb slot (by
      simpa [lowerExpr_storedSlots c hc, Op.stores?] using hslot)
  | .loop _ body, loop, l, l', code, h => by
    obtain ⟨cb, hb, rfl⟩ := lowerStmt_loop_run_eq h
    exact fun slot hslot => lowerStmts_storedSlots body hb slot (by simpa [Op.stores?] using hslot)
  | .for place var limit a z body, loop, l, l', code, h => by
    obtain ⟨ca, m, cz, m', cb, ha, hz, hb, rfl⟩ := lowerStmt_for_run_eq h
    intro slot hslot
    have cases : slot = var ∨ slot = limit ∨ slot ∈ storedSlots cb := by
      simpa [forCode, lowerExpr_storedSlots a ha, lowerExpr_storedSlots z hz, Op.stores?, or_comm,
        or_left_comm] using hslot
    rcases cases with rfl | rfl | inner
    · exact .inr ⟨_, List.mem_cons_self, List.mem_cons_self⟩
    · exact .inr ⟨_, List.mem_cons_self, List.mem_cons_of_mem _ (List.mem_singleton_self _)⟩
    · have deeper : SetsSlot ([] ++ stmtsStored body)
          ([⟨place, var, limit, a, z, body⟩] ++ stmtsLoops body) slot :=
        (lowerStmts_storedSlots body hb slot inner).right
      exact deeper
  | .ret _ none, loop, l, l', code, h => by
    obtain ⟨rfl, -⟩ := lowerStmt_ret_none_run_eq h
    simp [Op.stores?]
  | .ret _ (some e), loop, l, l', code, h => by
    obtain ⟨c, hc, rfl⟩ := lowerStmt_ret_some_run_eq h
    simp [lowerExpr_storedSlots e hc, Op.stores?]
  | .break _, loop, l, l', code, h => by
    rw [lowerStmt] at h
    obtain ⟨-, labels, _, rfl⟩ := loopTarget_run_eq h
    simp [Op.stores?]
  | .continue _, loop, l, l', code, h => by
    rw [lowerStmt] at h
    obtain ⟨-, labels, _, rfl⟩ := loopTarget_run_eq h
    simp [Op.stores?]

theorem lowerBranches_storedSlots : ∀ (bs : Branches) {loop : Option LoopLabels} {place : Location}
    {done l l' : Label} {code : List Instruction},
    (lowerBranches program loop place done bs).run l = .ok (code, l') →
    ∀ slot ∈ storedSlots code, SetsSlot bs.stored bs.loops slot
  | .none, loop, place, done, l, l', code, h => by
    obtain ⟨rfl, -⟩ := lowerBranches_none_run_eq h
    simp
  | .otherwise body, loop, place, done, l, l', code, h => lowerStmts_storedSlots body h
  | .branch c body rest, loop, place, done, l, l', code, h => by
    obtain ⟨cc, m, cb, m', cr, hc, hb, hr, rfl⟩ := lowerBranches_branch_run_eq h
    intro slot hslot
    have cases : slot ∈ storedSlots cb ∨ slot ∈ storedSlots cr := by
      simpa [lowerExpr_storedSlots c hc, Op.stores?] using hslot
    rcases cases with first | others
    · exact (lowerStmts_storedSlots body hb slot first).left
    · exact (lowerBranches_storedSlots rest hr slot others).right

theorem lowerStmts_storedSlots : ∀ (ss : List Stmt) {loop : Option LoopLabels} {l l' : Label}
    {code : List Instruction}, (lowerStmts program loop ss).run l = .ok (code, l') →
    ∀ slot ∈ storedSlots code, SetsSlot (stmtsStored ss) (stmtsLoops ss) slot
  | [], loop, l, l', code, h => by
    obtain ⟨rfl, -⟩ := lowerStmts_nil_run_eq h
    simp
  | s :: ss, loop, l, l', code, h => by
    obtain ⟨c, m, cs, hc, hcs, rfl⟩ := lowerStmts_cons_run_eq h
    intro slot hslot
    rw [storedSlots_append] at hslot
    rcases List.mem_append.1 hslot with first | others
    · exact (lowerStmt_storedSlots s hc slot first).left
    · exact (lowerStmts_storedSlots ss hcs slot others).right

end

/-- The code of a loop's body stores neither to the slot of the limit nor, if nothing in the body
is assigned to it, to that of the variable. -/
theorem not_mem_storedSlots_body {c : CountedLoop} (separate : c.Separate)
    (kept : ∀ e, (.local c.var, e) ∉ stmtsStored c.body) {loop : Option LoopLabels} {l l' : Label}
    {code : List Instruction} (h : (lowerStmts program loop c.body).run l = .ok (code, l')) :
    c.var ∉ storedSlots code ∧ c.limit ∉ storedSlots code := by
  refine ⟨fun hslot => ?_, fun hslot => ?_⟩
  all_goals rcases lowerStmts_storedSlots c.body h _ hslot with ⟨e, he⟩ | ⟨m, hm, counts⟩
  · exact kept e he
  · exact (separate.others m hm _ counts).1 rfl
  · exact separate.limit_kept e he
  · exact (separate.others m hm _ counts).2 rfl

/-! ### Where loops stand -/

/-- Where the code of a counted loop stands: its place, the first of its labels, and the code of its
parts. -/
structure LoopPlace where
  first : Nat
  label : Label
  start : List Instruction
  stop : List Instruction
  body : List Instruction

namespace LoopPlace

variable (x : LoopPlace)

/-- The first bound is behind, and its value is stored next. -/
def startEnd : Nat := x.first + x.start.length

def stopFirst : Nat := x.startEnd + 1

/-- The second bound is behind, and its value is stored next. -/
def stopEnd : Nat := x.stopFirst + x.stop.length

/-- A round begins here, with the label that the loop jumps back to. -/
def top : Nat := x.stopEnd + 1

/-- The counter has been compared with the limit, and the loop is left or the body begun. -/
def test : Nat := x.top + 4

def bodyFirst : Nat := x.test + 1

/-- The body is behind, and the counter is counted up next. -/
def step : Nat := x.bodyFirst + x.body.length

/-- The loop is left here. -/
def done : Nat := x.step + 6

/-- The loop is behind. -/
def last : Nat := x.done + 1

/-- The places in order. -/
theorem order : x.first ≤ x.startEnd ∧ x.stopFirst = x.startEnd + 1 ∧ x.stopFirst ≤ x.stopEnd ∧
    x.top = x.stopEnd + 1 ∧ x.test = x.top + 4 ∧ x.bodyFirst = x.test + 1 ∧
    x.bodyFirst ≤ x.step ∧ x.done = x.step + 6 ∧ x.last = x.done + 1 :=
  ⟨Nat.le_add_right _ _, rfl, Nat.le_add_right _ _, rfl, rfl, rfl, Nat.le_add_right _ _, rfl, rfl⟩

end LoopPlace

/-- The loop stands in the code. -/
structure LoopAt (program : Bound.Program) (code : List Instruction) (c : CountedLoop)
    (x : LoopPlace) : Prop where
  start : ∃ l l', (lowerExpr (some program) c.start).run l = .ok (x.start, l')
  stop : ∃ l l', (lowerExpr (some program) c.stop).run l = .ok (x.stop, l')
  body : ∃ l l', (lowerStmts program (some ⟨x.label + 1, x.label + 2⟩) c.body).run l =
    .ok (x.body, l')
  placed : CodeAt code x.first
    (forCode c.location x.label c.var c.limit c.start.ty x.start x.stop x.body)

variable {code : List Instruction}

/-- What stands at the places of a loop. -/
structure LoopInstructions (code : List Instruction) (c : CountedLoop) (x : LoopPlace) : Prop where
  start : CodeAt code x.first x.start
  storeVar : code[x.startEnd]? = some (ins c.location (.popLocal c.var))
  stop : CodeAt code x.stopFirst x.stop
  storeLimit : code[x.stopEnd]? = some (ins c.location (.popLocal c.limit))
  top : code[x.top]? = some (ins c.location (.label x.label))
  readVar : code[x.top + 1]? = some (ins c.location (.pushLocal c.var))
  readLimit : code[x.top + 2]? = some (ins c.location (.pushLocal c.limit))
  compare : code[x.top + 3]? = some (ins c.location (.binary .lt))
  test : code[x.test]? = some (ins c.location (.jumpIfFalse (x.label + 2)))
  body : CodeAt code x.bodyFirst x.body
  step : code[x.step]? = some (ins c.location (.label (x.label + 1)))
  readCounter : code[x.step + 1]? = some (ins c.location (.pushLocal c.var))
  one : code[x.step + 2]? = some (ins c.location (.pushConst (.wrap c.start.ty 1)))
  add : code[x.step + 3]? = some (ins c.location (.binary .add))
  storeCounter : code[x.step + 4]? = some (ins c.location (.popLocal c.var))
  back : code[x.step + 5]? = some (ins c.location (.jump x.label))
  done : code[x.done]? = some (ins c.location (.label (x.label + 2)))

theorem LoopAt.instructions {c : CountedLoop} {x : LoopPlace} (h : LoopAt program code c x) :
    LoopInstructions code c x := by
  have placed := h.placed
  simp only [forCode, List.append_assoc, List.cons_append, List.nil_append, codeAt_append,
    codeAt_cons] at placed
  obtain ⟨start, storeVar, stop, storeLimit, top, readVar, readLimit, compare, test, body, step,
    readCounter, one, add, storeCounter, back, done, _⟩ := placed
  exact ⟨start, storeVar, stop, storeLimit, top, readVar, readLimit, compare, test, body, step,
    readCounter, one, add, storeCounter, back, done⟩

mutual

theorem Stmt.exists_loopAt : ∀ (s : Stmt) {loop : Option LoopLabels} {l l' : Label}
    {part : List Instruction} {pc : Nat}, (lowerStmt program loop s).run l = .ok (part, l') →
    CodeAt code pc part → ∀ c ∈ s.loops, ∃ x, LoopAt program code c x
  | .block _ body, loop, l, l', part, pc, h, placed => stmts_exists_loopAt body h placed
  | .cond _ branches, loop, l, l', part, pc, h, placed => by
    obtain ⟨c, hc, rfl⟩ := lowerStmt_cond_run_eq h
    exact Branches.exists_loopAt branches hc (codeAt_append.1 placed).1
  | .while _ c body, loop, l, l', part, pc, h, placed => by
    obtain ⟨cc, m, cb, hc, hb, rfl⟩ := lowerStmt_while_run_eq h
    simp only [List.append_assoc, List.cons_append, codeAt_append, codeAt_cons] at placed
    obtain ⟨_, _, _, body_placed, _⟩ := placed
    exact stmts_exists_loopAt body hb body_placed
  | .loop _ body, loop, l, l', part, pc, h, placed => by
    obtain ⟨cb, hb, rfl⟩ := lowerStmt_loop_run_eq h
    simp only [List.cons_append, codeAt_append, codeAt_cons] at placed
    exact stmts_exists_loopAt body hb placed.2.1
  | .for place var limit a z body, loop, l, l', part, pc, h, placed => by
    obtain ⟨ca, m, cz, m', cb, ha, hz, hb, rfl⟩ := lowerStmt_for_run_eq h
    intro c hc
    rcases List.mem_cons.1 hc with rfl | inner
    · exact ⟨⟨pc, l, ca, cz, cb⟩, ⟨_, _, ha⟩, ⟨_, _, hz⟩, ⟨_, _, hb⟩, placed⟩
    · rw [forCode, codeAt_append, codeAt_append] at placed
      exact stmts_exists_loopAt body hb placed.1.2 c inner
  | .assign _ _ _, _, _, _, _, _, _, _ => fun _ hc => nomatch hc
  | .expr _ _, _, _, _, _, _, _, _ => fun _ hc => nomatch hc
  | .ret _ _, _, _, _, _, _, _, _ => fun _ hc => nomatch hc
  | .break _, _, _, _, _, _, _, _ => fun _ hc => nomatch hc
  | .continue _, _, _, _, _, _, _, _ => fun _ hc => nomatch hc

theorem Branches.exists_loopAt : ∀ (bs : Branches) {loop : Option LoopLabels} {place : Location}
    {done l l' : Label} {part : List Instruction} {pc : Nat},
    (lowerBranches program loop place done bs).run l = .ok (part, l') → CodeAt code pc part →
    ∀ c ∈ bs.loops, ∃ x, LoopAt program code c x
  | .none, _, _, _, _, _, _, _, _, _ => fun _ hc => nomatch hc
  | .otherwise body, loop, place, done, l, l', part, pc, h, placed =>
    stmts_exists_loopAt body h placed
  | .branch c body rest, loop, place, done, l, l', part, pc, h, placed => by
    obtain ⟨cc, m, cb, m', cr, hc, hb, hr, rfl⟩ := lowerBranches_branch_run_eq h
    simp only [List.append_assoc, List.cons_append, codeAt_append, codeAt_cons] at placed
    obtain ⟨_, _, body_placed, _, _, rest_placed⟩ := placed
    intro c hc
    rcases List.mem_append.1 hc with first | others
    · exact stmts_exists_loopAt body hb body_placed c first
    · exact Branches.exists_loopAt rest hr rest_placed c others

theorem stmts_exists_loopAt : ∀ (ss : List Stmt) {loop : Option LoopLabels} {l l' : Label}
    {part : List Instruction} {pc : Nat}, (lowerStmts program loop ss).run l = .ok (part, l') →
    CodeAt code pc part → ∀ c ∈ stmtsLoops ss, ∃ x, LoopAt program code c x
  | [], _, _, _, _, _, _, _ => fun _ hc => nomatch hc
  | s :: ss, loop, l, l', part, pc, h, placed => by
    obtain ⟨c, m, cs, hc, hcs, rfl⟩ := lowerStmts_cons_run_eq h
    obtain ⟨first_placed, others_placed⟩ := codeAt_append.1 placed
    intro c hc'
    rcases List.mem_append.1 hc' with first | others
    · exact Stmt.exists_loopAt s hc first_placed c first
    · exact stmts_exists_loopAt ss hcs others_placed c others

end

/-- The counted loops of a function stand in its code. -/
theorem Lowered.exists_loopAt {f : Bound.Function} {g : Function} (h : Lowered program f g) :
    ∀ c ∈ stmtsLoops f.stmts, ∃ x, LoopAt program g.code c x := by
  have kind := h.kind
  rw [Bound.Function.stmts, Function.code]
  cases hg : g.kind with
  | body code =>
    rw [hg] at kind
    cases kind with
    | body written lowered =>
      rw [written]
      obtain ⟨c, l, hc, ⟨rfl, _⟩ | ⟨place, rfl⟩⟩ := lowerBody_eq_ok lowered
      · exact stmts_exists_loopAt _ hc (codeAt_self code)
      · exact stmts_exists_loopAt _ hc (codeAt_append_left [] c _)
  | native symbol =>
    rw [hg] at kind
    cases kind with
    | native bound =>
      rw [bound]
      exact fun _ hc => absurd hc List.not_mem_nil
  | intrinsic i =>
    rw [hg] at kind
    cases kind with
    | intrinsic given _ =>
      rw [given]
      exact fun _ hc => absurd hc List.not_mem_nil

end ScriptLang.Code
