import ScriptLang.Native.Library
import ScriptLang.Proofs.Effects
import ScriptLang.Proofs.Execution

/-!
# Stepping does not show

However a run is cut into pieces, by steps and by breakpoints, it sends what an uninterrupted run
sends and ends as one (`stepping_transparent`).  What decides where a run is suspended is left out
of a machine that is `plain`; every step of a machine is one of the plain machine, except that a
suspension comes between the announcement of an instruction and its execution (`step_tracks`).
-/

namespace ScriptLang.Machine

/-! ### Sessions of a debugger -/

/-- What a debugger can ask of a machine. -/
inductive Command where
  | pause
  | addBreakpoint (line : Nat)
  | removeBreakpoint (line : Nat)
  /-- Start or resume the run, for at most `fuel` steps; `stop` says whether it is told to stop. -/
  | resume (mode : Mode) (stop : Bool) (fuel : Nat)

/-- Where commands lead: the machine, what was sent, and how the run stood after each resumption. -/
structure Transcript where
  machine : Machine
  sent : List Emission := []
  outcomes : List Outcome := []

/-- Obey one command. -/
def obey (m : Machine) : Command → Transcript
  | .pause => { machine := m.pauseAtStart }
  | .addBreakpoint line => { machine := { m with stepper := (m.stepper.addBreakpoint line).2 } }
  | .removeBreakpoint line =>
    { machine := { m with stepper := (m.stepper.removeBreakpoint line).2 } }
  | .resume mode stop fuel =>
    let (m, sent, outcome) := m.resume mode stop fuel
    { machine := m, sent := sent.toList, outcomes := [outcome] }

/-- Obey commands in order. -/
def obeyAll (m : Machine) : List Command → Transcript
  | [] => { machine := m }
  | c :: cs =>
    let first := m.obey c
    let rest := first.machine.obeyAll cs
    ⟨rest.machine, first.sent ++ rest.sent, first.outcomes ++ rest.outcomes⟩

/-! ### Plain machines -/

/-- The machine without what only decides where a run is suspended. -/
def plain (m : Machine) : Machine :=
  { m with stepper := { depth := m.stepper.depth }, resuming := false }

def Advance.plain (a : Advance) : Advance := { a with machine := a.machine.plain }

def Effect.plain (e : Effect) : Effect := { e with machine := e.machine.plain }

@[simp] theorem plain_plain (m : Machine) : m.plain.plain = m.plain := rfl

@[simp] theorem plain_image (m : Machine) : m.plain.image = m.image := rfl

@[simp] theorem plain_globals (m : Machine) : m.plain.globals = m.globals := rfl

@[simp] theorem plain_frames (m : Machine) : m.plain.frames = m.frames := rfl

@[simp] theorem plain_phase (m : Machine) : m.plain.phase = m.phase := rfl

@[simp] theorem plain_executed (m : Machine) : m.plain.executed = m.executed := rfl

@[simp] theorem plain_error (m : Machine) : m.plain.error = m.error := rfl

@[simp] theorem plain_maxCallDepth (m : Machine) : m.plain.maxCallDepth = m.maxCallDepth := rfl

@[simp] theorem plain_resuming (m : Machine) : m.plain.resuming = false := rfl

@[simp] theorem plain_entryName (m : Machine) : m.plain.entryName = m.entryName := rfl

@[simp] theorem after_plain (a : Advance) (sent : List Emission) :
    (a.after sent).plain = a.plain.after sent := rfl

theorem Advance.of_plain_eq {a a' : Advance} (h : a.plain = a'.plain) :
    a.machine.plain = a'.machine.plain ∧ a.emitted = a'.emitted ∧ a.outcome = a'.outcome := by
  injection h with hmachine hemitted houtcome
  exact ⟨hmachine, hemitted, houtcome⟩

theorem enterRoot_plain (m : Machine) (index : Nat) :
    (m.plain.enterRoot index).plain = (m.enterRoot index).plain := by
  unfold enterRoot
  rw [plain_image]
  cases m.image.function? index with
  | none => rfl
  | some f =>
    dsimp only
    cases f.signature.params with
    | nil => rfl
    | cons ty tys => rfl

theorem enterEntry_plain (m : Machine) : m.plain.enterEntry.plain = m.enterEntry.plain := by
  unfold enterEntry
  rw [plain_image]
  cases m.image.entry? with
  | none => rfl
  | some entry => exact enterRoot_plain { m with phase := .entry } entry

theorem returnTo_plain (m : Machine) (result : Option Value) :
    (m.plain.returnTo result).plain = (m.returnTo result).plain := by
  unfold returnTo
  rw [plain_frames, plain_phase]
  cases m.frames with
  | cons caller below => rfl
  | nil =>
    cases m.phase with
    | init => exact enterEntry_plain m
    | _ => rfl

theorem leave_plain (m : Machine) (result : Option Value) :
    (m.plain.leave result).plain = (m.leave result).plain := by
  unfold leave
  rw [plain_frames]
  cases m.frames with
  | nil => rfl
  | cons frame frames =>
    have h := returnTo_plain { m with frames, stepper := m.stepper.leave } result
    have h' := returnTo_plain { m.plain with frames, stepper := m.plain.stepper.leave } result
    dsimp only
    rw [after_plain, after_plain, ← h, ← h']
    rfl

theorem follow_plain (m : Machine) (flow : Flow) :
    (m.plain.follow flow).plain = (m.follow flow).plain := by
  cases flow with
  | next => rfl
  | enter index f args => rfl
  | leave result => exact leave_plain m result

namespace Context

variable (c : Context) (m : Machine) (operands : List Value)

theorem push_plain (r : Except ValueError Value) :
    c.push m.plain operands r = (c.push m operands r).map Effect.plain := by
  cases r <;> rfl

theorem jump_plain (l : Code.Label) :
    c.jump m.plain operands l = (c.jump m operands l).map Effect.plain := by
  unfold jump
  rw [plain_image]
  cases m.image.labelPlace? c.frame.function l <;> rfl

theorem invoke_plain (index : Nat) (f : Code.Function) (args : List Value) :
    c.invoke m.plain operands index f args =
      (c.invoke m operands index f args).map Effect.plain := by
  unfold invoke withOperands
  cases f.kind with
  | body code =>
    dsimp only [plain_maxCallDepth, List.length_cons]
    by_cases h : m.maxCallDepth ≤ c.below.length + 1
    · rw [if_pos h, if_pos h]
      rfl
    · rw [if_neg h, if_neg h]
      rfl
  | intrinsic i => rfl
  | native symbol =>
    dsimp only [plain_image]
    cases m.image.callNative index args with
    | error e => rfl
    | ok v =>
      dsimp only
      by_cases h : f.signature.ret = .void
      · rw [if_pos h, if_pos h]
        rfl
      · rw [if_neg h, if_neg h]
        rfl

theorem call_plain (name : String) (argc : Nat) :
    c.call m.plain name argc = (c.call m name argc).map Effect.plain := by
  unfold call
  rw [plain_image]
  dsimp only
  split
  · rfl
  · split
    · rfl
    · split
      · rfl
      · apply invoke_plain

theorem execute_plain (op : Code.Op) :
    c.execute m.plain op = (c.execute m op).map Effect.plain := by
  unfold execute
  dsimp only
  split
  all_goals first
    | rfl
    | apply push_plain
    | apply call_plain
    | apply jump_plain
    | (split <;> first | rfl | apply jump_plain)

end Context

theorem perform_plain (m : Machine) (c : Context) (i : Code.Instruction) :
    (m.plain.perform c i).plain = (m.perform c i).plain := by
  unfold perform
  rw [Context.execute_plain]
  cases c.execute m i.op with
  | error e => rfl
  | ok effect =>
    have h := follow_plain { effect.machine with executed := effect.machine.executed + 1 }
      effect.flow
    exact congrArg (fun a => a.after (effect.printed ++
      [effect.machine.instructionMessage .afterInstruction c.function c.index i])) h

/-! ### Runs that have begun -/

/-- The run has begun and not ended. -/
def Started (m : Machine) : Prop := m.phase = .init ∨ m.phase = .entry

/-- A move that does not suspend: nothing but the end of the run changes its phase, and what decides
where a run is suspended stays. -/
structure Advance.Moves (m : Machine) (a : Advance) : Prop where
  mode : a.machine.stepper.mode = m.stepper.mode
  pausePending : a.machine.stepper.pausePending = m.stepper.pausePending
  resuming : m.resuming = false → a.machine.resuming = false
  started : a.outcome = none → a.machine.Started
  exited : ∀ o, a.outcome = some o → ∃ s, o = .exited s ∧ a.machine.phase = .done s

theorem Advance.Moves.after {m : Machine} {a : Advance} (h : a.Moves m) (sent : List Emission) :
    (a.after sent).Moves m :=
  ⟨h.mode, h.pausePending, h.resuming, h.started, h.exited⟩

theorem Advance.Moves.of_eq {m m' : Machine} {a : Advance} (h : a.Moves m')
    (hmode : m'.stepper.mode = m.stepper.mode)
    (hpause : m'.stepper.pausePending = m.stepper.pausePending)
    (hresuming : m'.resuming = m.resuming) : a.Moves m := by
  refine ⟨h.mode.trans hmode, h.pausePending.trans hpause, ?_, h.started, h.exited⟩
  rw [← hresuming]
  exact h.resuming

theorem exit_moves (m : Machine) (status : ExitStatus) : (m.exit status).Moves m := by
  refine ⟨rfl, rfl, fun _ => rfl, fun h => ?_, fun o h => ?_⟩
  · cases h
  · cases h
    exact ⟨status, rfl, rfl⟩

theorem fail_moves (m : Machine) (e : RuntimeError) : (m.fail e).Moves m :=
  (exit_moves { m with error := some e } _).of_eq rfl rfl rfl

theorem moves_of_started {m : Machine} {a : Advance} (started : a.machine.Started)
    (houtcome : a.outcome = none) (hmode : a.machine.stepper.mode = m.stepper.mode)
    (hpause : a.machine.stepper.pausePending = m.stepper.pausePending)
    (hresuming : a.machine.resuming = m.resuming) : a.Moves m := by
  refine ⟨hmode, hpause, fun h => hresuming.trans h, fun _ => started, fun o h => ?_⟩
  rw [houtcome] at h
  cases h

theorem enter_moves {m : Machine} (started : m.Started) (index : Nat) (f : Code.Function)
    (args : List Value) : (m.enter index f args).Moves m :=
  moves_of_started started rfl rfl rfl rfl

theorem enterRoot_moves {m : Machine} (started : m.Started) (index : Nat) :
    (m.enterRoot index).Moves m := by
  unfold enterRoot
  cases m.image.function? index with
  | none => exact fail_moves m _
  | some f =>
    dsimp only
    cases f.signature.params with
    | nil => exact enter_moves started index f []
    | cons ty tys => exact fail_moves m _

theorem enterEntry_moves (m : Machine) : m.enterEntry.Moves m := by
  unfold enterEntry
  cases m.image.entry? with
  | none => exact (fail_moves { m with phase := .entry } _).of_eq rfl rfl rfl
  | some entry =>
    have moved := enterRoot_moves (m := { m with phase := .entry }) (.inr rfl) entry
    exact moved.of_eq rfl rfl rfl

theorem returnTo_moves {m : Machine} (started : m.Started) (result : Option Value) :
    (m.returnTo result).Moves m := by
  unfold returnTo
  cases m.frames with
  | cons caller below => exact moves_of_started started rfl rfl rfl rfl
  | nil =>
    cases m.phase with
    | init => exact enterEntry_moves m
    | _ => exact exit_moves m _

theorem leave_moves {m : Machine} (started : m.Started) (result : Option Value) :
    (m.leave result).Moves m := by
  unfold leave
  cases m.frames with
  | nil => exact moves_of_started started rfl rfl rfl rfl
  | cons frame frames =>
    have h := returnTo_moves (m := { m with frames, stepper := m.stepper.leave }) started result
    have moved : Advance.Moves m _ := h.of_eq rfl rfl rfl
    exact moved.after _

theorem follow_moves {m : Machine} (started : m.Started) (flow : Flow) :
    (m.follow flow).Moves m := by
  cases flow with
  | next => exact moves_of_started started rfl rfl rfl rfl
  | enter index f args => exact enter_moves started index f args
  | leave result => exact leave_moves started result

/-- An operation leaves alone how the run stands. -/
structure Effect.Keeps (m : Machine) (e : Effect) : Prop where
  stepper : e.machine.stepper = m.stepper
  resuming : e.machine.resuming = m.resuming
  phase : e.machine.phase = m.phase
  image : e.machine.image = m.image
  error : e.machine.error = m.error

theorem Context.execute_keeps {c : Context} {m : Machine} {op : Code.Op} {effect : Effect}
    (h : c.execute m op = .ok effect) : effect.Keeps m := by
  cases execute_does h <;> exact ⟨rfl, rfl, rfl, rfl, rfl⟩

theorem perform_moves {m : Machine} (started : m.Started) (c : Context) (i : Code.Instruction) :
    (m.perform c i).Moves m := by
  unfold perform
  cases h : c.execute m i.op with
  | error e => exact fail_moves m e
  | ok effect =>
    obtain ⟨hstepper, hresuming, hphase, _, _⟩ := Context.execute_keeps h
    have started' : effect.machine.Started := by
      unfold Started
      rw [hphase]
      exact started
    have moved := follow_moves (m :=
      { effect.machine with executed := effect.machine.executed + 1 })
      started' effect.flow
    have moved' : Advance.Moves m _ :=
      moved.of_eq (congrArg Stepper.mode hstepper)
        (congrArg Stepper.pausePending hstepper) hresuming
    exact moved'.after _

theorem start_moves (m : Machine) : m.start.Moves m := by
  unfold start
  dsimp only
  apply Advance.Moves.after
  split
  · exact fail_moves m _
  · rename_i init _ _
    have moved := enterRoot_moves (m := { m with phase := .init }) (.inl rfl) init
    exact moved.of_eq rfl rfl rfl
  · exact enterEntry_moves m

theorem start_plain (m : Machine) : m.plain.start.plain = m.start.plain := by
  unfold start
  dsimp only
  rw [after_plain, after_plain, plain_image, plain_entryName]
  apply congrArg fun a => Advance.after a _
  cases m.image.entry? with
  | none => rfl
  | some entry =>
    cases m.image.init? with
    | some init => exact enterRoot_plain { m with phase := .init } init
    | none => exact enterEntry_plain m

/-! ### Steps of plain machines -/

/-- The instruction that comes next, in its context; none if there is none or it is a label. -/
def pending? (m : Machine) : Option (Context × Code.Instruction) := do
  let frame ← m.frames.head?
  let f ← m.image.function? frame.function
  let i ← f.code[frame.next]?
  if i.op.isLabel then none
  else some (⟨f, { frame with next := frame.next + 1 }, m.frames.tail, frame.next, i.location⟩, i)

/-- What was already sent about the instruction that comes next. -/
def announced (m : Machine) : List Emission :=
  match m.resuming, m.pending? with
  | true, some (c, i) => [m.instructionMessage .onInstruction c.function c.index i]
  | _, _ => []

@[simp] theorem plain_pending? (m : Machine) : m.plain.pending? = m.pending? := rfl

theorem step_eq_of_pending {m : Machine} {c : Context} {i : Code.Instruction}
    (h : m.pending? = some (c, i)) :
    m.step false =
      if m.resuming then perform { m with resuming := false } c i else m.checkAndPerform c i := by
  unfold pending? at h
  unfold step
  cases hframes : m.frames with
  | nil => simp [hframes] at h
  | cons frame below =>
    cases hf : m.image.function? frame.function with
    | none => simp [hframes, hf] at h
    | some f =>
      cases hi : f.code[frame.next]? with
      | none => simp [hframes, hf, hi] at h
      | some j =>
        by_cases hlabel : j.op.isLabel = true
        · simp [hframes, hf, hi, hlabel] at h
        · simp only [hframes, hf, hi, hlabel, List.head?_cons, Option.bind_eq_bind,
            Option.bind_some] at h
          cases h
          simp [hf, hi, hlabel]

/-- Where no instruction is announced, nothing of the stepper counts. -/
theorem step_of_not_pending {m : Machine} (started : m.Started) (h : m.pending? = none) :
    (m.plain.step false).plain = (m.step false).plain ∧ (m.step false).Moves m := by
  unfold pending? at h
  unfold step
  rw [plain_frames, plain_image]
  cases hframes : m.frames with
  | nil => exact ⟨rfl, exit_moves m _⟩
  | cons frame below =>
    cases hf : m.image.function? frame.function with
    | none =>
      simp only [hf]
      exact ⟨rfl, fail_moves m _⟩
    | some f =>
      cases hi : f.code[frame.next]? with
      | none =>
        simp only [hf, hi]
        exact ⟨leave_plain m none, leave_moves started none⟩
      | some j =>
        by_cases hlabel : j.op.isLabel = true
        · simp only [hf, hi, hlabel]
          exact ⟨rfl, moves_of_started started rfl rfl rfl rfl⟩
        · simp [hframes, hf, hi, hlabel] at h

theorem perform_congr {m m' : Machine} (h : m.plain = m'.plain) (c : Context)
    (i : Code.Instruction) :
    (m.perform c i).plain = (m'.perform c i).plain := by
  rw [← perform_plain m, h, perform_plain]

/-- Whether to suspend changes nothing but what is remembered for the next check. -/
structure Stepper.Checked (s s' : Stepper) : Prop where
  depth : s'.depth = s.depth
  mode : s'.mode = s.mode

theorem Stepper.check_checked (s : Stepper) (line : Nat) : s.Checked (s.check line).2 := by
  unfold check atLine
  cases s.lines <;> exact ⟨rfl, rfl⟩

theorem Stepper.check_pausePending (s : Stepper) (line : Nat) :
    (s.check line).2.pausePending = false := by
  unfold check atLine
  cases s.lines <;> rfl

theorem Stepper.pausePending_of_check {s : Stepper} {line : Nat} (h : (s.check line).1 = none) :
    s.pausePending = false := by
  cases hp : s.pausePending with
  | false => rfl
  | true => simp [check, hp] at h

/-- In a run to the end there is no suspension, unless one is due. -/
theorem Stepper.check_run {s : Stepper} (hmode : s.mode = .run) (hpause : s.pausePending = false)
    (line : Nat) : (s.check line).1 = none := by
  simp [check, stepDone, hmode, hpause]

theorem plain_of_stepper {m : Machine} {s : Stepper} (h : m.stepper.Checked s) :
    ({ m with stepper := s } : Machine).plain = m.plain := by
  unfold plain
  rw [h.depth]

theorem checkAndPerform_of_none {m : Machine} {c : Context} {i : Code.Instruction}
    (h : (m.stepper.check i.location.line).1 = none) :
    m.checkAndPerform c i =
      (perform { m with stepper := (m.stepper.check i.location.line).2 } c i).after
        [m.instructionMessage .onInstruction c.function c.index i] := by
  unfold checkAndPerform
  dsimp only
  rw [h]

theorem checkAndPerform_of_some {m : Machine} {c : Context} {i : Code.Instruction}
    {reason : SuspendReason} (h : (m.stepper.check i.location.line).1 = some reason) :
    ∃ position, m.checkAndPerform c i =
      { machine := { m with stepper := (m.stepper.check i.location.line).2, resuming := true }
        emitted := [m.instructionMessage .onInstruction c.function c.index i]
        outcome := some (.suspended reason position) } := by
  unfold checkAndPerform
  dsimp only
  rw [h]
  exact ⟨_, rfl⟩

/-- A plain machine is not suspended before an instruction. -/
theorem step_plain_of_pending {m : Machine} {c : Context} {i : Code.Instruction}
    (h : m.pending? = some (c, i)) :
    (m.plain.step false).plain =
      (m.perform c i).plain.after [m.instructionMessage .onInstruction c.function c.index i] := by
  rw [step_eq_of_pending (m := m.plain) h, if_neg (by simp),
    checkAndPerform_of_none (Stepper.check_run rfl rfl _), after_plain]
  have same := plain_of_stepper (m.plain.stepper.check_checked i.location.line)
  rw [perform_congr (same.trans (plain_plain m)) c i]
  rfl

/-! ### Steps beside those of the plain machine -/

/-- Only before an instruction is a run suspended. -/
def Standing (m : Machine) : Prop := m.resuming = true → ∃ c i, m.pending? = some (c, i)

/-- The step suspends the run: nothing has happened but that the next instruction is announced. -/
structure Suspends (m : Machine) (a : Advance) : Prop where
  due : m.stepper.mode = .run → m.stepper.pausePending = true
  suspended : ∃ reason position, a.outcome = some (.suspended reason position)
  resuming : m.resuming = false
  plain : a.machine.plain = m.plain
  emitted : a.emitted = a.machine.announced
  standing : a.machine.Standing

/-- The step is one of the plain machine, except that what was announced is not sent again. -/
structure Follows (m : Machine) (a : Advance) : Prop where
  plain : (m.plain.step false).plain = (a.after m.announced).plain
  resuming : a.machine.resuming = false
  mode : a.machine.stepper.mode = m.stepper.mode
  pausePending : a.machine.stepper.pausePending = m.stepper.pausePending
  started : a.outcome = none → a.machine.Started
  exited : ∀ o, a.outcome = some o → ∃ s, o = .exited s ∧ a.machine.phase = .done s

theorem step_tracks {m : Machine} (started : m.Started) (standing : m.Standing) :
    Suspends m (m.step false) ∨ Follows m (m.step false) := by
  cases hp : m.pending? with
  | none =>
    have hresuming : m.resuming = false := by
      cases hr : m.resuming with
      | false => rfl
      | true =>
        obtain ⟨c, i, h⟩ := standing hr
        rw [hp] at h
        cases h
    obtain ⟨hplain, moves⟩ := step_of_not_pending started hp
    have hannounced : m.announced = [] := by
      unfold announced
      rw [hresuming]
    refine .inr ⟨?_, moves.resuming hresuming, moves.mode, moves.pausePending, moves.started,
      moves.exited⟩
    rw [hannounced, hplain]
    rfl
  | some next =>
    obtain ⟨c, i⟩ := next
    have hstep := step_plain_of_pending hp
    rw [step_eq_of_pending hp]
    cases hr : m.resuming with
    | true =>
      rw [if_pos rfl]
      have moves := perform_moves (m := { m with resuming := false }) started c i
      have hannounced : m.announced =
        [m.instructionMessage .onInstruction c.function c.index i] := by
        unfold announced
        rw [hr, hp]
      refine .inr ⟨?_, moves.resuming rfl, moves.mode, moves.pausePending, moves.started,
        moves.exited⟩
      have same : m.plain = plain { m with resuming := false } := rfl
      rw [hannounced, hstep, perform_congr same c i]
      rfl
    | false =>
      rw [if_neg (by simp)]
      have hannounced : m.announced = [] := by
        unfold announced
        rw [hr]
      have checked := m.stepper.check_checked i.location.line
      cases hcheck : (m.stepper.check i.location.line).1 with
      | none =>
        rw [checkAndPerform_of_none hcheck]
        have moves := perform_moves
          (m := { m with stepper := (m.stepper.check i.location.line).2 }) started c i
        refine .inr ⟨?_, moves.resuming hr, moves.mode.trans checked.mode, ?_, moves.started,
          moves.exited⟩
        · rw [hannounced, hstep, perform_congr (plain_of_stepper checked).symm c i]
          rfl
        · exact moves.pausePending.trans ((m.stepper.check_pausePending _).trans
            (Stepper.pausePending_of_check hcheck).symm)
      | some reason =>
        obtain ⟨position, h⟩ := checkAndPerform_of_some (c := c) hcheck
        rw [h]
        refine .inl ⟨fun hmode => ?_, ⟨reason, position, rfl⟩, hr, ?_, ?_, fun _ => ⟨c, i, hp⟩⟩
        · cases hpause : m.stepper.pausePending with
          | true => rfl
          | false =>
            rw [Stepper.check_run hmode hpause] at hcheck
            cases hcheck
        · unfold plain
          rw [checked.depth]
        · have hnext : pending? { m with stepper := (m.stepper.check i.location.line).2,
                                         resuming := true } = some (c, i) := hp
          unfold announced instructionMessage depth
          rw [hnext, checked.depth]

/-! ### Runs of plain machines -/

/-- A plain machine exits after a number of steps; what it sends on the way, and how it ends. -/
inductive RunsOut : Nat → Machine → List Emission → Machine → ExitStatus → Prop where
  | last {m : Machine} {status : ExitStatus} (h : (m.step false).outcome = some (.exited status)) :
      RunsOut 1 m (m.step false).emitted (m.step false).machine.plain status
  | next {n : Nat} {m last : Machine} {sent : List Emission} {status : ExitStatus}
      (h : (m.step false).outcome = none)
      (rest : RunsOut n (m.step false).machine.plain sent last status) :
      RunsOut (n + 1) m ((m.step false).emitted ++ sent) last status

theorem Follows.outcome_eq {m : Machine} {a : Advance} (h : Follows m a) :
    (m.plain.step false).outcome = a.outcome :=
  (Advance.of_plain_eq h.plain).2.2

theorem Follows.emitted_eq {m : Machine} {a : Advance} (h : Follows m a) :
    (m.plain.step false).emitted = m.announced ++ a.emitted :=
  (Advance.of_plain_eq h.plain).2.1

theorem Follows.machine_eq {m : Machine} {a : Advance} (h : Follows m a) :
    (m.plain.step false).machine.plain = a.machine.plain :=
  (Advance.of_plain_eq h.plain).1

theorem announced_of_not_resuming {m : Machine} (h : m.resuming = false) : m.announced = [] := by
  unfold announced
  rw [h]

theorem standing_of_not_resuming {m : Machine} (h : m.resuming = false) : m.Standing := by
  intro hr
  rw [h] at hr
  cases hr

/-- A run to the end is one of the plain machine. -/
theorem runsOut_of_drive : ∀ {fuel : Nat} {m last : Machine} {sent total : Array Emission}
    {status : ExitStatus}, m.Started → m.resuming = false → m.stepper.mode = .run →
    m.stepper.pausePending = false → drive false fuel m sent = (last, total, .exited status) →
    last.phase = .done status ∧
      ∃ n rest, n ≤ fuel ∧ RunsOut n m.plain rest last.plain status ∧
        total.toList = sent.toList ++ rest := by
  intro fuel
  induction fuel with
  | zero =>
    intro m last sent total status _ _ _ _ h
    cases h
  | succ fuel ih =>
    intro m last sent total status started hresuming hmode hpause h
    rcases step_tracks started (standing_of_not_resuming hresuming) with suspends | follows
    · have due := suspends.due hmode
      rw [hpause] at due
      cases due
    · have hemitted := follows.emitted_eq
      rw [announced_of_not_resuming hresuming, List.nil_append] at hemitted
      rw [drive] at h
      cases ho : (m.step false).outcome with
      | none =>
        rw [ho] at h
        obtain ⟨hphase, n, rest, hn, runs, htotal⟩ := ih (follows.started ho) follows.resuming
          (follows.mode.trans hmode) (follows.pausePending.trans hpause) h
        refine ⟨hphase, n + 1, _, Nat.succ_le_succ hn,
          .next (follows.outcome_eq.trans ho) (follows.machine_eq ▸ runs), ?_⟩
        rw [htotal, hemitted, Array.toList_appendList, List.append_assoc]
      | some o =>
        obtain ⟨s, rfl, hphase⟩ := follows.exited o ho
        rw [ho] at h
        cases h
        refine ⟨hphase, 1, (m.plain.step false).emitted,
          Nat.succ_le_succ (Nat.zero_le fuel), ?_, ?_⟩
        · rw [← follows.machine_eq]
          exact .last (follows.outcome_eq.trans ho)
        · rw [hemitted]
          simp

/-! ### Runs in pieces -/

section

variable {total : List Emission} {last : Machine} {status : ExitStatus}

/-- The run has `n` steps of the plain machine before it, and sends in them what is missing. -/
structure OnTheWay (total : List Emission) (last : Machine) (status : ExitStatus) (n : Nat)
    (m : Machine) (sent : List Emission) : Prop where
  started : m.Started
  standing : m.Standing
  ahead : ∃ before rest, RunsOut n m.plain rest last status ∧ sent = before ++ m.announced ∧
    before ++ rest = total

/-- The run has ended as it should. -/
structure AtEnd (total : List Emission) (last : Machine) (status : ExitStatus) (m : Machine)
    (sent : List Emission) : Prop where
  plain : m.plain = last
  phase : m.phase = .done status
  sent : sent = total

/-- How a resumption with some fuel ends that had at most `n` steps of the plain machine ahead. -/
inductive Stops (total : List Emission) (last : Machine) (status : ExitStatus) (n fuel : Nat)
    (m : Machine) (sent : List Emission) : Outcome → Prop where
  | exited (atEnd : AtEnd total last status m sent) :
    Stops total last status n fuel m sent (.exited status)
  | suspended {reason : SuspendReason} {position : Position} {k : Nat} (hk : k ≤ n)
      (onTheWay : OnTheWay total last status k m sent) :
      Stops total last status n fuel m sent (.suspended reason position)
  | unfinished {k : Nat} (hk : k ≤ n) (hfuel : fuel < n)
      (onTheWay : OnTheWay total last status k m sent) :
      Stops total last status n fuel m sent .unfinished

theorem RunsOut.pos {n : Nat} {m : Machine} {sent : List Emission}
    (h : RunsOut n m sent last status) : 0 < n := by
  cases h with
  | last h => exact Nat.one_pos
  | next h rest => exact Nat.succ_pos _

/-- One step on the way: the run is suspended where it was, goes on, or ends. -/
theorem OnTheWay.step {n : Nat} {m : Machine} {sent : List Emission}
    (h : OnTheWay total last status n m sent) :
    match (m.step false).outcome with
    | none => ∃ k, n = k + 1 ∧
      OnTheWay total last status k (m.step false).machine (sent ++ (m.step false).emitted)
    | some (.exited s) => s = status ∧
      AtEnd total last status (m.step false).machine (sent ++ (m.step false).emitted)
    | some (.suspended _ _) =>
      OnTheWay total last status n (m.step false).machine (sent ++ (m.step false).emitted)
    | some .unfinished => False := by
  obtain ⟨before, rest, runs, rfl, htotal⟩ := h.ahead
  rcases step_tracks h.started h.standing with suspends | follows
  · obtain ⟨reason, position, ho⟩ := suspends.suspended
    rw [ho]
    have started' : (m.step false).machine.Started := by
      have hphase := congrArg Machine.phase suspends.plain
      rw [plain_phase, plain_phase] at hphase
      unfold Started
      rw [hphase]
      exact h.started
    refine ⟨started', suspends.standing, before, rest, ?_, ?_, htotal⟩
    · rw [suspends.plain]
      exact runs
    · rw [announced_of_not_resuming suspends.resuming, List.append_nil, suspends.emitted]
  · have hannounced := announced_of_not_resuming follows.resuming
    have houtcome := follows.outcome_eq
    have hemitted := follows.emitted_eq
    have hmachine := follows.machine_eq
    cases runs with
    | last hexit =>
      rw [houtcome] at hexit
      obtain ⟨s, same, hphase⟩ := follows.exited _ hexit
      cases same
      rw [hexit]
      refine ⟨rfl, hmachine.symm, hphase, ?_⟩
      rw [← htotal, hemitted, List.append_assoc]
    | next hnone runs =>
      rw [houtcome] at hnone
      rw [hnone]
      refine ⟨_, rfl, follows.started hnone, standing_of_not_resuming follows.resuming,
        before ++ (m.announced ++ (m.step false).emitted), _, hmachine ▸ runs, ?_, ?_⟩
      · rw [hannounced, List.append_nil, List.append_assoc]
      · rw [← htotal, hemitted, List.append_assoc]

theorem drive_stops (earlier : List Emission) : ∀ (fuel : Nat) {n : Nat} {m : Machine}
    (sent : Array Emission), OnTheWay total last status n m (earlier ++ sent.toList) →
    Stops total last status n fuel (drive false fuel m sent).1
      (earlier ++ (drive false fuel m sent).2.1.toList) (drive false fuel m sent).2.2 := by
  intro fuel
  induction fuel with
  | zero =>
    intro n m sent h
    obtain ⟨before, rest, runs, _⟩ := h.ahead
    exact .unfinished (Nat.le_refl n) runs.pos h
  | succ fuel ih =>
    intro n m sent h
    have hsent : earlier ++ sent.toList ++ (m.step false).emitted =
        earlier ++ (sent ++ (m.step false).emitted).toList := by
      rw [Array.toList_appendList, List.append_assoc]
    have hstep := h.step
    rw [hsent] at hstep
    rw [drive]
    cases ho : (m.step false).outcome with
    | none =>
      rw [ho] at hstep
      obtain ⟨k, rfl, onTheWay⟩ := hstep
      have stops := ih _ onTheWay
      dsimp only
      generalize drive false fuel (m.step false).machine
        (sent ++ (m.step false).emitted) = r at stops ⊢
      obtain ⟨m', sent', outcome⟩ := r
      cases stops with
      | exited atEnd => exact .exited atEnd
      | suspended hk onTheWay => exact .suspended (Nat.le_succ_of_le hk) onTheWay
      | unfinished hk hfuel onTheWay =>
        exact .unfinished (Nat.le_succ_of_le hk) (Nat.succ_lt_succ hfuel) onTheWay
    | some o =>
      rw [ho] at hstep
      cases o with
      | suspended reason position => exact .suspended (Nat.le_refl n) hstep
      | exited s =>
        obtain ⟨rfl, atEnd⟩ := hstep
        exact .exited atEnd
      | unfinished => exact hstep.elim

/-! ### Sessions -/

/-- An uninterrupted run ends at its start, or is one of the plain machine from there. -/
theorem start_of_run {m : Machine} {fuel : Nat} {sent : Array Emission} (hidle : m.phase = .idle)
    (hresuming : m.resuming = false) (hpause : m.stepper.pausePending = false)
    (h : m.resume .run false fuel = (last, sent, .exited status)) :
    last.phase = .done status ∧
      ((m.start.outcome = some (.exited status) ∧ m.start.machine.plain = last.plain ∧
          m.start.emitted = sent.toList) ∨
        (m.start.outcome = none ∧ ∃ n rest, n ≤ fuel ∧
          RunsOut n m.start.machine.plain rest last.plain status ∧
            m.start.emitted ++ rest = sent.toList)) := by
  have moves := start_moves m
  unfold resume at h
  rw [hidle] at h
  dsimp only at h
  cases ho : m.start.outcome with
  | some o =>
    obtain ⟨s, rfl, hphase⟩ := moves.exited o ho
    rw [ho] at h
    cases h
    exact ⟨hphase, .inl ⟨rfl, rfl, rfl⟩⟩
  | none =>
    rw [ho] at h
    obtain ⟨hphase, n, rest, hn, runs, htotal⟩ :=
      runsOut_of_drive (m :=
        { m.start.machine with stepper := m.start.machine.stepper.resume .run })
        (moves.started ho) (moves.resuming hresuming) rfl (moves.pausePending.trans hpause) h
    exact ⟨hphase, .inr ⟨rfl, n, rest, hn, runs, htotal.symm⟩⟩

/-- How far a session has come: the run has not begun, is on its way, or has ended. -/
inductive Progress (total : List Emission) (last : Machine) (status : ExitStatus) (begun : Machine)
    (n : Nat) (m : Machine) (sent : List Emission) : Prop where
  | idle (hidle : m.phase = .idle) (hresuming : m.resuming = false) (hplain : m.plain = begun.plain)
      (hsent : sent = [])
  | onTheWay {k : Nat} (hk : k ≤ n) (h : OnTheWay total last status k m sent)
  | atEnd (h : AtEnd total last status m sent)

theorem Stops.mono {n n' fuel : Nat} {m : Machine} {sent : List Emission} {outcome : Outcome}
    (h : Stops total last status n fuel m sent outcome) (hle : n ≤ n') :
    Stops total last status n' fuel m sent outcome := by
  cases h with
  | exited atEnd => exact .exited atEnd
  | suspended hk onTheWay => exact .suspended (Nat.le_trans hk hle) onTheWay
  | unfinished hk hfuel onTheWay =>
    exact .unfinished (Nat.le_trans hk hle) (Nat.lt_of_lt_of_le hfuel hle) onTheWay

/-- What a debugger changes in the stepper does not matter. -/
theorem OnTheWay.withStepper {n : Nat} {m : Machine} {sent : List Emission}
    (h : OnTheWay total last status n m sent) {s : Stepper} (hdepth : s.depth = m.stepper.depth) :
    OnTheWay total last status n { m with stepper := s } sent := by
  have hplain : ({ m with stepper := s } : Machine).plain = m.plain := by
    unfold plain
    rw [hdepth]
  have hannounced : ({ m with stepper := s } : Machine).announced = m.announced := by
    unfold announced instructionMessage depth
    rw [hdepth]
    rfl
  obtain ⟨before, rest, runs, hsent, htotal⟩ := h.ahead
  refine ⟨h.started, h.standing, before, rest, ?_, ?_, htotal⟩
  · rw [hplain]
    exact runs
  · rw [hannounced]
    exact hsent

theorem resume_stops {begun m : Machine} {fuel k : Nat} {sent : Array Emission}
    {earlier : List Emission}
    {mode : Mode} (hidle : begun.phase = .idle) (hresuming : begun.resuming = false)
    (hpause : begun.stepper.pausePending = false)
    (hrun : begun.resume .run false fuel = (last, sent, .exited status))
    (h : Progress sent.toList last.plain status begun fuel m earlier) :
    Stops sent.toList last.plain status fuel k (m.resume mode false k).1
      (earlier ++ (m.resume mode false k).2.1.toList) (m.resume mode false k).2.2 := by
  unfold resume
  cases h with
  | idle hidle' hresuming' hplain hsent =>
    obtain ⟨hphase, hstart⟩ := start_of_run hidle hresuming hpause hrun
    have same : m.start.plain = begun.start.plain := by
      rw [← start_plain, hplain, start_plain]
    obtain ⟨hmachine, hemitted, houtcome⟩ := Advance.of_plain_eq same
    have moves := start_moves m
    rw [hidle', hsent, List.nil_append]
    dsimp only
    rcases hstart with ⟨hexit, hlast, htotal⟩ | ⟨hnone, n, rest, hn, runs, htotal⟩
    · rw [← houtcome] at hexit
      rw [hexit]
      obtain ⟨s, hs, hphase'⟩ := moves.exited _ hexit
      cases hs
      exact .exited ⟨hmachine.trans hlast, hphase', hemitted.trans htotal⟩
    · rw [← houtcome] at hnone
      rw [hnone]
      have hresuming'' := moves.resuming hresuming'
      have onTheWay : OnTheWay sent.toList last.plain status n m.start.machine m.start.emitted := by
        refine ⟨moves.started hnone, standing_of_not_resuming hresuming'', m.start.emitted,
          rest, ?_, ?_, ?_⟩
        · rw [hmachine]
          exact runs
        · rw [announced_of_not_resuming hresuming'', List.append_nil]
        · rw [hemitted]
          exact htotal
      have stops := drive_stops [] k m.start.emitted.toArray
        (onTheWay.withStepper (s := m.start.machine.stepper.resume mode) rfl)
      exact stops.mono hn
  | onTheWay hk h =>
    have onTheWay := h.withStepper (s := m.stepper.resume mode) rfl
    rw [← List.append_nil earlier] at onTheWay
    have stops := drive_stops earlier k #[] onTheWay
    rcases h.started with hphase | hphase
    · rw [hphase]
      exact stops.mono hk
    · rw [hphase]
      exact stops.mono hk
  | atEnd h =>
    rw [h.phase]
    dsimp only
    rw [List.append_nil]
    exact .exited h

theorem Progress.withStepper {begun m : Machine} {n : Nat} {sent : List Emission}
    (h : Progress total last status begun n m sent) {s : Stepper}
    (hdepth : s.depth = m.stepper.depth) :
    Progress total last status begun n { m with stepper := s } sent := by
  have hplain : ({ m with stepper := s } : Machine).plain = m.plain := by
    unfold plain
    rw [hdepth]
  cases h with
  | idle hidle hresuming hsame hsent => exact .idle hidle hresuming (hplain.trans hsame) hsent
  | onTheWay hk h => exact .onTheWay hk (h.withStepper hdepth)
  | atEnd h => exact .atEnd ⟨hplain.trans h.plain, h.phase, h.sent⟩

theorem addBreakpoint_depth (s : Stepper) (line : Nat) :
    (s.addBreakpoint line).2.depth = s.depth := by
  unfold Stepper.addBreakpoint
  by_cases h : s.breakpoints.contains line = true
  · rw [if_pos h]
  · rw [if_neg h]

theorem Stops.progress {begun m : Machine} {n fuel : Nat} {sent : List Emission} {outcome : Outcome}
    (h : Stops total last status n fuel m sent outcome) :
    Progress total last status begun n m sent := by
  cases h with
  | exited atEnd => exact .atEnd atEnd
  | suspended hk onTheWay => exact .onTheWay hk onTheWay
  | unfinished hk hfuel onTheWay => exact .onTheWay hk onTheWay

end

/-- Whether the command tells a run to stop. -/
def Command.stops : Command → Bool
  | .resume _ stop _ => stop
  | _ => false

/-- A resumption is allowed at least this many steps. -/
def Command.Grants (fuel : Nat) : Command → Prop
  | .resume _ _ k => fuel ≤ k
  | _ => True

/-- The transcript continues a session whose run is where it should be, and the run stays there. -/
structure Tracks (total : List Emission) (last : Machine) (status : ExitStatus) (begun : Machine)
    (n : Nat) (m : Machine) (earlier : List Emission) (enough : Prop) (t : Transcript) : Prop where
  progress : Progress total last status begun n t.machine (earlier ++ t.sent)
  exits : ∀ s, .exited s ∈ t.outcomes → s = status
  finished : t.machine.isFinished = true → m.isFinished = true ∨ .exited status ∈ t.outcomes
  completes : enough → .unfinished ∉ t.outcomes

theorem not_isFinished_of_started {m : Machine} (h : m.Started) : m.isFinished = false := by
  unfold isFinished
  rcases h with h | h
  · rw [h]
  · rw [h]

section

variable {begun last m : Machine} {fuel : Nat} {sent : Array Emission} {earlier : List Emission}
  {status : ExitStatus}

/-- A command that only changes the stepper. -/
theorem tracks_of_stepper {s : Stepper} (hdepth : s.depth = m.stepper.depth)
    (h : Progress sent.toList last.plain status begun fuel m earlier) (enough : Prop) :
    Tracks sent.toList last.plain status begun fuel m earlier enough
      { machine := { m with stepper := s } } := by
  refine ⟨?_, fun s hs => ?_, fun h => .inl h, fun _ hin => ?_⟩
  · rw [List.append_nil]
    exact h.withStepper hdepth
  · cases hs
  · cases hin

theorem tracks_of_stops {k : Nat} {m' : Machine} {emitted : List Emission} {outcome : Outcome}
    (h : Stops sent.toList last.plain status fuel k m' (earlier ++ emitted) outcome) :
    Tracks sent.toList last.plain status begun fuel m earlier (fuel ≤ k)
      ⟨m', emitted, [outcome]⟩ := by
  refine ⟨h.progress, fun s hs => ?_, fun hfinished => ?_, fun hle hin => ?_⟩
  · rw [List.mem_singleton] at hs
    cases h with
    | exited atEnd =>
      cases hs
      rfl
    | suspended hk onTheWay => cases hs
    | unfinished hk hfuel onTheWay => cases hs
  · have going : m'.Started → False := by
      intro started
      rw [not_isFinished_of_started started] at hfinished
      cases hfinished
    cases h with
    | exited atEnd => exact .inr (List.mem_singleton_self _)
    | suspended hk onTheWay => exact (going onTheWay.started).elim
    | unfinished hk hfuel onTheWay => exact (going onTheWay.started).elim
  · rw [List.mem_singleton] at hin
    cases h with
    | exited atEnd => cases hin
    | suspended hk onTheWay => cases hin
    | unfinished hk hfuel onTheWay => omega

theorem obey_tracks (hidle : begun.phase = .idle) (hresuming : begun.resuming = false)
    (hpause : begun.stepper.pausePending = false)
    (hrun : begun.resume .run false fuel = (last, sent, .exited status))
    (h : Progress sent.toList last.plain status begun fuel m earlier) {c : Command}
    (hstop : c.stops = false) :
    Tracks sent.toList last.plain status begun fuel m earlier (c.Grants fuel) (m.obey c) := by
  cases c with
  | pause => exact tracks_of_stepper (s := m.stepper.pause) rfl h _
  | addBreakpoint line => exact tracks_of_stepper (addBreakpoint_depth m.stepper line) h _
  | removeBreakpoint line =>
    exact tracks_of_stepper (s := (m.stepper.removeBreakpoint line).2) rfl h _
  | resume mode stop k =>
    cases hstop
    exact tracks_of_stops (resume_stops hidle hresuming hpause hrun h)

theorem obeyAll_tracks (hidle : begun.phase = .idle) (hresuming : begun.resuming = false)
    (hpause : begun.stepper.pausePending = false)
    (hrun : begun.resume .run false fuel = (last, sent, .exited status)) :
    ∀ {script : List Command} {m : Machine} {earlier : List Emission},
      Progress sent.toList last.plain status begun fuel m earlier →
      (∀ c ∈ script, c.stops = false) →
      Tracks sent.toList last.plain status begun fuel m earlier (∀ c ∈ script, c.Grants fuel)
        (m.obeyAll script) := by
  intro script
  induction script with
  | nil => intro m earlier h _; exact tracks_of_stepper (s := m.stepper) rfl h _
  | cons c cs ih =>
    intro m earlier h hstop
    have first := obey_tracks hidle hresuming hpause hrun h (hstop c List.mem_cons_self)
    have rest := ih first.progress fun c' hc' => hstop c' (List.mem_cons_of_mem c hc')
    refine ⟨?_, fun s hs => ?_, fun hfinished => ?_, fun enough hin => ?_⟩
    · have progress := rest.progress
      rw [List.append_assoc] at progress
      exact progress
    · rcases List.mem_append.1 hs with hs | hs
      · exact first.exits s hs
      · exact rest.exits s hs
    · rcases rest.finished hfinished with hm | hs
      · rcases first.finished hm with hm | hs
        · exact .inl hm
        · exact .inr (List.mem_append_left _ hs)
      · exact .inr (List.mem_append_right _ hs)
    · rcases List.mem_append.1 hin with hin | hin
      · exact first.completes (enough c List.mem_cons_self) hin
      · exact rest.completes (fun c' hc' => enough c' (List.mem_cons_of_mem c hc')) hin

end

/-- However a session steps through a program that exits: no resumption that is allowed as many
steps as the uninterrupted run took goes on without an end, and once the program has exited, all
that was sent, the globals, the number of instructions executed, the error and the exit status are
those of the uninterrupted run. -/
theorem stepping_transparent {image : Image} {max fuel : Nat} {last : Machine}
    {sent : Array Emission} {status : ExitStatus}
    (hrun : (limited image max).resume .run false fuel = (last, sent, .exited status))
    (script : List Command) (hstop : ∀ c ∈ script, c.stops = false) :
    let t := (limited image max).obeyAll script
    ((∀ c ∈ script, c.Grants fuel) → Outcome.unfinished ∉ t.outcomes) ∧
      (t.machine.isFinished = true →
        t.sent = sent.toList ∧ t.machine.globals = last.globals ∧
          t.machine.executed = last.executed ∧ t.machine.error = last.error ∧
          t.machine.phase = .done status ∧ ∀ s, Outcome.exited s ∈ t.outcomes ↔ s = status) := by
  intro t
  have begun : Progress sent.toList last.plain status (limited image max) fuel
    (limited image max) [] :=
    .idle rfl rfl rfl rfl
  have tracks := obeyAll_tracks rfl rfl rfl hrun begun hstop
  refine ⟨tracks.completes, fun hfinished => ?_⟩
  have hexit : Outcome.exited status ∈ t.outcomes := by
    rcases tracks.finished hfinished with h | h
    · cases h
    · exact h
  have atEnd : AtEnd sent.toList last.plain status t.machine t.sent := by
    cases tracks.progress with
    | idle hidle _ _ _ =>
      unfold isFinished at hfinished
      rw [hidle] at hfinished
      cases hfinished
    | onTheWay _ h =>
      rw [not_isFinished_of_started h.started] at hfinished
      cases hfinished
    | atEnd h => exact h
  refine ⟨atEnd.sent, ?_, ?_, ?_, atEnd.phase, fun s => ⟨tracks.exits s, ?_⟩⟩
  · rw [← plain_globals, atEnd.plain, plain_globals]
  · rw [← plain_executed, atEnd.plain, plain_executed]
  · rw [← plain_error, atEnd.plain, plain_error]
  · rintro rfl
    exact hexit

deriving instance DecidableEq for Outcome

/-- A program that sets a global to three on its first line and returns it on the second. -/
def settingThree : Code.Program :=
  let line (n : Nat) : Location := ⟨"three", 0, n, 1⟩
  { name := "three"
    entry := some "main"
    globals := [⟨"x", .int .i32, false⟩]
    functions :=
      [⟨"$init", ⟨[], .void⟩, [], .body [⟨.ret false, line 1⟩], line 1⟩,
       ⟨"main", ⟨[], .int .i32⟩, [],
        .body [⟨.pushConst (.ofInt .i32 3), line 1⟩, ⟨.popGlobal 0, line 1⟩,
          ⟨.pushGlobal 0, line 2⟩, ⟨.ret true, line 2⟩], line 1⟩] }

/-- A session that pauses at the start, steps, and goes on to a breakpoint and to the end. -/
def steppingThree : List Command :=
  [.pause, .resume .run false 9, .resume .singleStep false 9, .addBreakpoint 2,
   .resume .continue false 9, .resume .stepOver false 9, .resume .runToReturn false 9]

/-- Going on with a breakpoint and in steps changes nothing about the answer. -/
theorem settingThree_stepped :
    let m := limited (.interpreted settingThree Native.Bridge.platform) 10
    let t := m.obeyAll steppingThree
    t.machine.isFinished = true ∧ t.sent = (m.resume .run false 9).2.1.toList ∧
      ∀ s, Outcome.exited s ∈ t.outcomes ↔ s = .code 3 := by
  intro m t
  have houtcome : (m.resume .run false 9).2.2 = .exited (.code 3) := by decide
  have hrun : m.resume .run false 9 =
      ((m.resume .run false 9).1, (m.resume .run false 9).2.1, .exited (.code 3)) := by
    rw [← houtcome]
  have hfinished : t.machine.isFinished = true := by decide
  obtain ⟨_, same⟩ := stepping_transparent hrun steppingThree (by decide)
  obtain ⟨hsent, _, _, _, _, hexits⟩ := same hfinished
  exact ⟨hfinished, hsent, hexits⟩

end ScriptLang.Machine
