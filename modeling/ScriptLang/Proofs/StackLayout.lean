import ScriptLang.Proofs.SharedStack

/-!
# Operands laid on one stack

A machine that keeps the operands of each function apart can be laid on one stack, the operands of the
innermost function on top (`Machine.laid`).  An operand is there for the innermost function exactly if
the stack is higher than the base of this function, so that an instruction does the same on one stack
(`execute_laid`).  So does a step (`step_lays`), and whatever is asked of a program (`after_lays`).
-/

namespace ScriptLang.Machine

/-! ### Layout -/

/-- The operands of all functions on one stack. -/
def stackOf (frames : List Frame) : List Value := frames.flatMap Frame.operands

/-- The functions with the heights that the stack had when they were entered. -/
def layFrames : List Frame → List Shared.Frame
  | [] => []
  | frame :: below =>
    ⟨frame.function, frame.next, frame.locals, (stackOf below).length⟩ :: layFrames below

/-- The machine with one stack. -/
def laid (m : Machine) : Shared where
  image := m.image
  globals := m.globals
  frames := layFrames m.frames
  stack := stackOf m.frames
  stepper := m.stepper
  phase := m.phase
  resuming := m.resuming
  executed := m.executed
  maxCallDepth := m.maxCallDepth
  error := m.error

theorem laid_image (m : Machine) : m.laid.image = m.image := rfl

theorem laid_stepper (m : Machine) : m.laid.stepper = m.stepper := rfl

theorem laid_phase (m : Machine) : m.laid.phase = m.phase := rfl

@[simp] theorem stackOf_cons (frame : Frame) (below : List Frame) :
    stackOf (frame :: below) = frame.operands ++ stackOf below := rfl

@[simp] theorem length_layFrames (frames : List Frame) :
    (layFrames frames).length = frames.length := by
  induction frames with
  | nil => rfl
  | cons frame below ih => simp [layFrames, ih]

namespace Shared

/-- What comes after an instruction; a function that is entered has the base given. -/
def Flow.ofFlow (base : Nat) : Machine.Flow → Flow
  | .next => .next
  | .enter index f args => .enter { function := index, locals := initialLocals f args, base } f
  | .leave result => .leave result

def Effect.ofEffect (e : Machine.Effect) : Effect :=
  ⟨e.machine.laid, e.printed.map e.machine.laid.note, .ofFlow (stackOf e.machine.frames).length e.flow⟩

/-- Where the instruction stands that is executed. -/
def Spot.ofContext (c : Context) : Spot := ⟨c.frame.function, c.function, c.index, c.location⟩

variable (c : Context) (m : Machine) (operands : List Value)

theorem pop_nil : (c.withOperands m []).laid.pop = none := by
  simp only [pop, laid, Context.withOperands, layFrames, stackOf_cons]
  cases stackOf c.below <;> simp

theorem pop_cons (v : Value) (rest : List Value) :
    (c.withOperands m (v :: rest)).laid.pop = some (v, (c.withOperands m rest).laid) := by
  have above : ¬ (v :: rest ++ stackOf c.below).length ≤ (stackOf c.below).length := by
    simp only [List.length_append, List.length_cons]
    omega
  simp only [pop, laid, Context.withOperands, layFrames, stackOf_cons]
  exact if_neg above

theorem splitOff_laid (argc : Nat) : (c.withOperands m operands).laid.splitOff argc =
    if operands.length < argc then none
    else some ((operands.take argc).reverse, (c.withOperands m (operands.drop argc)).laid) := by
  simp only [splitOff, laid, Context.withOperands, layFrames, stackOf_cons]
  by_cases few : operands.length < argc
  · simp [few]; omega
  · have enough : argc ≤ operands.length := by omega
    simp [few, List.take_append_of_le_length enough, List.drop_append_of_le_length enough]
    omega

/-! ### Instructions -/

variable {c m operands}

theorem pushResult_laid (r : Except ValueError Value) :
    (Spot.ofContext c).pushResult (c.withOperands m operands).laid r =
      (c.push m operands r).map Effect.ofEffect := by
  cases r <;> rfl

theorem jump_laid (l : Code.Label) :
    (Spot.ofContext c).jump (c.withOperands m operands).laid l =
      (c.jump m operands l).map Effect.ofEffect := by
  have place : (c.withOperands m operands).laid.image.labelPlace? (Spot.ofContext c).index l =
      m.image.labelPlace? c.frame.function l := rfl
  unfold Spot.jump Context.jump
  rw [place]
  cases m.image.labelPlace? c.frame.function l <;> rfl

theorem invoke_laid (index : Nat) (f : Code.Function) (args : List Value) :
    (Spot.ofContext c).invoke (c.withOperands m operands).laid index f args =
      (c.invoke m operands index f args).map Effect.ofEffect := by
  have frames : (c.withOperands m operands).laid.frames.length =
      (c.withOperands m operands).frames.length := length_layFrames _
  unfold Spot.invoke Context.invoke
  dsimp only
  cases f.kind with
  | body code =>
    dsimp only
    rw [frames]
    change (if m.maxCallDepth ≤ _ then _ else _) = Except.map _ (if m.maxCallDepth ≤ _ then _ else _)
    split <;> rfl
  | intrinsic i =>
    dsimp only
    by_cases line : i = .println
    · rw [if_pos line, if_pos line]
      rfl
    · rw [if_neg line, if_neg line]
      rfl
  | native symbol =>
    dsimp only
    rw [laid_image]
    cases (c.withOperands m operands).image.callNative index args with
    | error e => rfl
    | ok v =>
      by_cases nothing : f.signature.ret = .void
      · simp only [if_pos nothing]
        rfl
      · simp only [if_neg nothing]
        rfl

theorem call_laid (name : String) (argc : Nat) :
    (Spot.ofContext c).call (c.withOperands m c.frame.operands).laid name argc =
      (c.call m name argc).map Effect.ofEffect := by
  have callee : (Spot.ofContext c).callee? (c.withOperands m c.frame.operands).laid name = (do
      let index ← m.image.callee? c.frame.function c.index name
      return (index, ← m.image.function? index)) := rfl
  unfold Spot.call Context.call
  rw [callee]
  cases (do
    let index ← m.image.callee? c.frame.function c.index name
    return (index, ← m.image.function? index) : Option (Nat × Code.Function)) with
  | none => rfl
  | some found =>
    obtain ⟨index, f⟩ := found
    dsimp only
    split
    · rfl
    · rw [splitOff_laid]
      split
      · rfl
      · exact invoke_laid index f _

/-- An instruction has the same effect on one stack. -/
theorem execute_laid (op : Code.Op) :
    (Spot.ofContext c).execute (c.withOperands m c.frame.operands).laid op =
      (c.execute m op).map Effect.ofEffect := by
  cases op with
  | pushConst v => rfl
  | pushGlobal id => rfl
  | label l => rfl
  | call name argc => exact call_laid name argc
  | callNative name argc => exact call_laid name argc
  | jump l => exact jump_laid l
  | pushLocal slot =>
    unfold Spot.execute Context.execute
    change ((Spot.ofContext c).need (c.frame.locals[slot]?) >>= _) = _
    dsimp only
    cases c.frame.locals[slot]? <;> rfl
  | popLocal | popGlobal | pop =>
    unfold Spot.execute Context.execute
    cases c.frame.operands with
    | nil => rw [pop_nil]; rfl
    | cons v rest => rw [pop_cons]; rfl
  | unary | cast =>
    unfold Spot.execute Context.execute
    cases c.frame.operands with
    | nil => rw [pop_nil]; rfl
    | cons v rest => rw [pop_cons]; exact pushResult_laid _
  | binary op =>
    unfold Spot.execute Context.execute
    cases c.frame.operands with
    | nil => rw [pop_nil]; rfl
    | cons r rest =>
      rw [pop_cons]
      cases rest with
      | nil =>
        change ((Spot.ofContext c).need (c.withOperands m []).laid.pop >>= _) = _
        rw [pop_nil]
        rfl
      | cons l rest =>
        change ((Spot.ofContext c).need (c.withOperands m (l :: rest)).laid.pop >>= _) = _
        rw [pop_cons]
        exact pushResult_laid _
  | ret hasValue =>
    unfold Spot.execute Context.execute
    cases hasValue with
    | false => rfl
    | true =>
      cases c.frame.operands with
      | nil => rw [pop_nil]; rfl
      | cons v rest => rw [pop_cons]; rfl
  | jumpIfFalse l =>
    unfold Spot.execute Context.execute
    cases c.frame.operands with
    | nil => rw [pop_nil]; rfl
    | cons v rest =>
      rw [pop_cons]
      change (if v.truthy = true then _ else _) = Except.map _ (if v.truthy = true then _ else _)
      split
      · rfl
      · exact jump_laid l
  | jumpIfTrue l =>
    unfold Spot.execute Context.execute
    cases c.frame.operands with
    | nil => rw [pop_nil]; rfl
    | cons v rest =>
      rw [pop_cons]
      change (if v.truthy = true then _ else _) = Except.map _ (if v.truthy = true then _ else _)
      split
      · exact jump_laid l
      · rfl

/-! ### Moves -/

/-- A move of a machine with one stack is that of a machine without it. -/
structure Advance.Lays (a : Advance) (b : Machine.Advance) : Prop where
  machine : a.machine = b.machine.laid
  notes : a.notes.map Note.emission = b.emitted
  outcome : a.outcome = b.outcome

variable {a : Advance} {b : Machine.Advance}

theorem Advance.Lays.after (h : a.Lays b) (notes : List Note) :
    (a.after notes).Lays (b.after (notes.map Note.emission)) where
  machine := h.machine
  notes := by
    change (notes ++ a.notes).map _ = _ ++ b.emitted
    rw [List.map_append, h.notes]
  outcome := h.outcome

theorem exit_lays (m : Machine) (status : ExitStatus) : (m.laid.exit status).Lays (m.exit status) :=
  ⟨rfl, rfl, rfl⟩

theorem fail_lays (m : Machine) (e : RuntimeError) : (m.laid.fail e).Lays (m.fail e) :=
  ⟨rfl, rfl, rfl⟩

theorem enter_lays (m : Machine) (index : Nat) (f : Code.Function) (args : List Value) :
    (m.laid.enter (m.laid.frameOf index f args) f).Lays (m.enter index f args) :=
  ⟨rfl, rfl, rfl⟩

theorem enterRoot_lays (m : Machine) (index : Nat) :
    (m.laid.enterRoot index).Lays (m.enterRoot index) := by
  unfold enterRoot Machine.enterRoot
  rw [laid_image]
  cases m.image.function? index with
  | none => exact fail_lays m _
  | some f =>
    dsimp only
    cases f.signature.params with
    | nil => exact enter_lays m index f []
    | cons => exact fail_lays m _

theorem enterEntry_lays (m : Machine) : m.laid.enterEntry.Lays m.enterEntry := by
  unfold enterEntry Machine.enterEntry
  rw [laid_image]
  cases m.image.entry? with
  | none => exact fail_lays { m with phase := .entry } _
  | some entry => exact enterRoot_lays { m with phase := .entry } entry

theorem returnTo_lays (m : Machine) (result : Option Value) :
    (m.laid.returnTo result).Lays (m.returnTo result) := by
  have layout : m.laid.frames = layFrames m.frames := rfl
  unfold returnTo Machine.returnTo
  rw [layout]
  cases frames : m.frames with
  | cons caller below =>
    refine ⟨?_, rfl, rfl⟩
    simp [laid, frames, layFrames]
  | nil =>
    dsimp only [layFrames]
    rw [laid_phase]
    cases m.phase with
    | init => exact enterEntry_lays m
    | _ => exact exit_lays m _

/-- Cut down to its base, the stack has no operand of the innermost function. -/
theorem cutDown_append (operands below : List Value) :
    cutDown (operands ++ below) below.length = below := by
  simp [cutDown]

theorem leave_lays (m : Machine) (result : Option Value) :
    (m.laid.leave result).Lays (m.leave result) := by
  have layout : m.laid.frames = layFrames m.frames := rfl
  unfold leave Machine.leave
  rw [layout]
  cases frames : m.frames with
  | nil => exact ⟨rfl, rfl, rfl⟩
  | cons frame below =>
    have cut : cutDown m.laid.stack (stackOf below).length = stackOf below := by
      change cutDown (stackOf m.frames) _ = _
      rw [frames, stackOf_cons, cutDown_append]
    simp only [layFrames, cut]
    exact (returnTo_lays { m with frames := below, stepper := m.stepper.leave } result).after _

theorem follow_lays (m : Machine) (flow : Machine.Flow) :
    (m.laid.follow (.ofFlow (stackOf m.frames).length flow)).Lays (m.follow flow) := by
  cases flow with
  | next => exact ⟨rfl, rfl, rfl⟩
  | enter index f args => exact enter_lays m index f args
  | leave result => exact leave_lays m result

/-! ### Steps -/

/-- A function of the machine is about to execute one of its instructions. -/
theorem perform_lays {c : Context} {i : Code.Instruction} {frame : Machine.Frame}
    (frames : m.frames = frame :: c.below) (moved : c.frame = { frame with next := frame.next + 1 }) :
    (m.laid.perform (.ofContext c) i).Lays (m.perform c i) := by
  have stands : m.laid.goOn = (c.withOperands m c.frame.operands).laid := by
    simp [goOn, Spot.mapTop, laid, Context.withOperands, layFrames, frames, moved]
  unfold perform Machine.perform
  rw [stands, execute_laid]
  cases c.execute m i.op with
  | error e => exact fail_lays _ e
  | ok effect =>
    let m' : Machine := { effect.machine with executed := effect.machine.executed + 1 }
    have sent : (effect.printed.map effect.machine.laid.note ++
        [m'.laid.instructionNote .afterInstruction c.function c.index i]).map Note.emission =
        effect.printed ++ [m'.instructionMessage .afterInstruction c.function c.index i] := by
      rw [List.map_append, List.map_map]
      exact congrArg (· ++ _) (List.map_id' _)
    have followed := (follow_lays m' effect.flow).after
      (effect.printed.map effect.machine.laid.note ++
        [m'.laid.instructionNote .afterInstruction c.function c.index i])
    rw [sent] at followed
    exact followed

theorem checkAndPerform_lays {c : Context} {i : Code.Instruction} {frame : Machine.Frame}
    (frames : m.frames = frame :: c.below) (moved : c.frame = { frame with next := frame.next + 1 }) :
    (m.laid.checkAndPerform (.ofContext c) i).Lays (m.checkAndPerform c i) := by
  unfold checkAndPerform Machine.checkAndPerform
  rw [laid_stepper]
  obtain ⟨reason, stepper⟩ := m.stepper.check i.location.line
  cases reason with
  | some reason => exact ⟨rfl, rfl, rfl⟩
  | none =>
    have performed := perform_lays (i := i) (m := { m with stepper }) frames moved
    exact performed.after [m.laid.instructionNote .onInstruction c.function c.index i]

theorem step_lays_cons (m : Machine) (frame : Machine.Frame) (below : List Machine.Frame)
    (stop : Bool) : ((laid { m with frames := frame :: below }).step stop).Lays
      (Machine.step stop { m with frames := frame :: below }) := by
  unfold step Machine.step
  dsimp only [laid, layFrames]
  cases m.image.function? frame.function with
  | none => exact fail_lays { m with frames := frame :: below } _
  | some f =>
    dsimp only
    cases f.code[frame.next]? with
    | none => exact leave_lays { m with frames := frame :: below } none
    | some i =>
      let c : Context := ⟨f, { frame with next := frame.next + 1 }, below, frame.next, i.location⟩
      dsimp only
      split
      · exact ⟨rfl, rfl, rfl⟩
      · split
        · exact exit_lays { m with frames := frame :: below } _
        · change Advance.Lays (if m.resuming = true then _ else _) _
          split
          · exact perform_lays (m := { m with frames := frame :: below, resuming := false }) (c := c)
              rfl rfl
          · exact checkAndPerform_lays (m := { m with frames := frame :: below }) (c := c) rfl rfl

/-- A step is the same on one stack. -/
theorem step_lays (m : Machine) (stop : Bool) : (m.laid.step stop).Lays (m.step stop) := by
  cases frames : m.frames with
  | nil =>
    have ended := exit_lays m (.code 0)
    simp only [step, Machine.step, laid, frames, layFrames] at ended ⊢
    exact ended
  | cons frame below =>
    have stepped := step_lays_cons m frame below stop
    rwa [← frames] at stepped

theorem start_lays (m : Machine) : m.laid.start.Lays m.start := by
  unfold start Machine.start
  refine Advance.Lays.after ?_ [m.laid.note (send .programStart (.program m.image.program.name
    m.entryName))]
  rw [laid_image]
  cases m.image.entry? with
  | none => exact fail_lays m _
  | some entry =>
    cases m.image.init? with
    | some init => exact enterRoot_lays { m with phase := .init } init
    | none => exact enterEntry_lays m

/-! ### Runs -/

theorem begin_lays (m : Machine) : m.laid.begin.Lays m.begin := by
  unfold begin Machine.begin
  rw [laid_phase]
  cases m.phase with
  | idle => exact start_lays m
  | _ => exact ⟨rfl, rfl, rfl⟩

/-- A run is the same on one stack. -/
structure Lays (r : Shared × List Note × Outcome) (q : Machine × Array Emission × Outcome) : Prop where
  machine : r.1 = q.1.laid
  notes : r.2.1.map Note.emission = q.2.1.toList
  outcome : r.2.2 = q.2.2

theorem driveUnder_lays : ∀ (fuel : Nat) (m : Machine) (stops : Nat → Bool) {notes : List Note}
    {sent : Array Emission}, notes.map Note.emission = sent.toList →
    Lays (m.laid.driveUnder stops fuel notes) (m.driveUnder stops fuel sent)
  | 0, _, _, _, _, same => ⟨rfl, same, rfl⟩
  | fuel + 1, m, stops, notes, sent, same => by
    have stepped := step_lays m (stops 0)
    have same' : (notes ++ (m.laid.step (stops 0)).notes).map Note.emission =
        (sent ++ (m.step (stops 0)).emitted).toList := by
      rw [List.map_append, same, stepped.notes, Array.toList_appendList]
    rw [driveUnder, Machine.driveUnder, stepped.outcome]
    cases (m.step (stops 0)).outcome with
    | some o => exact ⟨stepped.machine, same', rfl⟩
    | none =>
      dsimp only
      rw [stepped.machine]
      exact driveUnder_lays fuel _ _ same'

theorem resumeUnder_lays (m : Machine) (mode : Mode) (stops : Nat → Bool) (fuel : Nat) :
    Lays (m.laid.resumeUnder mode stops fuel) (m.resumeUnder mode stops fuel) := by
  have begun := begin_lays m
  unfold resumeUnder Machine.resumeUnder
  rw [begun.outcome, begun.machine]
  cases m.begin.outcome with
  | some o => exact ⟨rfl, begun.notes, rfl⟩
  | none =>
    exact driveUnder_lays fuel
      { m.begin.machine with stepper := m.begin.machine.stepper.resume mode } stops begun.notes

theorem answer_lays (m : Machine) (r : Request) :
    (m.laid.answer r).1 = (m.answer r).machine.laid ∧
      (m.laid.answer r).2.map Note.emission = (m.answer r).sent := by
  cases r with
  | resume mode stops fuel =>
    have run := resumeUnder_lays m mode stops fuel
    exact ⟨run.machine, run.notes⟩
  | _ => exact ⟨rfl, rfl⟩

theorem foldl_lays : ∀ (rs : List Request) {s : Shared × List Note} {q : Machine × List Emission},
    s.1 = q.1.laid → s.2.map Note.emission = q.2 →
    let s' := rs.foldl (fun s r => ((s.1.answer r).1, s.2 ++ (s.1.answer r).2)) s
    let q' := rs.foldl (fun q r => ((q.1.answer r).machine, q.2 ++ (q.1.answer r).sent)) q
    s'.1 = q'.1.laid ∧ s'.2.map Note.emission = q'.2
  | [], _, _, machine, notes => ⟨machine, notes⟩
  | r :: rs, s, q, machine, notes => by
    have answered := answer_lays q.1 r
    rw [← machine] at answered
    refine foldl_lays rs answered.1 ?_
    rw [List.map_append, notes, answered.2]

/-- Whatever is asked of a program, on one stack it does the same. -/
theorem after_lays (image : Image) (max : Nat) (rs : List Request) :
    (after image max rs).1 = (afterRequests image max rs).1.laid ∧
      (after image max rs).2.map Note.emission = (afterRequests image max rs).2 :=
  foldl_lays rs rfl rfl

end Shared

end ScriptLang.Machine
