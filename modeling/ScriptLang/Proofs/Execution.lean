import ScriptLang.Machine.State

/-!
# Runs of the machine

A run to the end changes, apart from what the stepper notes, only a *configuration*: the phase, the
globals, the active functions and the text printed.  `StepsTo` says that a step of such a run comes
from one configuration to another, and there is one lemma for each operation; `Reaches` says that
some steps do, and `Ends` that the run ends.
-/

namespace ScriptLang.Machine

open Code (Op Instruction)

/-- A program before its start, with a limit on how many functions may be active. -/
def limited (image : Image) (maxCallDepth : Nat) : Machine := { ofImage image with maxCallDepth }

attribute [local simp] Context.execute

/-! ### Printed text -/

/-- The texts that the program printed, put together. -/
def printedBy (sent : List Emission) : String := String.join (sent.filterMap Emission.output?)

@[simp] theorem printedBy_nil : printedBy [] = "" := rfl

theorem printedBy_append (a b : List Emission) :
    printedBy (a ++ b) = printedBy a ++ printedBy b := by
  simp [printedBy, List.filterMap_append]

@[simp] theorem printedBy_send (kind : MessageKind) (payload : Payload) (es : List Emission) :
    printedBy (send kind payload :: es) = printedBy es := rfl

@[simp] theorem printedBy_instructionMessage (m : Machine) (kind : MessageKind) (f : Code.Function)
    (index : Nat) (i : Instruction) (es : List Emission) :
    printedBy (m.instructionMessage kind f index i :: es) = printedBy es := rfl

/-! ### Configurations -/

/-- How far a run has come. -/
structure Config where
  phase : Phase
  globals : List Value
  /-- The active functions, the innermost first. -/
  frames : List Frame
  printed : String

/-- The machine runs to the end, having sent `sent`, and has come to a configuration. -/
structure Stands (image : Image) (max : Nat) (m : Machine) (sent : Array Emission) (c : Config) :
    Prop where
  image_eq : m.image = image
  max_eq : m.maxCallDepth = max
  phase_eq : m.phase = c.phase
  globals_eq : m.globals = c.globals
  frames_eq : m.frames = c.frames
  printed_eq : printedBy sent.toList = c.printed
  mode_eq : m.stepper.mode = .run
  no_pause : m.stepper.pausePending = false
  not_resuming : m.resuming = false
  no_error : m.error = none

variable {image : Image} {max : Nat}

/-- A run that stands at `c` comes to `c'`. -/
def Reaches (image : Image) (max : Nat) (c c' : Config) : Prop :=
  ∀ m sent, Stands image max m sent c → ∃ k m' sent',
    (∀ fuel, drive false (k + fuel) m sent = drive false fuel m' sent') ∧
      Stands image max m' sent' c'

/-- How a run ended: the status, the error if there was one, and what it leaves. -/
structure Ending where
  status : ExitStatus
  error : Option RuntimeError
  globals : List Value
  printed : String

/-- A run that stands at `c` ends so. -/
def Ends (image : Image) (max : Nat) (c : Config) (e : Ending) : Prop :=
  ∀ m sent, Stands image max m sent c → ∃ k m' sent',
    drive false k m sent = (m', sent', .exited e.status) ∧ m'.error = e.error ∧
      m'.globals = e.globals ∧ printedBy sent'.toList = e.printed

theorem Reaches.refl (c : Config) : Reaches image max c c := fun m sent h =>
  ⟨0, m, sent, fun fuel => by rw [Nat.zero_add], h⟩

theorem Reaches.trans {a b c : Config} (hab : Reaches image max a b) (hbc : Reaches image max b c) :
    Reaches image max a c := by
  intro m sent h
  obtain ⟨k, m', sent', hk, h'⟩ := hab m sent h
  obtain ⟨n, m'', sent'', hn, h''⟩ := hbc m' sent' h'
  refine ⟨k + n, m'', sent'', fun fuel => ?_, h''⟩
  rw [Nat.add_assoc, hk, hn]

theorem Reaches.ends {a b : Config} {e : Ending} (hab : Reaches image max a b)
    (hb : Ends image max b e) : Ends image max a e := by
  intro m sent h
  obtain ⟨k, m', sent', hk, h'⟩ := hab m sent h
  obtain ⟨n, m'', sent'', hn, hend⟩ := hb m' sent' h'
  exact ⟨k + n, m'', sent'', by rw [hk, hn], hend⟩

/-- A run that stands at `c` comes to `c'` in one step. -/
def StepsTo (image : Image) (max : Nat) (c c' : Config) : Prop :=
  ∀ m sent, Stands image max m sent c → ∃ a, m.step false = a ∧ a.outcome = none ∧
    Stands image max a.machine (sent ++ a.emitted) c'

theorem StepsTo.reaches {c c' : Config} (h : StepsTo image max c c') : Reaches image max c c' := by
  intro m sent hm
  obtain ⟨a, ha, hnone, hstands⟩ := h m sent hm
  refine ⟨1, a.machine, sent ++ a.emitted, fun fuel => ?_, hstands⟩
  rw [Nat.add_comm, drive]
  simp only [ha, hnone]

theorem ends_of_step {c : Config} {e : Ending}
    (h : ∀ m sent, Stands image max m sent c → ∃ a, m.step false = a ∧
      a.outcome = some (.exited e.status) ∧ a.machine.error = e.error ∧
      a.machine.globals = e.globals ∧ printedBy (sent ++ a.emitted).toList = e.printed) :
    Ends image max c e := by
  intro m sent hm
  obtain ⟨a, ha, hout, hend⟩ := h m sent hm
  refine ⟨1, a.machine, sent ++ a.emitted, ?_, hend⟩
  rw [drive]
  simp only [ha, hout]

/-! ### One step -/

section

variable {index : Nat} {f : Code.Function} {pc : Nat} {locals operands : List Value}
  {below : List Frame} {phase : Phase} {globals : List Value} {printed : String}

/-- Labels are passed. -/
theorem stepsTo_label (hf : image.function? index = some f) {place : Location} {l : Code.Label}
    (hi : f.code[pc]? = some ⟨.label l, place⟩) :
    StepsTo image max ⟨phase, globals, ⟨index, pc, locals, operands⟩ :: below, printed⟩
      ⟨phase, globals, ⟨index, pc + 1, locals, operands⟩ :: below, printed⟩ := by
  refine fun m sent h => ⟨_, rfl, ?_⟩
  have hstep : m.step false =
      { machine := { m with frames := ⟨index, pc + 1, locals, operands⟩ :: below } } := by
    simp only [step, h.frames_eq, h.image_eq, hf, hi, Op.isLabel, if_true]
  rw [hstep]
  refine ⟨rfl, { h with frames_eq := rfl, printed_eq := ?_ }⟩
  simpa using h.printed_eq

/-- The context in which the instruction at `pc` is executed. -/
def contextAt (index : Nat) (f : Code.Function) (pc : Nat) (locals operands : List Value)
    (below : List Frame) (place : Location) : Context :=
  ⟨f, ⟨index, pc + 1, locals, operands⟩, below, pc, place⟩

/-- Before an instruction is executed it is announced, and the run is not suspended. -/
theorem step_eq_perform (hf : image.function? index = some f) {i : Instruction}
    (hi : f.code[pc]? = some i) (hl : i.op.isLabel = false) {m : Machine} {sent : Array Emission}
    (h : Stands image max m sent
      ⟨phase, globals, ⟨index, pc, locals, operands⟩ :: below, printed⟩) :
    ∃ m' : Machine, ∃ es : List Emission, printedBy es = "" ∧
      m.step false =
        (m'.perform (contextAt index f pc locals operands below i.location) i).after es ∧
      Stands image max m' sent
        ⟨phase, globals, ⟨index, pc, locals, operands⟩ :: below, printed⟩ := by
  have hcheck : (m.stepper.check i.location.line).1 = none := by
    simp [Stepper.check, Stepper.stepDone, h.no_pause, h.mode_eq]
  refine ⟨{ m with stepper := (m.stepper.check i.location.line).2 },
    [m.instructionMessage .onInstruction f pc i], rfl, ?_, ?_⟩
  · simp only [step, h.frames_eq, h.image_eq, hf, hi, hl, h.not_resuming, checkAndPerform, hcheck,
      Bool.false_eq_true, if_false, contextAt]
  · refine { h with mode_eq := ?_, no_pause := rfl }
    rw [← h.mode_eq]
    simp only [Stepper.check, Stepper.atLine]
    split <;> rfl

/-- The effect of executing an operation in the context, for every machine that stands there. -/
def Executes (image : Image) (max : Nat) (globals : List Value) (c : Context) (op : Op)
    (effect : Machine → Except RuntimeError Effect) : Prop :=
  ∀ m : Machine, m.image = image → m.maxCallDepth = max → m.globals = globals →
    c.execute m op = effect m

variable {i : Instruction} (hf : image.function? index = some f) (hi : f.code[pc]? = some i)
  (hl : i.op.isLabel = false)

include hf hi hl

theorem stepsTo_of_executes {globals' : List Value} {frames' : List Frame} (out : List Emission)
    (hx : Executes image max globals (contextAt index f pc locals operands below i.location) i.op
      fun m => .ok ⟨{ m with globals := globals', frames := frames' }, out, .next⟩) :
    StepsTo image max ⟨phase, globals, ⟨index, pc, locals, operands⟩ :: below, printed⟩
      ⟨phase, globals', frames', printed ++ printedBy out⟩ := by
  refine fun m sent h => ⟨_, rfl, ?_⟩
  obtain ⟨m', es, hes, hstep, h'⟩ := step_eq_perform hf hi hl h
  rw [hstep]
  simp only [perform, hx m' h'.image_eq h'.max_eq h'.globals_eq, follow, Advance.after]
  refine ⟨trivial, { h' with frames_eq := rfl, globals_eq := rfl, printed_eq := ?_ }⟩
  simp [printedBy_append, hes, h'.printed_eq]

theorem ends_of_executes_error {e : RuntimeError}
    (hx : Executes image max globals (contextAt index f pc locals operands below i.location) i.op
      fun _ => .error e) :
    Ends image max ⟨phase, globals, ⟨index, pc, locals, operands⟩ :: below, printed⟩
      ⟨.error (.ofError e), some e, globals, printed⟩ := by
  refine ends_of_step fun m sent h => ⟨_, rfl, ?_⟩
  obtain ⟨m', es, hes, hstep, h'⟩ := step_eq_perform hf hi hl h
  rw [hstep]
  simp only [perform, hx m' h'.image_eq h'.max_eq h'.globals_eq, fail, exit, Advance.after]
  refine ⟨trivial, trivial, h'.globals_eq, ?_⟩
  simp [printedBy_append, hes, h'.printed_eq]

theorem stepsTo_of_executes_enter {frame : Frame} {callee : Nat} {g : Code.Function}
    {args : List Value}
    (hx : Executes image max globals (contextAt index f pc locals operands below i.location) i.op
      fun m => .ok ⟨{ m with frames := frame :: below }, [], .enter callee g args⟩) :
    StepsTo image max ⟨phase, globals, ⟨index, pc, locals, operands⟩ :: below, printed⟩
      ⟨phase, globals, ⟨callee, 0, initialLocals g args, []⟩ :: frame :: below, printed⟩ := by
  refine fun m sent h => ⟨_, rfl, ?_⟩
  obtain ⟨m', es, hes, hstep, h'⟩ := step_eq_perform hf hi hl h
  rw [hstep]
  simp only [perform, hx m' h'.image_eq h'.max_eq h'.globals_eq, follow, enter, Advance.after]
  refine ⟨trivial, { h' with frames_eq := rfl, printed_eq := ?_ }⟩
  simp [printedBy_append, hes, h'.printed_eq]

/-- What comes after a return, whatever function it goes back to. -/
theorem step_eq_returnTo {frame : Frame} {result : Option Value}
    (hx : Executes image max globals (contextAt index f pc locals operands below i.location) i.op
      fun m => .ok ⟨{ m with frames := frame :: below }, [], .leave result⟩)
    {m : Machine} {sent : Array Emission}
    (h : Stands image max m sent
      ⟨phase, globals, ⟨index, pc, locals, operands⟩ :: below, printed⟩) :
    ∃ m' : Machine, ∃ es : List Emission, printedBy es = "" ∧
      m.step false = (m'.returnTo result).after es ∧
      Stands image max m' sent ⟨phase, globals, below, printed⟩ := by
  obtain ⟨m', es, hes, hstep, h'⟩ := step_eq_perform hf hi hl h
  rw [hstep]
  simp only [perform, hx m' h'.image_eq h'.max_eq h'.globals_eq, follow, leave, Advance.after,
    ← List.append_assoc]
  refine ⟨_, _, ?_, rfl, { h' with frames_eq := rfl }⟩
  simp [printedBy_append, hes]

/-- A function called by another gives it its result. -/
theorem stepsTo_of_executes_leave {frame caller : Frame} {rest : List Frame} {result : Option Value}
    (hbelow : below = caller :: rest)
    (hx : Executes image max globals (contextAt index f pc locals operands below i.location) i.op
      fun m => .ok ⟨{ m with frames := frame :: below }, [], .leave result⟩) :
    StepsTo image max ⟨phase, globals, ⟨index, pc, locals, operands⟩ :: below, printed⟩
      ⟨phase, globals, { caller with operands := result.toList ++ caller.operands } :: rest,
        printed⟩ := by
  refine fun m sent h => ⟨_, rfl, ?_⟩
  obtain ⟨m', es, hes, hstep, h'⟩ := step_eq_returnTo hf hi hl hx h
  rw [hstep]
  have hframes : m'.frames = caller :: rest := by rw [h'.frames_eq, hbelow]
  simp only [returnTo, hframes, Advance.after]
  refine ⟨trivial, { h' with frames_eq := rfl, printed_eq := ?_ }⟩
  simp [printedBy_append, hes, h'.printed_eq]

/-- The entry point's result is what the program exits with. -/
theorem ends_of_executes_leave {frame : Frame} {result : Option Value} (hbelow : below = [])
    (hphase : phase = .entry)
    (hx : Executes image max globals (contextAt index f pc locals operands below i.location) i.op
      fun m => .ok ⟨{ m with frames := frame :: below }, [], .leave result⟩) :
    Ends image max ⟨phase, globals, ⟨index, pc, locals, operands⟩ :: below, printed⟩
      ⟨.code (exitCode result), none, globals, printed⟩ := by
  refine ends_of_step fun m sent h => ⟨_, rfl, ?_⟩
  obtain ⟨m', es, hes, hstep, h'⟩ := step_eq_returnTo hf hi hl hx h
  rw [hstep]
  have hframes : m'.frames = [] := by rw [h'.frames_eq, hbelow]
  have hentry : m'.phase = .entry := by rw [h'.phase_eq, hphase]
  simp only [returnTo, hframes, hentry, exit, Advance.after]
  refine ⟨trivial, h'.no_error, h'.globals_eq, ?_⟩
  simp [printedBy_append, hes, h'.printed_eq]

/-- After the globals have been set the entry point begins. -/
theorem stepsTo_of_executes_leave_init {frame : Frame} {result : Option Value} (hbelow : below = [])
    (hphase : phase = .init) {entry : Nat} {g : Code.Function} (hentry : image.entry? = some entry)
    (hg : image.function? entry = some g) (hparams : g.signature.params = [])
    (hx : Executes image max globals (contextAt index f pc locals operands below i.location) i.op
      fun m => .ok ⟨{ m with frames := frame :: below }, [], .leave result⟩) :
    StepsTo image max ⟨phase, globals, ⟨index, pc, locals, operands⟩ :: below, printed⟩
      ⟨.entry, globals, [⟨entry, 0, initialLocals g [], []⟩], printed⟩ := by
  refine fun m sent h => ⟨_, rfl, ?_⟩
  obtain ⟨m', es, hes, hstep, h'⟩ := step_eq_returnTo hf hi hl hx h
  rw [hstep]
  have hframes : m'.frames = [] := by rw [h'.frames_eq, hbelow]
  have hinit : m'.phase = .init := by rw [h'.phase_eq, hphase]
  simp only [returnTo, hframes, hinit, enterEntry, h'.image_eq, hentry, enterRoot, hg,
    hparams, enter,
    Advance.after]
  refine ⟨trivial, { h' with image_eq := rfl, phase_eq := rfl, frames_eq := rfl, printed_eq := ?_ }⟩
  simp [printedBy_append, hes, h'.printed_eq]

end

/-! ### Single operations -/

/-- A value put at a place that the list has. -/
theorem putAt_of_lt {values : List Value} {slot : Nat} (h : slot < values.length) (v : Value) :
    putAt values slot v = values.set slot v := by
  rw [putAt, Nat.sub_eq_zero_of_le h, List.replicate_zero, List.append_nil]

section

variable {index : Nat} {f : Code.Function} {pc : Nat} {locals operands : List Value}
  {below : List Frame} {phase : Phase} {globals : List Value} {printed : String}
  {place : Location} (hf : image.function? index = some f)

include hf

theorem stepsTo_pushConst {v : Value} (hi : f.code[pc]? = some ⟨.pushConst v, place⟩) :
    StepsTo image max ⟨phase, globals, ⟨index, pc, locals, operands⟩ :: below, printed⟩
      ⟨phase, globals, ⟨index, pc + 1, locals, v :: operands⟩ :: below, printed⟩ := by
  simpa using stepsTo_of_executes hf hi rfl [] fun m _ _ hm => by rw [← hm]; rfl

theorem stepsTo_pushLocal {slot : Nat} {v : Value} (hv : locals[slot]? = some v)
    (hi : f.code[pc]? = some ⟨.pushLocal slot, place⟩) :
    StepsTo image max ⟨phase, globals, ⟨index, pc, locals, operands⟩ :: below, printed⟩
      ⟨phase, globals, ⟨index, pc + 1, locals, v :: operands⟩ :: below, printed⟩ := by
  have hx : Executes image max globals (contextAt index f pc locals operands below place)
      (.pushLocal slot) fun m => .ok ⟨{ m with
        globals, frames := ⟨index, pc + 1, locals, v :: operands⟩ :: below }, [], .next⟩ := by
    intro m _ _ hm
    simp only [Context.execute, contextAt, hv, Context.withOperands, ← hm]
  simpa using stepsTo_of_executes hf hi rfl [] hx

theorem stepsTo_pushGlobal {id : Nat} {v : Value} (hv : globals[id]? = some v)
    (hi : f.code[pc]? = some ⟨.pushGlobal id, place⟩) :
    StepsTo image max ⟨phase, globals, ⟨index, pc, locals, operands⟩ :: below, printed⟩
      ⟨phase, globals, ⟨index, pc + 1, locals, v :: operands⟩ :: below, printed⟩ := by
  have hx : Executes image max globals (contextAt index f pc locals operands below place)
      (.pushGlobal id) fun m => .ok ⟨{ m with
        globals, frames := ⟨index, pc + 1, locals, v :: operands⟩ :: below }, [], .next⟩ := by
    intro m _ _ hm
    subst hm
    simp only [Context.execute, contextAt, hv, Option.getD_some, Context.withOperands]
  simpa using stepsTo_of_executes hf hi rfl [] hx

theorem stepsTo_popLocal {slot : Nat} {v : Value}
    (hi : f.code[pc]? = some ⟨.popLocal slot, place⟩) :
    StepsTo image max ⟨phase, globals, ⟨index, pc, locals, v :: operands⟩ :: below, printed⟩
      ⟨phase, globals, ⟨index, pc + 1, putAt locals slot v, operands⟩ :: below, printed⟩ := by
  have hx : Executes image max globals (contextAt index f pc locals (v :: operands) below place)
      (.popLocal slot) fun m => .ok ⟨{ m with
        globals, frames := ⟨index, pc + 1, putAt locals slot v, operands⟩ :: below }, [], .next⟩ := by
    intro m _ _ hm
    simp only [Context.execute, contextAt, ← hm]
  simpa using stepsTo_of_executes hf hi rfl [] hx

theorem stepsTo_popGlobal {id : Nat} {v : Value} (hs : id < globals.length)
    (hi : f.code[pc]? = some ⟨.popGlobal id, place⟩) :
    StepsTo image max ⟨phase, globals, ⟨index, pc, locals, v :: operands⟩ :: below, printed⟩
      ⟨phase, globals.set id v, ⟨index, pc + 1, locals, operands⟩ :: below, printed⟩ := by
  have hx : Executes image max globals (contextAt index f pc locals (v :: operands) below place)
      (.popGlobal id) fun m => .ok ⟨{ m with
        globals := globals.set id v, frames := ⟨index, pc + 1, locals, operands⟩ :: below },
        [], .next⟩ := by
    intro m _ _ hm
    simp only [Context.execute, contextAt, Context.withOperands, hm, putAt_of_lt hs]
  simpa using stepsTo_of_executes hf hi rfl [] hx

theorem stepsTo_pop {v : Value} (hi : f.code[pc]? = some ⟨.pop, place⟩) :
    StepsTo image max ⟨phase, globals, ⟨index, pc, locals, v :: operands⟩ :: below, printed⟩
      ⟨phase, globals, ⟨index, pc + 1, locals, operands⟩ :: below, printed⟩ := by
  simpa using stepsTo_of_executes hf hi rfl [] fun m _ _ hm => by rw [← hm]; rfl

/-- An operator or a cast that has a value. -/
theorem stepsTo_of_push {op : Code.Op} {before : List Value} {v : Value} (hl : op.isLabel = false)
    (hi : f.code[pc]? = some ⟨op, place⟩)
    (hx : ∀ m, (contextAt index f pc locals before below place).execute m op =
      (contextAt index f pc locals before below place).push m operands (.ok v)) :
    StepsTo image max ⟨phase, globals, ⟨index, pc, locals, before⟩ :: below, printed⟩
      ⟨phase, globals, ⟨index, pc + 1, locals, v :: operands⟩ :: below, printed⟩ := by
  simpa using stepsTo_of_executes hf hi hl [] fun m _ _ hm => by
    rw [← hm]
    exact hx m

/-- An operator or a cast that has none. -/
theorem ends_of_push {op : Code.Op} {before : List Value} {e : ValueError} (hl : op.isLabel = false)
    (hi : f.code[pc]? = some ⟨op, place⟩)
    (hx : ∀ m, (contextAt index f pc locals before below place).execute m op =
      (contextAt index f pc locals before below place).push m operands (.error e)) :
    Ends image max ⟨phase, globals, ⟨index, pc, locals, before⟩ :: below, printed⟩
      ⟨.error (.ofError (RuntimeError.operation e place)), some (.operation e place), globals,
        printed⟩ :=
  ends_of_executes_error hf hi hl fun m _ _ _ => hx m

/-- A jump that is made, to the place `k`. -/
theorem stepsTo_of_jump {op : Code.Op} {before : List Value} {l : Code.Label} {k : Nat}
    (hl : op.isLabel = false) (hk : image.labelPlace? index l = some k)
    (hi : f.code[pc]? = some ⟨op, place⟩)
    (hx : ∀ m, (contextAt index f pc locals before below place).execute m op =
      (contextAt index f pc locals before below place).jump m operands l) :
    StepsTo image max ⟨phase, globals, ⟨index, pc, locals, before⟩ :: below, printed⟩
      ⟨phase, globals, ⟨index, k, locals, operands⟩ :: below, printed⟩ := by
  have hx' : Executes image max globals (contextAt index f pc locals before below place) op
      fun m => .ok ⟨{ m with globals, frames := ⟨index, k, locals, operands⟩ :: below },
        [], .next⟩ := by
    intro m hm _ hg
    rw [hx m]
    simp only [Context.jump, contextAt, hm, hk, ← hg]
  simpa using stepsTo_of_executes hf hi hl [] hx'

/-- A jump that is not made. -/
theorem stepsTo_of_passed {op : Code.Op} {before : List Value} (hl : op.isLabel = false)
    (hi : f.code[pc]? = some ⟨op, place⟩)
    (hx : ∀ m, (contextAt index f pc locals before below place).execute m op =
      .ok ⟨(contextAt index f pc locals before below place).withOperands m operands, [], .next⟩) :
    StepsTo image max ⟨phase, globals, ⟨index, pc, locals, before⟩ :: below, printed⟩
      ⟨phase, globals, ⟨index, pc + 1, locals, operands⟩ :: below, printed⟩ := by
  simpa using stepsTo_of_executes hf hi hl [] fun m _ _ hm => by
    rw [← hm]
    exact hx m

theorem stepsTo_jump {l : Code.Label} {k : Nat} (hk : image.labelPlace? index l = some k)
    (hi : f.code[pc]? = some ⟨.jump l, place⟩) :
    StepsTo image max ⟨phase, globals, ⟨index, pc, locals, operands⟩ :: below, printed⟩
      ⟨phase, globals, ⟨index, k, locals, operands⟩ :: below, printed⟩ :=
  stepsTo_of_jump hf rfl hk hi fun _ => rfl

/-- A jump on a condition: `when` says which truth value of the condition makes it. -/
theorem stepsTo_jumpIf (when : Bool) {v : Value} {l : Code.Label} {k : Nat}
    (hk : image.labelPlace? index l = some k)
    (hi : f.code[pc]? = some ⟨if when then .jumpIfTrue l else .jumpIfFalse l, place⟩) :
    StepsTo image max ⟨phase, globals, ⟨index, pc, locals, v :: operands⟩ :: below, printed⟩
      ⟨phase, globals, ⟨index, if v.truthy = when then k else pc + 1, locals, operands⟩ :: below,
        printed⟩ := by
  cases when <;> cases ht : v.truthy
  · refine stepsTo_of_jump hf rfl hk hi fun m => ?_
    simp [Context.execute, contextAt, ht]
  · refine stepsTo_of_passed hf rfl hi fun m => ?_
    simp [Context.execute, contextAt, ht, Context.withOperands]
  · refine stepsTo_of_passed hf rfl hi fun m => ?_
    simp [Context.execute, contextAt, ht, Context.withOperands]
  · refine stepsTo_of_jump hf rfl hk hi fun m => ?_
    simp [Context.execute, contextAt, ht]

omit hf in
/-- A return takes its result off the operands. -/
theorem executes_ret (result : Option Value) :
    Executes image max globals (contextAt index f pc locals result.toList below place)
      (.ret result.isSome) fun m =>
        .ok ⟨{ m with frames := ⟨index, pc + 1, locals, []⟩ :: below }, [], .leave result⟩ := by
  intro m _ _ _
  cases result <;> rfl

end

end ScriptLang.Machine
