import ScriptLang.Proofs.LinkedRuns

/-!
# What a listener hears of a run

A listener who follows the messages about functions and instructions knows which functions are active
and which instruction has been announced but not executed.  Every message fits what is known when it
comes, and what is known is true of the machine (`Machine.step_tells`), whether the run is suspended,
resumed, stopped or ends in an error; a run that ends with a number has left every function
(`Machine.resumeUnder_narrates`).
-/

namespace ScriptLang

open Machine (Emission Payload ExitStatus)

/-! ### Listeners -/

/-- What a listener knows of a run. -/
structure Listener where
  /-- The functions that were entered and not left, the innermost first. -/
  entered : List String := []
  /-- The instruction that was announced and has not been executed, as it was announced. -/
  announced : Option Payload := none
deriving DecidableEq

namespace Listener

/-- What is known when another message has come; none if the message does not fit.  A function is
entered and left, and an instruction announced, only when no other instruction is under way.  Each
message has the depth that the open entries make. -/
def hear (l : Listener) : Emission → Option Listener
  | .output _ => if l.announced.isSome then some l else none
  | .message ⟨.functionEntry, .function name depth⟩ =>
    if l.announced = none ∧ depth = l.entered.length + 1 then
      some { l with entered := name :: l.entered }
    else none
  | .message ⟨.functionReturn, .function name depth⟩ =>
    if l.announced = none ∧ l.entered.head? = some name ∧ depth = l.entered.length then
      some { l with entered := l.entered.tail }
    else none
  | .message ⟨.onInstruction, .instruction f index text location depth⟩ =>
    if l.announced = none ∧ l.entered.head? = some f ∧ depth = l.entered.length then
      some { l with announced := some (.instruction f index text location depth) }
    else none
  | .message ⟨.afterInstruction, payload⟩ =>
    if l.announced = some payload then some { l with announced := none } else none
  | _ => none

/-- What is known when some messages have come. -/
def hearAll (l : Listener) : List Emission → Option Listener
  | [] => some l
  | e :: es => (l.hear e).bind fun l => l.hearAll es

variable {l l' : Listener} {es fs : List Emission}

theorem hearAll_append (h : l.hearAll es = some l') : l.hearAll (es ++ fs) = l'.hearAll fs := by
  induction es generalizing l with
  | nil =>
    cases h
    rfl
  | cons e es ih =>
    obtain ⟨l₁, first, rest⟩ := Option.bind_eq_some_iff.1 h
    rw [List.cons_append, hearAll, first]
    exact ih rest

theorem hearAll_singleton (e : Emission) : l.hearAll [e] = l.hear e := by
  rw [hearAll]
  cases l.hear e <;> rfl

/-- While an instruction is under way, the program can print. -/
theorem hearAll_outputs (busy : l.announced.isSome = true)
    (outputs : ∀ e ∈ es, ∃ text, e = .output text) : l.hearAll es = some l := by
  induction es with
  | nil => rfl
  | cons e es ih =>
    obtain ⟨text, rfl⟩ := outputs e List.mem_cons_self
    have first : l.hear (.output text) = some l := if_pos busy
    rw [hearAll, first]
    exact ih fun e he => outputs e (List.mem_cons_of_mem _ he)

end Listener

namespace Machine

/-! ### Machines and their listeners -/

/-- The names of the active functions, the innermost first. -/
def activeNames (m : Machine) : List (Option String) :=
  (m.frames.map Frame.function).map fun index => (m.image.function? index).map Code.Function.name

/-- What is said about an instruction. -/
def instructionPayload (m : Machine) (f : Code.Function) (index : Nat) (i : Code.Instruction) :
    Payload := .instruction f.name index i.op.text i.location m.depth

/-- What a listener knows is true of the machine. -/
structure Informed (l : Listener) (m : Machine) : Prop where
  names : m.activeNames = l.entered.map some
  depth : m.stepper.depth = m.frames.length
  silent : m.resuming = false → l.announced = none
  announced : m.resuming = true → ∃ c i, m.pending? = some (c, i) ∧
    l.announced = some (m.instructionPayload c.function c.index i)

variable {l l' : Listener} {m m' : Machine} {a : Advance}

theorem Informed.depth_eq (h : Informed l m) : m.stepper.depth = l.entered.length := by
  have length := congrArg List.length h.names
  unfold activeNames at length
  simp only [List.length_map] at length
  rw [h.depth, length]

/-- What was sent told a listener how the machine has moved: either the run goes on and the listener
is informed, or the last message was that of the end.  A run that ends with a number has left all
functions, and executed all instructions that were announced. -/
inductive Advance.Tells (l : Listener) (a : Advance) : Prop where
  | goesOn (l' : Listener) (heard : l.hearAll a.emitted = some l')
      (informed : Informed l' a.machine) (started : a.machine.Started)
      (going : ∀ status, a.outcome ≠ some (.exited status))
  | ends (l' : Listener) (body : List Emission) (status : ExitStatus)
      (emitted : a.emitted = body ++ [send .programExit (.exit status)])
      (heard : l.hearAll body = some l') (closed : ∀ n, status = .code n → l' = {})
      (phase : a.machine.phase = .done status) (outcome : a.outcome = some (.exited status))

theorem Advance.Tells.after {sent : List Emission} (first : l.hearAll sent = some l')
    (h : a.Tells l') : (a.after sent).Tells l := by
  cases h with
  | goesOn l'' heard informed started going =>
    exact .goesOn l'' ((Listener.hearAll_append first).trans heard) informed started going
  | ends l'' body status emitted heard closed phase outcome =>
    refine .ends l'' (sent ++ body) status ?_ ((Listener.hearAll_append first).trans heard) closed phase
      outcome
    change sent ++ a.emitted = _
    rw [emitted, List.append_assoc]

/-! ### Ends of a run -/

theorem exit_tells {status : ExitStatus} (closed : ∀ n, status = .code n → l = {}) :
    (m.exit status).Tells l :=
  .ends l [] status rfl rfl closed rfl rfl

theorem fail_tells (e : RuntimeError) : (m.fail e).Tells l := exit_tells nofun

/-! ### Calls and returns -/

theorem enter_tells (h : Informed l m) (active : m.resuming = false) (started : m.Started)
    {index : Nat} {f : Code.Function} (hf : m.image.function? index = some f) (args : List Value) :
    (m.enter index f args).Tells l := by
  refine .goesOn { l with entered := f.name :: l.entered } ?_ ⟨?_, ?_, fun _ => h.silent active, ?_⟩
    started nofun
  · have depth : m.stepper.enter.depth = l.entered.length + 1 := congrArg (· + 1) h.depth_eq
    exact (Listener.hearAll_singleton _).trans (if_pos ⟨h.silent active, depth⟩)
  · have first : (m.image.function? index).map Code.Function.name = some f.name := by
      rw [hf]
      rfl
    exact congrArg₂ List.cons first h.names
  · exact congrArg (· + 1) h.depth
  · intro resuming
    exact absurd (active.symm.trans resuming) nofun

theorem enterRoot_tells (h : Informed l m) (active : m.resuming = false) (started : m.Started)
    (index : Nat) : (m.enterRoot index).Tells l := by
  unfold enterRoot
  cases hf : m.image.function? index with
  | none => exact fail_tells _
  | some f =>
    dsimp only
    split
    · exact enter_tells h active started hf []
    · exact fail_tells _

/-- What is known does not depend on the phase. -/
theorem Informed.withPhase (h : Informed l m) (phase : Phase) : Informed l { m with phase } :=
  ⟨h.names, h.depth, h.silent, h.announced⟩

theorem enterEntry_tells (h : Informed l m) (active : m.resuming = false) :
    m.enterEntry.Tells l := by
  unfold enterEntry
  split
  · next entry _ =>
    exact enterRoot_tells (h.withPhase .entry) active (.inr rfl) entry
  · exact fail_tells _

theorem returnTo_tells (h : Informed l m) (active : m.resuming = false) (started : m.Started)
    (result : Option Value) : (m.returnTo result).Tells l := by
  unfold returnTo
  cases hframes : m.frames with
  | cons caller below =>
    refine .goesOn l rfl ⟨?_, ?_, h.silent, fun resuming => ?_⟩ started nofun
    · rw [← h.names]
      unfold activeNames
      rw [hframes]
      rfl
    · have depth := h.depth
      rw [hframes] at depth
      exact depth
    · exact absurd (active.symm.trans resuming) nofun
  | nil =>
    have nothing : l.entered = [] := by
      have names := h.names
      unfold activeNames at names
      rw [hframes] at names
      exact List.map_eq_nil_iff.1 names.symm
    have closed : l = {} := by
      obtain ⟨entered, announced⟩ := l
      cases nothing
      cases h.silent active
      rfl
    dsimp only
    split
    · exact enterEntry_tells h active
    · exact exit_tells fun _ _ => closed

theorem leave_tells (h : Informed l m) (active : m.resuming = false) (started : m.Started)
    (running : m.frames ≠ []) (result : Option Value) : (m.leave result).Tells l := by
  unfold leave
  cases hframes : m.frames with
  | nil => exact absurd hframes running
  | cons frame frames =>
    have names := h.names
    unfold activeNames at names
    rw [hframes, List.map_cons, List.map_cons] at names
    obtain ⟨name, below, hentered⟩ : ∃ name below, l.entered = name :: below :=
      List.exists_cons_of_ne_nil fun nothing => by
        rw [nothing] at names
        cases names
    rw [hentered, List.map_cons] at names
    obtain ⟨top, rest⟩ := List.cons.inj names
    dsimp only
    rw [top, Option.getD_some]
    have left : Informed { l with entered := below }
        { m with frames, stepper := m.stepper.leave } := by
      refine ⟨rest, ?_, fun _ => h.silent active, fun resuming => ?_⟩
      · have depth := h.depth
        rw [hframes] at depth
        exact congrArg (· - 1) depth
      · exact absurd (active.symm.trans resuming) nofun
    refine (returnTo_tells left active started result).after ?_
    rw [Listener.hearAll_singleton]
    refine (if_pos ⟨h.silent active, ?_, h.depth_eq⟩).trans ?_
    · rw [hentered]
      rfl
    · rw [hentered]
      rfl

theorem follow_tells (h : Informed l m) (active : m.resuming = false) (started : m.Started)
    (running : m.frames ≠ []) {flow : Flow}
    (known : ∀ index f args, flow = .enter index f args → m.image.function? index = some f) :
    (m.follow flow).Tells l := by
  cases flow with
  | next => exact .goesOn l rfl h started nofun
  | enter index f args => exact enter_tells h active started (known index f args rfl) args
  | leave result => exact leave_tells h active started running result

/-! ### Instructions -/

/-- What an operation does to the active functions and what it sends: the innermost function stays, and
so do those below; only texts are printed, and only functions of the image are called. -/
structure Effect.Stays (c : Context) (m : Machine) (e : Effect) : Prop where
  functions : e.machine.frames.map Frame.function = c.frame.function :: c.below.map Frame.function
  printed : ∀ emission ∈ e.printed, ∃ text, emission = .output text
  called : ∀ index f args, e.flow = .enter index f args → m.image.function? index = some f

theorem Context.execute_stays {c : Context} {op : Code.Op} {effect : Effect}
    (h : c.execute m op = .ok effect) : effect.Stays c m := by
  cases execute_does h with
  | goesOn operands next texts => exact ⟨rfl, texts, nofun⟩
  | enters operands args callee =>
    refine ⟨rfl, nofun, fun index f args same => ?_⟩
    cases same
    exact callee
  | setsLocal | setsGlobal | returnsValue | returns => exact ⟨rfl, nofun, nofun⟩

/-- The instruction that comes next, and what the machine looks like while it is executed. -/
theorem pending?_eq_some {c : Context} {i : Code.Instruction} (h : m.pending? = some (c, i)) :
    m.image.function? c.frame.function = some c.function ∧
      m.frames.map Frame.function = c.frame.function :: c.below.map Frame.function := by
  unfold pending? at h
  obtain ⟨frame, hframe, h⟩ := Option.bind_eq_some_iff.1 h
  obtain ⟨f, hf, h⟩ := Option.bind_eq_some_iff.1 h
  obtain ⟨j, hj, h⟩ := Option.bind_eq_some_iff.1 h
  split at h
  · cases h
  · cases h
    obtain ⟨below, hframes⟩ := List.head?_eq_some_iff.1 hframe
    refine ⟨hf, ?_⟩
    rw [hframes]
    rfl

/-- An instruction that was announced is executed. -/
theorem perform_tells {c : Context} {i : Code.Instruction}
    (names : m.activeNames = l.entered.map some) (depth : m.stepper.depth = m.frames.length)
    (active : m.resuming = false) (started : m.Started)
    (top : m.frames.map Frame.function = c.frame.function :: c.below.map Frame.function)
    (announced : l.announced = some (m.instructionPayload c.function c.index i)) :
    (m.perform c i).Tells l := by
  unfold perform
  cases hexecute : c.execute m i.op with
  | error e => exact fail_tells e
  | ok effect =>
    have keeps := Context.execute_keeps hexecute
    have stays := Context.execute_stays hexecute
    have functions := stays.functions.trans top.symm
    have running : effect.machine.frames ≠ [] := fun nothing => by
      have functions := stays.functions
      rw [nothing] at functions
      cases functions
    have informed : Informed { l with announced := none }
        { effect.machine with executed := effect.machine.executed + 1 } := by
      refine ⟨?_, ?_, fun _ => rfl, fun resuming => ?_⟩
      · rw [← names]
        change (effect.machine.frames.map Frame.function).map _ = _
        rw [functions, keeps.image]
        rfl
      · have length := congrArg List.length functions
        rw [List.length_map, List.length_map] at length
        change effect.machine.stepper.depth = effect.machine.frames.length
        rw [keeps.stepper, length, depth]
      · exact absurd ((keeps.resuming.trans active).symm.trans resuming) nofun
    refine (follow_tells informed (keeps.resuming.trans active) ?_ running ?_).after ?_
    · unfold Started at started ⊢
      rw [keeps.phase]
      exact started
    · intro index f args hflow
      rw [keeps.image]
      exact stays.called index f args hflow
    · have busy : l.announced.isSome = true := by
        rw [announced]
        rfl
      rw [Listener.hearAll_append (Listener.hearAll_outputs busy stays.printed),
        Listener.hearAll_singleton]
      refine if_pos ?_
      rw [announced]
      unfold instructionPayload Machine.depth
      rw [keeps.stepper]

/-! ### Steps -/

theorem checkAndPerform_tells {c : Context} {i : Code.Instruction} (h : Informed l m)
    (active : m.resuming = false) (started : m.Started) (next : m.pending? = some (c, i)) :
    (m.checkAndPerform c i).Tells l := by
  obtain ⟨hf, top⟩ := pending?_eq_some next
  have innermost : l.entered.head? = some c.function.name := by
    have names := h.names
    unfold activeNames at names
    rw [top, List.map_cons, hf] at names
    cases hentered : l.entered with
    | nil =>
      rw [hentered] at names
      cases names
    | cons name below =>
      rw [hentered, List.map_cons] at names
      exact (List.cons.inj names).1.symm
  have heard : l.hearAll [m.instructionMessage .onInstruction c.function c.index i] =
      some { l with announced := some (m.instructionPayload c.function c.index i) } :=
    (Listener.hearAll_singleton _).trans (if_pos ⟨h.silent active, innermost, h.depth_eq⟩)
  have checked := (m.stepper.check_checked i.location.line).depth
  cases hcheck : (m.stepper.check i.location.line).1 with
  | some reason =>
    obtain ⟨position, suspended⟩ := checkAndPerform_of_some (c := c) hcheck
    rw [suspended]
    refine .goesOn _ heard ⟨h.names, checked.trans h.depth, nofun, fun _ => ⟨c, i, next, ?_⟩⟩ started
      nofun
    unfold instructionPayload Machine.depth
    rw [checked]
  | none =>
    rw [checkAndPerform_of_none hcheck]
    refine Advance.Tells.after heard (perform_tells h.names (checked.trans h.depth) active started top
      (congrArg some ?_))
    unfold instructionPayload Machine.depth
    rw [checked]

/-- Told to stop before an instruction, the run ends. -/
theorem step_true_of_pending {c : Context} {i : Code.Instruction} (h : m.pending? = some (c, i)) :
    m.step true = m.exit .stopped := by
  unfold pending? at h
  obtain ⟨frame, hframe, h⟩ := Option.bind_eq_some_iff.1 h
  obtain ⟨f, hf, h⟩ := Option.bind_eq_some_iff.1 h
  obtain ⟨j, hj, h⟩ := Option.bind_eq_some_iff.1 h
  obtain ⟨below, hframes⟩ := List.head?_eq_some_iff.1 hframe
  split at h
  · cases h
  · next hlabel =>
    unfold step
    rw [hframes]
    dsimp only
    rw [hf]
    dsimp only
    rw [hj]
    dsimp only
    rw [if_neg hlabel, if_pos rfl]

/-- A machine with a listener that stands before no instruction is not suspended. -/
theorem Informed.active (h : Informed l m) (hp : m.pending? = none) : m.resuming = false := by
  cases hr : m.resuming with
  | false => rfl
  | true =>
    obtain ⟨c, i, next, _⟩ := h.announced hr
    rw [hp] at next
    cases next

theorem step_tells_of_not_pending (h : Informed l m) (started : m.Started) (hp : m.pending? = none)
    (stop : Bool) : (m.step stop).Tells l := by
  have active := h.active hp
  unfold pending? at hp
  unfold step
  cases hframes : m.frames with
  | nil =>
    refine exit_tells fun _ _ => ?_
    have names := h.names
    unfold activeNames at names
    rw [hframes] at names
    obtain ⟨entered, announced⟩ := l
    cases List.map_eq_nil_iff.1 names.symm
    cases h.silent active
    rfl
  | cons frame below =>
    have running : m.frames ≠ [] := by
      rw [hframes]
      nofun
    dsimp only
    cases hf : m.image.function? frame.function with
    | none => exact fail_tells _
    | some f =>
      dsimp only
      cases hi : f.code[frame.next]? with
      | none => exact leave_tells h active started running none
      | some i =>
        dsimp only
        by_cases label : i.op.isLabel = true
        · rw [if_pos label]
          refine .goesOn l rfl ⟨?_, ?_, h.silent, fun resuming => ?_⟩ started nofun
          · rw [← h.names]
            unfold activeNames
            rw [hframes]
            rfl
          · have depth := h.depth
            rw [hframes] at depth
            exact depth
          · exact absurd (active.symm.trans resuming) nofun
        · simp [hframes, hf, hi, label] at hp

/-- Whatever step the machine takes, what it sends fits what the listener knows, and keeps the listener
informed until the run ends. -/
theorem step_tells (h : Informed l m) (started : m.Started) (stop : Bool) :
    (m.step stop).Tells l := by
  cases hp : m.pending? with
  | none => exact step_tells_of_not_pending h started hp stop
  | some pending =>
    obtain ⟨c, i⟩ := pending
    cases stop with
    | true =>
      rw [step_true_of_pending hp]
      exact exit_tells nofun
    | false =>
      rw [step_eq_of_pending hp]
      cases hr : m.resuming with
      | false =>
        rw [if_neg Bool.false_ne_true]
        exact checkAndPerform_tells h hr started hp
      | true =>
        rw [if_pos rfl]
        obtain ⟨c', i', next, announced⟩ := h.announced hr
        cases hp.symm.trans next
        exact perform_tells (m := { m with resuming := false }) h.names h.depth rfl started
          (pending?_eq_some hp).2 announced

/-! ### Runs -/

/-- What is known does not depend on how far the run is to go. -/
theorem Informed.withStepper (h : Informed l m) (stepper : Stepper)
    (depth : stepper.depth = m.stepper.depth) : Informed l { m with stepper } := by
  refine ⟨h.names, depth.trans h.depth, h.silent, fun resuming => ?_⟩
  obtain ⟨c, i, next, announced⟩ := h.announced resuming
  refine ⟨c, i, next, announced.trans ?_⟩
  unfold instructionPayload Machine.depth
  rw [depth]

/-- A machine that is driven on keeps its listener informed until the run ends, whenever it is told to
stop.  What was sent `earlier` is none of the listener's business. -/
theorem driveUnder_tells : ∀ (fuel : Nat) {m : Machine} {l₀ l : Listener} {sent : Array Emission}
    {earlier body : List Emission} (stops : Nat → Bool), Informed l m → m.Started →
    sent.toList = earlier ++ body → l₀.hearAll body = some l →
    ∃ m' sent' o body', m.driveUnder stops fuel sent = (m', sent', o) ∧
      sent'.toList = earlier ++ body' ∧ Advance.Tells l₀ ⟨m', body', some o⟩
  | 0, m, _, l, sent, _, body, _, informed, started, hsent, heard =>
    ⟨m, sent, .unfinished, body, rfl, hsent, .goesOn l heard informed started nofun⟩
  | fuel + 1, m, l₀, l, sent, earlier, body, stops, informed, started, hsent, heard => by
    have told := step_tells informed started (stops 0)
    rw [driveUnder]
    generalize m.step (stops 0) = a at told ⊢
    have total : (sent ++ a.emitted).toList = earlier ++ (body ++ a.emitted) := by
      rw [Array.toList_appendList, hsent, List.append_assoc]
    cases ho : a.outcome with
    | none =>
      cases told with
      | goesOn l' heard' informed' started' _ =>
        refine driveUnder_tells fuel (fun n => stops (n + 1)) informed' started' total ?_
        rw [Listener.hearAll_append heard]
        exact heard'
      | ends _ _ _ _ _ _ _ outcome =>
        rw [ho] at outcome
        cases outcome
    | some o =>
      refine ⟨a.machine, sent ++ a.emitted, o, body ++ a.emitted, rfl, total, ?_⟩
      rw [← ho]
      exact told.after heard

/-! ### What is sent of a program -/

/-- A machine that has not been started. -/
structure Unstarted (m : Machine) : Prop where
  phase : m.phase = .idle
  frames : m.frames = []
  depth : m.stepper.depth = 0
  resuming : m.resuming = false

/-- The message that a program starts. -/
def startMessage (m : Machine) : Emission :=
  send .programStart (.program m.image.program.name m.entryName)

/-- What has been sent of a program tells all of its run: that it was started, then what a listener
hears, and at last how it ended. -/
inductive Narrates (m : Machine) : List Emission → Prop where
  | unstarted (h : m.Unstarted) : Narrates m []
  | running {start : Emission} {body : List Emission} {l : Listener}
      (starts : ∃ name entry, start = send .programStart (.program name entry))
      (heard : ({} : Listener).hearAll body = some l) (informed : Informed l m)
      (started : m.Started) : Narrates m (start :: body)
  | ended {start : Emission} {body : List Emission} {l : Listener} {status : ExitStatus}
      (starts : ∃ name entry, start = send .programStart (.program name entry))
      (heard : ({} : Listener).hearAll body = some l) (closed : ∀ n, status = .code n → l = {})
      (phase : m.phase = .done status) :
      Narrates m (start :: body ++ [send .programExit (.exit status)])

theorem Advance.Tells.narrates {start : Emission} {body : List Emission}
    (starts : ∃ name entry, start = send .programStart (.program name entry))
    (heard : ({} : Listener).hearAll body = some l) (h : a.Tells l) :
    a.machine.Narrates (start :: (body ++ a.emitted)) := by
  cases h with
  | goesOn l' heard' informed started going =>
    exact .running starts ((Listener.hearAll_append heard).trans heard') informed started
  | ends l' body' status emitted heard' closed phase outcome =>
    rw [emitted, ← List.append_assoc, ← List.cons_append]
    exact .ended starts ((Listener.hearAll_append heard).trans heard') closed phase

theorem Started.not_finished (h : m.Started) : m.isFinished = false := by
  unfold isFinished
  obtain h | h := h <;> rw [h]

theorem Advance.Tells.exited_iff {m : Machine} {sent : List Emission} {o : Outcome}
    (h : Advance.Tells l ⟨m, sent, some o⟩) :
    (∃ status, o = .exited status) ↔ m.isFinished = true := by
  cases h with
  | goesOn _ _ _ started going =>
    have running := started.not_finished
    dsimp only at running going
    rw [running]
    refine ⟨fun ⟨status, exited⟩ => absurd (congrArg some exited) (going status), nofun⟩
  | ends _ _ status _ _ _ phase outcome =>
    cases outcome
    refine ⟨fun _ => ?_, fun _ => ⟨status, rfl⟩⟩
    unfold isFinished
    dsimp only at phase
    rw [phase]

theorem informed_of_unstarted (h : m.Unstarted) (phase : Phase) :
    Informed {} { m with phase } := by
  refine ⟨?_, ?_, fun _ => rfl, fun resuming => ?_⟩
  · unfold activeNames
    rw [h.frames]
    rfl
  · rw [h.depth, h.frames]
    rfl
  · exact absurd (h.resuming.symm.trans resuming) nofun

/-- A run begins with the message that the program starts. -/
theorem start_tells (h : m.Unstarted) : ∃ a : Advance, m.start = a.after [m.startMessage] ∧
    a.Tells {} := by
  refine ⟨_, rfl, ?_⟩
  split
  · exact fail_tells _
  · exact enterRoot_tells (informed_of_unstarted h .init) h.resuming (.inl rfl) _
  · exact enterEntry_tells (informed_of_unstarted h m.phase) h.resuming

/-- A run that is started or resumed goes on to tell all of it, whenever it is told to stop. -/
theorem resumeUnder_narrates {program : List Emission} (h : m.Narrates program)
    (unfinished : m.isFinished = false) (mode : Mode) (stops : Nat → Bool) (fuel : Nat) :
    ∃ m' sent o, m.resumeUnder mode stops fuel = (m', sent, o) ∧
      m'.Narrates (program ++ sent.toList) ∧ program ++ sent.toList ≠ [] ∧
      ((∃ status, o = .exited status) ↔ m'.isFinished = true) := by
  cases h with
  | unstarted h =>
    obtain ⟨a, hstart, told⟩ := start_tells h
    have begun : m.begin = a.after [m.startMessage] := by
      unfold begin
      rw [h.phase]
      exact hstart
    have starts : ∃ name entry, m.startMessage = send .programStart (.program name entry) :=
      ⟨_, _, rfl⟩
    unfold resumeUnder
    rw [begun]
    obtain ⟨machine, emitted, outcome⟩ := a
    cases outcome with
    | some o =>
      exact ⟨_, _, o, rfl, told.narrates starts rfl, List.cons_ne_nil _ _, told.exited_iff⟩
    | none =>
      cases told with
      | ends _ _ _ _ _ _ _ outcome => cases outcome
      | goesOn l' heard informed started _ =>
        have resumed := informed.withStepper (machine.stepper.resume mode) rfl
        have split : (m.startMessage :: emitted).toArray.toList = [m.startMessage] ++ emitted := rfl
        obtain ⟨m', sent', o, body', hdrive, hsent, told'⟩ :=
          driveUnder_tells fuel stops resumed started split heard
        refine ⟨m', sent', o, hdrive, ?_, ?_, told'.exited_iff⟩
        · rw [hsent]
          exact told'.narrates starts rfl
        · rw [hsent]
          exact List.cons_ne_nil _ _
  | @running start body l starts heard informed started =>
    have resumed := informed.withStepper (m.stepper.resume mode) rfl
    have split : (#[] : Array Emission).toList = [] ++ [] := rfl
    obtain ⟨m', sent', o, body', hdrive, hsent, told⟩ :=
      driveUnder_tells fuel stops resumed started split rfl
    rw [resumeUnder_of_started started]
    refine ⟨m', sent', o, hdrive, ?_, List.cons_ne_nil _ _, told.exited_iff⟩
    rw [hsent]
    exact told.narrates starts heard
  | ended _ _ _ phase =>
    unfold isFinished at unfinished
    rw [phase] at unfinished
    cases unfinished

/-- What has been sent of a program does not depend on how far its run is to go. -/
theorem Narrates.withStepper {program : List Emission} (h : m.Narrates program) {stepper : Stepper}
    (depth : stepper.depth = m.stepper.depth) : Narrates { m with stepper } program := by
  cases h with
  | unstarted h => exact .unstarted ⟨h.phase, h.frames, depth.trans h.depth, h.resuming⟩
  | running starts heard informed started =>
    exact .running starts heard (informed.withStepper stepper depth) started
  | ended starts heard closed phase => exact .ended starts heard closed phase

theorem Narrates.phase_ne_idle {program : List Emission} (h : m.Narrates program)
    (nonempty : program ≠ []) : m.phase ≠ .idle := by
  cases h with
  | unstarted _ => exact absurd rfl nonempty
  | running _ _ _ started =>
    obtain phase | phase := started <;> rw [phase] <;> nofun
  | ended _ _ _ phase =>
    rw [phase]
    nofun

end Machine

end ScriptLang
