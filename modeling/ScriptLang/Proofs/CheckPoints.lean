import ScriptLang.Proofs.Listening

/-!
# Check points

The messages about functions and instructions tell which activations there are, each with the line
of its last check point (`Trail.hear`), and which check points the run passes (`Trail.points`).  A
step of the machine checks at most one instruction and then does one of few things to the
activations: it keeps them, calls a function, returns to the function below, begins the entry point
in place of the function that sets the globals, or ends the run (`Machine.step_treads`).
-/

namespace ScriptLang

open Machine (Emission Payload SuspendReason Stepper)

/-! ### Trails -/

/-- A function while it is active: how many were entered before it, and the line of its last check
point. -/
structure Activation where
  serial : Nat
  line : Option Nat := none
deriving DecidableEq

/-- How many functions were entered, and those active, the innermost first. -/
structure Trail where
  entered : Nat := 0
  active : List Activation := []
deriving DecidableEq

/-- The run comes to an instruction on a line; each of the activations is still at the line of its
last check point. -/
structure CheckPoint where
  active : List Activation
  line : Nat
deriving DecidableEq

namespace CheckPoint

/-- The number of active functions. -/
def depth (p : CheckPoint) : Nat := p.active.length

/-- The innermost function comes to a line that it was not at. -/
def Enters (p : CheckPoint) : Prop := p.active.head?.bind Activation.line ≠ some p.line

instance (p : CheckPoint) : Decidable p.Enters := inferInstanceAs (Decidable (_ ≠ _))

end CheckPoint

namespace Trail

def serials (t : Trail) : List Nat := t.active.map Activation.serial

def depth (t : Trail) : Nat := t.active.length

def enter (t : Trail) : Trail := ⟨t.entered + 1, ⟨t.entered, none⟩ :: t.active⟩

def leave (t : Trail) : Trail := { t with active := t.active.tail }

/-- The innermost function comes to a line. -/
def atLine (t : Trail) (line : Nat) : Trail :=
  match t.active with
  | a :: rest => { t with active := { a with line := some line } :: rest }
  | [] => t

/-- How the trail goes on with a message. -/
def hear (t : Trail) : Emission → Trail
  | .message ⟨.functionEntry, _⟩ => t.enter
  | .message ⟨.functionReturn, _⟩ => t.leave
  | .message ⟨.onInstruction, .instruction _ _ _ location _⟩ => t.atLine location.line
  | _ => t

def hearAll (t : Trail) (es : List Emission) : Trail := es.foldl hear t

/-- The check point that a message tells of. -/
def point? (t : Trail) : Emission → Option CheckPoint
  | .message ⟨.onInstruction, .instruction _ _ _ location _⟩ => some ⟨t.active, location.line⟩
  | _ => none

/-- The check points that messages tell of. -/
def points (t : Trail) : List Emission → List CheckPoint
  | [] => []
  | e :: es => (t.point? e).toList ++ (t.hear e).points es

variable {t : Trail} {es fs : List Emission}

theorem hearAll_append (t : Trail) (es fs : List Emission) :
    t.hearAll (es ++ fs) = (t.hearAll es).hearAll fs := List.foldl_append

theorem points_append (t : Trail) (es fs : List Emission) :
    t.points (es ++ fs) = t.points es ++ (t.hearAll es).points fs := by
  induction es generalizing t with
  | nil => rfl
  | cons e es ih =>
    rw [List.cons_append, points, points, ih, List.append_assoc]
    rfl

/-- Messages that tell nothing of functions or check points. -/
def Quiet (es : List Emission) : Prop := ∀ e ∈ es, ∀ t : Trail, t.hear e = t ∧ t.point? e = none

theorem Quiet.hearAll (h : Quiet es) (t : Trail) : t.hearAll es = t := by
  induction es with
  | nil => rfl
  | cons e es ih =>
    rw [Trail.hearAll, List.foldl_cons, (h e List.mem_cons_self t).1]
    exact ih fun e he => h e (List.mem_cons_of_mem _ he)

theorem Quiet.points (h : Quiet es) (t : Trail) : t.points es = [] := by
  induction es with
  | nil => rfl
  | cons e es ih =>
    rw [Trail.points, (h e List.mem_cons_self t).1, (h e List.mem_cons_self t).2]
    exact ih fun e he => h e (List.mem_cons_of_mem _ he)

@[simp] theorem serials_atLine (t : Trail) (line : Nat) : (t.atLine line).serials = t.serials := by
  rw [atLine]
  split
  · next found => rw [serials, serials, found]; rfl
  · rfl

@[simp] theorem entered_atLine (t : Trail) (line : Nat) : (t.atLine line).entered = t.entered := by
  rw [atLine]
  split <;> rfl

@[simp] theorem serials_enter (t : Trail) : t.enter.serials = t.entered :: t.serials := rfl

@[simp] theorem serials_leave (t : Trail) : t.leave.serials = t.serials.tail := List.map_tail

theorem length_serials (t : Trail) : t.serials.length = t.depth := List.length_map _

@[simp] theorem depth_atLine (t : Trail) (line : Nat) : (t.atLine line).depth = t.depth := by
  rw [← length_serials, serials_atLine, length_serials]

end Trail

namespace Machine

/-! ### Machines and their trails -/

/-- The trail is that of the machine. -/
structure Trailed (t : Trail) (m : Machine) : Prop where
  lines : m.stepper.lines = t.active.map Activation.line
  depth : m.stepper.depth = t.depth
  frames : m.frames.length = t.depth
  old : ∀ n ∈ t.serials, n < t.entered
  order : t.serials.Pairwise (· > ·)
  started : m.Started

variable {t : Trail} {m : Machine} {a : Advance}

theorem Trailed.withStepper (h : Trailed t m) {stepper : Stepper}
    (lines : stepper.lines = m.stepper.lines) (depth : stepper.depth = m.stepper.depth) :
    Trailed t { m with stepper } :=
  { h with lines := lines.trans h.lines, depth := depth.trans h.depth }

/-- What a move does to the activations.  A function is called only where `calls` allows it. -/
inductive Treads (calls : Bool) (t : Trail) (m : Machine) (a : Advance) : Prop where
  | ends (status : ExitStatus) (outcome : a.outcome = some (.exited status))
      (phase : a.machine.phase = .done status)
  | stays (outcome : a.outcome = none) (trail : t.hearAll a.emitted = t)
      (trailed : Trailed t a.machine) (stepper : a.machine.stepper = m.stepper)
      (phase : a.machine.phase = m.phase)
  | enters (may : calls = true) (outcome : a.outcome = none) (trail : t.hearAll a.emitted = t.enter)
      (trailed : Trailed t.enter a.machine) (stepper : a.machine.stepper = m.stepper.enter)
      (phase : a.machine.phase = m.phase)
  | leaves (below : t.leave.active ≠ []) (outcome : a.outcome = none)
      (trail : t.hearAll a.emitted = t.leave)
      (trailed : Trailed t.leave a.machine) (stepper : a.machine.stepper = m.stepper.leave)
      (phase : a.machine.phase = m.phase)
  | restarts (root : t.leave.active = []) (outcome : a.outcome = none)
      (trail : t.hearAll a.emitted = t.leave.enter) (trailed : Trailed t.leave.enter a.machine)
      (stepper : a.machine.stepper = m.stepper.leave.enter) (before : m.phase = .init)
      (phase : a.machine.phase = .entry)

/-- A move that checks no instruction, and after which none is announced. -/
structure Acts (calls : Bool) (t : Trail) (m : Machine) (a : Advance) : Prop where
  points : t.points a.emitted = []
  active : a.machine.resuming = false
  treads : Treads calls t m a

/-! ### Calls and returns -/

theorem fail_acts {calls : Bool} (e : RuntimeError) : Acts calls t m (m.fail e) :=
  ⟨rfl, rfl, .ends _ rfl rfl⟩

theorem exit_acts {calls : Bool} (status : ExitStatus) : Acts calls t m (m.exit status) :=
  ⟨rfl, rfl, .ends _ rfl rfl⟩

theorem Trailed.enter (h : Trailed t m) (index : Nat) (f : Code.Function) (args : List Value) :
    Trailed t.enter (m.enter index f args).machine where
  lines := congrArg (none :: ·) h.lines
  depth := congrArg (· + 1) h.depth
  frames := congrArg (· + 1) h.frames
  old := by
    intro n hn
    rcases List.mem_cons.1 hn with rfl | older
    · exact Nat.lt_succ_self _
    · exact Nat.lt_succ_of_lt (h.old n older)
  order := List.pairwise_cons.2 ⟨h.old, h.order⟩
  started := h.started

theorem Trailed.leave (h : Trailed t m) {frame : Frame} {below : List Frame}
    (frames : m.frames = frame :: below) :
    Trailed t.leave { m with frames := below, stepper := m.stepper.leave } where
  lines := by
    change m.stepper.lines.tail = _
    rw [h.lines, Trail.leave, List.map_tail]
  depth := by
    change m.stepper.depth - 1 = t.active.tail.length
    rw [h.depth, List.length_tail]
    rfl
  frames := by
    have length := h.frames
    rw [frames, List.length_cons] at length
    change below.length = t.active.tail.length
    rw [List.length_tail]
    exact Nat.eq_sub_of_add_eq length
  old := by
    intro n hn
    rw [Trail.serials_leave] at hn
    exact h.old n (List.mem_of_mem_tail hn)
  order := by
    rw [Trail.serials_leave]
    exact h.order.tail
  started := h.started

/-- The entry point begins when the function that sets the globals has returned. -/
theorem enterRoot_acts (h : Trailed t.leave m) (active : m.resuming = false) {m₀ : Machine}
    (root : t.leave.active = []) (stepper : m.stepper = m₀.stepper.leave)
    (before : m₀.phase = .init) (phase : m.phase = .entry) (name : String) (depth index : Nat) :
    Acts false t m₀ ((m.enterRoot index).after [send .functionReturn (.function name depth)]) := by
  unfold enterRoot
  split
  · exact ⟨rfl, rfl, .ends _ rfl rfl⟩
  · split
    · next f _ _ _ =>
      refine ⟨rfl, active, .restarts root rfl rfl (h.enter index f []) ?_ before phase⟩
      exact congrArg Stepper.enter stepper
    · exact ⟨rfl, rfl, .ends _ rfl rfl⟩

theorem leave_acts (h : Trailed t m) (active : m.resuming = false) (running : m.frames ≠ [])
    (result : Option Value) : Acts false t m (m.leave result) := by
  obtain ⟨frame, below, frames⟩ := List.exists_cons_of_ne_nil running
  have left := h.leave frames
  unfold Machine.leave
  rw [frames]
  dsimp only
  cases below with
  | cons caller below =>
    have lower : t.leave.active ≠ [] := List.ne_nil_of_length_pos (by
      rw [← Trail.depth, ← left.frames]
      exact Nat.succ_pos _)
    refine ⟨rfl, active, .leaves lower rfl rfl ?_ rfl rfl⟩
    exact { left with frames := left.frames }
  | nil =>
    have root : t.leave.active = [] := List.length_eq_zero_iff.1 left.frames.symm
    unfold returnTo
    dsimp only
    split
    · next before =>
      unfold enterEntry
      split
      · next entry _ =>
        have entered : Trailed t.leave
            { m with frames := [], stepper := m.stepper.leave, phase := .entry } :=
          { left with started := .inr rfl }
        exact enterRoot_acts entered active root rfl before rfl _ _ entry
      · exact ⟨rfl, rfl, .ends _ rfl rfl⟩
    · exact ⟨rfl, rfl, .ends _ rfl rfl⟩

/-! ### Instructions -/

/-- What may be done without a call may be done where calls are allowed. -/
theorem Acts.mayCall (h : Acts false t m a) : Acts true t m a where
  points := h.points
  active := h.active
  treads := by
    cases h.treads with
    | ends status outcome phase => exact .ends status outcome phase
    | stays outcome trail trailed stepper phase => exact .stays outcome trail trailed stepper phase
    | enters may => cases may
    | leaves below outcome trail trailed stepper phase =>
      exact .leaves below outcome trail trailed stepper phase
    | restarts root outcome trail trailed stepper before phase =>
      exact .restarts root outcome trail trailed stepper before phase

/-- Messages that tell nothing may come first. -/
theorem Acts.after {calls : Bool} {sent : List Emission} (quiet : Trail.Quiet sent)
    (h : Acts calls t m a) : Acts calls t m (a.after sent) := by
  have trail : t.hearAll (a.after sent).emitted = t.hearAll a.emitted := by
    change t.hearAll (sent ++ a.emitted) = _
    rw [Trail.hearAll_append, quiet.hearAll]
  refine ⟨?_, h.active, ?_⟩
  · change t.points (sent ++ a.emitted) = []
    rw [Trail.points_append, quiet.points, quiet.hearAll, h.points]
    rfl
  · cases h.treads with
    | ends status outcome phase => exact .ends status outcome phase
    | stays outcome same trailed stepper phase =>
      exact .stays outcome (trail.trans same) trailed stepper phase
    | enters may outcome same trailed stepper phase =>
      exact .enters may outcome (trail.trans same) trailed stepper phase
    | leaves below outcome same trailed stepper phase =>
      exact .leaves below outcome (trail.trans same) trailed stepper phase
    | restarts root outcome same trailed stepper before phase =>
      exact .restarts root outcome (trail.trans same) trailed stepper before phase

/-- Of the machine before a move only the stepper and the phase count. -/
theorem Acts.of_eq {calls : Bool} {m' : Machine} (h : Acts calls t m' a)
    (stepper' : m'.stepper = m.stepper) (phase' : m'.phase = m.phase) : Acts calls t m a where
  points := h.points
  active := h.active
  treads := by
    cases h.treads with
    | ends status outcome phase => exact .ends status outcome phase
    | stays outcome trail trailed stepper phase =>
      exact .stays outcome trail trailed (stepper.trans stepper') (phase.trans phase')
    | enters may outcome trail trailed stepper phase =>
      exact .enters may outcome trail trailed (stepper' ▸ stepper) (phase.trans phase')
    | leaves below outcome trail trailed stepper phase =>
      exact .leaves below outcome trail trailed (stepper' ▸ stepper) (phase.trans phase')
    | restarts root outcome trail trailed stepper before phase =>
      exact .restarts root outcome trail trailed (stepper' ▸ stepper) (phase' ▸ before) phase

theorem follow_acts (h : Trailed t m) (active : m.resuming = false) (running : m.frames ≠ [])
    (flow : Flow) : Acts true t m (m.follow flow) := by
  cases flow with
  | next => exact ⟨rfl, active, .stays rfl rfl h rfl rfl⟩
  | enter index f args => exact ⟨rfl, active, .enters rfl rfl rfl (h.enter index f args) rfl rfl⟩
  | leave result => exact (leave_acts h active running result).mayCall

theorem quiet_performed {printed : List Emission}
    (outputs : ∀ e ∈ printed, ∃ text, e = .output text) (c : Context) (i : Code.Instruction) :
    Trail.Quiet (printed ++ [m.instructionMessage .afterInstruction c.function c.index i]) := by
  intro e he t
  rcases List.mem_append.1 he with output | after
  · obtain ⟨text, rfl⟩ := outputs e output
    exact ⟨rfl, rfl⟩
  · rw [List.mem_singleton.1 after]
    exact ⟨rfl, rfl⟩

/-- An instruction is executed: it may call a function or end the innermost one. -/
theorem perform_acts {c : Context} {i : Code.Instruction} (h : Trailed t m)
    (active : m.resuming = false)
    (top : m.frames.map Frame.function = c.frame.function :: c.below.map Frame.function) :
    Acts true t m (m.perform c i) := by
  unfold perform
  cases executed : c.execute m i.op with
  | error e => exact fail_acts e
  | ok effect =>
    have keeps := Context.execute_keeps executed
    have stays := Context.execute_stays executed
    have functions := stays.functions.trans top.symm
    have running : effect.machine.frames ≠ [] := fun nothing => by
      have functions := stays.functions
      rw [nothing] at functions
      cases functions
    have frames := congrArg List.length functions
    rw [List.length_map, List.length_map] at frames
    have trailed : Trailed t { effect.machine with executed := effect.machine.executed + 1 } :=
      { h with
        lines := by rw [← h.lines]; exact congrArg Stepper.lines keeps.stepper
        depth := by rw [← h.depth]; exact congrArg Stepper.depth keeps.stepper
        frames := frames.trans h.frames
        started := by
          unfold Started
          rw [keeps.phase]
          exact h.started }
    exact ((follow_acts trailed (keeps.resuming.trans active) running effect.flow).after
      (quiet_performed stays.printed c i)).of_eq keeps.stepper keeps.phase

/-! ### Steps -/

/-- The check point at an instruction. -/
def pointAt (t : Trail) (i : Code.Instruction) : CheckPoint := ⟨t.active, i.location.line⟩

/-- The machine as it is when an instruction has been checked. -/
def checked (m : Machine) (i : Code.Instruction) : Machine :=
  { m with stepper := (m.stepper.check i.location.line).2 }

/-- What a step does: it passes over what is no instruction, ends the run on request, executes the
instruction that was announced when the run was suspended, or checks one, which suspends the run or
lets it be executed. -/
inductive Steps (t : Trail) (m : Machine) (a : Advance) : Prop where
  | quiet (active : m.resuming = false) (acts : Acts false t m a)
  | stopped (points : t.points a.emitted = []) (outcome : a.outcome = some (.exited .stopped))
      (phase : a.machine.phase = .done .stopped)
  | resumes (resuming : m.resuming = true) (acts : Acts true t m a)
  | passes (i : Code.Instruction) (active : m.resuming = false)
      (reason : (m.stepper.check i.location.line).1 = none)
      (b : Advance) (acts : Acts true (t.atLine i.location.line) (m.checked i) b)
      (outcome : a.outcome = b.outcome) (machine : a.machine = b.machine)
      (points : t.points a.emitted = [pointAt t i])
      (trail : t.hearAll a.emitted = (t.atLine i.location.line).hearAll b.emitted)
  | suspends (i : Code.Instruction) (active : m.resuming = false) (reason : SuspendReason)
      (position : Position) (here : position.depth = t.depth ∧ position.location = i.location)
      (due : (m.stepper.check i.location.line).1 = some reason)
      (outcome : a.outcome = some (.suspended reason position))
      (machine : a.machine = { m.checked i with resuming := true }) (standing : a.machine.Standing)
      (points : t.points a.emitted = [pointAt t i])
      (trail : t.hearAll a.emitted = t.atLine i.location.line)

theorem quiet_acts (h : Trailed t m) (active : m.resuming = false) (nothing : m.pending? = none)
    (stop : Bool) : Acts false t m (m.step stop) := by
  unfold pending? at nothing
  unfold step
  cases frames : m.frames with
  | nil => exact exit_acts _
  | cons frame below =>
    dsimp only
    cases function : m.image.function? frame.function with
    | none => exact fail_acts _
    | some f =>
      dsimp only
      cases here : f.code[frame.next]? with
      | none =>
        have running : m.frames ≠ [] := by
          rw [frames]
          exact List.cons_ne_nil _ _
        exact leave_acts h active running none
      | some i =>
        dsimp only
        by_cases label : i.op.isLabel = true
        · rw [if_pos label]
          refine ⟨rfl, active, .stays rfl rfl { h with frames := ?_ } rfl rfl⟩
          have length := h.frames
          rw [frames] at length
          exact length
        · simp [frames, function, here, label] at nothing

theorem Trailed.atLine (h : Trailed t m) (i : Code.Instruction) :
    Trailed (t.atLine i.location.line) (m.checked i) where
  lines := by
    have lines := h.lines
    obtain ⟨entered, active⟩ := t
    unfold checked Stepper.check Stepper.atLine Trail.atLine
    cases active with
    | nil =>
      rw [lines]
      exact lines
    | cons a rest =>
      rw [lines]
      rfl
  depth := by
    rw [Trail.depth_atLine, ← h.depth]
    exact (m.stepper.check_checked i.location.line).depth
  frames := by
    rw [Trail.depth_atLine, ← h.frames]
    rfl
  old := by
    rw [Trail.serials_atLine, Trail.entered_atLine]
    exact h.old
  order := by
    rw [Trail.serials_atLine]
    exact h.order
  started := h.started

/-- An instruction is announced, and then the run is suspended or the instruction executed. -/
theorem checkAndPerform_steps (h : Trailed t m) (active : m.resuming = false) {c : Context}
    {i : Code.Instruction} (next : m.pending? = some (c, i)) :
    Steps t m (m.checkAndPerform c i) := by
  cases due : (m.stepper.check i.location.line).1 with
  | none =>
    rw [checkAndPerform_of_none due]
    have performed := perform_acts (c := c) (i := i) (h.atLine i) active (pending?_eq_some next).2
    refine .passes i active due _ performed rfl rfl ?_ rfl
    exact congrArg (pointAt t i :: ·) performed.points
  | some reason =>
    unfold checkAndPerform
    dsimp only
    rw [due]
    refine .suspends i active reason _ ⟨?_, rfl⟩ due rfl rfl (fun _ => ⟨c, i, next⟩) rfl rfl
    exact (m.stepper.check_checked i.location.line).depth.trans h.depth

/-- Every step of a machine with its trail is of one of five kinds. -/
theorem step_treads (h : Trailed t m) (standing : m.Standing) (stop : Bool) :
    Steps t m (m.step stop) := by
  cases next : m.pending? with
  | none =>
    have active : m.resuming = false := by
      cases resuming : m.resuming with
      | false => rfl
      | true =>
        obtain ⟨c, i, there⟩ := standing resuming
        cases next.symm.trans there
    exact .quiet active (quiet_acts h active next stop)
  | some pending =>
    obtain ⟨c, i⟩ := pending
    cases stop with
    | true =>
      rw [step_true_of_pending next]
      exact .stopped rfl rfl rfl
    | false =>
      rw [step_eq_of_pending next]
      cases resuming : m.resuming with
      | false =>
        rw [if_neg Bool.false_ne_true]
        exact checkAndPerform_steps h resuming next
      | true =>
        rw [if_pos rfl]
        have performed : Acts true t { m with resuming := false }
            (perform { m with resuming := false } c i) :=
          perform_acts { h with } rfl (pending?_eq_some next).2
        exact .resumes resuming (performed.of_eq rfl rfl)

/-! ### Runs -/

theorem Treads.trailed {calls : Bool} (h : Treads calls t m a) :
    (∃ status, a.outcome = some (.exited status) ∧ a.machine.phase = .done status) ∨
      a.outcome = none ∧ Trailed (t.hearAll a.emitted) a.machine := by
  cases h with
  | ends status outcome phase => exact .inl ⟨status, outcome, phase⟩
  | stays outcome trail trailed => exact .inr ⟨outcome, trail.symm ▸ trailed⟩
  | enters may outcome trail trailed => exact .inr ⟨outcome, trail.symm ▸ trailed⟩
  | leaves below outcome trail trailed => exact .inr ⟨outcome, trail.symm ▸ trailed⟩
  | restarts root outcome trail trailed => exact .inr ⟨outcome, trail.symm ▸ trailed⟩

theorem Treads.trailed_on {calls : Bool} (h : Treads calls t m a) (goesOn : a.outcome = none) :
    Trailed (t.hearAll a.emitted) a.machine := by
  rcases h.trailed with ⟨status, exited, -⟩ | ⟨-, trailed⟩
  · cases goesOn.symm.trans exited
  · exact trailed

/-- Until a step ends the run, the machine has its trail. -/
theorem Steps.trailed (h : Trailed t m) (steps : Steps t m a) :
    (∃ status, a.outcome = some (.exited status) ∧ a.machine.phase = .done status) ∨
      Trailed (t.hearAll a.emitted) a.machine ∧ a.machine.Standing := by
  cases steps with
  | quiet active acts | resumes resuming acts =>
    exact acts.treads.trailed.imp_right fun h => ⟨h.2, standing_of_not_resuming acts.active⟩
  | stopped points outcome phase => exact .inl ⟨.stopped, outcome, phase⟩
  | passes i active reason b acts outcome machine points trail =>
    rw [outcome, machine, trail]
    exact acts.treads.trailed.imp_right fun h => ⟨h.2, standing_of_not_resuming acts.active⟩
  | suspends i active reason position here due outcome machine standing points trail =>
    refine .inr ⟨?_, standing⟩
    rw [trail, machine]
    exact { h.atLine i with }

theorem Steps.trailed_on (h : Trailed t m) (steps : Steps t m a) (goesOn : a.outcome = none) :
    Trailed (t.hearAll a.emitted) a.machine ∧ a.machine.Standing := by
  rcases steps.trailed h with ⟨status, exited, -⟩ | kept
  · cases goesOn.symm.trans exited
  · exact kept

/-- A run comes to an end of the kind to which each of its steps either leads or keeps the course. -/
theorem driveUnder_course {t₀ : Trail} (Course : List CheckPoint → Trail → Machine → Prop)
    (Ends : Machine → List CheckPoint → Outcome → Prop)
    (unfinished : ∀ {ps t m}, Course ps t m → Ends m ps .unfinished)
    (step : ∀ {ps t m}, Course ps t m → ∀ stop, let a := step stop m
      (∃ o, a.outcome = some o ∧ Ends a.machine (ps ++ t.points a.emitted) o) ∨
        a.outcome = none ∧ Course (ps ++ t.points a.emitted) (t.hearAll a.emitted) a.machine) :
    ∀ (fuel : Nat) {t : Trail} {m : Machine} {ps : List CheckPoint} {sent : Array Emission}
      (stops : Nat → Bool), t₀.hearAll sent.toList = t → t₀.points sent.toList = ps →
      Course ps t m →
      let r := m.driveUnder stops fuel sent
      Ends r.1 (t₀.points r.2.1.toList) r.2.2
  | 0, _, _, _, _, _, _, points, h => by
    subst points
    exact unfinished h
  | fuel + 1, t, m, ps, sent, stops, trail, points, h => by
    have stepped := step h (stops 0)
    have trail' : t₀.hearAll (sent ++ (m.step (stops 0)).emitted).toList =
        t.hearAll (m.step (stops 0)).emitted := by
      rw [Array.toList_appendList, Trail.hearAll_append, trail]
    have points' : t₀.points (sent ++ (m.step (stops 0)).emitted).toList =
        ps ++ t.points (m.step (stops 0)).emitted := by
      rw [Array.toList_appendList, Trail.points_append, trail, points]
    rw [Machine.driveUnder]
    rcases stepped with ⟨o, outcome, ended⟩ | ⟨goesOn, next⟩
    · rw [outcome]
      dsimp only
      rwa [points']
    · rw [goesOn]
      exact driveUnder_course Course Ends unfinished step fuel _ trail' points' next

/-- What has been sent of a program: nothing before it starts; while it runs, what makes up the
trail of the machine. -/
inductive Recorded (sent : List Emission) (m : Machine) : Prop where
  | unstarted (nothing : sent = []) (unstarted : m.Unstarted) (lines : m.stepper.lines = [])
  | running (trailed : Trailed (({} : Trail).hearAll sent) m) (standing : m.Standing)
  | ended (status : ExitStatus) (phase : m.phase = .done status)

theorem driveUnder_recorded (program : List Emission) : ∀ (fuel : Nat) {m : Machine}
    {sent : Array Emission} (stops : Nat → Bool),
    Trailed (({} : Trail).hearAll (program ++ sent.toList)) m → m.Standing →
    Recorded (program ++ (m.driveUnder stops fuel sent).2.1.toList) (m.driveUnder stops fuel sent).1
  | 0, _, _, _, trailed, standing => .running trailed standing
  | fuel + 1, m, sent, stops, trailed, standing => by
    have stepped := (step_treads trailed standing (stops 0)).trailed trailed
    have total : program ++ (sent ++ (m.step (stops 0)).emitted).toList =
        program ++ sent.toList ++ (m.step (stops 0)).emitted := by
      rw [Array.toList_appendList, List.append_assoc]
    rw [← Trail.hearAll_append, ← total] at stepped
    rw [driveUnder]
    cases outcome : (m.step (stops 0)).outcome with
    | none =>
      rcases stepped with ⟨status, exited, -⟩ | ⟨trailed, standing⟩
      · cases outcome.symm.trans exited
      · exact driveUnder_recorded program fuel _ trailed standing
    | some o =>
      rcases stepped with ⟨status, -, phase⟩ | ⟨trailed, standing⟩
      · exact .ended status phase
      · exact .running trailed standing

/-- Before a program starts no function is active. -/
theorem trailed_unstarted (h : m.Unstarted) (lines : m.stepper.lines = []) {phase : Phase}
    (started : phase = .init ∨ phase = .entry) : Trailed {} { m with phase } where
  lines := lines
  depth := h.depth
  frames := congrArg List.length h.frames
  old := nofun
  order := .nil
  started := started

theorem enterRoot_recorded (h : Trailed {} m) (active : m.resuming = false) (index : Nat) :
    (∃ status, (m.enterRoot index).outcome = some (.exited status) ∧
        (m.enterRoot index).machine.phase = .done status) ∨
      Trailed (({} : Trail).hearAll (m.enterRoot index).emitted) (m.enterRoot index).machine ∧
        (m.enterRoot index).machine.Standing := by
  unfold enterRoot
  split
  · exact .inl ⟨_, rfl, rfl⟩
  · split
    · next f _ _ _ =>
      exact .inr ⟨h.enter index f [], standing_of_not_resuming active⟩
    · exact .inl ⟨_, rfl, rfl⟩

theorem start_recorded (h : m.Unstarted) (lines : m.stepper.lines = []) :
    (∃ status, m.start.outcome = some (.exited status) ∧ m.start.machine.phase = .done status) ∨
      Trailed (({} : Trail).hearAll m.start.emitted) m.start.machine ∧
        m.start.machine.Standing := by
  have root (phase : Phase) (started : phase = .init ∨ phase = .entry) (index : Nat) :=
    enterRoot_recorded (trailed_unstarted h lines started) h.resuming index
  unfold start
  split
  · exact .inl ⟨_, rfl, rfl⟩
  · exact root .init (.inl rfl) _
  · unfold enterEntry
    split
    · exact root .entry (.inr rfl) _
    · exact .inl ⟨_, rfl, rfl⟩

/-- Neither what a run is to do nor where its breakpoints are counts for its trail. -/
theorem Recorded.withStepper {sent : List Emission} (h : Recorded sent m) {stepper : Stepper}
    (lines : stepper.lines = m.stepper.lines) (depth : stepper.depth = m.stepper.depth) :
    Recorded sent { m with stepper } := by
  cases h with
  | unstarted nothing unstarted none =>
    exact .unstarted nothing { unstarted with depth := depth.trans unstarted.depth }
      (lines.trans none)
  | running trailed standing => exact .running (trailed.withStepper lines depth) standing
  | ended status phase => exact .ended status phase

/-- What comes before the first step ends the run or leads to a trail. -/
theorem Recorded.begins {program : List Emission} (h : Recorded program m) :
    (∃ status, m.begin.outcome = some (.exited status) ∧ m.begin.machine.phase = .done status) ∨
      Trailed (({} : Trail).hearAll (program ++ m.begin.emitted)) m.begin.machine ∧
        m.begin.machine.Standing := by
  cases h with
  | unstarted nothing unstarted lines =>
    have begun : m.begin = m.start := by rw [begin, unstarted.phase]
    rw [nothing, begun]
    exact start_recorded unstarted lines
  | running trailed standing =>
    rw [begin_of_started trailed.started, List.append_nil]
    exact .inr ⟨trailed, standing⟩
  | ended status phase =>
    have begun : m.begin = { machine := m, outcome := some (.exited status) } := by rw [begin, phase]
    rw [begun]
    exact .inl ⟨status, rfl, phase⟩

theorem resumeUnder_recorded {program : List Emission} (h : Recorded program m) (mode : Mode)
    (stops : Nat → Bool) (fuel : Nat) :
    Recorded (program ++ (m.resumeUnder mode stops fuel).2.1.toList)
      (m.resumeUnder mode stops fuel).1 := by
  have begun := h.begins
  unfold resumeUnder
  cases outcome : m.begin.outcome with
  | some o =>
    rcases begun with ⟨status, -, phase⟩ | ⟨trailed, standing⟩
    · exact .ended status phase
    · exact .running trailed standing
  | none =>
    rcases begun with ⟨status, exited, -⟩ | ⟨trailed, standing⟩
    · cases outcome.symm.trans exited
    · exact driveUnder_recorded program fuel stops (trailed.withStepper rfl rfl) standing

/-- The states to which a client can bring a program, each with what has been sent of it. -/
inductive Reached (image : Image) (max : Nat) : Machine → List Emission → Prop where
  | unstarted : Reached image max (limited image max) []
  | answered {m : Machine} {program : List Emission} (h : Reached image max m program)
      (r : Request) : Reached image max (m.answer r).machine (program ++ (m.answer r).sent)

/-- The machine when a client has asked for everything it wants, and what has been sent by then. -/
def afterRequests (image : Image) (max : Nat) (rs : List Request) : Machine × List Emission :=
  rs.foldl (fun s r => ((s.1.answer r).machine, s.2 ++ (s.1.answer r).sent)) (limited image max, [])

theorem reached_afterRequests (image : Image) (max : Nat) (rs : List Request) :
    Reached image max (afterRequests image max rs).1 (afterRequests image max rs).2 :=
  List.foldlRecOn rs _ (motive := fun (s : Machine × List Emission) => Reached image max s.1 s.2)
    .unstarted fun _ h r _ => h.answered r

theorem addBreakpoint_lines (stepper : Stepper) (line : Nat) :
    (stepper.addBreakpoint line).2.lines = stepper.lines := by
  unfold Stepper.addBreakpoint
  split <;> rfl

/-- Whatever a client asks for, the machine has the trail of what was sent. -/
theorem Reached.recorded {image : Image} {max : Nat} {program : List Emission}
    (h : Reached image max m program) : Recorded program m := by
  induction h with
  | unstarted => exact .unstarted rfl ⟨rfl, rfl, rfl, rfl⟩ rfl
  | @answered m program h r ih =>
    cases r with
    | resume mode stops fuel => exact resumeUnder_recorded ih mode stops fuel
    | pause =>
      rw [answer, obey, List.append_nil]
      exact ih.withStepper rfl rfl
    | addBreakpoint line =>
      rw [answer, obey, List.append_nil]
      exact ih.withStepper (addBreakpoint_lines m.stepper line) (addBreakpoint_depth m.stepper line)
    | removeBreakpoint line =>
      rw [answer, obey, List.append_nil]
      exact ih.withStepper rfl rfl

/-- A suspended run has its trail, and at least one function is active. -/
theorem Recorded.suspended {sent : List Emission} (h : Recorded sent m)
    (suspended : m.isSuspended = true) :
    Trailed (({} : Trail).hearAll sent) m ∧ m.Standing ∧ m.resuming = true ∧
      (({} : Trail).hearAll sent).active ≠ [] := by
  obtain ⟨resuming, unfinished⟩ : m.resuming = true ∧ m.isFinished = false := by
    simpa [isSuspended] using suspended
  cases h with
  | unstarted nothing unstarted => cases unstarted.resuming.symm.trans resuming
  | running trailed standing =>
    refine ⟨trailed, standing, resuming, List.ne_nil_of_length_pos ?_⟩
    obtain ⟨c, i, next⟩ := standing resuming
    have functions := congrArg List.length (pending?_eq_some next).2
    rw [List.length_map, trailed.frames] at functions
    change 0 < Trail.depth _
    rw [functions]
    exact Nat.succ_pos _
  | ended status phase =>
    unfold isFinished at unfinished
    rw [phase] at unfinished
    cases unfinished

end Machine

end ScriptLang
