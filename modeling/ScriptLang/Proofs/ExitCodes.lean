import Mathlib.Logic.Relation
import ScriptLang.Proofs.CheckPoints

/-!
# The exit code is the entry point's result

A run that ends with an exit code has performed the entry point once, from its beginning to a return,
after the function that sets the globals has returned; and the code is what the entry point returned
(`exitCode_of_entry`).  But only a function with a body is performed: an entry point that stands for a
symbol or for a function of the machine ends where it begins, and the code is zero.
-/

namespace ScriptLang.Machine

/-! ### The function at the bottom -/

/-- The code of a function is about to make it return, with a result or without. -/
inductive Frame.Returns (f : Code.Function) (frame : Frame) : Option Value → Prop where
  | ranOut (next : f.code[frame.next]? = none) : Returns f frame none
  | nothing {i : Code.Instruction} (next : f.code[frame.next]? = some i) (op : i.op = .ret false) :
    Returns f frame none
  | value {i : Code.Instruction} {v : Value} {rest : List Value}
      (next : f.code[frame.next]? = some i) (op : i.op = .ret true)
      (last : frame.operands = v :: rest) : Returns f frame (some v)

/-- No other function is active, and it is about to return. -/
def Leaves (m : Machine) (index : Nat) (result : Option Value) : Prop :=
  ∃ frame f, m.frames = [frame] ∧ frame.function = index ∧ m.image.function? index = some f ∧
    frame.Returns f result

/-- The function that no other called. -/
def root? (m : Machine) : Option Nat := (m.frames.map Frame.function).getLast?

/-- The function begins, and no other is active. -/
structure Begun (phase : Phase) (index : Nat) (m : Machine) : Prop where
  phase : m.phase = phase
  frames : ∃ f, m.image.function? index = some f ∧ f.signature.params = [] ∧
    m.frames = [{ function := index, locals := initialLocals f [] }]

theorem Begun.root {phase : Phase} {index : Nat} {m : Machine} (h : Begun phase index m) :
    m.root? = some index := by
  obtain ⟨f, -, -, frames⟩ := h.frames
  rw [root?, frames]
  rfl

variable {m m' : Machine} {a : Advance} {index : Nat}

/-- What a step can be to the function at the bottom. -/
inductive Turns (index : Nat) (m : Machine) (a : Advance) : Prop where
  | stays (going : ∀ status, a.outcome ≠ some (.exited status)) (phase : a.machine.phase = m.phase)
      (root : a.machine.root? = some index)
  | fails (status : ExitStatus) (outcome : a.outcome = some (.exited status))
      (phase : a.machine.phase = .done status) (other : ∀ c, status ≠ .code c)
  /-- The globals are set, and the entry point begins. -/
  | restarts {result : Option Value} {entry : Nat} (leaves : m.Leaves index result)
      (before : m.phase = .init) (outcome : a.outcome = none) (there : m.image.entry? = some entry)
      (begun : Begun .entry entry a.machine)
  | exits {result : Option Value} (leaves : m.Leaves index result) (before : m.phase = .entry)
      (outcome : a.outcome = some (.exited (.code (exitCode result))))
      (phase : a.machine.phase = .done (.code (exitCode result)))

theorem fail_turns (e : RuntimeError) : Turns index m (m'.fail e) := .fails _ rfl rfl nofun

theorem Turns.after (h : Turns index m a) (sent : List Emission) : Turns index m (a.after sent) := by
  cases h with
  | stays going phase root => exact .stays going phase root
  | fails status outcome phase other => exact .fails status outcome phase other
  | restarts leaves before outcome there begun => exact .restarts leaves before outcome there begun
  | exits leaves before outcome phase => exact .exits leaves before outcome phase

theorem enterRoot_begun (m : Machine) (index : Nat) (empty : m.frames = []) :
    (∃ e, m.enterRoot index = m.fail e) ∨
      (m.enterRoot index).outcome = none ∧ Begun m.phase index (m.enterRoot index).machine := by
  unfold enterRoot
  split
  · exact .inl ⟨_, rfl⟩
  · next f function =>
    split
    · next params =>
      refine .inr ⟨rfl, rfl, f, function, params, ?_⟩
      exact congrArg (_ :: ·) empty
    · exact .inl ⟨_, rfl⟩

/-- A return is one from the function at the bottom if no other function is active. -/
theorem leave_turns {frame : Frame} {below : List Frame} {result : Option Value}
    (frames : m'.frames = frame :: below) (root : m'.root? = some index) (started : m.Started)
    (phase : m'.phase = m.phase) (image : m'.image = m.image)
    (leaves : below = [] → m.Leaves index result) : Turns index m (m'.leave result) := by
  unfold leave
  rw [frames]
  refine Turns.after ?_ _
  cases below with
  | cons caller below =>
    refine .stays nofun phase ?_
    rw [root?, frames] at root
    exact root
  | nil =>
    unfold returnTo
    dsimp only
    rw [phase]
    rcases started with before | before
    · rw [before]
      dsimp only
      unfold enterEntry
      split
      · next entry there =>
        rcases enterRoot_begun { m' with frames := [], stepper := m'.stepper.leave, phase := .entry }
          entry rfl with ⟨e, failed⟩ | ⟨outcome, begun⟩
        · exact failed ▸ fail_turns e
        · exact .restarts (leaves rfl) before outcome (image ▸ there) begun
      · exact fail_turns _
    · rw [before]
      exact .exits (leaves rfl) before rfl rfl

/-! ### Steps -/

/-- Only a return ends a function, and its result is the last operand. -/
theorem Context.execute_leaves {c : Context} {op : Code.Op} {effect : Effect}
    {result : Option Value} (h : c.execute m op = .ok effect)
    (leaves : effect.flow = .leave result) :
    (op = .ret true ∧ ∃ v rest, c.frame.operands = v :: rest ∧ result = some v) ∨
      (op = .ret false ∧ result = none) := by
  cases execute_does h with
  | returnsValue last =>
    cases leaves
    exact .inl ⟨rfl, _, _, last, rfl⟩
  | returns =>
    cases leaves
    exact .inr ⟨rfl, rfl⟩
  | _ => cases leaves

/-- An instruction of the innermost function is executed. -/
theorem perform_turns {frame : Frame} {below : List Frame} {f : Code.Function}
    {i : Code.Instruction} (frames : m'.frames = frame :: below) (root : m'.root? = some index)
    (started : m.Started) (phase : m'.phase = m.phase) (image : m'.image = m.image)
    (same : m.frames = frame :: below)
    (function : m.image.function? frame.function = some f) (here : f.code[frame.next]? = some i) :
    Turns index m
      (m'.perform ⟨f, { frame with next := frame.next + 1 }, below, frame.next, i.location⟩ i) := by
  unfold perform
  split
  · exact fail_turns _
  · next effect executed =>
    have keeps := Context.execute_keeps executed
    have stays := Context.execute_stays executed
    have root' : effect.machine.root? = some index := by
      rw [root?, stays.functions, ← root, root?, frames]
      rfl
    refine Turns.after ?_ _
    cases flow : effect.flow with
    | next => exact .stays nofun (keeps.phase.trans phase) root'
    | enter called g args =>
      refine .stays nofun (keeps.phase.trans phase) ?_
      have active : effect.machine.frames.map Frame.function ≠ [] :=
        stays.functions ▸ List.cons_ne_nil _ _
      exact (List.getLast?_cons_of_ne_nil active).trans root'
    | leave result =>
      obtain ⟨top, lower, frames', function', below'⟩ : ∃ top lower,
          effect.machine.frames = top :: lower ∧ top.function = frame.function ∧
            lower.map Frame.function = below.map Frame.function := by
        cases frames' : effect.machine.frames with
        | nil => exact absurd (frames' ▸ stays.functions) nofun
        | cons top lower =>
          have functions := frames' ▸ stays.functions
          exact ⟨top, lower, rfl, (List.cons.inj functions).1, (List.cons.inj functions).2⟩
      refine leave_turns frames' root' started (keeps.phase.trans phase) (keeps.image.trans image) ?_
      rintro rfl
      have alone : below = [] := List.map_eq_nil_iff.1 below'.symm
      have index' : frame.function = index := by
        rw [root?, frames, alone] at root
        exact Option.some.inj root
      refine ⟨frame, f, alone ▸ same, index', index' ▸ function, ?_⟩
      rcases Context.execute_leaves executed flow with ⟨op, v, rest, last, rfl⟩ | ⟨op, rfl⟩
      · exact .value here op last
      · exact .nothing here op

/-- Every step of a run is one of four kinds to the function at the bottom. -/
theorem step_turns (started : m.Started) (root : m.root? = some index) (stop : Bool) :
    Turns index m (m.step stop) := by
  unfold step
  split
  · next nothing =>
    rw [root?, nothing] at root
    cases root
  · next frame below frames =>
    have alone (empty : below = []) : m.frames = [frame] ∧ frame.function = index := by
      subst empty
      rw [root?, frames] at root
      exact ⟨frames, Option.some.inj root⟩
    split
    · exact fail_turns _
    · next f function =>
      split
      · next ended =>
        refine leave_turns frames root started rfl rfl fun empty => ?_
        obtain ⟨only, index'⟩ := alone empty
        exact ⟨frame, f, only, index', index' ▸ function, .ranOut ended⟩
      · next i here =>
        have performed (m' : Machine) (frames' : m'.frames = m.frames) (phase : m'.phase = m.phase)
            (image : m'.image = m.image) :=
          perform_turns (i := i) (f := f) (frames'.trans frames)
            ((congrArg (fun fs => (fs.map Frame.function).getLast?) frames').trans root) started phase
            image frames function here
        split
        · refine .stays nofun rfl ?_
          rw [root?, frames] at root
          exact root
        · split
          · exact .fails .stopped rfl rfl nofun
          · dsimp only
            split
            · exact performed _ rfl rfl rfl
            · cases due : (m.stepper.check i.location.line).1 with
              | none =>
                rw [checkAndPerform_of_none due]
                exact (performed { m with stepper := (m.stepper.check i.location.line).2 } rfl rfl
                  rfl).after _
              | some reason =>
                obtain ⟨position, suspended⟩ := checkAndPerform_of_some
                  (c := ⟨f, { frame with next := frame.next + 1 }, below, frame.next, i.location⟩) due
                rw [suspended]
                exact .stays nofun rfl root

/-! ### Runs of a function -/

/-- What a client asks for says only where the run is to be suspended. -/
inductive Asked (stepper : Stepper) : Stepper → Prop where
  | resume (mode : Mode) : Asked stepper (stepper.resume mode)
  | pause : Asked stepper stepper.pause
  | addBreakpoint (line : Nat) : Asked stepper (stepper.addBreakpoint line).2
  | removeBreakpoint (line : Nat) : Asked stepper (stepper.removeBreakpoint line).2

/-- The run goes on from one machine to another while a function stays at the bottom, with what is
sent meanwhile. -/
inductive Course (phase : Phase) (index : Nat) (m : Machine) : List Emission → Machine → Prop where
  | here : Course phase index m [] m
  | step {sent : List Emission} {m' : Machine} (h : Course phase index m sent m') (stop : Bool)
      (going : ∀ status, (m'.step stop).outcome ≠ some (.exited status))
      (same : (m'.step stop).machine.phase = phase)
      (root : (m'.step stop).machine.root? = some index) :
      Course phase index m (sent ++ (m'.step stop).emitted) (m'.step stop).machine
  | asked {sent : List Emission} {m' : Machine} {stepper : Stepper}
      (h : Course phase index m sent m') (asked : Asked m'.stepper stepper) :
      Course phase index m sent { m' with stepper }

/-- A function is performed from its beginning to a return, with what is sent meanwhile. -/
structure Performed (phase : Phase) (index : Nat) (m : Machine) (sent : List Emission)
    (m' : Machine) (result : Option Value) : Prop where
  begun : Begun phase index m
  course : Course phase index m sent m'
  leaves : m'.Leaves index result

/-- The program has not started. -/
def Waits (image : Image) (max : Nat) (m : Machine) : Prop :=
  ∃ stepper, Relation.ReflTransGen Asked {} stepper ∧ m = { limited image max with stepper }

/-- The entry point begins, with what has been sent before: when the function that sets the globals
has been performed, or at once where there is none. -/
inductive Ready (image : Image) (max entry : Nat) : List Emission → Machine → Prop where
  | atOnce {m : Machine} (waits : Waits image max m) (no : image.init? = none)
      (begun : Begun .entry entry m.start.machine) : Ready image max entry m.start.emitted m.start.machine
  | set {m m' : Machine} {init : Nat} {sent : List Emission} {result : Option Value} {stop : Bool}
      (waits : Waits image max m) (there : image.init? = some init)
      (performed : Performed .init init m.start.machine sent m' result)
      (begun : Begun .entry entry (m'.step stop).machine) :
      Ready image max entry (m.start.emitted ++ sent ++ (m'.step stop).emitted) (m'.step stop).machine

/-- How a program has come where it is, with all that it has sent. -/
inductive History (image : Image) (max : Nat) (sent : List Emission) (m : Machine) : Prop where
  | waits (waits : Waits image max m) (nothing : sent = [])
  | sets {s : Machine} {init : Nat} {during : List Emission} (waits : Waits image max s)
      (there : image.init? = some init) (begun : Begun .init init s.start.machine)
      (course : Course .init init s.start.machine during m) (all : sent = s.start.emitted ++ during)
  | runs {n : Machine} {entry : Nat} {before during : List Emission}
      (there : image.entry? = some entry) (ready : Ready image max entry before n)
      (course : Course .entry entry n during m) (all : sent = before ++ during)
  | exited {n t : Machine} {entry : Nat} {before during : List Emission} {result : Option Value}
      {stop : Bool} (there : image.entry? = some entry) (ready : Ready image max entry before n)
      (performed : Performed .entry entry n during t result)
      (all : sent = before ++ during ++ (t.step stop).emitted)
      (phase : m.phase = .done (.code (exitCode result)))
  | failed (status : ExitStatus) (phase : m.phase = .done status) (other : ∀ c, status ≠ .code c)

variable {image : Image} {max : Nat} {sent : List Emission} {phase : Phase}

theorem Ready.begun {entry : Nat} (h : Ready image max entry sent m) : Begun .entry entry m := by
  cases h with
  | atOnce waits no begun | set waits there performed begun => exact begun

theorem Course.image_eq (h : Course phase index m sent m') : m'.image = m.image := by
  induction h with
  | here => rfl
  | step h stop going same root ih => exact (step_image _ stop).trans ih
  | asked h asked ih => exact ih

theorem Course.stands (h : Course phase index m sent m') (begun : Begun phase index m) :
    m'.phase = phase ∧ m'.root? = some index := by
  induction h with
  | here => exact ⟨begun.phase, begun.root⟩
  | step h stop going same root ih => exact ⟨same, root⟩
  | asked h asked ih => exact ih

theorem start_image (m : Machine) (idle : m.phase = .idle) : m.start.machine.image = m.image := by
  have image := begin_image m
  rwa [begin, idle] at image

theorem Waits.start_image (h : Waits image max m) : m.start.machine.image = image := by
  obtain ⟨stepper, -, rfl⟩ := h
  exact Machine.start_image _ rfl

theorem Ready.image_eq {entry : Nat} (h : Ready image max entry sent m) : m.image = image := by
  cases h with
  | atOnce waits no begun => exact waits.start_image
  | set waits there performed begun =>
    exact (step_image _ _).trans (performed.course.image_eq.trans waits.start_image)

/-- The next step adds to the history. -/
theorem History.step (h : History image max sent m) (started : m.Started) (stop : Bool) :
    History image max (sent ++ (m.step stop).emitted) (m.step stop).machine := by
  cases h with
  | waits waits nothing =>
    obtain ⟨stepper, -, rfl⟩ := waits
    rcases started with phase | phase <;> cases phase
  | failed status phase other =>
    rcases started with phase' | phase' <;> cases phase.symm.trans phase'
  | exited there ready performed all phase =>
    rcases started with phase' | phase' <;> cases phase.symm.trans phase'
  | @sets s init during waits there begun course all =>
    obtain ⟨before, root⟩ := course.stands begun
    have image : m.image = image := course.image_eq.trans waits.start_image
    cases step_turns started root stop with
    | stays going phase root' =>
      refine .sets waits there begun (course.step stop going (phase.trans before) root') ?_
      rw [all, List.append_assoc]
    | fails status outcome phase other => exact .failed status phase other
    | restarts leaves before outcome entry begun' =>
      refine .runs (image ▸ entry) (.set waits there ⟨begun, course, leaves⟩ begun') .here ?_
      rw [all, List.append_nil]
    | exits leaves after => cases before.symm.trans after
  | @runs n entry before during there ready course all =>
    obtain ⟨after, root⟩ := course.stands ready.begun
    cases step_turns started root stop with
    | stays going phase root' =>
      refine .runs there ready (course.step stop going (phase.trans after) root') ?_
      rw [all, List.append_assoc]
    | fails status outcome phase other => exact .failed status phase other
    | restarts leaves before => cases after.symm.trans before
    | exits leaves before outcome phase =>
      exact .exited there ready ⟨ready.begun, course, leaves⟩ (by rw [all]) phase

/-- What a client asks for does not change what has happened. -/
theorem History.asked (h : History image max sent m) {stepper : Stepper}
    (asked : Asked m.stepper stepper) : History image max sent { m with stepper } := by
  cases h with
  | waits waits nothing =>
    obtain ⟨stepper', reached, rfl⟩ := waits
    exact .waits ⟨stepper, reached.tail asked, rfl⟩ nothing
  | sets waits there begun course all => exact .sets waits there begun (course.asked asked) all
  | runs there ready course all => exact .runs there ready (course.asked asked) all
  | exited there ready performed all phase => exact .exited there ready performed all phase
  | failed status phase other => exact .failed status phase other

/-- How a program starts. -/
theorem Waits.starts (h : Waits image max m) : History image max m.start.emitted m.start.machine := by
  have same : m.image = image := by
    obtain ⟨stepper, -, rfl⟩ := h
    rfl
  have empty : m.frames = [] := by
    obtain ⟨stepper, -, rfl⟩ := h
    rfl
  have entered (m' : Machine) (index : Nat) {phase : Phase} (frames : m'.frames = [])
      (before : m'.phase = phase) (begins : m.start.machine = (m'.enterRoot index).machine)
      (begun : Begun phase index m.start.machine → History image max m.start.emitted m.start.machine) :
      History image max m.start.emitted m.start.machine := by
    rcases enterRoot_begun m' index frames with ⟨e, failed⟩ | ⟨-, root⟩
    · rw [failed] at begins
      exact .failed _ (congrArg Machine.phase begins) nofun
    · exact begun (begins ▸ before ▸ root)
  cases entry : m.image.entry? with
  | none =>
    refine .failed (.error (.ofError (RuntimeError.noEntryPoint m.entryName))) ?_ nofun
    unfold start
    rw [entry]
    rfl
  | some e =>
    cases init : m.image.init? with
    | some i =>
      refine entered { m with phase := .init } i empty rfl ?_ fun begun =>
        .sets h (same ▸ init) begun .here (List.append_nil _).symm
      unfold start
      rw [entry, init]
      rfl
    | none =>
      refine entered { m with phase := .entry } e empty rfl ?_ fun begun =>
        .runs (same ▸ entry) (.atOnce h (same ▸ init) begun) .here (List.append_nil _).symm
      unfold start
      rw [entry, init]
      unfold enterEntry
      dsimp only
      rw [entry]
      rfl

/-! ### Runs -/

theorem Turns.started (h : Turns index m a) (started : m.Started) (goesOn : a.outcome = none) :
    a.machine.Started := by
  cases h with
  | stays going phase root =>
    unfold Started
    rwa [phase]
  | restarts leaves before outcome there begun => exact .inr begun.phase
  | fails status outcome | exits leaves before outcome => cases goesOn.symm.trans outcome

/-- While a program runs, some function is at the bottom. -/
theorem History.rooted (h : History image max sent m) (started : m.Started) :
    ∃ index, m.root? = some index := by
  cases h with
  | waits waits nothing =>
    obtain ⟨stepper, -, rfl⟩ := waits
    rcases started with phase | phase <;> cases phase
  | failed status phase other | exited there ready performed all phase =>
    rcases started with phase' | phase' <;> cases phase.symm.trans phase'
  | sets waits there begun course all => exact ⟨_, (course.stands begun).2⟩
  | runs there ready course all => exact ⟨_, (course.stands ready.begun).2⟩

theorem driveUnder_history {program : List Emission} : ∀ (fuel : Nat) {m : Machine}
    {sent : Array Emission} (stops : Nat → Bool), m.Started →
    History image max (program ++ sent.toList) m →
    History image max (program ++ (m.driveUnder stops fuel sent).2.1.toList)
      (m.driveUnder stops fuel sent).1
  | 0, _, _, _, _, h => h
  | fuel + 1, m, sent, stops, started, h => by
    have next := h.step started (stops 0)
    have total : program ++ (sent ++ (m.step (stops 0)).emitted).toList =
        program ++ sent.toList ++ (m.step (stops 0)).emitted := by
      rw [Array.toList_appendList, List.append_assoc]
    rw [← total] at next
    cases outcome : (m.step (stops 0)).outcome with
    | some o =>
      rw [driveUnder_of_some outcome]
      exact next
    | none =>
      obtain ⟨index, root⟩ := h.rooted started
      rw [driveUnder_of_none outcome]
      exact driveUnder_history fuel _ ((step_turns started root _).started started outcome) next

/-- What comes before the first step adds to the history. -/
theorem History.begins (h : History image max sent m) :
    History image max (sent ++ m.begin.emitted) m.begin.machine ∧
      (m.begin.outcome = none → m.begin.machine.Started) := by
  have begun (started : m.Started) : History image max (sent ++ m.begin.emitted) m.begin.machine ∧
      (m.begin.outcome = none → m.begin.machine.Started) := by
    rw [begin_of_started started, List.append_nil]
    exact ⟨h, fun _ => started⟩
  cases phase : m.phase with
  | init => exact begun (.inl phase)
  | entry => exact begun (.inr phase)
  | done status =>
    have ended : m.begin = { machine := m, outcome := some (.exited status) } := by rw [begin, phase]
    rw [ended, List.append_nil]
    refine ⟨h, fun goesOn => ?_⟩
    cases goesOn
  | idle =>
    have starts : m.begin = m.start := by rw [begin, phase]
    rw [starts]
    cases h with
    | waits waits nothing =>
      rw [nothing]
      exact ⟨waits.starts, (start_moves m).started⟩
    | sets waits there begun course all => cases phase.symm.trans (course.stands begun).1
    | runs there ready course all => cases phase.symm.trans (course.stands ready.begun).1
    | exited there ready performed all phase' | failed status phase' other =>
      cases phase.symm.trans phase'

theorem History.resumeUnder (h : History image max sent m) (mode : Mode) (stops : Nat → Bool)
    (fuel : Nat) : History image max (sent ++ (m.resumeUnder mode stops fuel).2.1.toList)
      (m.resumeUnder mode stops fuel).1 := by
  obtain ⟨begun, started⟩ := h.begins
  unfold Machine.resumeUnder
  cases outcome : m.begin.outcome with
  | some o => exact begun
  | none => exact driveUnder_history fuel stops (started outcome) (begun.asked (.resume mode))

/-- The history of the machine to which a client brings a program. -/
theorem history_of_reached (h : Reached image max m sent) : History image max sent m := by
  induction h with
  | unstarted => exact .waits ⟨{}, .refl, rfl⟩ rfl
  | answered h r ih =>
    cases r with
    | resume mode stops fuel => exact ih.resumeUnder mode stops fuel
    | pause =>
      rw [answer, obey, List.append_nil]
      exact ih.asked .pause
    | addBreakpoint line =>
      rw [answer, obey, List.append_nil]
      exact ih.asked (.addBreakpoint line)
    | removeBreakpoint line =>
      rw [answer, obey, List.append_nil]
      exact ih.asked (.removeBreakpoint line)

/-! ### Functions without a body -/

theorem enterEntry_leaves (m : Machine) : m.enterEntry.machine.phase ≠ .init := by
  unfold enterEntry
  split
  · next entry there =>
    unfold enterRoot
    split
    · nofun
    · split
      · nofun
      · nofun
  · nofun

section

variable {f : Code.Function} (function : m.image.function? index = some f) (nothing : f.code = [])

include function nothing

/-- A function without a body returns before anything is done. -/
theorem Begun.step_of_no_code (begun : Begun phase index m) (stop : Bool) :
    m.step stop = m.leave none := by
  obtain ⟨g, -, -, frames⟩ := begun.frames
  unfold step
  rw [frames]
  dsimp only
  rw [function]
  dsimp only
  rw [nothing]
  rfl

theorem Leaves.of_no_code {result : Option Value} (leaves : m.Leaves index result) :
    result = none := by
  obtain ⟨frame, g, -, -, there, returns⟩ := leaves
  cases function.symm.trans there
  cases returns with
  | ranOut | nothing => rfl
  | value next =>
    rw [nothing] at next
    cases next

theorem Course.of_no_code (h : Course phase index m sent m') (begun : Begun phase index m)
    (started : phase = .init ∨ phase = .entry) : sent = [] ∧ m' = { m with stepper := m'.stepper } := by
  induction h with
  | here => exact ⟨rfl, rfl⟩
  | asked h asked ih => exact ⟨ih.1, by rw [ih.2]⟩
  | @step sent m' h stop going same root ih =>
    exfalso
    have begun' : Begun phase index m' := by
      rw [ih.2]
      exact ⟨begun.phase, begun.frames⟩
    have function' : m'.image.function? index = some f := h.image_eq ▸ function
    obtain ⟨g, -, -, frames⟩ := begun'.frames
    rw [begun'.step_of_no_code function' nothing] at going same
    unfold leave returnTo at going same
    rw [frames] at going same
    dsimp only at going same
    rw [begun'.phase] at going same
    rcases started with rfl | rfl
    · exact enterEntry_leaves _ same
    · exact going _ rfl

end

/-! ### Exit codes -/

theorem toInt_exitCode (result : Option Value) :
    (exitCode result).toInt = ((result.bind Value.int?).getD 0).bmod Int64.size := by
  unfold exitCode
  cases result.bind Value.int? with
  | none => rfl
  | some n => exact Int64.toInt_ofInt

/-- The exit code of a program is the integer that its entry point returned, taken as one of 64 bits
with a sign, or zero if it returned none.  The entry point was performed once, after the globals were
set.  An entry point without a body returns at once, and without a result. -/
theorem exitCode_of_entry (image : Image) (max : Nat) (rs : List Request) {c : Int64}
    (ended : (afterRequests image max rs).1.phase = .done (.code c)) :
    ∃ entry before n during t result stop, image.entry? = some entry ∧
      Ready image max entry before n ∧ Performed .entry entry n during t result ∧
      (afterRequests image max rs).2 = before ++ during ++ (t.step stop).emitted ∧
      c.toInt = ((result.bind Value.int?).getD 0).bmod Int64.size ∧
      ∀ f, image.function? entry = some f → (∀ code, f.kind ≠ .body code) →
        during = [] ∧ t = { n with stepper := t.stepper } ∧ t.step stop = t.leave none ∧
          result = none := by
  cases history_of_reached (reached_afterRequests image max rs) with
  | waits waits nothing =>
    obtain ⟨stepper, -, machine⟩ := waits
    rw [machine] at ended
    cases ended
  | sets waits there begun course all => cases ended.symm.trans (course.stands begun).1
  | runs there ready course all => cases ended.symm.trans (course.stands ready.begun).1
  | failed status phase other =>
    cases phase.symm.trans ended
    exact absurd rfl (other c)
  | @exited n t entry before during result stop there ready performed all phase =>
    have code : c.toInt = ((result.bind Value.int?).getD 0).bmod Int64.size := by
      cases phase.symm.trans ended
      exact toInt_exitCode result
    refine ⟨entry, before, n, during, t, result, stop, there, ready, performed, all, code, ?_⟩
    intro f function noBody
    have nothing : f.code = [] := by
      unfold Code.Function.code
      split
      · next body => exact absurd body (noBody _)
      · rfl
    have function' : n.image.function? entry = some f := ready.image_eq ▸ function
    have there' : t.image.function? entry = some f := performed.course.image_eq ▸ function'
    obtain ⟨silent, same⟩ := performed.course.of_no_code function' nothing ready.begun (.inr rfl)
    have begun : Begun .entry entry t := by
      rw [same]
      exact ⟨ready.begun.phase, ready.begun.frames⟩
    exact ⟨silent, same, begun.step_of_no_code there' nothing stop,
      performed.leaves.of_no_code there' nothing⟩

/-- The entry point stands for a symbol that no library has. -/
def standIn : Image :=
  .interpreted
    { name := "stand", entry := some "main", globals := []
      functions := [⟨"main", ⟨[], .int .i32⟩, [], .native "scribble_no_such", ⟨"stand", 0, 1, 1⟩⟩] }
    Native.Bridge.platform

theorem standIn_uncalled :
    ∃ before n during t result stop, Ready standIn 10 0 before n ∧
      Performed .entry 0 n during t result ∧ t.step stop = t.leave none ∧
      (afterRequests standIn 10 [.resume .run (fun _ => false) 10]).1.phase = .done (.code 0) ∧
      (standIn.callNative 0 []).isOk = false := by
  have ended : (afterRequests standIn 10 [.resume .run (fun _ => false) 10]).1.phase =
      .done (.code 0) := rfl
  obtain ⟨entry, before, n, during, t, result, stop, there, ready, performed, -, -, noBody⟩ :=
    exitCode_of_entry standIn 10 _ ended
  cases there
  exact ⟨before, n, during, t, result, stop, ready, performed, (noBody _ rfl nofun).2.2.1, ended,
    by decide⟩

end ScriptLang.Machine
