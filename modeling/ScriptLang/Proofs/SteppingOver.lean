import ScriptLang.Proofs.CheckPoints

/-!
# Stepping over

A step over runs from where the program is suspended to the first check point that is no deeper,
unless a breakpoint comes first.  Meanwhile the run stands in one of few places (`StandsOver`): in a
function that was active when the step began, in functions called since by the innermost of them, or
at the beginning of the entry point.  Deeper check points are all in functions called since, so that
none of these is active when the step is done (`step_over_returns`); the entry point alone, which no
function calls, begins at the depth of the function that sets the globals.
-/

namespace ScriptLang.Machine

open Machine (Emission)

/-- A check point that a step over passes that began in `m`: it is deeper, and comes to no line with
a breakpoint. -/
structure Passed (m : Machine) (p : CheckPoint) : Prop where
  deeper : m.depth < p.depth
  missed : ¬(p.Enters ∧ p.line ∈ m.stepper.breakpoints)

/-- The place of a check point. -/
structure Position.At (position : Position) (p : CheckPoint) : Prop where
  depth : position.depth = p.depth
  line : position.location.line = p.line

/-- The function that was innermost is so again, if it is active at all. -/
def CheckPoint.Back (t : Trail) (p : CheckPoint) : Prop :=
  ∀ top ∈ t.active.head?, top.serial ∈ p.active.map Activation.serial →
    p.active.head?.map Activation.serial = some top.serial

/-- How a step over can end that began in the machine `m` with the trail `t`, after check points
`ps`. -/
inductive StepsOver (t : Trail) (m m' : Machine) (ps : List CheckPoint) : Outcome → Prop where
  | exited (status : ExitStatus) (passed : ∀ p ∈ ps, Passed m p) :
      StepsOver t m m' ps (.exited status)
  | unfinished (passed : ∀ p ∈ ps, Passed m p) : StepsOver t m m' ps .unfinished
  /-- Back at the depth where the step began, or above: no function entered since is active, unless
  it is the entry point, begun when the globals were set. -/
  | step (before : List CheckPoint) (p : CheckPoint) (position : Position)
      (points : ps = before ++ [p]) (passed : ∀ p ∈ before, Passed m p) (here : position.At p)
      (frames : m'.frames.length = p.depth) (returned : p.depth ≤ m.depth)
      (old : (∀ a ∈ p.active, a.serial < t.entered) ∨
        m.phase = .init ∧ m'.phase = .entry ∧ p.depth = 1)
      (back : CheckPoint.Back t p) : StepsOver t m m' ps (.suspended .step position)
  | breakpoint (before : List CheckPoint) (p : CheckPoint) (position : Position)
      (points : ps = before ++ [p]) (passed : ∀ p ∈ before, Passed m p) (here : position.At p)
      (frames : m'.frames.length = p.depth) (deeper : m.depth < p.depth) (enters : p.Enters)
      (hit : p.line ∈ m.stepper.breakpoints) :
      StepsOver t m m' ps (.suspended .breakpoint position)
  /-- A pause was asked for while the run was suspended. -/
  | paused (p : CheckPoint) (position : Position) (points : ps = [p]) (here : position.At p)
      (asked : m.stepper.pausePending = true) : StepsOver t m m' ps (.suspended .start position)

/-! ### Where a step over stands -/

/-- Where the run is in a step over that began in `m₀` with the trail `t₀`. -/
inductive StandsOver (t₀ : Trail) (m₀ : Machine) (t : Trail) (m : Machine) : Prop where
  | back (suffix : t.serials <:+ t₀.serials) (phase : m.phase = m₀.phase)
  | inside (newer : List Nat) (some : newer ≠ []) (young : ∀ n ∈ newer, t₀.entered ≤ n)
      (serials : t.serials = newer ++ t₀.serials) (phase : m.phase = m₀.phase)
  | restarted (n : Nat) (young : t₀.entered ≤ n) (alone : t.serials = [n])
      (before : m₀.phase = .init) (phase : m.phase = .entry)

variable {t₀ t : Trail} {m₀ m : Machine} {a : Advance}

theorem StandsOver.congr {t' : Trail} {m' : Machine} (stands : StandsOver t₀ m₀ t m)
    (serials' : t'.serials = t.serials) (phase' : m'.phase = m.phase) : StandsOver t₀ m₀ t' m' := by
  cases stands with
  | back suffix phase => exact .back (serials'.symm ▸ suffix) (phase'.trans phase)
  | inside newer some young serials phase =>
    exact .inside newer some young (serials'.trans serials) (phase'.trans phase)
  | restarted n young alone before phase =>
    exact .restarted n young (serials'.trans alone) before (phase'.trans phase)

/-- A call is made by the innermost of the functions that were active, or inside. -/
theorem StandsOver.enter {m' : Machine} (stands : StandsOver t₀ m₀ t m) (active : t₀.serials ≠ [])
    (old : ∀ n ∈ t₀.serials, n < t₀.entered) (entered : t₀.entered ≤ t.entered)
    (inner : t₀.serials <:+ t.serials) (phase' : m'.phase = m.phase) :
    StandsOver t₀ m₀ t.enter m' := by
  cases stands with
  | back suffix phase =>
    have full : t.serials = t₀.serials := suffix.eq_of_length_le inner.length_le
    refine .inside [t.entered] (List.cons_ne_nil _ _) ?_ ?_ (phase'.trans phase)
    · exact List.forall_mem_singleton.2 entered
    · rw [Trail.serials_enter, full]
      rfl
  | inside newer some young serials phase =>
    refine .inside (t.entered :: newer) (List.cons_ne_nil _ _) ?_ ?_ (phase'.trans phase)
    · exact List.forall_mem_cons.2 ⟨entered, young⟩
    · rw [Trail.serials_enter, serials]
      rfl
  | restarted n young alone before phase =>
    -- the entry point has called nothing yet, for it has come to no check point
    rw [alone] at inner
    obtain ⟨first, rest, serials⟩ := List.exists_cons_of_ne_nil active
    have first_mem : first ∈ t₀.serials := serials ▸ List.mem_cons_self
    obtain rfl := List.mem_singleton.1 (inner.subset first_mem)
    exact absurd (old first first_mem) (Nat.not_lt.2 young)

theorem StandsOver.leave {m' : Machine} (stands : StandsOver t₀ m₀ t m)
    (below : t.leave.active ≠ []) (phase' : m'.phase = m.phase) : StandsOver t₀ m₀ t.leave m' := by
  cases stands with
  | back suffix phase =>
    refine .back ?_ (phase'.trans phase)
    rw [Trail.serials_leave]
    exact t.serials.tail_suffix.trans suffix
  | inside newer some young serials phase =>
    obtain ⟨n, newer, rfl⟩ := List.exists_cons_of_ne_nil some
    have rest : t.leave.serials = newer ++ t₀.serials := by
      rw [Trail.serials_leave, serials]
      rfl
    cases newer with
    | nil => exact .back (rest ▸ List.suffix_rfl) (phase'.trans phase)
    | cons n' newer =>
      exact .inside (n' :: newer) (List.cons_ne_nil _ _)
        (fun k hk => young k (List.mem_cons_of_mem _ hk)) rest (phase'.trans phase)
  | restarted n young alone before phase =>
    have none : t.leave.serials = [] := by
      rw [Trail.serials_leave, alone]
      rfl
    exact absurd (List.map_eq_nil_iff.1 none) below

/-- When the globals are set the entry point is alone. -/
theorem StandsOver.restart {m' : Machine} (stands : StandsOver t₀ m₀ t m)
    (entered : t₀.entered ≤ t.entered) (root : t.leave.active = []) (before' : m.phase = .init)
    (phase' : m'.phase = .entry) : StandsOver t₀ m₀ t.leave.enter m' := by
  have alone : t.leave.enter.serials = [t.entered] := by
    rw [Trail.serials_enter, Trail.serials, root]
    rfl
  cases stands with
  | back suffix phase => exact .restarted t.entered entered alone (phase ▸ before') phase'
  | inside newer some young serials phase =>
    exact .restarted t.entered entered alone (phase ▸ before') phase'
  | restarted n young alone' before phase => cases before'.symm.trans phase

/-- A move keeps to these places. -/
theorem StandsOver.acts {calls : Bool} (stands : StandsOver t₀ m₀ t m) (active : t₀.serials ≠ [])
    (old : ∀ n ∈ t₀.serials, n < t₀.entered) (entered : t₀.entered ≤ t.entered)
    (deep : calls = true → t₀.serials <:+ t.serials) (treads : Treads calls t m a) :
    (∃ status, a.outcome = some (.exited status)) ∨
      a.outcome = none ∧ t₀.entered ≤ (t.hearAll a.emitted).entered ∧
        StandsOver t₀ m₀ (t.hearAll a.emitted) a.machine := by
  cases treads with
  | ends status outcome => exact .inl ⟨status, outcome⟩
  | stays outcome trail trailed stepper phase' =>
    rw [trail]
    exact .inr ⟨outcome, entered, stands.congr rfl phase'⟩
  | enters may outcome trail trailed stepper phase' =>
    rw [trail]
    have into := stands.enter active old entered (deep may) phase'
    exact .inr ⟨outcome, Nat.le_succ_of_le entered, into⟩
  | leaves below outcome trail trailed stepper phase' =>
    rw [trail]
    exact .inr ⟨outcome, entered, stands.leave below phase'⟩
  | restarts root outcome trail trailed stepper before' phase' =>
    rw [trail]
    have anew := stands.restart entered root before' phase'
    exact .inr ⟨outcome, Nat.le_succ_of_le entered, anew⟩

/-- Deeper than where the step began the run is in functions called since. -/
theorem StandsOver.deeper (stands : StandsOver t₀ m₀ t m) (active : t₀.serials ≠ [])
    (deeper : t₀.depth < t.depth) : t₀.serials <:+ t.serials := by
  rw [← Trail.length_serials, ← Trail.length_serials] at deeper
  cases stands with
  | back suffix => exact absurd suffix.length_le (Nat.not_le.2 deeper)
  | inside newer some young serials =>
    rw [serials]
    exact List.suffix_append newer t₀.serials
  | restarted n young alone =>
    rw [alone] at deeper
    exact absurd (List.length_pos_of_ne_nil active) (Nat.not_lt.2 (Nat.le_of_lt_succ deeper))

/-- Back at the depth where the step began, or above, nothing entered since is active, except for
the entry point. -/
theorem StandsOver.returned (stands : StandsOver t₀ m₀ t m) (old : ∀ n ∈ t₀.serials, n < t₀.entered)
    (back : ¬t₀.depth < t.depth) :
    (∀ n ∈ t.serials, n < t₀.entered) ∨ m₀.phase = .init ∧ m.phase = .entry ∧ t.depth = 1 := by
  rw [← Trail.length_serials, ← Trail.length_serials] at back
  cases stands with
  | back suffix => exact .inl fun n hn => old n (suffix.subset hn)
  | inside newer some young serials =>
    rw [serials, List.length_append] at back
    exact absurd (Nat.lt_add_of_pos_left (List.length_pos_of_ne_nil some)) back
  | restarted n young alone before phase =>
    rw [← Trail.length_serials, alone]
    exact .inr ⟨before, phase, rfl⟩

/-- Among activations that were active when the step began, the innermost is on top if it is there.
-/
theorem StandsOver.back_of_returned (stands : StandsOver t₀ m₀ t m) (trailed : Trailed t₀ m₀)
    (back : ¬t₀.depth < t.depth) (line : Nat) : CheckPoint.Back t₀ ⟨t.active, line⟩ := by
  intro top head mem
  have first : t₀.serials = top.serial :: t₀.serials.tail := by
    obtain ⟨entered, active⟩ := t₀
    cases active with
    | nil => cases head
    | cons a rest =>
      cases head
      rfl
  have order := trailed.order
  rw [first] at order
  rw [← Trail.length_serials, ← Trail.length_serials] at back
  rw [← List.head?_map]
  change t.serials.head? = _
  change top.serial ∈ t.serials at mem
  cases stands with
  | back suffix =>
    -- the serials decrease inward, so a proper suffix does not have the first
    rw [first] at suffix
    rcases List.suffix_cons_iff.1 suffix with full | inner
    · rw [full]
      rfl
    · exact absurd ((List.pairwise_cons.1 order).1 _ (inner.subset mem)) (Nat.lt_irrefl _)
  | inside newer some young serials =>
    rw [serials, List.length_append] at back
    exact absurd (Nat.lt_add_of_pos_left (List.length_pos_of_ne_nil some)) back
  | restarted n young alone =>
    rw [alone] at mem ⊢
    rw [List.mem_singleton.1 mem]
    rfl

/-! ### Checks -/

theorem Trailed.entersLine (h : Trailed t m) (line : Nat) :
    m.stepper.entersLine line = true ↔ CheckPoint.Enters ⟨t.active, line⟩ := by
  have lines := h.lines
  obtain ⟨entered, active⟩ := t
  unfold Stepper.entersLine CheckPoint.Enters
  rw [lines]
  cases active with
  | nil => exact ⟨fun _ => nofun, fun _ => rfl⟩
  | cons a rest => exact bne_iff_ne

theorem Stepper.check_stepOver {s : Stepper} (mode : s.mode = .stepOver) (line : Nat) :
    (s.check line).1 =
      if s.pausePending then some .start
      else if s.depth ≤ s.stepDepth then some .step
      else if s.entersLine line ∧ line ∈ s.breakpoints then some .breakpoint
      else none := by
  simp [check, stepDone, mode]

/-! ### The course of a step over -/

/-- A step over that began in `m₀` with the trail `t₀` has passed check points and goes on. -/
structure SteppingOver (t₀ : Trail) (m₀ : Machine) (ps : List CheckPoint) (t : Trail)
    (m : Machine) : Prop where
  trailed : Trailed t m
  standing : m.Standing
  entered : t₀.entered ≤ t.entered
  stands : StandsOver t₀ m₀ t m
  atFirst : m.resuming = true → t.serials = t₀.serials
  mode : m.stepper.mode = .stepOver
  stepDepth : m.stepper.stepDepth = m₀.depth
  breakpoints : m.stepper.breakpoints = m₀.stepper.breakpoints
  pausing : m.stepper.pausePending = true → m₀.stepper.pausePending = true ∧ ps = []
  passed : ∀ p ∈ ps, Passed m₀ p

variable {ps : List CheckPoint}

/-- Calls and returns leave to the stepper what it is to do. -/
theorem Treads.task {calls : Bool} (h : Treads calls t m a) (goesOn : a.outcome = none) :
    a.machine.stepper.mode = m.stepper.mode ∧ a.machine.stepper.stepDepth = m.stepper.stepDepth ∧
      a.machine.stepper.breakpoints = m.stepper.breakpoints ∧
      a.machine.stepper.pausePending = m.stepper.pausePending := by
  cases h with
  | ends status outcome => cases goesOn.symm.trans outcome
  | stays outcome trail trailed stepper | enters may outcome trail trailed stepper
  | leaves below outcome trail trailed stepper | restarts root outcome trail trailed stepper =>
    rw [stepper]
    exact ⟨rfl, rfl, rfl, rfl⟩

theorem SteppingOver.acts {calls : Bool} (h : SteppingOver t₀ m₀ ps t m) (began : Trailed t₀ m₀)
    (active : t₀.serials ≠ []) (deep : calls = true → t₀.serials <:+ t.serials)
    (acts : Acts calls t m a) :
    (∃ status, a.outcome = some (.exited status)) ∨
      a.outcome = none ∧ SteppingOver t₀ m₀ ps (t.hearAll a.emitted) a.machine := by
  refine (h.stands.acts active began.old h.entered deep acts.treads).imp_right ?_
  rintro ⟨goesOn, entered, stands⟩
  obtain ⟨mode, stepDepth, breakpoints, pausePending⟩ := acts.treads.task goesOn
  exact ⟨goesOn,
    { entered, stands
      trailed := acts.treads.trailed_on goesOn
      standing := standing_of_not_resuming acts.active
      atFirst := fun resuming => by cases acts.active.symm.trans resuming
      mode := mode.trans h.mode
      stepDepth := stepDepth.trans h.stepDepth
      breakpoints := breakpoints.trans h.breakpoints
      pausing := fun pausing => h.pausing (pausePending.symm.trans pausing)
      passed := h.passed }⟩

theorem Stepper.check_task (s : Stepper) (line : Nat) :
    (s.check line).2.stepDepth = s.stepDepth ∧ (s.check line).2.breakpoints = s.breakpoints := by
  unfold check atLine
  cases s.lines <;> exact ⟨rfl, rfl⟩

/-- A check point where the step over is not suspended is deeper than where it began. -/
theorem SteppingOver.pass (h : SteppingOver t₀ m₀ ps t m) (began : Trailed t₀ m₀)
    (active : m.resuming = false) (i : Code.Instruction)
    (reason : (m.stepper.check i.location.line).1 = none) :
    t₀.depth < t.depth ∧
      SteppingOver t₀ m₀ (ps ++ [pointAt t i]) (t.atLine i.location.line) (m.checked i) := by
  rw [Stepper.check_stepOver h.mode] at reason
  split_ifs at reason with pausing returned hit
  rw [h.trailed.depth, h.stepDepth, Machine.depth, began.depth] at returned
  have deeper : t₀.depth < t.depth := Nat.not_le.1 returned
  have passed : Passed m₀ (pointAt t i) := by
    refine ⟨lt_of_eq_of_lt began.depth deeper, fun ⟨enters, there⟩ => hit ⟨?_, ?_⟩⟩
    · exact (h.trailed.entersLine _).2 enters
    · exact h.breakpoints ▸ there
  have task := m.stepper.check_task i.location.line
  refine ⟨deeper,
    { trailed := h.trailed.atLine i
      standing := standing_of_not_resuming active
      entered := (t.entered_atLine _).symm ▸ h.entered
      stands := h.stands.congr (t.serials_atLine _) rfl
      atFirst := fun resuming => by cases active.symm.trans resuming
      mode := (m.stepper.check_checked i.location.line).mode.trans h.mode
      stepDepth := task.1.trans h.stepDepth
      breakpoints := task.2.trans h.breakpoints
      pausing := fun pausing => ?_
      passed := ?_ }⟩
  · cases (m.stepper.check_pausePending i.location.line).symm.trans pausing
  · intro p hp
    rcases List.mem_append.1 hp with before | here
    · exact h.passed p before
    · exact List.mem_singleton.1 here ▸ passed

/-- A check point where the step over is suspended. -/
theorem SteppingOver.suspend (h : SteppingOver t₀ m₀ ps t m) (began : Trailed t₀ m₀)
    (i : Code.Instruction) {m' : Machine} (phase : m'.phase = m.phase)
    (frames : m'.frames = m.frames) {reason : SuspendReason}
    (due : (m.stepper.check i.location.line).1 = some reason) {position : Position}
    (here : position.At (pointAt t i)) :
    StepsOver t₀ m₀ m' (ps ++ [pointAt t i]) (.suspended reason position) := by
  have start : m₀.depth = t₀.depth := began.depth
  have frames' : m'.frames.length = (pointAt t i).depth := frames ▸ h.trailed.frames
  rw [Stepper.check_stepOver h.mode] at due
  split_ifs at due with pausing returned hit
  · cases due
    obtain ⟨asked, first⟩ := h.pausing pausing
    subst first
    exact .paused _ position rfl here asked
  · cases due
    rw [h.trailed.depth, h.stepDepth, start] at returned
    have back : ¬t₀.depth < t.depth := Nat.not_lt.2 returned
    refine .step ps _ position rfl h.passed here frames' (start ▸ returned) ?_
      (h.stands.back_of_returned began back _)
    refine (h.stands.returned began.old back).imp (fun old a ha => ?_) (fun restarted => ?_)
    · exact old a.serial (List.mem_map_of_mem ha)
    · exact ⟨restarted.1, phase.trans restarted.2.1, restarted.2.2⟩
  · cases due
    rw [h.trailed.depth, h.stepDepth, start] at returned
    exact .breakpoint ps _ position rfl h.passed here frames' (start ▸ Nat.not_le.1 returned)
      ((h.trailed.entersLine _).1 hit.1) (h.breakpoints ▸ hit.2)

/-- A step takes a step over on or ends it. -/
theorem SteppingOver.step (h : SteppingOver t₀ m₀ ps t m) (began : Trailed t₀ m₀)
    (active : t₀.serials ≠ []) (stop : Bool) :
    let a := m.step stop
    (∃ o, a.outcome = some o ∧ StepsOver t₀ m₀ a.machine (ps ++ t.points a.emitted) o) ∨
      a.outcome = none ∧
        SteppingOver t₀ m₀ (ps ++ t.points a.emitted) (t.hearAll a.emitted) a.machine := by
  intro a
  cases step_treads h.trailed h.standing stop with
  | quiet resuming acts =>
    rw [acts.points, List.append_nil]
    refine (h.acts began active (fun calls => by cases calls) acts).imp_left ?_
    exact fun ⟨status, exited⟩ => ⟨_, exited, .exited status h.passed⟩
  | stopped points outcome =>
    rw [points, List.append_nil]
    exact .inl ⟨_, outcome, .exited _ h.passed⟩
  | resumes resuming acts =>
    rw [acts.points, List.append_nil]
    refine (h.acts began active (fun _ => ?_) acts).imp_left ?_
    · exact h.atFirst resuming ▸ List.suffix_rfl
    · exact fun ⟨status, exited⟩ => ⟨_, exited, .exited status h.passed⟩
  | passes i resuming reason b acts outcome machine points trail =>
    obtain ⟨deeper, next⟩ := h.pass began resuming i reason
    rw [outcome, machine, points, trail]
    refine (next.acts began active (fun _ => ?_) acts).imp_left ?_
    · rw [Trail.serials_atLine]
      exact h.stands.deeper active deeper
    · exact fun ⟨status, exited⟩ => ⟨_, exited, .exited status next.passed⟩
  | suspends i resuming reason position here due outcome machine standing points =>
    rw [points]
    refine .inl ⟨_, outcome, h.suspend began i ?_ ?_ due ⟨here.1, congrArg Location.line here.2⟩⟩
    · exact (congrArg Machine.phase machine :)
    · exact (congrArg Machine.frames machine :)

/-- A run that steps over goes on until the step over ends. -/
theorem SteppingOver.driveUnder (began : Trailed t₀ m₀) (active : t₀.serials ≠ []) (fuel : Nat)
    {t : Trail} {m : Machine} {ps : List CheckPoint} {sent : Array Emission} (stops : Nat → Bool)
    (trail : t₀.hearAll sent.toList = t) (points : t₀.points sent.toList = ps)
    (h : SteppingOver t₀ m₀ ps t m) :
    let r := m.driveUnder stops fuel sent
    StepsOver t₀ m₀ r.1 (t₀.points r.2.1.toList) r.2.2 :=
  driveUnder_course (SteppingOver t₀ m₀) (StepsOver t₀ m₀) (fun h => .unfinished h.passed)
    (fun h => h.step began active) fuel stops trail points h

/-- Where a program is suspended a step over begins. -/
theorem SteppingOver.begins (began : Trailed t₀ m₀) (standing : m₀.Standing) :
    SteppingOver t₀ m₀ [] t₀ { m₀ with stepper := m₀.stepper.resume .stepOver } where
  trailed := began.withStepper rfl rfl
  standing := standing
  entered := Nat.le_refl _
  stands := .back List.suffix_rfl rfl
  atFirst _ := rfl
  mode := rfl
  stepDepth := rfl
  breakpoints := rfl
  pausing asked := ⟨asked, rfl⟩
  passed := nofun

/-- A step over ends at the first check point that is no deeper than where it began, if neither a
pause, a breakpoint nor the end of the run comes before. -/
theorem step_over_returns {image : Image} {max : Nat} {program : List Emission}
    (reached : Reached image max m program) (suspended : m.isSuspended = true) (stops : Nat → Bool)
    (fuel : Nat) :
    let t := ({} : Trail).hearAll program
    let r := m.resumeUnder .stepOver stops fuel
    StepsOver t m r.1 (t.points r.2.1.toList) r.2.2 := by
  intro t r
  obtain ⟨began, standing, resuming, active⟩ := reached.recorded.suspended suspended
  have begun : m.begin = { machine := m } := by
    unfold begin
    obtain phase | phase := began.started <;> rw [phase]
  have run : r =
      Machine.driveUnder stops fuel { m with stepper := m.stepper.resume .stepOver } #[] := by
    change m.resumeUnder .stepOver stops fuel = _
    unfold resumeUnder
    rw [begun]
  rw [run]
  exact (SteppingOver.begins began standing).driveUnder began
    (fun none => active (List.map_eq_nil_iff.1 none)) fuel stops rfl rfl

/-- A program whose entry point calls a function on its first line and returns the result on the
second. -/
def callingOne : Code.Program :=
  let line (n : Nat) : Location := ⟨"one", 0, n, 1⟩
  { name := "one"
    entry := some "main"
    globals := []
    functions :=
      [⟨"$init", ⟨[], .void⟩, [], .body [⟨.ret false, line 1⟩], line 1⟩,
       ⟨"main", ⟨[], .int .i32⟩, [],
        .body [⟨.call "one" 0, line 1⟩, ⟨.ret true, line 2⟩], line 1⟩,
       ⟨"one", ⟨[], .int .i32⟩, [],
        .body [⟨.pushConst (.ofInt .i32 1), line 3⟩, ⟨.ret true, line 3⟩], line 3⟩] }

/-- The program is suspended before the function that sets the globals. -/
def beforeGlobals : Machine × List Emission :=
  afterRequests (.interpreted callingOne Native.Bridge.platform) 10
    [.pause, .resume .run (fun _ => false) 9]

/-- The program is suspended before the entry point calls the function. -/
def beforeCall : Machine × List Emission :=
  afterRequests (.interpreted callingOne Native.Bridge.platform) 10
    [.pause, .resume .run (fun _ => false) 9, .resume .singleStep (fun _ => false) 9]

theorem call_stepped_over :
    let t := ({} : Trail).hearAll beforeCall.2
    let r := beforeCall.1.resumeUnder .stepOver (fun _ => false) 9
    beforeCall.1.isSuspended = true ∧
      t.points r.2.1.toList = [⟨[⟨2, none⟩, ⟨1, some 1⟩], 3⟩, ⟨[⟨2, some 3⟩, ⟨1, some 1⟩], 3⟩,
        ⟨[⟨1, some 1⟩], 2⟩] ∧
      r.2.2 = .suspended .step ⟨"main", 1, ⟨"one", 0, 2, 1⟩, 1⟩ ∧
      StepsOver t beforeCall.1 r.1 (t.points r.2.1.toList) r.2.2 := by
  have suspended : beforeCall.1.isSuspended = true := by decide
  refine ⟨suspended, by decide, by decide +kernel, ?_⟩
  exact step_over_returns (reached_afterRequests _ _ _) suspended (fun _ => false) 9

/-- A step over that begins in the function that sets the globals is done in the entry point, which
was entered since; and with a pause asked for it is suspended for no step. -/
theorem entry_not_stepped_over :
    (let t := ({} : Trail).hearAll beforeGlobals.2
     let r := beforeGlobals.1.resumeUnder .stepOver (fun _ => false) 9
     Reached (.interpreted callingOne Native.Bridge.platform) 10 beforeGlobals.1 beforeGlobals.2 ∧
       beforeGlobals.1.isSuspended = true ∧
       r.2.2 = .suspended .step ⟨"main", 0, ⟨"one", 0, 1, 1⟩, 1⟩ ∧
       t.points r.2.1.toList = [⟨[⟨1, none⟩], 1⟩] ∧ t.entered ≤ 1) ∧
      (let r := (beforeCall.1.answer .pause).machine.resumeUnder .stepOver (fun _ => false) 9
       (beforeCall.1.answer .pause).machine.isSuspended = true ∧
         r.2.2 = .suspended .start ⟨"one", 0, ⟨"one", 0, 3, 1⟩, 2⟩) := by
  refine ⟨⟨reached_afterRequests _ _ _, ?_⟩, ?_⟩
  all_goals decide

end ScriptLang.Machine
