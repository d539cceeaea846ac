import ScriptLang.Proofs.SteppingOver

/-!
# Runs to a return

A run to the return of the innermost function goes on while that function is active, whatever it
calls meanwhile, and ends at the first check point at which it is not, unless a breakpoint comes
first (`run_to_return_returns`).  Activations of the same function are told apart by their serials.
The stepper has noted a return exactly when the function is no longer active (`StandsBack`), for
until then the run is at least as deep as where it began.  A run to a return that ends before is the
same as one that only goes on to the next breakpoint, and so is all that follows (`Alike`).
-/

namespace ScriptLang.Machine

open Machine (Emission)

/-- A check point that a run to the return of an activation passes that began in `m`: the activation
is there, and the run comes to no line with a breakpoint. -/
structure Awaits (top : ScriptLang.Activation) (m : Machine) (p : CheckPoint) : Prop where
  active : top.serial ∈ p.active.map Activation.serial
  missed : ¬(p.Enters ∧ p.line ∈ m.stepper.breakpoints)

/-- How a run to the return of the activation `top` can end that began in the machine `m`, with the
activations `below` under it, after check points `ps`. -/
inductive RunsBack (top : ScriptLang.Activation) (below : List ScriptLang.Activation) (m m' : Machine)
    (ps : List CheckPoint) : Outcome → Prop where
  | exited (status : ExitStatus) (passed : ∀ p ∈ ps, Awaits top m p) :
      RunsBack top below m m' ps (.exited status)
  | unfinished (passed : ∀ p ∈ ps, Awaits top m p) : RunsBack top below m m' ps .unfinished
  /-- The activation is over, and the run is back in those below, or else at the beginning of the
  entry point, for the globals were set. -/
  | step (before : List CheckPoint) (p : CheckPoint) (position : Position)
      (points : ps = before ++ [p]) (passed : ∀ p ∈ before, Awaits top m p) (here : position.At p)
      (frames : m'.frames.length = p.depth)
      (ended : top.serial ∉ p.active.map Activation.serial)
      (back : p.active.map Activation.serial <:+ below.map Activation.serial ∨
        m.phase = .init ∧ m'.phase = .entry ∧ p.depth = 1) :
      RunsBack top below m m' ps (.suspended .step position)
  | breakpoint (before : List CheckPoint) (p : CheckPoint) (position : Position)
      (points : ps = before ++ [p]) (passed : ∀ p ∈ before, Awaits top m p) (here : position.At p)
      (frames : m'.frames.length = p.depth)
      (active : top.serial ∈ p.active.map Activation.serial) (enters : p.Enters)
      (hit : p.line ∈ m.stepper.breakpoints) :
      RunsBack top below m m' ps (.suspended .breakpoint position)
  /-- A pause was asked for while the run was suspended. -/
  | paused (p : CheckPoint) (position : Position) (points : ps = [p]) (here : position.At p)
      (asked : m.stepper.pausePending = true) :
      RunsBack top below m m' ps (.suspended .start position)

/-! ### Where a run to a return stands -/

/-- Where the run is in a run to a return that began in `m₀` with the trail `t₀`: inside the
activation that was innermost then, or out of it. -/
inductive StandsBack (t₀ : Trail) (m₀ : Machine) (t : Trail) (m : Machine) : Prop where
  | inside (suffix : t₀.serials <:+ t.serials) (returned : m.stepper.returned = false)
      (phase : m.phase = m₀.phase)
  | back (suffix : t.serials <:+ t₀.serials.tail) (returned : m.stepper.returned = true)
      (phase : m.phase = m₀.phase)
  | restarted (n : Nat) (young : t₀.entered ≤ n) (alone : t.serials = [n])
      (returned : m.stepper.returned = true) (before : m₀.phase = .init) (phase : m.phase = .entry)

variable {t₀ t : Trail} {m₀ m : Machine} {a : Advance} {top : ScriptLang.Activation}
  {below : List ScriptLang.Activation}

theorem StandsBack.congr {t' : Trail} {m' : Machine} (stands : StandsBack t₀ m₀ t m)
    (serials' : t'.serials = t.serials) (returned' : m'.stepper.returned = m.stepper.returned)
    (phase' : m'.phase = m.phase) : StandsBack t₀ m₀ t' m' := by
  cases stands with
  | inside suffix returned phase =>
    exact .inside (serials'.symm ▸ suffix) (returned'.trans returned) (phase'.trans phase)
  | back suffix returned phase =>
    exact .back (serials'.symm ▸ suffix) (returned'.trans returned) (phase'.trans phase)
  | restarted n young alone returned before phase =>
    exact .restarted n young (serials'.trans alone) (returned'.trans returned) before
      (phase'.trans phase)

/-- In a run to a return the stepper notes returns from where it began or from above. -/
theorem Stepper.leave_returned {s : Stepper} (mode : s.mode = .runToReturn) :
    s.leave.returned = (s.returned || decide (s.depth ≤ s.stepDepth)) := by
  rw [leave, mode]
  rfl

/-- A function returns: the one that is awaited exactly when the run is where it began. -/
theorem StandsBack.leave {m' : Machine} (stands : StandsBack t₀ m₀ t m)
    (mode : m.stepper.mode = .runToReturn) (deep : m.stepper.depth = t.depth)
    (began : m.stepper.stepDepth = t₀.depth) (below : t.leave.active ≠ [])
    (stepper' : m'.stepper = m.stepper.leave) (phase' : m'.phase = m.phase) :
    StandsBack t₀ m₀ t.leave m' := by
  have returned' := congrArg Stepper.returned stepper'
  rw [Stepper.leave_returned mode, deep, began] at returned'
  cases stands with
  | inside suffix returned phase =>
    rw [returned, Bool.false_or] at returned'
    rw [← Trail.length_serials, ← Trail.length_serials] at returned'
    by_cases longer : t.serials.length ≤ t₀.serials.length
    · refine .back ?_ (returned'.trans (decide_eq_true longer)) (phase'.trans phase)
      have same : t.leave.serials = t₀.serials.tail := by
        rw [Trail.serials_leave, suffix.eq_of_length_le longer]
      exact same ▸ List.suffix_rfl
    · refine .inside ?_ (returned'.trans (decide_eq_false longer)) (phase'.trans phase)
      rw [Trail.serials_leave]
      obtain ⟨newer, serials⟩ := suffix
      rw [← serials] at longer ⊢
      cases newer with
      | nil => exact absurd (Nat.le_refl _) longer
      | cons n newer => exact List.suffix_append newer t₀.serials
  | back suffix returned phase =>
    rw [returned, Bool.true_or] at returned'
    refine .back ?_ returned' (phase'.trans phase)
    rw [Trail.serials_leave]
    exact t.serials.tail_suffix.trans suffix
  | restarted n young alone =>
    have none : t.leave.serials = [] := by
      rw [Trail.serials_leave, alone]
      rfl
    exact absurd (List.map_eq_nil_iff.1 none) below

/-- When the globals are set the entry point is alone, and the function that is awaited has returned.
-/
theorem StandsBack.restart {m' : Machine} (stands : StandsBack t₀ m₀ t m) (active : t₀.serials ≠ [])
    (mode : m.stepper.mode = .runToReturn) (deep : m.stepper.depth = t.depth)
    (began : m.stepper.stepDepth = t₀.depth) (entered : t₀.entered ≤ t.entered)
    (root : t.leave.active = []) (stepper' : m'.stepper = m.stepper.leave.enter)
    (before' : m.phase = .init) (phase' : m'.phase = .entry) :
    StandsBack t₀ m₀ t.leave.enter m' := by
  have alone : t.leave.enter.serials = [t.entered] := by
    rw [Trail.serials_enter, Trail.serials, root]
    rfl
  have single : t.depth ≤ t₀.depth := by
    have length := congrArg List.length root
    rw [Trail.leave, List.length_tail] at length
    have some := List.length_pos_of_ne_nil active
    rw [Trail.length_serials] at some
    exact Nat.le_trans (Nat.le_of_sub_eq_zero length) some
  have returned' : m'.stepper.returned = true := by
    have returned' := congrArg Stepper.returned stepper'
    change _ = m.stepper.leave.returned at returned'
    rw [returned', Stepper.leave_returned mode, deep, began, decide_eq_true single, Bool.or_true]
  cases stands with
  | inside _ _ phase | back _ _ phase =>
    exact .restarted t.entered entered alone returned' (phase ▸ before') phase'
  | restarted _ _ _ _ before phase => cases before'.symm.trans phase

/-- The stepper knows whether the activation that was innermost is over. -/
theorem StandsBack.mem_iff (stands : StandsBack t₀ m₀ t m) (began : Trailed t₀ m₀)
    (active : t₀.active = top :: below) :
    top.serial ∈ t.serials ↔ m.stepper.returned = false := by
  have first : t₀.serials = top.serial :: below.map Activation.serial := by
    rw [Trail.serials, active]
    rfl
  have order := began.order
  have old := began.old top.serial (first ▸ List.mem_cons_self)
  rw [first, List.pairwise_cons] at order
  cases stands with
  | inside suffix returned =>
    exact iff_of_true (suffix.subset (first ▸ List.mem_cons_self)) returned
  | back suffix returned =>
    rw [first] at suffix
    refine iff_of_false (fun mem => ?_) (by simp [returned])
    exact Nat.lt_irrefl _ (order.1 _ (suffix.subset mem))
  | restarted n young alone returned =>
    refine iff_of_false (fun mem => ?_) (by simp [returned])
    rw [alone, List.mem_singleton] at mem
    exact Nat.lt_irrefl _ (Nat.lt_of_lt_of_le (mem ▸ old) young)

/-- Once the activation is over, the run is in those below, or in the entry point. -/
theorem StandsBack.ended (stands : StandsBack t₀ m₀ t m) (active : t₀.active = top :: below)
    (returned : m.stepper.returned = true) :
    t.serials <:+ below.map Activation.serial ∨
      m₀.phase = .init ∧ m.phase = .entry ∧ t.depth = 1 := by
  cases stands with
  | inside _ returned' => cases returned'.symm.trans returned
  | back suffix =>
    have rest : t₀.serials.tail = below.map Activation.serial := by
      rw [Trail.serials, active]
      rfl
    exact .inl (rest ▸ suffix)
  | restarted n young alone _ before phase =>
    rw [← Trail.length_serials, alone]
    exact .inr ⟨before, phase, rfl⟩

/-! ### The course of a run to a return -/

theorem Stepper.check_runToReturn {s : Stepper} (mode : s.mode = .runToReturn) (line : Nat) :
    (s.check line).1 =
      if s.pausePending then some .start
      else if s.returned then some .step
      else if s.entersLine line ∧ line ∈ s.breakpoints then some .breakpoint
      else none := by
  simp [check, stepDone, mode]

/-- A run to the return of `top` that began in `m₀` with the trail `t₀` has passed check points and
goes on. -/
structure RunningBack (top : ScriptLang.Activation) (t₀ : Trail) (m₀ : Machine) (ps : List CheckPoint)
    (t : Trail) (m : Machine) : Prop where
  trailed : Trailed t m
  standing : m.Standing
  entered : t₀.entered ≤ t.entered
  stands : StandsBack t₀ m₀ t m
  atFirst : m.resuming = true → m.stepper.returned = false
  mode : m.stepper.mode = .runToReturn
  stepDepth : m.stepper.stepDepth = t₀.depth
  breakpoints : m.stepper.breakpoints = m₀.stepper.breakpoints
  pausing : m.stepper.pausePending = true → m₀.stepper.pausePending = true ∧ ps = []
  passed : ∀ p ∈ ps, Awaits top m₀ p

variable {ps : List CheckPoint}

/-- A move keeps to these places.  Functions are called only while the activation is there. -/
theorem RunningBack.stands_of_treads {calls : Bool} (h : RunningBack top t₀ m₀ ps t m)
    (active : t₀.serials ≠ []) (inside : calls = true → m.stepper.returned = false)
    (treads : Treads calls t m a) :
    (∃ status, a.outcome = some (.exited status)) ∨
      a.outcome = none ∧ t₀.entered ≤ (t.hearAll a.emitted).entered ∧
        StandsBack t₀ m₀ (t.hearAll a.emitted) a.machine := by
  have deep := h.trailed.depth
  cases treads with
  | ends status outcome => exact .inl ⟨status, outcome⟩
  | stays outcome trail trailed stepper phase' =>
    rw [trail]
    exact .inr ⟨outcome, h.entered, h.stands.congr rfl (congrArg Stepper.returned stepper) phase'⟩
  | enters may outcome trail trailed stepper phase' =>
    rw [trail]
    refine .inr ⟨outcome, Nat.le_succ_of_le h.entered, ?_⟩
    have returned := inside may
    cases h.stands with
    | inside suffix _ phase =>
      refine .inside (suffix.trans (List.suffix_cons _ _)) ?_ (phase'.trans phase)
      rw [stepper]
      exact returned
    | back _ returned' | restarted _ _ _ returned' => cases returned.symm.trans returned'
  | leaves below outcome trail trailed stepper phase' =>
    rw [trail]
    have left := h.stands.leave h.mode deep h.stepDepth below stepper phase'
    exact .inr ⟨outcome, h.entered, left⟩
  | restarts root outcome trail trailed stepper before' phase' =>
    rw [trail]
    have anew := h.stands.restart active h.mode deep h.stepDepth h.entered root stepper before' phase'
    exact .inr ⟨outcome, Nat.le_succ_of_le h.entered, anew⟩

theorem RunningBack.acts {calls : Bool} (h : RunningBack top t₀ m₀ ps t m)
    (active : t₀.serials ≠ []) (inside : calls = true → m.stepper.returned = false)
    (acts : Acts calls t m a) :
    (∃ status, a.outcome = some (.exited status)) ∨
      a.outcome = none ∧ RunningBack top t₀ m₀ ps (t.hearAll a.emitted) a.machine := by
  refine (h.stands_of_treads active inside acts.treads).imp_right ?_
  rintro ⟨goesOn, entered, stands⟩
  obtain ⟨mode, stepDepth, breakpoints, pausePending⟩ := acts.treads.task goesOn
  exact ⟨goesOn,
    { entered, stands
      trailed := acts.treads.trailed_on goesOn
      standing := standing_of_not_resuming acts.active
      atFirst := fun resuming => by cases acts.active.symm.trans resuming
      mode := mode.trans h.mode
      stepDepth := stepDepth.trans h.stepDepth
      breakpoints := breakpoints.trans h.breakpoints
      pausing := fun pausing => h.pausing (pausePending.symm.trans pausing)
      passed := h.passed }⟩

theorem Stepper.check_returned (s : Stepper) (line : Nat) :
    (s.check line).2.returned = s.returned := by
  unfold check atLine
  cases s.lines <;> rfl

/-- Where the run is not suspended the activation is still there. -/
theorem RunningBack.pass (h : RunningBack top t₀ m₀ ps t m) (began : Trailed t₀ m₀)
    (first : t₀.active = top :: below) (active : m.resuming = false) (i : Code.Instruction)
    (reason : (m.stepper.check i.location.line).1 = none) :
    m.stepper.returned = false ∧
      RunningBack top t₀ m₀ (ps ++ [pointAt t i]) (t.atLine i.location.line) (m.checked i) := by
  rw [Stepper.check_runToReturn h.mode] at reason
  split_ifs at reason with pausing returned hit
  have inside : m.stepper.returned = false := Bool.eq_false_iff.2 returned
  have awaits : Awaits top m₀ (pointAt t i) := by
    refine ⟨(h.stands.mem_iff began first).2 inside, fun ⟨enters, there⟩ => hit ⟨?_, ?_⟩⟩
    · exact (h.trailed.entersLine _).2 enters
    · exact h.breakpoints ▸ there
  have task := m.stepper.check_task i.location.line
  refine ⟨inside,
    { trailed := h.trailed.atLine i
      standing := standing_of_not_resuming active
      entered := (t.entered_atLine _).symm ▸ h.entered
      stands := h.stands.congr (t.serials_atLine _) (m.stepper.check_returned _) rfl
      atFirst := fun resuming => by cases active.symm.trans resuming
      mode := (m.stepper.check_checked i.location.line).mode.trans h.mode
      stepDepth := task.1.trans h.stepDepth
      breakpoints := task.2.trans h.breakpoints
      pausing := fun pausing => ?_
      passed := ?_ }⟩
  · cases (m.stepper.check_pausePending i.location.line).symm.trans pausing
  · intro p hp
    rcases List.mem_append.1 hp with before | here
    · exact h.passed p before
    · exact List.mem_singleton.1 here ▸ awaits

/-- A check point where the run is suspended. -/
theorem RunningBack.suspend (h : RunningBack top t₀ m₀ ps t m) (began : Trailed t₀ m₀)
    (first : t₀.active = top :: below) (i : Code.Instruction) {m' : Machine}
    (phase : m'.phase = m.phase) (frames : m'.frames = m.frames) {reason : SuspendReason}
    (due : (m.stepper.check i.location.line).1 = some reason) {position : Position}
    (here : position.At (pointAt t i)) :
    RunsBack top below m₀ m' (ps ++ [pointAt t i]) (.suspended reason position) := by
  have frames' : m'.frames.length = (pointAt t i).depth := frames ▸ h.trailed.frames
  have there := h.stands.mem_iff began first
  rw [Stepper.check_runToReturn h.mode] at due
  split_ifs at due with pausing returned hit
  · cases due
    obtain ⟨asked, none⟩ := h.pausing pausing
    subst none
    exact .paused _ position rfl here asked
  · cases due
    refine .step ps _ position rfl h.passed here frames' (fun mem => ?_) ?_
    · cases returned.symm.trans (there.1 mem)
    · exact (h.stands.ended first returned).imp_right fun restarted =>
        ⟨restarted.1, phase.trans restarted.2.1, restarted.2.2⟩
  · cases due
    exact .breakpoint ps _ position rfl h.passed here frames'
      (there.2 (Bool.eq_false_iff.2 returned)) ((h.trailed.entersLine _).1 hit.1)
      (h.breakpoints ▸ hit.2)

/-- A step takes a run to a return on or ends it. -/
theorem RunningBack.step (h : RunningBack top t₀ m₀ ps t m) (began : Trailed t₀ m₀)
    (first : t₀.active = top :: below) (stop : Bool) :
    let a := m.step stop
    (∃ o, a.outcome = some o ∧ RunsBack top below m₀ a.machine (ps ++ t.points a.emitted) o) ∨
      a.outcome = none ∧
        RunningBack top t₀ m₀ (ps ++ t.points a.emitted) (t.hearAll a.emitted) a.machine := by
  intro a
  have active : t₀.serials ≠ [] := by
    rw [Trail.serials, first]
    exact List.cons_ne_nil _ _
  cases step_treads h.trailed h.standing stop with
  | quiet resuming acts =>
    rw [acts.points, List.append_nil]
    refine (h.acts active (fun calls => by cases calls) acts).imp_left ?_
    rintro ⟨status, exited⟩
    exact ⟨_, exited, .exited status h.passed⟩
  | stopped points outcome =>
    rw [points, List.append_nil]
    exact .inl ⟨_, outcome, .exited _ h.passed⟩
  | resumes resuming acts =>
    rw [acts.points, List.append_nil]
    refine (h.acts active (fun _ => h.atFirst resuming) acts).imp_left ?_
    rintro ⟨status, exited⟩
    exact ⟨_, exited, .exited status h.passed⟩
  | passes i resuming reason b acts outcome machine points trail =>
    obtain ⟨inside, next⟩ := h.pass began first resuming i reason
    rw [outcome, machine, points, trail]
    refine (next.acts active (fun _ => ?_) acts).imp_left ?_
    · exact (m.stepper.check_returned _).trans inside
    · rintro ⟨status, exited⟩
      exact ⟨_, exited, .exited status next.passed⟩
  | suspends i resuming reason position here due outcome machine standing points =>
    rw [points]
    refine .inl ⟨_, outcome, h.suspend began first i ?_ ?_ due
      ⟨here.1, congrArg Location.line here.2⟩⟩
    · exact (congrArg Machine.phase machine :)
    · exact (congrArg Machine.frames machine :)

/-- Where a program is suspended a run to a return begins. -/
theorem RunningBack.begins (began : Trailed t₀ m₀) (standing : m₀.Standing) :
    RunningBack top t₀ m₀ [] t₀ { m₀ with stepper := m₀.stepper.resume .runToReturn } where
  trailed := began.withStepper rfl rfl
  standing := standing
  entered := Nat.le_refl _
  stands := .inside List.suffix_rfl rfl rfl
  atFirst _ := rfl
  mode := rfl
  stepDepth := began.depth
  breakpoints := rfl
  pausing asked := ⟨asked, rfl⟩
  passed := nofun

/-! ### What a run was resumed for -/

/-- The machine without what it was resumed for. -/
def unasked (m : Machine) : Machine := { m with stepper := m.stepper.resume .run }

/-- Two machines differ at most in what they were resumed for. -/
def Alike (m c : Machine) : Prop := m.unasked = c.unasked

variable {c : Machine} {b : Advance}

theorem Alike.eq (h : Alike m c) : m.unasked = c.unasked := h

theorem Alike.plain (h : Alike m c) : m.plain = c.plain := (congrArg Machine.plain h.eq :)

theorem Alike.resuming (h : Alike m c) : m.resuming = c.resuming :=
  (congrArg Machine.resuming h.eq :)

theorem Alike.pending? (h : Alike m c) : m.pending? = c.pending? :=
  (congrArg Machine.pending? h.eq :)

theorem Alike.phase (h : Alike m c) : m.phase = c.phase := (congrArg Machine.phase h.eq :)

theorem Alike.stepper (h : Alike m c) : m.stepper.resume .run = c.stepper.resume .run :=
  (congrArg Machine.stepper h.eq :)

/-- What the stepper remembers of a run is the same in machines that are alike. -/
theorem alike_of_plain (plain : m.plain = c.plain) (resuming : m.resuming = c.resuming)
    (lines : m.stepper.lines = c.stepper.lines)
    (breakpoints : m.stepper.breakpoints = c.stepper.breakpoints)
    (pausePending : m.stepper.pausePending = c.stepper.pausePending) : Alike m c := by
  have depth : m.stepper.depth = c.stepper.depth := congrArg (fun m => m.stepper.depth) plain
  have stepper : m.stepper.resume .run = c.stepper.resume .run := by
    unfold Stepper.resume
    rw [depth, lines, breakpoints, pausePending]
  calc m.unasked
      = { m.plain with stepper := m.stepper.resume .run, resuming := m.resuming } := rfl
    _ = { c.plain with stepper := c.stepper.resume .run, resuming := c.resuming } := by
      rw [plain, stepper, resuming]
    _ = c.unasked := rfl

/-- What changes nothing of what a run is resumed for keeps machines alike. -/
theorem Alike.withStepper (h : Alike m c) (f : Stepper → Stepper)
    (keeps : ∀ s, (f s).resume .run = f (s.resume .run)) :
    Alike { m with stepper := f m.stepper } { c with stepper := f c.stepper } := by
  have changed := congrArg (fun m : Machine => { m with stepper := f m.stepper }) h.eq
  unfold Alike unasked
  rw [keeps, keeps]
  exact changed

/-- A run that is resumed depends on nothing that it was resumed for before. -/
theorem Alike.resumeUnder (h : Alike m c) (started : m.Started) (mode : Mode) (stops : Nat → Bool)
    (fuel : Nat) : m.resumeUnder mode stops fuel = c.resumeUnder mode stops fuel := by
  have started' : c.Started := by
    unfold Started
    rw [← h.phase]
    exact started
  have resumed := congrArg (fun m : Machine => { m with stepper := m.stepper.resume mode }) h.eq
  rw [resumeUnder_of_started started, resumeUnder_of_started started']
  exact congrArg (fun m => Machine.driveUnder stops fuel m #[]) resumed

/-- Two transcripts show the same, and leave machines alike. -/
structure Transcript.Alike (t t' : Transcript) : Prop where
  outcomes : t.outcomes = t'.outcomes
  sent : t.sent = t'.sent
  machine : Machine.Alike t.machine t'.machine

theorem Stepper.addBreakpoint_resume (s : Stepper) (line : Nat) :
    (s.addBreakpoint line).2.resume .run = ((s.resume .run).addBreakpoint line).2 := by
  cases there : s.breakpoints.contains line <;>
    simp only [addBreakpoint, resume, there, if_true, Bool.false_eq_true, if_false]

/-- Whatever is asked of machines that are alike, the answers are. -/
theorem Alike.answers : ∀ {m c : Machine}, Alike m c → m.Started → ∀ rs : List Request,
    List.Forall₂ Transcript.Alike (m.answers rs) (c.answers rs)
  | _, _, _, _, [] => .nil
  | m, c, h, started, .resume mode stops fuel :: rs => by
    have same : m.answer (.resume mode stops fuel) = c.answer (.resume mode stops fuel) :=
      congrArg (fun r : Machine × Array Emission × Outcome =>
        ({ machine := r.1, sent := r.2.1.toList, outcomes := [r.2.2] } : Transcript))
        (h.resumeUnder started mode stops fuel)
    rw [Machine.answers, Machine.answers, same]
    exact .cons ⟨rfl, rfl, rfl⟩ (List.forall₂_same.2 fun _ _ => ⟨rfl, rfl, rfl⟩)
  | m, c, h, started, .pause :: rs =>
    have next : Alike m.pauseAtStart c.pauseAtStart := h.withStepper Stepper.pause fun _ => rfl
    .cons ⟨rfl, rfl, next⟩ (next.answers started rs)
  | m, c, h, started, .addBreakpoint line :: rs =>
    have next : Alike (m.answer (.addBreakpoint line)).machine
        (c.answer (.addBreakpoint line)).machine :=
      h.withStepper (fun s => (s.addBreakpoint line).2) fun s => s.addBreakpoint_resume line
    .cons ⟨rfl, rfl, next⟩ (next.answers started rs)
  | m, c, h, started, .removeBreakpoint line :: rs =>
    have next : Alike (m.answer (.removeBreakpoint line)).machine
        (c.answer (.removeBreakpoint line)).machine :=
      h.withStepper (fun s => (s.removeBreakpoint line).2) fun _ => rfl
    .cons ⟨rfl, rfl, next⟩ (next.answers started rs)

/-- Moves of machines that are alike, and send the same, leave them alike. -/
theorem Acts.alike {calls : Bool} (h : Alike m c) (same : a.plain = b.plain)
    (acts : Acts calls t m a) (acts' : Acts calls t c b) (goesOn : a.outcome = none) :
    Alike a.machine b.machine := by
  obtain ⟨plain, emitted, outcome⟩ := Advance.of_plain_eq same
  have goesOn' := outcome.symm.trans goesOn
  have trailed := acts.treads.trailed_on goesOn
  have trailed' := acts'.treads.trailed_on goesOn'
  rw [← emitted] at trailed'
  have task := (acts.treads.task goesOn).2.2
  have task' := (acts'.treads.task goesOn').2.2
  have breakpoints := congrArg Stepper.breakpoints h.stepper
  have pausePending := congrArg Stepper.pausePending h.stepper
  exact alike_of_plain plain (acts.active.trans acts'.active.symm)
    (trailed.lines.trans trailed'.lines.symm)
    (task.1.trans (breakpoints.trans task'.1.symm))
    (task.2.trans (pausePending.trans task'.2.symm))

/-! ### Beside a run to the next breakpoint -/

/-- Two moves send the same and stand the same, and leave machines alike unless they end the run. -/
structure Advance.Alike (a b : Advance) : Prop where
  emitted : a.emitted = b.emitted
  outcome : a.outcome = b.outcome
  machine : (∀ status, a.outcome ≠ some (.exited status)) → Machine.Alike a.machine b.machine

theorem Advance.Alike.after (h : Advance.Alike a b) (sent : List Emission) :
    Advance.Alike (a.after sent) (b.after sent) :=
  ⟨congrArg (sent ++ ·) h.emitted, h.outcome, h.machine⟩

theorem Acts.alikeAdvance {calls : Bool} (h : Alike m c) (same : a.plain = b.plain)
    (acts : Acts calls t m a) (acts' : Acts calls t c b) : Advance.Alike a b := by
  obtain ⟨-, emitted, outcome⟩ := Advance.of_plain_eq same
  refine ⟨emitted, outcome, fun unended => acts.alike h same acts' ?_⟩
  rcases acts.treads.trailed with ⟨status, exited, -⟩ | ⟨goesOn, -⟩
  · exact absurd exited (unended status)
  · exact goesOn

theorem Alike.checked (h : Alike m c) (i : Code.Instruction) : Alike (m.checked i) (c.checked i) :=
  h.withStepper (fun s => (s.check i.location.line).2)
    fun ⟨_, _, _, _, _, _, lines⟩ => by cases lines <;> rfl

/-- A check for a return that has not come is one for a breakpoint. -/
theorem Alike.check (h : Alike m c) (mode : m.stepper.mode = .runToReturn)
    (mode' : c.stepper.mode = .continue) {line : Nat}
    (unreturned : (m.stepper.check line).1 ≠ some .step) :
    (m.stepper.check line).1 = (c.stepper.check line).1 := by
  have lines : m.stepper.lines = c.stepper.lines := (congrArg Stepper.lines h.stepper :)
  have breakpoints : m.stepper.breakpoints = c.stepper.breakpoints :=
    (congrArg Stepper.breakpoints h.stepper :)
  have pausePending : m.stepper.pausePending = c.stepper.pausePending :=
    (congrArg Stepper.pausePending h.stepper :)
  have enters : m.stepper.entersLine line = c.stepper.entersLine line := by
    unfold Stepper.entersLine
    rw [lines]
  have check' : (c.stepper.check line).1 =
      if m.stepper.pausePending then some .start
      else if m.stepper.entersLine line ∧ line ∈ m.stepper.breakpoints then some .breakpoint
      else none := by
    rw [pausePending, enters, breakpoints]
    simp [Stepper.check, Stepper.stepDone, mode']
  rw [Stepper.check_runToReturn mode] at unreturned ⊢
  rw [check']
  split_ifs at unreturned ⊢ <;> trivial

/-- A machine that runs to a return, and one like it that runs to the next breakpoint. -/
structure Beside (t : Trail) (m c : Machine) : Prop where
  alike : Alike m c
  trailed : Trailed t m
  trailed' : Trailed t c
  standing : m.Standing
  mode : m.stepper.mode = .runToReturn
  mode' : c.stepper.mode = .continue

theorem Beside.checkAndPerform (h : Beside t m c) (active : m.resuming = false) {context : Context}
    {i : Code.Instruction} (next : m.pending? = some (context, i))
    (unreturned : (m.stepper.check i.location.line).1 ≠ some .step) :
    Advance.Alike (m.checkAndPerform context i) (c.checkAndPerform context i) := by
  have active' := h.alike.resuming.symm.trans active
  have next' := h.alike.pending?.symm.trans next
  have checked := h.alike.checked i
  have message : m.instructionMessage .onInstruction context.function context.index i =
      c.instructionMessage .onInstruction context.function context.index i := by
    unfold instructionMessage depth
    rw [h.trailed.depth, h.trailed'.depth]
  have check := h.alike.check h.mode h.mode' unreturned
  cases due : (m.stepper.check i.location.line).1 with
  | none =>
    rw [checkAndPerform_of_none due, checkAndPerform_of_none (check.symm.trans due), message]
    refine Advance.Alike.after ?_ _
    exact Acts.alikeAdvance checked (perform_congr checked.plain context i)
      (perform_acts (h.trailed.atLine i) active (pending?_eq_some next).2)
      (perform_acts (h.trailed'.atLine i) active' (pending?_eq_some next').2)
  | some reason =>
    have depth : (m.checked i).depth = (c.checked i).depth :=
      (congrArg Stepper.depth checked.stepper :)
    have position : (m.checked i).positionAt context.function context.index i =
        (c.checked i).positionAt context.function context.index i := by
      unfold positionAt
      rw [depth]
    unfold Machine.checkAndPerform
    dsimp only
    rw [due, ← check, due, message]
    refine ⟨rfl, congrArg (fun p => some (Outcome.suspended reason p)) position, fun _ => ?_⟩
    exact (congrArg (fun m : Machine => { m with resuming := true }) checked.eq :)

/-- A run is told to stop before an instruction, or not at all. -/
theorem step_eq_of_not_pending (h : m.pending? = none) (stop : Bool) : m.step stop = m.step false := by
  unfold Machine.pending? at h
  unfold Machine.step
  cases frames : m.frames with
  | nil => rfl
  | cons frame below =>
    dsimp only
    cases function : m.image.function? frame.function with
    | none => rfl
    | some f =>
      dsimp only
      cases here : f.code[frame.next]? with
      | none => rfl
      | some i =>
        dsimp only
        by_cases label : i.op.isLabel = true
        · rw [if_pos label, if_pos label]
        · simp [frames, function, here, label] at h

/-- Until the activation has returned, the steps are the same. -/
theorem Beside.step (h : Beside t m c) (stop : Bool)
    (unreturned : ∀ position, (m.step stop).outcome ≠ some (.suspended .step position)) :
    Advance.Alike (m.step stop) (c.step stop) := by
  have started := h.trailed.started
  cases next : m.pending? with
  | none =>
    have next' := h.alike.pending?.symm.trans next
    have active : m.resuming = false := by
      cases resuming : m.resuming with
      | false => rfl
      | true =>
        obtain ⟨context, i, there⟩ := h.standing resuming
        cases next.symm.trans there
    refine Acts.alikeAdvance h.alike ?_ (quiet_acts h.trailed active next stop)
      (quiet_acts h.trailed' (h.alike.resuming.symm.trans active) next' stop)
    rw [step_eq_of_not_pending next, step_eq_of_not_pending next',
      ← (step_of_not_pending started next).1, h.alike.plain,
      (step_of_not_pending h.trailed'.started next').1]
  | some pending =>
    obtain ⟨context, i⟩ := pending
    have next' := h.alike.pending?.symm.trans next
    cases stop with
    | true =>
      rw [step_true_of_pending next, step_true_of_pending next']
      exact ⟨rfl, rfl, fun unended => absurd rfl (unended _)⟩
    | false =>
      rw [step_eq_of_pending next] at unreturned ⊢
      rw [step_eq_of_pending next', ← h.alike.resuming]
      cases resuming : m.resuming with
      | true =>
        rw [if_pos rfl, if_pos rfl]
        have resumed : Alike { m with resuming := false } { c with resuming := false } :=
          (congrArg (fun m : Machine => { m with resuming := false }) h.alike.eq :)
        exact Acts.alikeAdvance resumed (perform_congr resumed.plain context i)
          (perform_acts { h.trailed with } rfl (pending?_eq_some next).2)
          (perform_acts { h.trailed' with } rfl (pending?_eq_some next').2)
      | false =>
        rw [resuming, if_neg Bool.false_ne_true] at unreturned
        rw [if_neg Bool.false_ne_true, if_neg Bool.false_ne_true]
        refine h.checkAndPerform resuming next fun due => ?_
        unfold Machine.checkAndPerform at unreturned
        dsimp only at unreturned
        rw [due] at unreturned
        exact unreturned _ rfl

theorem Steps.mode (steps : Steps t m a) (goesOn : a.outcome = none) :
    a.machine.stepper.mode = m.stepper.mode := by
  cases steps with
  | quiet _ acts | resumes _ acts => exact (acts.treads.task goesOn).1
  | stopped _ outcome => cases goesOn.symm.trans outcome
  | passes i _ _ b acts outcome machine =>
    rw [machine]
    exact (acts.treads.task (outcome.symm.trans goesOn)).1.trans (m.stepper.check_checked _).mode
  | suspends _ _ _ _ _ _ outcome => cases goesOn.symm.trans outcome

theorem Beside.goesOn (h : Beside t m c) {stop : Bool}
    (same : Advance.Alike (m.step stop) (c.step stop)) (goesOn : (m.step stop).outcome = none) :
    Beside (t.hearAll (m.step stop).emitted) (m.step stop).machine (c.step stop).machine := by
  have goesOn' := same.outcome.symm.trans goesOn
  have standing' : c.Standing := fun resuming => by
    obtain ⟨context, i, next⟩ := h.standing (h.alike.resuming.trans resuming)
    exact ⟨context, i, h.alike.pending?.symm.trans next⟩
  have steps := step_treads h.trailed h.standing stop
  have steps' := step_treads h.trailed' standing' stop
  have alike := same.machine fun status exited => by cases goesOn.symm.trans exited
  obtain ⟨trailed, standing⟩ := steps.trailed_on h.trailed goesOn
  obtain ⟨trailed', -⟩ := steps'.trailed_on h.trailed' goesOn'
  exact { alike, trailed, standing
          trailed' := same.emitted ▸ trailed'
          mode := (steps.mode goesOn).trans h.mode
          mode' := (steps'.mode goesOn').trans h.mode' }

/-- A run to a return that is suspended for another reason is the same as one to the next breakpoint.
-/
theorem Beside.driveUnder : ∀ (fuel : Nat) {t : Trail} {m c : Machine} {sent : Array Emission}
    (stops : Nat → Bool), Beside t m c →
    let r := m.driveUnder stops fuel sent
    let s := c.driveUnder stops fuel sent
    (∀ position, r.2.2 ≠ .suspended .step position) →
      s.2 = r.2 ∧ ((∀ status, r.2.2 ≠ .exited status) → r.1.Started ∧ Alike r.1 s.1)
  | 0, _, _, _, _, _, h => fun _ => ⟨rfl, fun _ => ⟨h.trailed.started, h.alike⟩⟩
  | fuel + 1, t, m, c, sent, stops, h => by
    intro r s unreturned
    have step := h.step (stops 0)
    cases outcome : (m.step (stops 0)).outcome with
    | some o =>
      have r_eq : r = _ := driveUnder_of_some outcome fuel sent
      rw [r_eq] at unreturned ⊢
      have same := step fun position suspended =>
        unreturned position (Option.some.inj (outcome.symm.trans suspended))
      have s_eq : s = _ := driveUnder_of_some (same.outcome.symm.trans outcome) fuel sent
      rw [s_eq, ← same.emitted]
      refine ⟨rfl, fun unended => ?_⟩
      have unended' (status : ExitStatus) : (m.step (stops 0)).outcome ≠ some (.exited status) :=
        fun exited => unended status (Option.some.inj (outcome.symm.trans exited))
      rcases (step_treads h.trailed h.standing (stops 0)).trailed h.trailed with
        ⟨status, exited, -⟩ | ⟨trailed, -⟩
      · exact absurd exited (unended' status)
      · exact ⟨trailed.started, same.machine unended'⟩
    | none =>
      have same := step fun position suspended => by cases outcome.symm.trans suspended
      have r_eq : r = _ := driveUnder_of_none outcome fuel sent
      have s_eq : s = _ := driveUnder_of_none (same.outcome.symm.trans outcome) fuel sent
      rw [r_eq] at unreturned ⊢
      rw [s_eq, ← same.emitted]
      exact (h.goesOn same outcome).driveUnder fuel _ unreturned

/-- A run to a return ends at the first check point at which the function that was innermost is no
longer active, if neither a pause, a breakpoint nor the end of the run comes before.  If it is
suspended for one of these, it is as if it had only been told to go on, and so is whatever is asked
later. -/
theorem run_to_return_returns {image : Image} {max : Nat} {program : List Emission}
    (reached : Reached image max m program) (suspended : m.isSuspended = true) (stops : Nat → Bool)
    (fuel : Nat) :
    let t := ({} : Trail).hearAll program
    let r := m.resumeUnder .runToReturn stops fuel
    let s := m.resumeUnder .continue stops fuel
    ∃ top below, t.active = top :: below ∧
      RunsBack top below m r.1 (t.points r.2.1.toList) r.2.2 ∧
      ∀ reason position, r.2.2 = .suspended reason position → reason ≠ .step →
        s.2 = r.2 ∧ ∀ rs, List.Forall₂ Transcript.Alike (r.1.answers rs) (s.1.answers rs) := by
  intro t r s
  obtain ⟨began, standing, resuming, active⟩ := reached.recorded.suspended suspended
  obtain ⟨top, below, first⟩ := List.exists_cons_of_ne_nil active
  have r_eq : r = _ := resumeUnder_of_started began.started .runToReturn stops fuel
  have s_eq : s = _ := resumeUnder_of_started began.started .continue stops fuel
  refine ⟨top, below, first, ?_, fun reason position outcome unreturned => ?_⟩
  · rw [r_eq]
    exact driveUnder_course (RunningBack top t m) (RunsBack top below m)
      (fun h => .unfinished h.passed) (fun h => h.step began first) fuel stops rfl rfl
      (.begins began standing)
  · have beside : Beside t { m with stepper := m.stepper.resume .runToReturn }
        { m with stepper := m.stepper.resume .continue } :=
      ⟨rfl, began.withStepper rfl rfl, began.withStepper rfl rfl, standing, rfl, rfl⟩
    have unstepped (position : Position) : r.2.2 ≠ .suspended .step position := fun stepped => by
      cases outcome.symm.trans stepped
      exact unreturned rfl
    have unended (status : ExitStatus) : r.2.2 ≠ .exited status := fun exited => by
      cases outcome.symm.trans exited
    rw [r_eq] at unstepped unended
    obtain ⟨same, alike⟩ := beside.driveUnder fuel stops unstepped
    rw [r_eq, s_eq]
    exact ⟨same, (alike unended).2.answers (alike unended).1⟩

/-- A program with a function that calls itself once from its second line, if it is not given zero.
-/
def descending : Code.Program :=
  let line (n : Nat) : Location := ⟨"down", 0, n, 1⟩
  let number (n : Int) : Code.Op := .pushConst (.ofInt .i32 n)
  { name := "down"
    entry := some "main"
    globals := []
    functions :=
      [⟨"main", ⟨[], .int .i32⟩, [],
        .body [⟨number 1, line 1⟩, ⟨.call "down" 1, line 1⟩, ⟨.ret true, line 2⟩], line 1⟩,
       ⟨"down", ⟨[.int .i32], .int .i32⟩, [⟨"n", .int .i32⟩],
        .body [⟨.pushLocal 0, line 3⟩, ⟨.jumpIfFalse 0, line 3⟩, ⟨number 0, line 4⟩,
          ⟨.call "down" 1, line 4⟩, ⟨.pop, line 4⟩, ⟨.label 0, line 5⟩, ⟨.pushLocal 0, line 5⟩,
          ⟨.ret true, line 5⟩], line 3⟩] }

/-- The program is suspended where the function has been called for the first time; its first line
has a breakpoint, unless it was removed since. -/
def firstDescent (removed : Bool) : Machine × List Emission :=
  afterRequests (.interpreted descending Native.Bridge.platform) 10
    ([.addBreakpoint 3, .resume .continue (fun _ => false) 9] ++
      if removed then [.removeBreakpoint 3] else [])

theorem reached_firstDescent (removed : Bool) :
    Reached (.interpreted descending Native.Bridge.platform) 10 (firstDescent removed).1
      (firstDescent removed).2 := reached_afterRequests _ _ _

/-- Without the breakpoint the run passes the call that the function makes of itself, and ends in its
caller; with it the run ends at that call, as any other would that goes on. -/
theorem descent_returned :
    (let t := ({} : Trail).hearAll (firstDescent true).2
     let r := (firstDescent true).1.resumeUnder .runToReturn (fun _ => false) 30
     (firstDescent true).1.isSuspended = true ∧ t.active = [⟨1, some 3⟩, ⟨0, some 1⟩] ∧
       (t.points r.2.1.toList).getLast? = some ⟨[⟨0, some 1⟩], 2⟩ ∧
       r.2.2 = .suspended .step ⟨"main", 2, ⟨"down", 0, 2, 1⟩, 1⟩ ∧
       ∃ top below, t.active = top :: below ∧
         RunsBack top below (firstDescent true).1 r.1 (t.points r.2.1.toList) r.2.2) ∧
      (let r := (firstDescent false).1.resumeUnder .runToReturn (fun _ => false) 30
       let s := (firstDescent false).1.resumeUnder .continue (fun _ => false) 30
       (firstDescent false).1.isSuspended = true ∧
         r.2.2 = .suspended .breakpoint ⟨"down", 0, ⟨"down", 0, 3, 1⟩, 3⟩ ∧
         ∀ rs, List.Forall₂ Transcript.Alike (r.1.answers rs) (s.1.answers rs)) := by
  have suspended : ∀ removed, (firstDescent removed).1.isSuspended = true := by decide
  have returns (removed : Bool) :=
    run_to_return_returns (reached_firstDescent removed) (suspended removed) (fun _ => false) 30
  constructor
  · obtain ⟨top, below, active, ends, -⟩ := returns true
    exact ⟨suspended true, by decide, by decide +kernel, by decide +kernel,
      top, below, active, ends⟩
  · obtain ⟨-, -, -, -, abandoned⟩ := returns false
    have outcome : ((firstDescent false).1.resumeUnder .runToReturn (fun _ => false) 30).2.2 =
        .suspended .breakpoint ⟨"down", 0, ⟨"down", 0, 3, 1⟩, 3⟩ := by decide
    exact ⟨suspended false, outcome, (abandoned _ _ outcome nofun).2⟩

/-- With a pause asked for while the run is suspended, a run to a return ends at the next check point,
though there is no breakpoint and the function has not returned. -/
theorem return_not_reached :
    let m := ((firstDescent true).1.answer .pause).machine
    let r := m.resumeUnder .runToReturn (fun _ => false) 30
    Reached (.interpreted descending Native.Bridge.platform) 10 m
        ((firstDescent true).2 ++ ((firstDescent true).1.answer .pause).sent) ∧
      m.isSuspended = true ∧ m.stepper.breakpoints = [] ∧
      r.2.2 = .suspended .start ⟨"down", 1, ⟨"down", 0, 3, 1⟩, 2⟩ := by
  refine ⟨(reached_firstDescent true).answered .pause, ?_⟩
  decide

end ScriptLang.Machine
