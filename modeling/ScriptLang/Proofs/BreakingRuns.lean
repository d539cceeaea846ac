import ScriptLang.Proofs.ReturningRuns
import ScriptLang.Proofs.StackDiscipline

/-!
# Where breakpoints suspend a run

For every active function the stepper keeps the line of its last check point.  This is the line of the
last check point in the same activation, whatever was called and returned in between, whatever the modes
were and wherever the run was suspended (`CheckPoint.enters_iff`).  Hence a breakpoint suspends a run
whenever an activation comes to its line, and not again while it stays there (`Halts.breakpoint_iff`),
for as long as the mode heeds breakpoints and the step that it asks for is not done.
-/

namespace ScriptLang

open Machine (Emission Mode)

/-! ### The check points of one activation -/

namespace CheckPoint

/-- The activation that the check point is in. -/
def innermost? (p : CheckPoint) : Option Nat := p.active.head?.map Activation.serial

/-- The last check point in an activation. -/
def lastIn (earlier : List CheckPoint) (serial : Nat) : Option CheckPoint :=
  earlier.reverse.find? fun q => q.innermost? == some serial

/-- The check point before `p` in the same activation. -/
def previous? (earlier : List CheckPoint) (p : CheckPoint) : Option CheckPoint :=
  p.innermost?.bind (lastIn earlier)

variable {earlier : List CheckPoint} {q : CheckPoint} {n : Nat}

theorem lastIn_of_in (here : q.innermost? = some n) : lastIn (earlier ++ [q]) n = some q := by
  simp [lastIn, here]

theorem lastIn_of_not_in (elsewhere : q.innermost? ≠ some n) :
    lastIn (earlier ++ [q]) n = lastIn earlier n := by
  simp [lastIn, elsewhere]

theorem lastIn_eq_none (never : ∀ q ∈ earlier, q.innermost? ≠ some n) : lastIn earlier n = none := by
  simpa [lastIn] using never

end CheckPoint

open CheckPoint

/-- After check points `earlier`, each of the activations is at the line of its last one. -/
structure Trail.Remembers (earlier : List CheckPoint) (t : Trail) : Prop where
  lines : ∀ a ∈ t.active, a.line = (lastIn earlier a.serial).map CheckPoint.line
  order : t.serials.Pairwise (· > ·)
  young : ∀ n ∈ t.serials, n < t.entered
  old : ∀ q ∈ earlier, ∀ n, q.innermost? = some n → n < t.entered

namespace Trail

variable {earlier : List CheckPoint} {t : Trail}

theorem Remembers.enter (h : t.Remembers earlier) : t.enter.Remembers earlier where
  lines := by
    refine List.forall_mem_cons.2 ⟨?_, h.lines⟩
    have never : lastIn earlier t.entered = none := lastIn_eq_none fun q hq here =>
      Nat.lt_irrefl _ (h.old q hq _ here)
    rw [never]
    rfl
  order := List.pairwise_cons.2 ⟨h.young, h.order⟩
  young := List.forall_mem_cons.2
    ⟨Nat.lt_succ_self _, fun n hn => Nat.lt_succ_of_lt (h.young n hn)⟩
  old q hq n here := Nat.lt_succ_of_lt (h.old q hq n here)

theorem Remembers.leave (h : t.Remembers earlier) : t.leave.Remembers earlier where
  lines a ha := h.lines a (List.mem_of_mem_tail ha)
  order := by
    rw [serials_leave]
    exact h.order.tail
  young n hn := by
    rw [serials_leave] at hn
    exact h.young n (List.mem_of_mem_tail hn)
  old := h.old

theorem Remembers.atLine (h : t.Remembers earlier) (line : Nat) :
    (t.atLine line).Remembers (earlier ++ [⟨t.active, line⟩]) where
  lines := by
    have lines := h.lines
    have order := h.order
    obtain ⟨entered, active⟩ := t
    cases active with
    | nil => exact List.forall_mem_nil _
    | cons a rest =>
      refine List.forall_mem_cons.2 ⟨?_, fun b hb => ?_⟩
      · rw [lastIn_of_in (q := ⟨a :: rest, line⟩) rfl]
        rfl
      · -- the activations below are others
        have below : b.serial < a.serial :=
          (List.pairwise_cons.1 order).1 _ (List.mem_map_of_mem hb)
        rw [lastIn_of_not_in (q := ⟨a :: rest, line⟩) fun here => ?_]
        · exact lines b (List.mem_cons_of_mem _ hb)
        · exact absurd (Option.some.inj here) (Nat.ne_of_gt below)
  order := by
    rw [serials_atLine]
    exact h.order
  young := by
    rw [serials_atLine, entered_atLine]
    exact h.young
  old := by
    rw [entered_atLine]
    intro q hq n here
    rcases List.mem_append.1 hq with before | last
    · exact h.old q before n here
    · obtain rfl := List.mem_singleton.1 last
      obtain ⟨a, head, rfl⟩ := Option.map_eq_some_iff.1 here
      exact h.young _ (List.mem_map_of_mem (List.mem_of_mem_head? head))

theorem Remembers.hear (h : t.Remembers earlier) (e : Emission) :
    (t.hear e).Remembers (earlier ++ (t.point? e).toList) := by
  unfold Trail.hear
  split
  · change t.enter.Remembers (earlier ++ [])
    rw [List.append_nil]
    exact h.enter
  · change t.leave.Remembers (earlier ++ [])
    rw [List.append_nil]
    exact h.leave
  · exact h.atLine _
  · next other =>
    have none : t.point? e = none := by
      unfold point?
      split
      · exact absurd rfl (other _ _ _ _ _)
      · rfl
    rw [none, Option.toList_none, List.append_nil]
    exact h

/-- Where the trail comes to a check point, it remembers those before. -/
theorem Remembers.at_point : ∀ {es : List Emission} {earlier : List CheckPoint} {t : Trail},
    t.Remembers earlier → ∀ {before after : List CheckPoint} {p : CheckPoint},
    t.points es = before ++ p :: after →
    ∃ t' : Trail, t'.Remembers (earlier ++ before) ∧ t'.active = p.active
  | [], _, _, _, before, _, _, points => by cases before <;> cases points
  | e :: es, earlier, t, h, before, after, p, points => by
    have next := h.hear e
    rw [Trail.points] at points
    cases here : t.point? e with
    | none =>
      rw [here, Option.toList_none, List.nil_append] at points
      rw [here, Option.toList_none, List.append_nil] at next
      exact next.at_point points
    | some q =>
      rw [here, Option.toList_some, List.singleton_append] at points
      cases before with
      | nil =>
        cases points
        refine ⟨t, (List.append_nil earlier).symm ▸ h, ?_⟩
        unfold point? at here
        split at here <;> cases here
        rfl
      | cons q' before =>
        obtain ⟨rfl, rest⟩ := List.cons.inj points
        rw [here, Option.toList_some] at next
        obtain ⟨t', remembers, active⟩ := next.at_point rest
        rw [List.append_assoc, List.singleton_append] at remembers
        exact ⟨t', remembers, active⟩

theorem remembers_start : ({} : Trail).Remembers [] :=
  ⟨List.forall_mem_nil _, .nil, List.forall_mem_nil _, List.forall_mem_nil _⟩

end Trail

/-- A check point comes to a line anew if the one before in the same activation was on another line,
or there was none. -/
theorem CheckPoint.enters_iff {es : List Emission} {earlier after : List CheckPoint} {p : CheckPoint}
    (points : ({} : Trail).points es = earlier ++ p :: after) :
    p.Enters ↔ ∀ q, p.previous? earlier = some q → q.line ≠ p.line := by
  obtain ⟨t, remembers, active⟩ := Trail.remembers_start.at_point points
  have lines := remembers.lines
  rw [active, List.nil_append] at lines
  unfold Enters previous? innermost?
  cases first : p.active.head? with
  | none => exact iff_of_true nofun nofun
  | some a =>
    change a.line ≠ some p.line ↔ ∀ q, lastIn earlier a.serial = some q → q.line ≠ p.line
    rw [lines a (List.mem_of_mem_head? first)]
    cases lastIn earlier a.serial with
    | none => exact iff_of_true nofun nofun
    | some q => simp

namespace Machine

/-! ### How far a run goes -/

/-- The step that a mode asks for is done at a check point, if it began with the trail `t`: a step over
at the depth of its beginning or above, and a run to the return of the function that was innermost where
this activation is over. -/
def Mode.Done (t : Trail) (p : CheckPoint) : Mode → Prop
  | .run | .continue => False
  | .singleStep => True
  | .stepOver => p.depth ≤ t.depth
  | .runToReturn => ∀ n, t.serials.head? = some n → n ∉ p.active.map Activation.serial

variable {t₀ t : Trail} {m₀ m : Machine} {a : Advance} {mode : Mode} {ps : List CheckPoint}

/-- A run that began in `m` with the trail `t` comes to a breakpoint. -/
structure Breaks (mode : Mode) (t : Trail) (m : Machine) (p : CheckPoint) : Prop where
  heeded : mode ≠ .run
  undone : ¬mode.Done t p
  enters : p.Enters
  hit : p.line ∈ m.stepper.breakpoints

/-- How a run can end that began in `m` with the trail `t`, after check points `ps`. -/
inductive Halts (mode : Mode) (t : Trail) (m : Machine) (ps : List CheckPoint) : Outcome → Prop where
  | exited (status : ExitStatus) (passed : ∀ p ∈ ps, ¬Breaks mode t m p) :
      Halts mode t m ps (.exited status)
  | unfinished (passed : ∀ p ∈ ps, ¬Breaks mode t m p) : Halts mode t m ps .unfinished
  | step (before : List CheckPoint) (p : CheckPoint) (position : Position)
      (points : ps = before ++ [p]) (passed : ∀ p ∈ before, ¬Breaks mode t m p)
      (done : mode.Done t p) : Halts mode t m ps (.suspended .step position)
  | breakpoint (before : List CheckPoint) (p : CheckPoint) (position : Position)
      (points : ps = before ++ [p]) (passed : ∀ p ∈ before, ¬Breaks mode t m p)
      (here : position.At p) (breaks : Breaks mode t m p) :
      Halts mode t m ps (.suspended .breakpoint position)
  | paused (p : CheckPoint) (position : Position) (points : ps = [p])
      (asked : m.stepper.pausePending = true) : Halts mode t m ps (.suspended .start position)

theorem RunsBack.halts {m' : Machine} {o : Outcome} {top : ScriptLang.Activation}
    {below : List ScriptLang.Activation} (h : RunsBack top below m m' ps o)
    (active : t.active = top :: below) : Halts .runToReturn t m ps o := by
  have first : t.serials.head? = some top.serial := by
    rw [Trail.serials, active]
    rfl
  have pass {ps : List CheckPoint} (passed : ∀ p ∈ ps, Awaits top m p) :
      ∀ p ∈ ps, ¬Breaks .runToReturn t m p :=
    fun p hp breaks => (passed p hp).missed ⟨breaks.enters, breaks.hit⟩
  cases h with
  | exited status passed => exact .exited status (pass passed)
  | unfinished passed => exact .unfinished (pass passed)
  | step before p position points passed _ _ ended =>
    refine .step before p position points (pass passed) fun n head => ?_
    cases first.symm.trans head
    exact ended
  | breakpoint before p position points passed here _ active enters hit =>
    have breaks : Breaks .runToReturn t m p :=
      ⟨Mode.noConfusion, fun done => done _ first active, enters, hit⟩
    exact .breakpoint before p position points (pass passed) here breaks
  | paused p position points _ asked => exact .paused p position points asked

/-! ### The course of a run -/

/-- A run in a mode that began in `m₀` with the trail `t₀` has passed check points and goes on. -/
structure GoingOn (mode : Mode) (t₀ : Trail) (m₀ : Machine) (ps : List CheckPoint) (t : Trail)
    (m : Machine) : Prop where
  trailed : Trailed t m
  standing : m.Standing
  sameMode : m.stepper.mode = mode
  stepDepth : m.stepper.stepDepth = t₀.depth
  breakpoints : m.stepper.breakpoints = m₀.stepper.breakpoints
  pausing : m.stepper.pausePending = true → m₀.stepper.pausePending = true ∧ ps = []
  passed : ∀ p ∈ ps, ¬Breaks mode t₀ m₀ p

/-- Except in a run to a return, the stepper knows from the depth whether the step is done. -/
theorem GoingOn.stepDone_iff (h : GoingOn mode t₀ m₀ ps t m) (other : mode ≠ .runToReturn)
    (i : Code.Instruction) : m.stepper.stepDone = true ↔ mode.Done t₀ (pointAt t i) := by
  unfold Stepper.stepDone
  rw [h.sameMode, h.trailed.depth, h.stepDepth]
  cases mode with
  | run | «continue» => exact iff_of_false nofun id
  | singleStep => exact iff_of_true rfl trivial
  | stepOver => exact decide_eq_true_iff
  | runToReturn => exact absurd rfl other

theorem Stepper.check_eq (s : Stepper) (line : Nat) : (s.check line).1 =
    if s.pausePending then some .start
    else if s.stepDone then some .step
    else if s.mode ≠ .run ∧ s.entersLine line = true ∧ line ∈ s.breakpoints then some .breakpoint
    else none := by
  simp [check, and_assoc]

theorem GoingOn.acts {calls : Bool} (h : GoingOn mode t₀ m₀ ps t m) (acts : Acts calls t m a) :
    (∃ status, a.outcome = some (.exited status)) ∨
      a.outcome = none ∧ GoingOn mode t₀ m₀ ps (t.hearAll a.emitted) a.machine := by
  rcases acts.treads.trailed with ⟨status, exited, -⟩ | ⟨goesOn, trailed⟩
  · exact .inl ⟨status, exited⟩
  · obtain ⟨sameMode, stepDepth, breakpoints, pausePending⟩ := acts.treads.task goesOn
    exact .inr ⟨goesOn,
      { trailed
        standing := standing_of_not_resuming acts.active
        sameMode := sameMode.trans h.sameMode
        stepDepth := stepDepth.trans h.stepDepth
        breakpoints := breakpoints.trans h.breakpoints
        pausing := fun pausing => h.pausing (pausePending.symm.trans pausing)
        passed := h.passed }⟩

/-- A check point that the run passes has no breakpoint that is heeded. -/
theorem GoingOn.pass (h : GoingOn mode t₀ m₀ ps t m) (active : m.resuming = false)
    (i : Code.Instruction) (reason : (m.stepper.check i.location.line).1 = none) :
    GoingOn mode t₀ m₀ (ps ++ [pointAt t i]) (t.atLine i.location.line) (m.checked i) := by
  rw [Stepper.check_eq] at reason
  split_ifs at reason with pausing done hit
  have missed : ¬Breaks mode t₀ m₀ (pointAt t i) := fun breaks => hit
    ⟨h.sameMode ▸ breaks.heeded, (h.trailed.entersLine _).2 breaks.enters,
      h.breakpoints ▸ breaks.hit⟩
  have task := m.stepper.check_task i.location.line
  exact
    { trailed := h.trailed.atLine i
      standing := standing_of_not_resuming active
      sameMode := (m.stepper.check_checked i.location.line).mode.trans h.sameMode
      stepDepth := task.1.trans h.stepDepth
      breakpoints := task.2.trans h.breakpoints
      pausing := fun pausing => by
        cases (m.stepper.check_pausePending i.location.line).symm.trans pausing
      passed := List.forall_mem_append.2 ⟨h.passed, List.forall_mem_singleton.2 missed⟩ }

/-- A check point where the run is suspended. -/
theorem GoingOn.suspend (h : GoingOn mode t₀ m₀ ps t m) (other : mode ≠ .runToReturn)
    (i : Code.Instruction) {reason : SuspendReason}
    (due : (m.stepper.check i.location.line).1 = some reason) {position : Position}
    (here : position.At (pointAt t i)) :
    Halts mode t₀ m₀ (ps ++ [pointAt t i]) (.suspended reason position) := by
  have done_iff := h.stepDone_iff other i
  rw [Stepper.check_eq] at due
  split_ifs at due with pausing done hit <;> cases due
  · obtain ⟨asked, rfl⟩ := h.pausing pausing
    exact .paused _ position rfl asked
  · exact .step ps _ position rfl h.passed (done_iff.1 done)
  · refine .breakpoint ps _ position rfl h.passed here
      ⟨h.sameMode ▸ hit.1, fun finished => done (done_iff.2 finished), ?_, ?_⟩
    · exact (h.trailed.entersLine _).1 hit.2.1
    · exact h.breakpoints ▸ hit.2.2

/-- A step takes the run on or ends it. -/
theorem GoingOn.step (h : GoingOn mode t₀ m₀ ps t m) (other : mode ≠ .runToReturn) (stop : Bool) :
    let a := m.step stop
    (∃ o, a.outcome = some o ∧ Halts mode t₀ m₀ (ps ++ t.points a.emitted) o) ∨
      a.outcome = none ∧
        GoingOn mode t₀ m₀ (ps ++ t.points a.emitted) (t.hearAll a.emitted) a.machine := by
  intro a
  cases step_treads h.trailed h.standing stop with
  | quiet resuming acts | resumes resuming acts =>
    rw [acts.points, List.append_nil]
    refine (h.acts acts).imp_left ?_
    rintro ⟨status, exited⟩
    exact ⟨_, exited, .exited status h.passed⟩
  | stopped points outcome =>
    rw [points, List.append_nil]
    exact .inl ⟨_, outcome, .exited _ h.passed⟩
  | passes i resuming reason b acts outcome machine points trail =>
    have next := h.pass resuming i reason
    rw [outcome, machine, points, trail]
    refine (next.acts acts).imp_left ?_
    rintro ⟨status, exited⟩
    exact ⟨_, exited, .exited status next.passed⟩
  | suspends i resuming reason position here due outcome machine standing points =>
    rw [points]
    exact .inl ⟨_, outcome, h.suspend other i due ⟨here.1, congrArg Location.line here.2⟩⟩

theorem GoingOn.begins (began : Trailed t₀ m₀) (standing : m₀.Standing) (mode : Mode) :
    GoingOn mode t₀ m₀ [] t₀ { m₀ with stepper := m₀.stepper.resume mode } where
  trailed := began.withStepper rfl rfl
  standing := standing
  sameMode := rfl
  stepDepth := began.depth
  breakpoints := rfl
  pausing asked := ⟨asked, rfl⟩
  passed := List.forall_mem_nil _

/-- A run that begins where a function is active ends in one of these ways. -/
theorem driveUnder_halts (began : Trailed t₀ m₀) (standing : m₀.Standing) (active : t₀.active ≠ [])
    {t : Trail} {sent : Array Emission} (trail : t.hearAll sent.toList = t₀)
    (points : t.points sent.toList = []) (mode : Mode) (stops : Nat → Bool) (fuel : Nat) :
    let r := driveUnder stops fuel { m₀ with stepper := m₀.stepper.resume mode } sent
    Halts mode t₀ m₀ (t.points r.2.1.toList) r.2.2 := by
  by_cases back : mode = .runToReturn
  · subst back
    obtain ⟨top, below, first⟩ := List.exists_cons_of_ne_nil active
    have ends := driveUnder_course (RunningBack top t₀ m₀) (RunsBack top below m₀)
      (fun h => .unfinished h.passed) (fun h => h.step began first) fuel stops trail points
      (.begins began standing)
    exact ends.halts first
  · exact driveUnder_course (GoingOn mode t₀ m₀) (fun _ ps => Halts mode t₀ m₀ ps)
      (fun h => .unfinished h.passed) (fun h => h.step back) fuel stops trail points
      (.begins began standing mode)

/-- A check point of a run is its last one, or comes before. -/
theorem last_or_before {before after before' : List CheckPoint} {p p' : CheckPoint}
    (points : before ++ p :: after = before' ++ [p']) :
    (after = [] ∧ before' = before ∧ p' = p) ∨ (after ≠ [] ∧ p ∈ before') := by
  rcases List.eq_nil_or_concat after with rfl | ⟨between, last, rfl⟩
  · obtain ⟨same, last⟩ := List.append_inj' points rfl
    exact .inl ⟨rfl, same.symm, (List.singleton_inj.1 last).symm⟩
  · have points' : (before ++ p :: between) ++ [last] = before' ++ [p'] := by
      rw [← points, List.concat_eq_append, List.append_assoc, List.cons_append]
    obtain ⟨same, -⟩ := List.append_inj' points' rfl
    exact .inr ⟨by simp, same ▸ by simp⟩

/-- The run is suspended for a breakpoint exactly at a check point that comes to one. -/
theorem Halts.breakpoint_iff {o : Outcome} {before after : List CheckPoint} {p : CheckPoint}
    (h : Halts mode t m (before ++ p :: after) o)
    (unasked : m.stepper.pausePending = true → before ≠ []) :
    (after = [] ∧ ∃ position, position.At p ∧ o = .suspended .breakpoint position) ↔
      Breaks mode t m p := by
  generalize points : before ++ p :: after = ps at h
  cases h with
  | exited status passed | unfinished passed =>
    refine iff_of_false (fun ⟨_, position, _, suspended⟩ => ?_) (passed p ?_)
    · cases suspended
    · simp [← points]
  | step before' p' position points' passed done =>
    refine iff_of_false (fun ⟨_, position, _, suspended⟩ => ?_) fun breaks => ?_
    · cases suspended
    · rcases last_or_before (points.trans points') with ⟨-, -, rfl⟩ | ⟨-, earlier⟩
      · exact breaks.undone done
      · exact passed p earlier breaks
  | breakpoint before' p' position points' passed here breaks =>
    rcases last_or_before (points.trans points') with ⟨last, -, rfl⟩ | ⟨more, earlier⟩
    · exact iff_of_true ⟨last, position, here, rfl⟩ breaks
    · exact iff_of_false (fun suspended => more suspended.1) (passed p earlier)
  | paused p' position points' asked =>
    have alone : before ++ p :: after = [] ++ [p'] := points.trans points'
    rcases last_or_before alone with ⟨-, first, -⟩ | ⟨-, earlier⟩
    · exact absurd first.symm (unasked asked)
    · cases earlier

/-! ### Beginnings -/

/-- Before its first step a run comes to no check point, and what was asked of it stays as it is. -/
structure Opens (m : Machine) (a : Advance) : Prop where
  points : ∀ t : Trail, t.points a.emitted = []
  breakpoints : a.machine.stepper.breakpoints = m.stepper.breakpoints
  pausePending : a.machine.stepper.pausePending = m.stepper.pausePending
  outcome : ∀ reason position, a.outcome ≠ some (.suspended reason position)

theorem start_opens (m : Machine) : Opens m m.start := by
  have failed (phase : Phase) (e : RuntimeError) (sent : Emission)
      (quiet : ∀ t : Trail, t.points [sent, send .programExit (.exit (.error (.ofError e)))] = []) :
      Opens m ((fail { m with phase } e).after [sent]) := ⟨quiet, rfl, rfl, nofun⟩
  have root (phase : Phase) (index : Nat) (program : String) :
      Opens m ((enterRoot { m with phase } index).after
        [send .programStart (.program program m.entryName)]) := by
    unfold enterRoot
    split
    · exact failed phase _ _ fun t => rfl
    · split
      · exact ⟨fun t => rfl, rfl, rfl, nofun⟩
      · exact failed phase _ _ fun t => rfl
  unfold start
  dsimp only
  split
  · exact failed m.phase _ _ fun t => rfl
  · exact root .init _ _
  · unfold enterEntry
    split
    · exact root .entry _ _
    · exact failed .entry _ _ fun t => rfl

theorem begin_opens (m : Machine) : Opens m m.begin := by
  unfold begin
  split
  · exact ⟨fun t => rfl, rfl, rfl, nofun⟩
  · exact start_opens m
  · exact ⟨fun t => rfl, rfl, rfl, nofun⟩

/-- Where a run goes on after its beginning, a function is active. -/
theorem begin_active (image : Image) (limit : Nat) (rs : List Request) :
    let m := (afterRequests image limit rs).1
    m.begin.outcome = none → m.begin.machine.frames ≠ [] := by
  intro m goesOn
  have laid : (Shared.after image limit rs).1 = m.laid := (Shared.after_lays image limit rs).1
  have begun := Shared.begin_lays m
  have runs := (Shared.begin_sound (laid ▸ (Shared.after_sound image limit rs).1)).running
    (begun.outcome.trans goesOn)
  intro none
  have empty : m.begin.machine.laid.frames = [] := congrArg layFrames none
  exact runs.active (begun.machine ▸ empty)

theorem Breaks.congr {m' : Machine} {p : CheckPoint}
    (breakpoints : m'.stepper.breakpoints = m.stepper.breakpoints) :
    Breaks mode t m' p ↔ Breaks mode t m p := by
  constructor <;> intro h
  · exact ⟨h.heeded, h.undone, h.enters, breakpoints ▸ h.hit⟩
  · exact ⟨h.heeded, h.undone, h.enters, breakpoints ▸ h.hit⟩

/-- Whatever was asked of a program before, a run that comes to a check point, except for a pause that
is due there, is suspended for a breakpoint exactly if its mode heeds breakpoints and its step is not
done, the line has a breakpoint, and the check point before in the same activation was on another line
or there was none.  A run to the end is suspended for no other reason than a pause. -/
theorem breaks_on_entry (image : Image) (limit : Nat) (rs : List Request) (mode : Mode)
    (stops : Nat → Bool) (fuel : Nat) :
    let m := (afterRequests image limit rs).1
    let sent := (afterRequests image limit rs).2
    let t := ({} : Trail).hearAll sent
    let r := m.resumeUnder mode stops fuel
    (∀ before p after, t.points r.2.1.toList = before ++ p :: after →
      (m.stepper.pausePending = true → before ≠ []) →
      ((after = [] ∧ ∃ position, position.At p ∧ r.2.2 = .suspended .breakpoint position) ↔
        mode ≠ .run ∧ ¬mode.Done (t.hearAll m.begin.emitted) p ∧ p.line ∈ m.stepper.breakpoints ∧
          ∀ q, p.previous? (({} : Trail).points sent ++ before) = some q → q.line ≠ p.line)) ∧
      (mode = .run → ∀ reason position, r.2.2 = .suspended reason position →
        reason = .start ∧ m.stepper.pausePending = true) := by
  intro m sent t r
  have opens := begin_opens m
  have points : t.points m.begin.emitted = [] := opens.points t
  cases outcome : m.begin.outcome with
  | some o =>
    have run : r = (m.begin.machine, m.begin.emitted.toArray, o) := by
      change m.resumeUnder mode stops fuel = _
      rw [resumeUnder, outcome]
    rw [run]
    refine ⟨fun before p after here => ?_, fun _ reason position suspended => ?_⟩
    · rw [points] at here
      cases before <;> cases here
    · exact absurd (outcome.trans (congrArg some suspended)) (opens.outcome reason position)
  | none =>
    have run : r = driveUnder stops fuel
        { m.begin.machine with stepper := m.begin.machine.stepper.resume mode }
        m.begin.emitted.toArray := by
      change m.resumeUnder mode stops fuel = _
      rw [resumeUnder, outcome]
    have recorded := (reached_afterRequests image limit rs).recorded
    rcases recorded.begins with ⟨status, exited, -⟩ | ⟨trailed, standing⟩
    · cases outcome.symm.trans exited
    · rw [Trail.hearAll_append] at trailed
      have active : (t.hearAll m.begin.emitted).active ≠ [] := List.ne_nil_of_length_pos (by
        rw [← Trail.depth, ← trailed.frames]
        exact List.length_pos_of_ne_nil (begin_active image limit rs outcome))
      have halts : Halts mode (t.hearAll m.begin.emitted) m.begin.machine
          (t.points r.2.1.toList) r.2.2 := by
        rw [run]
        exact driveUnder_halts trailed standing active rfl points mode stops fuel
      refine ⟨fun before p after here unasked => ?_, fun toEnd reason position suspended => ?_⟩
      · have all : ({} : Trail).points (sent ++ r.2.1.toList) =
            (({} : Trail).points sent ++ before) ++ p :: after := by
          rw [Trail.points_append, List.append_assoc]
          exact congrArg _ here
        rw [here] at halts
        have breaks := halts.breakpoint_iff (opens.pausePending ▸ unasked)
        rw [Breaks.congr opens.breakpoints] at breaks
        rw [breaks, ← CheckPoint.enters_iff all]
        refine ⟨fun h => ⟨h.heeded, h.undone, h.hit, h.enters⟩, ?_⟩
        rintro ⟨heeded, undone, hit, enters⟩
        exact ⟨heeded, undone, enters, hit⟩
      · rw [suspended, toEnd] at halts
        cases halts with
        | step before p position here passed done => exact absurd done id
        | breakpoint before p position here passed at_p breaks => exact absurd rfl breaks.heeded
        | paused p position here asked => exact ⟨rfl, opens.pausePending ▸ asked⟩

/-- A program that comes to line 2 again and again, and each time calls a function twice from there. -/
def ticking : Image :=
  let line (n : Nat) : Location := ⟨"tick", 0, n, 1⟩
  .interpreted
    { name := "tick"
      entry := some "main"
      globals := []
      functions :=
        [⟨"main", ⟨[], .void⟩, [],
          .body [⟨.label 0, line 2⟩, ⟨.call "tick" 0, line 2⟩, ⟨.call "tick" 0, line 2⟩,
            ⟨.jump 0, line 3⟩], line 1⟩,
         ⟨"tick", ⟨[], .void⟩, [], .body [⟨.ret false, line 5⟩], line 5⟩] }
    Native.Bridge.platform

/-- The program has been suspended at line 2 for a breakpoint, and then in the first call for a step. -/
def firstTick : List Request :=
  [.addBreakpoint 2, .resume .continue (fun _ => false) 9, .resume .singleStep (fun _ => false) 9]

/-- The second call from line 2 is passed; the run is suspended when it comes back from line 3. -/
theorem ticking_breaks :
    let m := (afterRequests ticking 10 firstTick).1
    let sent := (afterRequests ticking 10 firstTick).2
    let t := ({} : Trail).hearAll sent
    let r := m.resumeUnder .continue (fun _ => false) 20
    let before : List CheckPoint :=
      [⟨[⟨0, some 2⟩], 2⟩, ⟨[⟨2, none⟩, ⟨0, some 2⟩], 5⟩, ⟨[⟨0, some 2⟩], 3⟩]
    let p : CheckPoint := ⟨[⟨0, some 3⟩], 2⟩
    t.points r.2.1.toList = before ++ [p] ∧ m.stepper.pausePending = false ∧
      p.previous? (({} : Trail).points sent ++ before) = some ⟨[⟨0, some 2⟩], 3⟩ ∧
      ∃ position, position.At p ∧ r.2.2 = .suspended .breakpoint position := by
  have breaks := (breaks_on_entry ticking 10 firstTick .continue (fun _ => false) 20).1
    [⟨[⟨0, some 2⟩], 2⟩, ⟨[⟨2, none⟩, ⟨0, some 2⟩], 5⟩, ⟨[⟨0, some 2⟩], 3⟩] ⟨[⟨0, some 3⟩], 2⟩ []
    (by decide) (by decide +kernel)
  refine ⟨by decide, by decide +kernel, ?_, (breaks.2 ⟨nofun, id, by decide +kernel, ?_⟩).2⟩
  · decide
  · intro q here
    have previous : q = ⟨[⟨0, some 2⟩], 3⟩ := Option.some.inj (here.symm.trans (by decide))
    rw [previous]
    decide

end Machine

end ScriptLang
