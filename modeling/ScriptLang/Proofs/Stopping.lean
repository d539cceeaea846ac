import ScriptLang.Proofs.BuiltSessions
import ScriptLang.Proofs.Exchanges
import ScriptLang.Proofs.TextSessions

/-!
# A request to stop reaches the program that is published

Whatever turns the reader and the session of a connection take, the flag of the program that was
started last is up exactly if the program has been told to stop since its flag was published.  A
program whose flag is up executes no further instruction, and its run ends at its next check point
(`stop_reaches_published`).  What was read before the flag was published tells the program nothing.
-/

namespace ScriptLang

open Machine (Advance Footed Mode Outcome)

namespace Session

/-! ### What a turn does to a session -/

/-- What a turn makes of a session if its program is told to stop in it, or is not. -/
structure Goes (told : Bool) (s s' : Session) : Prop where
  stop : s'.stopRequested = (s.stopRequested || told)
  executed : s.stopRequested = true → s'.executed = s.executed
  built : s.Built → s'.Built

namespace Goes

variable {s s' s'' : Session} {told : Bool}

theorem refl (s : Session) : Goes false s s := ⟨(Bool.or_false _).symm, fun _ => rfl, id⟩

theorem trans (h : Goes told s s') (h' : Goes false s' s'') : Goes told s s'' where
  stop := by rw [h'.stop, Bool.or_false, h.stop]
  executed up := by
    rw [h'.executed (by rw [h.stop, up, Bool.true_or]), h.executed up]
  built := h'.built ∘ h.built

end Goes

theorem requestStop_goes (s : Session) : Goes true s (s.requestStop true) :=
  ⟨(Bool.or_true _).symm, fun _ => rfl, fun h => ⟨h.bound, h.code, h.executable, h.machine⟩⟩

/-- The stages execute nothing of a program that has no machine yet. -/
theorem Advances.goes {s s' : Session} (h : Advances s s') (fresh : s.machine = none) :
    Goes false s s' := by
  have nothing : s.executed = 0 := by
    unfold Session.executed
    rw [fresh]
    rfl
  exact ⟨by rw [h.stop, Bool.or_false], fun _ => (h.executed nothing).trans nothing.symm, h.built⟩

theorem moved_machine (s : Session) (a : Advance) : (s.moved a).machine = some a.machine := by
  unfold moved
  dsimp only
  split <;> rfl

theorem moved_sent (s : Session) (a : Advance) :
    ∃ sent, (s.moved a).sent.toList = s.sent.toList ++ sent := by
  unfold moved
  dsimp only
  split
  · exact ⟨a.emitted ++ [.message (.ofStage .stageEnd s.stage)], by
      simp [announce, send]⟩
  · exact ⟨a.emitted, by simp⟩

theorem moved_stop (s : Session) (a : Advance) : (s.moved a).stopRequested = s.stopRequested := by
  unfold moved
  dsimp only
  split <;> rfl

/-- Another machine is footed too, and has executed as much if the session is told to stop. -/
theorem goes_of_machine {s s' : Session} {m m' : Machine} (hm : s.machine = some m)
    (hm' : s'.machine = some m') (stop : s'.stopRequested = s.stopRequested)
    (bound : s'.bound = s.bound) (code : s'.code = s.code) (executable : s'.executable = s.executable)
    (executed : s.stopRequested = true → m'.executed = m.executed)
    (footed : m.Footed → m'.Footed) : Goes false s s' := by
  refine ⟨by rw [stop, Bool.or_false], fun up => ?_, fun h => ⟨?_, ?_, ?_, fun m'' h'' => ?_⟩⟩
  · rw [Session.executed, Session.executed, hm, hm']
    exact executed up
  · rw [bound]
    exact h.bound
  · rw [code]
    exact h.code
  · rw [executable]
    exact h.executable
  · cases hm'.symm.trans h''
    exact footed (h.machine m hm)

theorem moved_goes {s : Session} {m : Machine} {a : Advance} (hm : s.machine = some m)
    (executed : s.stopRequested = true → a.machine.executed = m.executed)
    (footed : m.Footed → a.machine.Footed) : Goes false s (s.moved a) := by
  refine goes_of_machine hm (moved_machine s a) ?_ ?_ ?_ ?_ executed footed
  all_goals
    unfold moved
    dsimp only
    split <;> rfl

/-- A change of the stepper matters to neither. -/
theorem withStepper_goes {s : Session} {m : Machine} (hm : s.machine = some m)
    (stepper : Machine.Stepper) : Goes false s { s with machine := some { m with stepper } } := by
  have changed : ({ s with machine := some { m with stepper } } : Session).machine =
      some { m with stepper } := rfl
  exact goes_of_machine hm changed rfl rfl rfl rfl (fun _ => rfl) fun footed =>
    footed.withStepper stepper

theorem addBreakpoint_goes (s : Session) (line : Nat) : Goes false s (s.addBreakpoint line) := by
  unfold addBreakpoint
  split
  · next m hm => exact withStepper_goes hm _
  · exact ⟨(Bool.or_false _).symm, fun _ => rfl,
      fun h => ⟨h.bound, h.code, h.executable, h.machine⟩⟩

theorem pauseAtStart_goes (s : Session) :
    Goes false s { s with machine := s.machine.map Machine.pauseAtStart } := by
  cases hm : s.machine with
  | none =>
    have same : ({ s with machine := none } : Session) = s := by rw [← hm]
    rw [Option.map_none, same]
    exact .refl s
  | some m => exact withStepper_goes hm _

end Session

namespace Backend

open Wire
open Session (Goes)

namespace Exchange

/-! ### What the session does fits the program -/

/-- The program that was started last is built, and has come as far as the session's activity
requires. -/
structure Fits (x : Exchange) : Prop where
  built : ∀ s, x.connection.session = some s → s.Built
  closed : x.connection.closed = true → x.activity = .finished
  loading : ∀ kind, x.activity = .loading kind →
    ∃ s, x.connection.session = some s ∧ s.machine = none
  running : ∀ before, x.activity = .running before → ∃ s m, x.connection.session = some s ∧
    s.machine = some m ∧ m.frames ≠ [] ∧ before ≤ s.sent.toList.length

/-- What a turn comes to that starts no program, if the program is told to stop in it, or is not. -/
structure Turned (told : Bool) (x y : Exchange) : Prop where
  started : y.started = x.started
  fits : y.Fits
  session : ∀ s, x.connection.session = some s →
    ∃ s', y.connection.session = some s' ∧ Goes told s s'

theorem opened_fits (config : Config) (host : Host) (arrivals : List Arrival) :
    (opened config host arrivals).Fits where
  built s hs := by cases hs
  closed hclosed := by cases hclosed
  loading kind hkind := by cases hkind
  running before hbefore := by cases hbefore

variable {x : Exchange} {told : Bool}

theorem Fits.open (h : x.Fits) (serving : x.activity ≠ .finished) : x.connection.closed = false :=
  Bool.eq_false_iff.2 fun closed => serving (h.closed closed)

/-- An answer fits if it leaves a session where there was one. -/
theorem answer_turned {a : Answer} (h : x.Fits)
    (session : ∀ s, x.connection.session = some s →
      ∃ s', a.connection.session = some s' ∧ Goes told s s')
    (none : x.connection.session = none → a.connection.session = none) :
    Turned told x (x.answer a) := by
  refine ⟨rfl, ⟨fun s' hs' => ?_, fun closed => if_pos closed, fun kind hkind => ?_,
    fun before hbefore => ?_⟩, session⟩
  · cases hs : x.connection.session with
    | none => exact absurd ((none hs).symm.trans hs') nofun
    | some s =>
      obtain ⟨s'', hs'', goes⟩ := session s hs
      cases hs''.symm.trans hs'
      exact goes.built (h.built s hs)
  · unfold answer at hkind
    dsimp only at hkind
    split at hkind <;> cases hkind
  · unfold answer at hbefore
    dsimp only at hbefore
    split at hbefore <;> cases hbefore

/-- An answer that leaves the session as it is. -/
theorem answer_same {a : Answer} (h : x.Fits)
    (same : a.connection.session = x.connection.session) : Turned false x (x.answer a) :=
  answer_turned h (fun s hs => ⟨s, same.trans hs, .refl s⟩) fun hs => same.trans hs

/-- The machine of a session that the exchange has come to moves on. -/
theorem proceed_turned {s₀ s : Session} {before : Nat} {a : Advance} (h : x.Fits)
    (hs : x.connection.session = some s₀) (open_ : x.connection.closed = false)
    (goes : Goes told s₀ (s.moved a)) (sent : before ≤ s.sent.toList.length)
    (running : a.outcome = none → a.machine.frames ≠ []) :
    Turned told x (x.proceed before s a) := by
  unfold proceed
  cases ha : a.outcome with
  | some o =>
    refine answer_turned h (fun s' hs' => ?_) fun hnone => absurd (hs.symm.trans hnone) nofun
    cases hs.symm.trans hs'
    exact ⟨_, rfl, goes⟩
  | none =>
    refine ⟨rfl, ⟨fun s' hs' => ?_, fun closed => ?_, nofun, fun n hn => ?_⟩, fun s' hs' => ?_⟩
    · cases hs'
      exact goes.built (h.built s₀ hs)
    · exact absurd (open_.symm.trans closed) nofun
    · cases hn
      obtain ⟨more, hmore⟩ := s.moved_sent a
      refine ⟨_, a.machine, rfl, s.moved_machine a, running ha, ?_⟩
      rw [hmore, List.length_append]
      exact Nat.le_trans sent (Nat.le_add_right _ _)
    · cases hs.symm.trans hs'
      exact ⟨_, rfl, goes⟩

theorem launch_turned {s₀ s : Session} {before : Nat} (mode : Mode) (h : x.Fits)
    (hs : x.connection.session = some s₀) (open_ : x.connection.closed = false)
    (goes : Goes told s₀ s) (sent : before ≤ s.sent.toList.length) :
    Turned told x (x.launch before mode s) := by
  unfold launch
  cases hm : s.machine with
  | none =>
    refine answer_turned h (fun s' hs' => ?_) fun hnone => absurd (hs.symm.trans hnone) nofun
    cases hs.symm.trans hs'
    exact ⟨_, rfl, goes⟩
  | some m =>
    have footed := (goes.built (h.built s₀ hs)).machine m hm
    obtain ⟨opened, running⟩ := Machine.opening_footed footed mode
    have moved : Goes false s (s.moved (m.opening mode)) :=
      Session.moved_goes hm (fun _ => m.opening_executed mode) fun _ => opened
    exact proceed_turned h hs open_ (goes.trans moved) sent running

theorem resume_turned (mode : Mode) (h : x.Fits) (open_ : x.connection.closed = false) :
    Turned false x (x.resume mode) := by
  unfold resume
  cases hs : x.connection.session with
  | none =>
    refine answer_same h ?_
    unfold Connection.resume
    rw [hs]
    exact hs
  | some s =>
    dsimp only
    split
    · exact launch_turned mode h hs open_ (.refl s) (Nat.le_of_eq Array.length_toList.symm)
    · next suspended =>
      refine answer_same h ?_
      unfold Connection.resume Session.resume
      rw [hs]
      dsimp only
      rw [if_neg suspended]
      rfl

theorem stop_turned (h : x.Fits) (open_ : x.connection.closed = false) :
    Turned ((x.connection.session.map Session.isSuspended).getD false) x x.stop := by
  unfold stop
  cases hs : x.connection.session with
  | none => exact answer_same h rfl
  | some s =>
    dsimp only [Option.map_some, Option.getD_some]
    split
    · next suspended =>
      rw [suspended]
      exact launch_turned .run h hs open_ s.requestStop_goes
        (Nat.le_of_eq Array.length_toList.symm)
    · next suspended =>
      rw [Bool.eq_false_iff.2 suspended]
      exact answer_same h rfl

theorem addBreakpoint_turned (h : x.Fits) (command : Command) :
    Turned false x (x.answer (x.connection.addBreakpoint command)) := by
  unfold Connection.addBreakpoint
  cases breakpointLine? command.arguments with
  | none => exact answer_same h rfl
  | some line =>
    refine answer_turned h (fun s hs => ?_) fun hs => ?_
    · refine ⟨s.addBreakpoint line, ?_, s.addBreakpoint_goes line⟩
      exact congrArg (Option.map fun s : Session => s.addBreakpoint line) hs
    · exact congrArg (Option.map fun s : Session => s.addBreakpoint line) hs

theorem perform_turned (h : x.Fits) (waiting : x.activity = .waiting) (kind : CommandKind)
    (command : Command) : Turned (x.obeys kind) x (x.perform kind command) := by
  have open_ := h.open (by rw [waiting]; exact nofun)
  have starts (kind : CommandKind) :
      Turned false x { x with activity := .starting kind command } :=
    ⟨rfl, ⟨h.built, fun closed => absurd (open_.symm.trans closed) nofun, nofun, nofun⟩,
      fun s hs => ⟨s, hs, .refl s⟩⟩
  cases kind with
  | hello => exact answer_same h rfl
  | goodbye => exact answer_same h rfl
  | compile => exact starts _
  | run => exact starts _
  | debug => exact starts _
  | step => exact resume_turned _ h open_
  | stepOver => exact resume_turned _ h open_
  | runToReturn => exact resume_turned _ h open_
  | «continue» => exact resume_turned _ h open_
  | «break» => exact addBreakpoint_turned h command
  | stop => exact stop_turned h open_

theorem take_turned (h : x.Fits) (waiting : x.activity = .waiting)
    (r : Except ProtocolError Command) :
    Turned (match r with
      | .ok command =>
        match command.kind with
        | .ok kind => x.obeys kind
        | .error _ => false
      | .error _ => false) x (x.take r) := by
  unfold take
  cases r with
  | error e => exact answer_same h rfl
  | ok command =>
    dsimp only
    cases command.kind with
    | error e => exact answer_same h rfl
    | ok kind => exact perform_turned h waiting kind command

theorem load_turned {kind : CommandKind} (h : x.Fits) (loading : x.activity = .loading kind)
    {s : Session} (hs : x.connection.session = some s) : Turned false x (x.load kind s) := by
  have open_ := h.open (by rw [loading]; exact nofun)
  have fresh : s.machine = none := by
    obtain ⟨s', hs', fresh⟩ := h.loading kind loading
    cases hs.symm.trans hs'
    exact fresh
  have answered {a : Answer} {t : Session} (ha : a.connection.session = some t)
      (goes : Goes false s t) : Turned false x (x.answer a) := by
    refine answer_turned h (fun s' hs' => ?_) fun hnone => absurd (hs.symm.trans hnone) nofun
    cases hs.symm.trans hs'
    exact ⟨t, ha, goes⟩
  have enters (kind : CommandKind) : Turned false x (x.enter kind s) := by
    have entered := (Session.enterTerminal_advances s).goes fresh
    unfold enter
    split
    · next e t ht =>
      rw [ht] at entered
      exact answered rfl entered
    · next t ht =>
      rw [ht] at entered
      split
      · exact launch_turned .run h hs open_ entered (Nat.zero_le _)
      · exact launch_turned .continue h hs open_ (entered.trans t.pauseAtStart_goes)
          (Nat.zero_le _)
  cases kind with
  | compile => exact answered rfl ((Session.compile_advances s).goes fresh)
  | _ => exact enters _

/-- A turn of the session that publishes no flag. -/
theorem turn_turned (h : x.Fits) (publishes : ∀ kind command, x.activity ≠ .starting kind command) :
    Turned x.obeysStop x x.turn := by
  have idle : Turned false x x := ⟨rfl, h, fun s hs => ⟨s, hs, .refl s⟩⟩
  unfold turn obeysStop
  cases hactivity : x.activity with
  | waiting =>
    cases hqueue : x.queue with
    | cons r rest =>
      have taken := take_turned (x := { x with queue := rest })
        ⟨h.built, h.closed, h.loading, h.running⟩ hactivity r
      have turned : Turned _ x (take { x with queue := rest } r) :=
        ⟨taken.started, taken.fits, taken.session⟩
      cases r with
      | ok command => exact turned
      | error e => exact turned
    | nil =>
      dsimp only
      split
      · refine ⟨rfl, ⟨h.built, fun _ => rfl, nofun, nofun⟩, fun s hs => ⟨s, hs, .refl s⟩⟩
      · exact idle
  | starting kind command => exact absurd hactivity (publishes kind command)
  | loading kind =>
    cases hs : x.connection.session with
    | none => exact idle
    | some s => exact load_turned h hactivity hs
  | running before =>
    obtain ⟨s, m, hs, hm, active, sent⟩ := h.running before hactivity
    have footed := (h.built s hs).machine m hm
    rw [hs]
    dsimp only
    rw [hm]
    refine proceed_turned h hs (h.open (by rw [hactivity]; exact nofun)) ?_ sent
      (Machine.step_lands footed s.stopRequested).running
    refine Session.moved_goes hm (fun up => ?_) fun _ => Machine.step_footed footed _
    rw [up]
    exact m.step_true_executed
  | finished => exact idle

/-! ### The reader's turns -/

/-- The reader changes the flag, the queue and what is unread. -/
theorem read_eq (x : Exchange) : ∃ unread ended queue,
    x.read = { (if x.readsStop then x.raise else x) with unread, ended, queue } := by
  unfold read
  split
  · next ended =>
    have silent : x.readsStop = false := by
      unfold readsStop
      rw [ended]
      rfl
    rw [silent]
    exact ⟨_, _, _, rfl⟩
  · dsimp only
    split
    · exact ⟨_, _, _, rfl⟩
    · exact ⟨_, _, _, rfl⟩

theorem raise_turned (h : x.Fits) : Turned true x x.raise := by
  refine ⟨rfl, ⟨fun s' hs' => ?_, h.closed, fun kind hkind => ?_, fun before hbefore => ?_⟩,
    fun s hs => ⟨_, congrArg (Option.map _) hs, s.requestStop_goes⟩⟩
  · obtain ⟨s, hs, rfl⟩ := Option.map_eq_some_iff.1 hs'
    exact s.requestStop_goes.built (h.built s hs)
  · obtain ⟨s, hs, fresh⟩ := h.loading kind hkind
    exact ⟨_, congrArg (Option.map _) hs, fresh⟩
  · obtain ⟨s, m, hs, hm, active, sent⟩ := h.running before hbefore
    exact ⟨_, m, congrArg (Option.map _) hs, hm, active, sent⟩

theorem read_turned (h : x.Fits) : Turned x.readsStop x x.read := by
  obtain ⟨unread, ended, queue, hread⟩ := x.read_eq
  rw [hread]
  have turned : Turned x.readsStop x (if x.readsStop then x.raise else x) := by
    cases x.readsStop with
    | true => exact raise_turned h
    | false => exact ⟨rfl, h, fun s hs => ⟨s, hs, .refl s⟩⟩
  have fits := turned.fits
  exact ⟨turned.started, ⟨fits.built, fits.closed, fits.loading, fits.running⟩, turned.session⟩

/-! ### The start of a program -/

theorem foldl_addBreakpoint : ∀ (lines : List Nat) {s : Session}, s.machine = none →
    lines.foldl Session.addBreakpoint s = { s with breakpoints := s.breakpoints ++ lines }
  | [], s, _ => by rw [List.foldl_nil, List.append_nil]
  | line :: lines, s, fresh => by
    have added : s.addBreakpoint line = { s with breakpoints := s.breakpoints ++ [line] } := by
      unfold Session.addBreakpoint
      rw [fresh]
    rw [List.foldl_cons, added, foldl_addBreakpoint lines (by exact fresh), List.append_assoc]
    rfl

/-- The session of a new program, with nothing built and its flag down. -/
theorem begin_load (c : Connection) (config : Config) (source : Session.Source) :
    ∃ s : Session, (c.begin config).load source = (.ok (), s) ∧ s.Built ∧ s.machine = none ∧
      s.stopRequested = false := by
  unfold Connection.begin
  rw [foldl_addBreakpoint _ rfl]
  refine ⟨_, rfl, ⟨?_, ?_, ?_, ?_⟩, rfl, rfl⟩
  · intro program h; cases h
  · intro code h; cases h
  · intro e h; cases h
  · intro m h; cases h

/-- A new program's flag is down, whatever has been read before. -/
theorem publish_spec (h : x.Fits) {kind : CommandKind} {command : Command}
    (starting : x.activity = .starting kind command) :
    x.turn.Fits ∧ x.turn.started = x.started + 1 ∧
      ∃ s, x.turn.connection.session = some s ∧ s.stopRequested = false := by
  have open_ := h.open (by rw [starting]; exact nofun)
  unfold turn
  rw [starting]
  unfold publish
  dsimp only
  obtain ⟨s, hload, built, fresh, down⟩ := begin_load x.connection
    (x.connection.config.withOptions (splitArguments command.arguments).2).1
    (.text (splitArguments command.arguments).1 command.payload)
  rw [hload]
  refine ⟨⟨fun s' hs' => ?_, fun closed => absurd (open_.symm.trans closed) nofun,
    fun kind hkind => ⟨s, rfl, fresh⟩, nofun⟩, rfl, s, rfl, down⟩
  cases hs'
  exact built

/-! ### Schedules -/

/-- Every turn that starts no program is one of the program that was started last. -/
theorem move_turned (h : x.Fits) (actor : Actor) (same : (x.move actor).started = x.started) :
    Turned (x.tells actor) x (x.move actor) := by
  cases actor with
  | reader => exact read_turned h
  | session =>
    refine turn_turned h fun kind command starting => ?_
    have started := (publish_spec h starting).2.1
    exact absurd (same.symm.trans started) (Nat.ne_of_lt (Nat.lt_succ_self _))

theorem move_fits (h : x.Fits) (actor : Actor) :
    (x.move actor).Fits ∧ x.started ≤ (x.move actor).started := by
  cases actor with
  | reader =>
    have turned := read_turned h
    exact ⟨turned.fits, Nat.le_of_eq turned.started.symm⟩
  | session =>
    by_cases publishes : ∀ kind command, x.activity ≠ .starting kind command
    · have turned := turn_turned h publishes
      exact ⟨turned.fits, Nat.le_of_eq turned.started.symm⟩
    · simp only [not_forall, not_not] at publishes
      obtain ⟨kind, command, starting⟩ := publishes
      obtain ⟨fits, started, _⟩ := publish_spec h starting
      exact ⟨fits, Nat.le_of_lt (Nat.lt_of_lt_of_eq (Nat.lt_succ_self _) started.symm)⟩

theorem after_cons (x : Exchange) (actor : Actor) (schedule : List Actor) :
    x.after (actor :: schedule) = (x.move actor).after schedule := rfl

theorem after_append (x : Exchange) (u v : List Actor) : x.after (u ++ v) = (x.after u).after v :=
  List.foldl_append

theorem after_fits : ∀ (schedule : List Actor) {x : Exchange}, x.Fits →
    (x.after schedule).Fits ∧ x.started ≤ (x.after schedule).started
  | [], _, h => ⟨h, Nat.le_refl _⟩
  | actor :: schedule, x, h => by
    obtain ⟨fits, started⟩ := move_fits h actor
    obtain ⟨fits', started'⟩ := after_fits schedule fits
    exact ⟨fits', Nat.le_trans started started'⟩

theorem told_cons {actor : Actor} {schedule : List Actor} :
    x.Told (actor :: schedule) ↔ x.tells actor = true ∨ (x.move actor).Told schedule := by
  constructor
  · rintro ⟨_ | ⟨first, earlier⟩, actor', later, heq, tells⟩
    · cases heq
      exact .inl tells
    · cases heq
      exact .inr ⟨earlier, actor', later, rfl, tells⟩
  · rintro (tells | ⟨earlier, actor', later, rfl, tells⟩)
    · exact ⟨[], actor, schedule, rfl, tells⟩
    · exact ⟨actor :: earlier, actor', later, rfl, tells⟩

/-- While no other program is started, the flag is up exactly if it was or the program is told to
stop, and with the flag up nothing is executed. -/
theorem after_goes : ∀ (schedule : List Actor) {x : Exchange} {s : Session}, x.Fits →
    x.connection.session = some s → (x.after schedule).started = x.started →
    ∃ s', (x.after schedule).connection.session = some s' ∧
      (s'.stopRequested = true ↔ s.stopRequested = true ∨ x.Told schedule) ∧
      (s.stopRequested = true → s'.executed = s.executed)
  | [], x, s, _, hs, _ => by
    refine ⟨s, hs, ⟨.inl, ?_⟩, fun _ => rfl⟩
    rintro (up | ⟨earlier, actor, later, heq, _⟩)
    · exact up
    · exact absurd heq.symm (List.append_ne_nil_of_right_ne_nil _ nofun)
  | actor :: schedule, x, s, h, hs, same => by
    rw [after_cons] at same ⊢
    obtain ⟨fits, first⟩ := move_fits h actor
    have rest := (after_fits schedule fits).2
    have stays : (x.move actor).started = x.started :=
      Nat.le_antisymm (same ▸ rest) first
    have turned := move_turned h actor stays
    obtain ⟨s₁, hs₁, goes⟩ := turned.session s hs
    obtain ⟨s', hs', up, idle⟩ := after_goes schedule fits hs₁ (same.trans stays.symm)
    refine ⟨s', hs', ?_, fun hup => ?_⟩
    · rw [up, told_cons, goes.stop, Bool.or_eq_true, or_assoc]
    · have hup₁ : s₁.stopRequested = true := by rw [goes.stop, hup, Bool.true_or]
      exact (idle hup₁).trans (goes.executed hup)

/-! ### The end of a run -/

/-- The reader leaves a flag that is up as it is. -/
theorem read_of_up {s : Session} (hs : x.connection.session = some s)
    (up : s.stopRequested = true) : ∃ unread ended queue,
      x.read = { x with unread, ended, queue } := by
  obtain ⟨unread, ended, queue, hread⟩ := x.read_eq
  refine ⟨unread, ended, queue, ?_⟩
  have told : s.requestStop true = s := by
    unfold Session.requestStop
    rw [← up]
  have raised : x.raise = x := by
    unfold raise
    rw [hs, Option.map_some, told, ← hs]
  rw [hread, raised, ite_self]

/-- A running program takes a step in the session's turn, with the flag as it is. -/
theorem turn_of_running {before : Nat} {s : Session} {m : Machine}
    (running : x.activity = .running before) (hs : x.connection.session = some s)
    (hm : s.machine = some m) : x.turn = x.proceed before s (m.step s.stopRequested) := by
  unfold turn
  rw [running, hs]
  dsimp only
  rw [hm]

theorem seen_of_running {before : Nat} {s : Session} (running : x.activity = .running before)
    (hs : x.connection.session = some s) :
    x.seen = x.written ++ (s.sent.toList.drop before).map frameOf := by
  unfold seen
  rw [running, hs]

/-- At a check point the run ends, and all that is sent is its end. -/
theorem proceed_exit {before : Nat} {s : Session} {m : Machine}
    (running : x.activity = .running before) (hs : x.connection.session = some s)
    (open_ : x.connection.closed = false) (sent : before ≤ s.sent.toList.length)
    (status : Machine.ExitStatus) :
    (x.proceed before s (m.exit status)).activity = .waiting ∧
      (x.proceed before s (m.exit status)).started = x.started ∧
      (x.proceed before s (m.exit status)).seen = x.seen ++ ending status s.stage := by
  have waits : (x.proceed before s (m.exit status)).activity = .waiting := by
    change (if x.connection.closed = true then Activity.finished else .waiting) = .waiting
    rw [open_]
    rfl
  refine ⟨waits, rfl, ?_⟩
  have written : (x.proceed before s (m.exit status)).seen =
      (x.proceed before s (m.exit status)).written := by
    unfold seen
    rw [waits]
  have total : (s.moved (m.exit status)).sent.toList = s.sent.toList ++
      [.message ⟨.programExit, .exit status⟩, .message (.ofStage .stageEnd s.stage)] := by
    simp [Session.moved, Session.announce, Session.send, Machine.exit, Machine.send]
  rw [written, seen_of_running running hs]
  change x.written ++ (((s.moved (m.exit status)).sent.toList.drop before).map frameOf ++ [_]) = _
  rw [total, List.drop_append_of_le_length sent, List.map_append, List.append_assoc,
    List.append_assoc]
  rfl

/-- A program whose flag is up ends at its next check point. -/
theorem ends_of_up : ∀ (schedule : List Actor) {x : Exchange} {before : Nat} {s : Session}
    {m : Machine}, x.Fits → x.activity = .running before → x.connection.session = some s →
    s.machine = some m → s.stopRequested = true → m.ahead ≠ [] →
    m.labelsAhead < schedule.count .session → ∃ u v stage, schedule = u ++ v ∧
      (x.after u).activity = .waiting ∧ (x.after u).started = x.started ∧
        (x.after u).seen = x.seen ++ ending .stopped stage
  | [], _, _, _, _, _, _, _, _, _, _, enough => absurd enough (Nat.not_lt_zero _)
  | .reader :: schedule, x, before, s, m, h, running, hs, hm, up, code, enough => by
    obtain ⟨unread, ended, queue, hread⟩ := read_of_up hs up
    obtain ⟨fits, _⟩ := move_fits h .reader
    change x.read.Fits at fits
    rw [hread] at fits
    obtain ⟨u, v, stage, rfl, ends⟩ := ends_of_up schedule fits running hs hm up code
      (by rwa [List.count_cons_of_ne (by decide)] at enough)
    refine ⟨.reader :: u, v, stage, rfl, ?_⟩
    rw [after_cons, move, hread]
    exact ends
  | .session :: schedule, x, before, s, m, h, running, hs, hm, up, code, enough => by
    obtain ⟨i, rest, hahead⟩ := List.exists_cons_of_ne_nil code
    have hturn := turn_of_running running hs hm
    rw [up] at hturn
    rw [List.count_cons_self, Machine.labelsAhead_eq hahead] at enough
    by_cases label : i.op.isLabel = true
    · obtain ⟨hstep, hrest⟩ := Machine.step_of_label hahead label true
      have behind := ((h.built s hs).machine m hm).ahead_of_label hahead label
      rw [hstep] at hturn
      obtain ⟨fits, _⟩ := move_fits h .session
      change x.turn.Fits at fits
      rw [hturn] at fits
      rw [if_pos label] at enough
      obtain ⟨u, v, stage, rfl, waits, started, seen⟩ :=
        ends_of_up schedule fits rfl rfl rfl up (by rwa [hrest]) (Nat.lt_of_succ_lt_succ enough)
      refine ⟨.session :: u, v, stage, rfl, ?_⟩
      rw [after_cons, move, hturn]
      have nothing : (x.proceed before s { machine := m.behindLabel }).seen = x.seen := by
        rw [seen_of_running running hs]
        change x.written ++ ((s.sent ++ ([] : List Machine.Emission)).toList.drop before).map _ = _
        rw [Array.toList_appendList, List.append_nil]
      exact ⟨waits, started, by rw [seen, nothing]⟩
    · rw [Machine.step_true_of_checkPoint hahead label] at hturn
      obtain ⟨s', _, hs', _, _, sent⟩ := h.running before running
      cases hs.symm.trans hs'
      refine ⟨[.session], schedule, s.stage, rfl, ?_⟩
      rw [after_cons, move, hturn]
      exact proceed_exit running hs (h.open (by rw [running]; exact nofun)) sent .stopped

/-! ### Runs without end -/

/-- A run that goes on after its first turn. -/
theorem turn_of_loading {s t : Session} {m : Machine} (loading : x.activity = .loading .run)
    (hs : x.connection.session = some s) (entered : s.enterTerminal = (.ok (), t))
    (hm : t.machine = some m) (goes : (m.opening .run).outcome = none) :
    x.turn = { x with
      connection := { x.connection with session := some (t.moved (m.opening .run)) }
      activity := .running 0 } := by
  have hturn : x.turn = x.enter .run s := by
    unfold turn
    rw [loading, hs]
    rfl
  rw [hturn]
  unfold enter
  rw [entered]
  dsimp only
  rw [if_pos rfl]
  unfold launch
  rw [hm]
  dsimp only
  unfold proceed
  rw [goes]

/-- A run that goes on after a later turn. -/
theorem turn_of_goes {before : Nat} {s : Session} {m : Machine}
    (running : x.activity = .running before) (hs : x.connection.session = some s)
    (hm : s.machine = some m) (down : s.stopRequested = false)
    (goes : (m.step false).outcome = none) :
    x.turn = { x with
      connection := { x.connection with session := some (s.moved (m.step false)) }
      activity := .running before } := by
  rw [turn_of_running running hs hm, down]
  unfold proceed
  rw [goes]

/-- A machine that only moves on among machines of a kind, as long as it is not told to stop, runs on
forever once the reader has come to the end of the input. -/
theorem runs_on {Kind : Machine → Prop}
    (stays : ∀ m, Kind m → (m.step false).outcome = none ∧ Kind (m.step false).machine) :
    ∀ (schedule : List Actor) {x : Exchange} {before : Nat} {s : Session} {m : Machine},
    x.activity = .running before → x.connection.session = some s → s.machine = some m →
    s.stopRequested = false → x.ended = true → Kind m →
    (x.after schedule).activity = .running before
  | [], _, _, _, _, running, _, _, _, _, _ => running
  | .reader :: schedule, x, _, _, _, running, hs, hm, down, ended, kind => by
    have idle : x.read = x := by
      unfold read
      rw [if_pos ended]
    rw [after_cons, move, idle]
    exact runs_on stays schedule running hs hm down ended kind
  | .session :: schedule, x, before, s, m, running, hs, hm, down, ended, kind => by
    obtain ⟨goes, kind'⟩ := stays m kind
    rw [after_cons, move, turn_of_goes running hs hm down goes]
    exact runs_on stays schedule rfl rfl (s.moved_machine _) ((s.moved_stop _).trans down) ended
      kind'

/-! ### Published programs -/

theorem executed_eq {s : Session} (hs : x.connection.session = some s) :
    x.executed = s.executed := by
  unfold executed machine?
  rw [hs]
  rfl

theorem machine?_proceed (x : Exchange) (before : Nat) (s : Session) (a : Advance) :
    (x.proceed before s a).machine? = some a.machine := by
  have moved := s.moved_machine a
  unfold proceed
  cases a.outcome with
  | some o => exact moved
  | none => exact moved

/-- Whatever arrives and whoever's turn it is: from when the flag of a program is published until
another program is started, the flag is up exactly if the program has been told to stop since.  Once
it has been told, it executes no further instruction, and a run of it has ended when the session has
had as many turns as there are labels before the next check point, and one more; until then every
step is taken as if nothing had been read, whatever was read before the flag was published.  Only the
outermost function can be without code, and so without a check point. -/
theorem stop_reaches_published (config : Config) (host : Host) (arrivals : List Arrival)
    (earlier during : List Actor) {kind : CommandKind} {command : Command}
    (starting : ((opened config host arrivals).after earlier).activity = .starting kind command)
    (latest : (((opened config host arrivals).after earlier).turn.after during).started =
      ((opened config host arrivals).after earlier).started + 1) :
    let published := ((opened config host arrivals).after earlier).turn
    let x := published.after during
    (x.flag = true ↔ published.Told during) ∧
      (∀ u v, during = u ++ v → published.Told u → x.executed = (published.after u).executed) ∧
      ∀ before, x.activity = .running before → ∃ m f, x.machine? = some m ∧
        m.innermost? = some f ∧ (f.code = [] → m.frames.length = 1) ∧
        (¬ published.Told during → x.turn.machine? = some (m.step false).machine) ∧
        (published.Told during → f.code ≠ [] → x.EndsWithin (m.labelsAhead + 1) .stopped) := by
  intro published x
  have reached := (after_fits earlier (opened_fits config host arrivals)).1
  obtain ⟨fits, started, s, hs, down⟩ := publish_spec reached starting
  -- the flag is down when it is published, so that it is up only if the program was told since
  have told_iff (u : List Actor) (h : (published.after u).started = published.started) :
      ∃ s', (published.after u).connection.session = some s' ∧
        (s'.stopRequested = true ↔ published.Told u) := by
    obtain ⟨s', hs', up, _⟩ := after_goes u fits hs h
    rw [down] at up
    exact ⟨s', hs', up.trans (or_iff_right Bool.false_ne_true)⟩
  have same : x.started = published.started := latest.trans started.symm
  obtain ⟨s', hs', up⟩ := told_iff during same
  refine ⟨?_, fun u v hsplit told => ?_, fun before running => ?_⟩
  · unfold flag
    rw [hs']
    exact up
  · have later : x = (published.after u).after v := by
      rw [← after_append, ← hsplit]
    obtain ⟨fits_u, first⟩ := after_fits u fits
    have rest := (after_fits v fits_u).2
    rw [← later] at rest
    have stays : (published.after u).started = published.started :=
      Nat.le_antisymm (same ▸ rest) first
    obtain ⟨t, ht, up_u⟩ := told_iff u stays
    obtain ⟨t', ht', _, idle⟩ := after_goes v fits_u ht (by rw [← later, same, stays])
    rw [later, executed_eq ht', executed_eq ht, idle (up_u.2 told)]
  · have fits_x := (after_fits during fits).1
    obtain ⟨t, m, ht, hm, active, sent⟩ := fits_x.running before running
    cases hs'.symm.trans ht
    obtain ⟨f, hf, code, bare⟩ := ((fits_x.built s' hs').machine m hm).innermost active
    refine ⟨m, f, ?_, hf, bare, fun untold => ?_, fun told hcode schedule enough => ?_⟩
    · unfold machine?
      rw [hs']
      exact hm
    · have lowered : s'.stopRequested = false := Bool.eq_false_iff.2 fun h => untold (up.1 h)
      rw [turn_of_running running hs' hm, machine?_proceed, lowered]
    · exact ends_of_up schedule fits_x running hs' hm (up.2 told) (code hcode) enough

/-! ### A program without end -/

/-- The text of a program that does not end. -/
def endlessText : String := "func main() { loop {} }"

/-- A command to run the program, and one to stop it. -/
def endlessLines : List Arrival :=
  [.ok (.command (.ofKind .run [] endlessText)), .ok (.command (.ofKind .stop [] ""))]

def endless : Exchange := opened {} ⟨{}, .platform, {}, 0⟩ endlessLines

/-- The session when the program has been loaded. -/
def endlessLoaded : Session :=
  { Session.ofConfig {} {} .platform 0 with source := some (.text usualSourceName endlessText) }

theorem endless_read : (Syntax.parseWithin 20 endlessLoaded.config.parseOptions usualSourceName
    endlessText).isSome = true := by
  decide +kernel

/-- What the text is parsed to. -/
def endlessOutcome : Syntax.ParseOutcome :=
  (Syntax.parseWithin 20 endlessLoaded.config.parseOptions usualSourceName endlessText).get
    endless_read

theorem endlessOutcome_clean : endlessOutcome = ⟨endlessOutcome.program, [], []⟩ := by
  have clean : endlessOutcome.errors = [] ∧ endlessOutcome.remarks = [] := by decide +kernel
  rw [← clean.1, ← clean.2]

/-- The session when the program has been linked, and what that gives. -/
def endlessLinked : Session.Answer Unit :=
  Session.advanceToLinked 3
    { endlessLoaded with stage := .parse, parsed := some endlessOutcome.program }

/-- The session when there is a machine. -/
def endlessEntered : Session := endlessLinked.2.advance.2

theorem endlessLinked_advances :
    endlessLinked.1 = .ok () ∧ endlessLinked.2.advance.1 = .ok .interpret ∧
      endlessEntered.machine.isSome = true := by
  decide +kernel

theorem endlessLoaded_enterTerminal :
    endlessLoaded.enterTerminal = (.ok (), endlessEntered) := by
  have parsed : endlessLoaded.parseSource (.text usualSourceName endlessText) =
      ⟨endlessOutcome.program, [], []⟩ :=
    (Syntax.parseText_of_parseWithin rfl (Option.some_get endless_read).symm).trans
      endlessOutcome_clean
  have compiled : endlessLoaded.compile = endlessLinked :=
    Session.compile_of_parse rfl rfl rfl rfl rfl parsed
  obtain ⟨linked, advanced, -⟩ := endlessLinked_advances
  exact Session.enterTerminal_of_compile rfl compiled linked advanced

theorem endlessEntered_machine : endlessEntered.machine.isSome = true := endlessLinked_advances.2.2

/-- The machine when the run begins. -/
def endlessBegun : Advance := (endlessEntered.machine.get endlessEntered_machine).opening .run

/-- The machine when the globals have been set, before the loop. -/
def endlessLooping : Machine := (endlessBegun.machine.step false).machine

/-- The machine goes on to its loop, in which it is behind one label. -/
theorem endlessBegun_loops :
    (endlessBegun.outcome = none ∧ (endlessBegun.machine.step false).outcome = none) ∧
      (endlessLooping.stepper.mode = .run ∧ endlessLooping.stepper.pausePending = false ∧
        endlessLooping.circles = true) ∧
      endlessLooping.labelsAhead = 1 ∧
      (endlessLooping.innermost?.map fun f => f.code.isEmpty) = some false := by
  decide +kernel

theorem endless_goes :
    endlessBegun.outcome = none ∧ (endlessBegun.machine.step false).outcome = none :=
  endlessBegun_loops.1

theorem endlessLooping_circling : endlessLooping.Circling := by
  obtain ⟨-, ⟨mode, unpaused, circles⟩, -⟩ := endlessBegun_loops
  exact ⟨mode, unpaused, endlessLooping, circles, .inl rfl⟩

/-- In two turns the program that was loaded comes to its loop. -/
theorem turn_turn_endless {x : Exchange} (loading : x.activity = .loading .run)
    (hs : x.connection.session = some endlessLoaded) :
    ∃ t : Session, t.machine = some endlessLooping ∧ t.stopRequested = false ∧
      x.turn.turn = { x with
        connection := { x.connection with session := some t }
        activity := .running 0 } := by
  let s := endlessEntered.moved endlessBegun
  have down : s.stopRequested = false := by
    have advanced := (Session.enterTerminal_advances endlessLoaded).stop
    rw [endlessLoaded_enterTerminal] at advanced
    exact (Session.moved_stop _ _).trans advanced
  have hfirst := turn_of_loading loading hs endlessLoaded_enterTerminal (Option.some_get _).symm
    endless_goes.1
  have running : x.turn.activity = .running 0 := by rw [hfirst]
  have hs' : x.turn.connection.session = some s := by
    rw [hfirst]
    rfl
  have hsecond := turn_of_goes running hs' (Session.moved_machine _ _) down endless_goes.2
  refine ⟨s.moved (endlessBegun.machine.step false), Session.moved_machine _ _,
    (Session.moved_stop _ _).trans down, ?_⟩
  rw [hsecond, hfirst]

/-- The exchange when the program has been published. -/
def endlessPublished : Exchange := (endless.after [.reader, .session]).turn

/-- A `stop` that is read while the program is in its loop ends the run in two turns of the session, no
matter that the loop has no end. -/
theorem endless_stopped :
    (endlessPublished.after [.session, .session, .reader]).activity = .running 0 ∧
    (endlessPublished.after [.session, .session, .reader]).flag = true ∧
    (endlessPublished.after [.session, .session, .reader]).EndsWithin 2 .stopped := by
  have hstarting : (endless.after [.reader, .session]).activity =
      .starting .run (.ofKind .run [] endlessText) := rfl
  have reached := stop_reaches_published {} ⟨{}, .platform, {}, 0⟩ endlessLines
    [.reader, .session] [.session, .session, .reader] hstarting
  have loading : endlessPublished.activity = .loading .run := rfl
  have loaded : endlessPublished.connection.session = some endlessLoaded := rfl
  have started : endlessPublished.started = (endless.after [.reader, .session]).started + 1 := rfl
  have unread : endlessPublished.unread = [.ok (.command (.ofKind .stop [] ""))] := rfl
  have open_ : endlessPublished.ended = false := rfl
  obtain ⟨t, hm, -, hturns⟩ := turn_turn_endless loading loaded
  have reads : endlessPublished.turn.turn.readsStop = true := by
    rw [hturns]
    unfold readsStop
    rw [open_, unread]
    rfl
  have told : endlessPublished.Told [.session, .session, .reader] :=
    ⟨[.session, .session], .reader, [], rfl, reads⟩
  obtain ⟨unread', ended, queue, hread⟩ := endlessPublished.turn.turn.read_eq
  rw [if_pos reads, hturns] at hread
  have hx : endlessPublished.after [.session, .session, .reader] =
      endlessPublished.turn.turn.read := rfl
  rw [hturns, hread] at hx
  have running : (endlessPublished.after [.session, .session, .reader]).activity = .running 0 := by
    rw [hx]
    rfl
  have looping : (endlessPublished.after [.session, .session, .reader]).machine? =
      some endlessLooping := by
    rw [hx]
    exact hm
  obtain ⟨flag, -, runs⟩ := reached (by
    change (endlessPublished.after _).started = _
    rw [hx]
    exact started)
  obtain ⟨m, f, hmachine, hf, -, -, ends⟩ := runs 0 running
  have same : m = endlessLooping := Option.some.inj (hmachine.symm.trans looping)
  subst m
  obtain ⟨-, -, ahead⟩ := endlessBegun_loops
  have code : f.code ≠ [] := fun nothing => by
    have bare := ahead.2
    rw [hf, Option.map_some, nothing] at bare
    cases bare
  have soon := ends told code
  rw [ahead.1] at soon
  exact ⟨running, flag.2 told, soon⟩

/-- A `stop` that is read before the flag is published is lost, and so is the end of the input: whoever's
turn it is, the program runs on. -/
theorem endless_unstopped (schedule : List Actor) :
    ((endless.after [.reader, .reader, .reader, .session, .session, .session, .session]).after
      schedule).activity = .running 0 := by
  let published := endless.after [.reader, .reader, .reader, .session, .session]
  have loading : published.activity = .loading .run := rfl
  have loaded : published.connection.session = some endlessLoaded := rfl
  have ended : published.ended = true := rfl
  obtain ⟨s, hm, down, hturns⟩ := turn_turn_endless loading loaded
  have entered : endless.after [.reader, .reader, .reader, .session, .session, .session, .session] =
      published.turn.turn := rfl
  rw [entered, hturns]
  exact runs_on (fun _ => Machine.step_circling) schedule rfl rfl hm down ended
    endlessLooping_circling

end Exchange

end Backend

end ScriptLang

