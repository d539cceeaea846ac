import ScriptLang.Proofs.Stopping

/-!
# A backend serves as its two actors do

A backend that takes one line after the other writes what its two actors write when the reader reads
a line only after the session has answered the line before (`exists_schedule_serve`), as long as no
program is given up for taking too many steps.
-/

namespace ScriptLang

open Machine (Advance Emission Mode Outcome)

namespace Session

theorem drive_eq {s : Session} {m m' : Machine} {mode : Mode} {sent : Array Emission} {o : Outcome}
    (hm : s.machine = some m) (h : m.resume mode s.stopRequested s.fuel = (m', sent, o)) :
    s.drive mode = (.ok o, s.settled m' sent o) := by
  unfold drive
  rw [hm]
  dsimp only
  rw [h]
  cases o <;> rfl

theorem moved_withMachine (s : Session) (m : Machine) (sent : Array Emission) (a : Advance) :
    (s.withMachine m sent).moved a = match a.outcome with
      | some o => s.settled a.machine (sent ++ a.emitted) o
      | none => s.withMachine a.machine (sent ++ a.emitted) := by
  have total : s.sent ++ sent ++ a.emitted = s.sent ++ (sent ++ a.emitted) := by
    apply Array.ext'
    simp
  unfold moved settled withMachine
  dsimp only
  rw [total]
  cases a.outcome with
  | none => rfl
  | some o => cases o <;> rfl

theorem moved_eq (s : Session) (a : Advance) :
    s.moved a = match a.outcome with
      | some o => s.settled a.machine a.emitted.toArray o
      | none => s.withMachine a.machine a.emitted.toArray := by
  have total : s.sent ++ a.emitted = s.sent ++ a.emitted.toArray := by
    apply Array.ext'
    simp
  unfold moved settled withMachine
  dsimp only
  rw [total]
  cases a.outcome with
  | none => rfl
  | some o => cases o <;> rfl

end Session

namespace Backend

open Wire

/-- The response for a program that is given up. -/
def givenUp : Response := responseOf (replyOf .unfinished)

namespace Exchange

variable {x : Exchange}

/-! ### Runs -/

/-- The exchange while the program runs. -/
def runningWith (x : Exchange) (before : Nat) (s : Session) : Exchange :=
  { x with
    connection := { x.connection with session := some s }
    activity := .running before }

/-- The exchange when the session has answered with what a request to it gave. -/
def answered {α : Type} (x : Exchange) (before : Nat) (a : Session.Answer α)
    (reply : α → Session → Except Failure Reply) : Exchange :=
  x.answer (x.connection.replyAfter before a reply)

/-- The session alone takes so many turns. -/
def alone (x : Exchange) (turns : Nat) : Exchange := x.after (List.replicate turns .session)

theorem alone_succ (x : Exchange) (turns : Nat) : x.alone (turns + 1) = x.turn.alone turns := rfl

/-- Turns of the session alone take the steps of the machine. -/
theorem alone_of_drive {before : Nat} {s : Session} : ∀ {fuel : Nat} {m m' : Machine}
    {sent sent' : Array Emission} {o : Outcome},
    Machine.drive s.stopRequested fuel m sent = (m', sent', o) → o ≠ .unfinished →
    ∃ n, (x.runningWith before (s.withMachine m sent)).alone n =
      x.answered before (.ok o, s.settled m' sent' o) fun o _ => replyOf o
  | 0, _, _, _, _, _, h, finished => by
    cases h
    exact absurd rfl finished
  | fuel + 1, m, m', sent, sent', o, h, finished => by
    have turned : (x.runningWith before (s.withMachine m sent)).turn =
        (x.runningWith before (s.withMachine m sent)).proceed before (s.withMachine m sent)
          (m.step s.stopRequested) := rfl
    rw [Machine.drive] at h
    have moved := s.moved_withMachine m sent (m.step s.stopRequested)
    unfold proceed at turned
    rw [moved] at turned
    cases ho : (m.step s.stopRequested).outcome with
    | some o' =>
      rw [ho] at h turned
      cases h
      exact ⟨1, turned⟩
    | none =>
      rw [ho] at h turned
      obtain ⟨n, hn⟩ := alone_of_drive h finished
      refine ⟨n + 1, ?_⟩
      rw [alone_succ, turned, ← hn]
      rfl

/-- A run that is not given up is answered in as many turns as it takes. -/
theorem alone_of_launch (x : Exchange) (before : Nat) (mode : Mode) (s : Session)
    (finished : (s.drive mode).1 ≠ .ok .unfinished) :
    ∃ n, (x.launch before mode s).alone n =
      x.answered before (s.drive mode) fun o _ => replyOf o := by
  unfold launch
  cases hm : s.machine with
  | none =>
    refine ⟨0, ?_⟩
    unfold Session.drive
    rw [hm]
    rfl
  | some m =>
    obtain ⟨⟨m', sent, o⟩, hresume⟩ : ∃ r, m.resume mode s.stopRequested s.fuel = r := ⟨_, rfl⟩
    have hdrive := Session.drive_eq hm hresume
    rw [hdrive] at finished ⊢
    have hunder := m.resumeUnder_eq mode (fun _ => s.stopRequested) s.fuel
    rw [m.resumeUnder_const, hresume] at hunder
    dsimp only
    unfold proceed
    rw [s.moved_eq]
    cases ho : (m.opening mode).outcome with
    | some o' =>
      rw [ho] at hunder
      cases hunder
      exact ⟨0, rfl⟩
    | none =>
      rw [ho] at hunder
      dsimp only at hunder
      rw [Machine.driveUnder_const] at hunder
      refine alone_of_drive hunder.symm ?_
      rintro rfl
      exact finished rfl

/-! ### Commands -/

/-- What answers a run that is not given up shows that it is not. -/
theorem finished_of_response {c : Connection} {before : Nat} {a : Session.Answer Outcome}
    (patient : (c.replyAfter before a fun o _ => replyOf o).response ≠ givenUp) :
    a.1 ≠ .ok .unfinished := by
  intro h
  refine patient ?_
  unfold Connection.replyAfter
  dsimp only
  rw [h]
  rfl

theorem alone_resume (x : Exchange) (mode : Mode)
    (patient : (x.connection.resume mode).response ≠ givenUp) :
    ∃ n, (x.resume mode).alone n = x.answer (x.connection.resume mode) := by
  unfold resume
  cases hs : x.connection.session with
  | none => exact ⟨0, rfl⟩
  | some s =>
    dsimp only
    split
    · next suspended =>
      have resumed : x.connection.resume mode =
          x.connection.replyAfter s.sent.size (s.drive mode) fun o _ => replyOf o := by
        unfold Connection.resume Session.resume
        rw [hs]
        dsimp only
        rw [if_pos suspended]
      rw [resumed] at patient ⊢
      exact alone_of_launch x s.sent.size mode s (finished_of_response patient)
    · exact ⟨0, rfl⟩

/-- The reader has raised the flag before the session takes a `stop`. -/
theorem alone_stop {x : Exchange}
    (raised : x.connection.session.map (fun s => s.requestStop true) = x.connection.session)
    (patient : x.connection.stop.response ≠ givenUp) :
    ∃ n, x.stop.alone n = x.answer x.connection.stop := by
  have same : { x.connection with session := x.connection.session } = x.connection := rfl
  unfold Connection.stop at patient ⊢
  rw [raised] at patient ⊢
  unfold stop
  cases hs : x.connection.session with
  | none => exact ⟨0, rfl⟩
  | some s =>
    have told : s.requestStop true = s := by
      rw [hs] at raised
      exact Option.some.inj raised
    rw [hs] at same patient
    dsimp only at patient ⊢
    rw [same] at patient ⊢
    split
    · next suspended =>
      rw [if_pos suspended] at patient
      have resumed := alone_resume x .run patient
      unfold resume at resumed
      rw [hs] at resumed
      dsimp only at resumed
      rw [if_pos suspended] at resumed
      rw [told]
      exact resumed
    · exact ⟨0, rfl⟩

/-- What a run or a debug run of a program gives. -/
def startedAs (kind : CommandKind) (s : Session) : Session.Answer Outcome :=
  if kind = .run then s.run else s.debug

theorem alone_enter (x : Exchange) (kind : CommandKind) (s : Session)
    (finished : (startedAs kind s).1 ≠ .ok .unfinished) :
    ∃ n, (x.enter kind s).alone n = x.answered 0 (startedAs kind s) fun o _ => replyOf o := by
  unfold startedAs Session.run Session.debug at finished ⊢
  unfold enter
  obtain ⟨⟨r, t⟩, hentered⟩ : ∃ r, s.enterTerminal = r := ⟨_, rfl⟩
  rw [hentered] at finished ⊢
  cases r with
  | error e =>
    refine ⟨0, ?_⟩
    rw [ite_self]
    rfl
  | ok _ =>
    dsimp only at finished ⊢
    split
    · next hkind =>
      rw [if_pos hkind] at finished
      exact alone_of_launch x 0 .run t finished
    · next hkind =>
      rw [if_neg hkind] at finished
      exact alone_of_launch x 0 .continue _ finished

/-- What is written before an answer may have been written before. -/
theorem answer_behind (x : Exchange) (a : Answer) (warnings : List Wire.Frame) :
    x.answer { a with frames := warnings ++ a.frames } =
      ({ x with written := x.written ++ warnings } : Exchange).answer a := by
  unfold answer Answer.written
  dsimp only
  rw [List.append_assoc, List.append_assoc]

/-- What a program that is loaded answers to the command that started it. -/
def loaded (c : Connection) (kind : CommandKind) (s : Session) : Answer :=
  match kind with
  | .compile => c.replyAfter 0 s.compile fun _ s => .ok (.compiled s.stage)
  | kind => c.replyAfter 0 (startedAs kind s) fun o _ => replyOf o

theorem alone_load (x : Exchange) (kind : CommandKind) (s : Session)
    (patient : (loaded x.connection kind s).response ≠ givenUp) :
    ∃ n, (x.load kind s).alone n = x.answer (loaded x.connection kind s) := by
  cases kind with
  | compile => exact ⟨0, rfl⟩
  | _ => exact alone_enter x _ s (finished_of_response patient)

/-- The warnings about the options of a command. -/
def warnings (c : Connection) (command : Command) : List Wire.Frame :=
  (c.config.withOptions (splitArguments command.arguments).2).2.map fun e => .warning (.ofError e)

/-- The text that a command brings is loaded. -/
theorem load_begin (c : Connection) (command : Command) : ∃ s,
    (c.begin (c.config.withOptions (splitArguments command.arguments).2).1).load
      (.text (splitArguments command.arguments).1 command.payload) = (.ok (), s) := by
  obtain ⟨s, hload, -⟩ := begin_load c _ _
  exact ⟨s, hload⟩

theorem start_of_load {c : Connection} {kind : CommandKind} {command : Command} {s : Session}
    (h : (c.begin (c.config.withOptions (splitArguments command.arguments).2).1).load
      (.text (splitArguments command.arguments).1 command.payload) = (.ok (), s)) :
    c.start kind command =
      { loaded c kind s with frames := warnings c command ++ (loaded c kind s).frames } := by
  unfold Connection.start
  dsimp only
  rw [h]
  cases kind <;> rfl

theorem publish_of_load {kind : CommandKind} {command : Command} {s : Session}
    (h : (x.connection.begin
      (x.connection.config.withOptions (splitArguments command.arguments).2).1).load
        (.text (splitArguments command.arguments).1 command.payload) = (.ok (), s)) :
    x.publish kind command =
      { x with
        connection := { x.connection with session := some s }
        activity := .loading kind
        written := x.written ++ warnings x.connection command
        started := x.started + 1 } := by
  unfold publish
  dsimp only
  rw [h]
  rfl

/-- A program is started in one turn and goes through its stages in the next. -/
theorem alone_start (x : Exchange) (kind : CommandKind) (command : Command)
    (patient : (x.connection.start kind command).response ≠ givenUp) :
    ∃ n started, ({ x with activity := .starting kind command } : Exchange).alone n =
      { x.answer (x.connection.start kind command) with started } := by
  obtain ⟨s, hload⟩ := load_begin x.connection command
  rw [start_of_load hload] at patient ⊢
  rw [answer_behind]
  let y : Exchange :=
    { x with
      connection := { x.connection with session := some s }
      activity := .loading kind
      written := x.written ++ warnings x.connection command
      started := x.started + 1 }
  have published : ({ x with activity := .starting kind command } : Exchange).turn = y :=
    publish_of_load (x := { x with activity := .starting kind command }) hload
  have replaced : loaded y.connection kind s = loaded x.connection kind s := by
    cases kind <;> rfl
  obtain ⟨n, hn⟩ := alone_load y kind s (by rwa [replaced])
  refine ⟨n + 2, x.started + 1, ?_⟩
  rw [alone_succ, published, alone_succ]
  exact hn.trans (by rw [replaced]; rfl)

/-- A command of a known kind is answered as the backend answers it. -/
theorem alone_perform (kind : CommandKind) (command : Command)
    (raised : kind = .stop →
      x.connection.session.map (fun s => s.requestStop true) = x.connection.session)
    (patient : (x.connection.perform kind command).response ≠ givenUp) :
    ∃ n started, (x.perform kind command).alone n =
      { x.answer (x.connection.perform kind command) with started } := by
  have same {n : Nat} {y : Exchange} {a : Answer} (h : y.alone n = x.answer a) :
      ∃ n started, y.alone n = { x.answer a with started } := ⟨n, x.started, h⟩
  cases kind with
  | compile => exact alone_start x _ command patient
  | run => exact alone_start x _ command patient
  | debug => exact alone_start x _ command patient
  | step => exact (alone_resume x _ patient).elim fun _ h => same h
  | stepOver => exact (alone_resume x _ patient).elim fun _ h => same h
  | runToReturn => exact (alone_resume x _ patient).elim fun _ h => same h
  | «continue» => exact (alone_resume x _ patient).elim fun _ h => same h
  | stop => exact (alone_stop (raised rfl) patient).elim fun _ h => same h
  | _ => exact same (n := 0) rfl

/-! ### Lines -/

/-- What the backend answers to what the reader queues. -/
def answerTo (c : Connection) : Except ProtocolError Command → Answer
  | .ok command => c.handle command
  | .error e => c.reply (.error (.ofError e))

/-- The reader queues what the backend takes, and comes to the end where the backend does. -/
theorem take_eq (c : Connection) (arrival : Arrival) (rest : List Arrival) :
    (∃ r, nextLine? (arrival :: rest) = some (r, rest) ∧ c.take arrival = some (answerTo c r)) ∨
      (nextLine? (arrival :: rest) = none ∧ c.take arrival = none) := by
  rcases arrival with e | f
  · cases e with
    | malformed m => exact .inl ⟨_, rfl, rfl⟩
    | _ => exact .inr ⟨rfl, rfl⟩
  · cases f <;> exact .inl ⟨_, rfl, rfl⟩

/-- A command is a `stop` if that is its name. -/
theorem name_of_kind {command : Command} {kind : CommandKind} (h : command.kind = .ok kind) :
    kind.name = command.command := by
  unfold Command.kind at h
  split at h
  · next kind' hfound =>
    cases h
    exact beq_iff_eq.1 (List.find?_some (p := fun a : CommandKind => a.name == command.command) hfound)
  · cases h

theorem alone_take (r : Except ProtocolError Command)
    (raised : ∀ command, r = .ok command → command.command = CommandKind.stop.name →
      x.connection.session.map (fun s => s.requestStop true) = x.connection.session)
    (patient : (answerTo x.connection r).response ≠ givenUp) :
    ∃ n started, (x.take r).alone n = { x.answer (answerTo x.connection r) with started } := by
  cases r with
  | error e => exact ⟨0, x.started, rfl⟩
  | ok command =>
    unfold answerTo Connection.handle at patient ⊢
    unfold take
    dsimp only at patient ⊢
    cases hkind : command.kind with
    | error e => exact ⟨0, x.started, rfl⟩
    | ok kind =>
      rw [hkind] at patient
      refine alone_perform kind command (fun hstop => raised command rfl ?_) patient
      rw [← name_of_kind hkind, hstop]

theorem kind_of_name {command : Command} (h : command.command = CommandKind.stop.name) :
    command.kind = .ok .stop := by
  unfold Command.kind
  rw [h]
  rfl

theorem raise_raised (x : Exchange) :
    x.raise.connection.session.map (fun s => s.requestStop true) = x.raise.connection.session := by
  unfold raise
  dsimp only
  rw [Option.map_map]
  rfl

/-- The flag may be raised before the backend answers a `stop`. -/
theorem stop_raise (x : Exchange) : x.raise.connection.stop = x.connection.stop := by
  obtain ⟨unread, ended, queue, ⟨config, host, session, breakpoints, closed⟩, activity, written,
    started⟩ := x
  cases session <;> rfl

/-- An exchange in which everything that was read has been answered. -/
structure Settled (x : Exchange) : Prop where
  ended : x.ended = false
  queue : x.queue = []
  activity : x.activity = if x.connection.closed then .finished else .waiting

/-- The reader reads a line that can be read.  If that raises the flag, the backend answers the same. -/
theorem read_next {r : Except ProtocolError Command} {rest : List Arrival} (settled : x.Settled)
    (next : nextLine? x.unread = some (r, rest)) :
    ∃ c, x.read = { x with unread := rest, queue := [r], connection := c } ∧
      answerTo c r = answerTo x.connection r ∧
      ∀ command, r = .ok command → command.command = CommandKind.stop.name →
        c.session.map (fun s => s.requestStop true) = c.session := by
  have hread : x.read = { (if x.readsStop then x.raise else x) with
      unread := rest, queue := [r] } := by
    unfold read
    rw [if_neg (by rw [settled.ended]; exact Bool.false_ne_true), next]
    dsimp only
    split <;> exact congrArg (fun queue => Exchange.mk _ _ (queue ++ [r]) _ _ _ _) settled.queue
  have stops : x.readsStop = true ↔
      ∃ command, r = .ok command ∧ command.command = CommandKind.stop.name := by
    unfold readsStop
    rw [settled.ended, next]
    cases r with
    | ok command =>
      rw [Bool.not_false, Bool.true_and, beq_iff_eq]
      exact ⟨fun h => ⟨command, rfl, h⟩, fun ⟨_, hr, h⟩ => by cases hr; exact h⟩
    | error e => exact ⟨nofun, nofun⟩
  by_cases hstop : x.readsStop = true
  · rw [if_pos hstop] at hread
    refine ⟨x.raise.connection, hread, ?_, fun _ _ _ => x.raise_raised⟩
    obtain ⟨command, rfl, hname⟩ := stops.1 hstop
    unfold answerTo Connection.handle
    dsimp only
    rw [kind_of_name hname]
    exact x.stop_raise
  · rw [if_neg hstop] at hread
    exact ⟨x.connection, hread, rfl, fun command hr hname =>
      absurd (stops.2 ⟨command, hr, hname⟩) hstop⟩

theorem turn_of_queue {r : Except ProtocolError Command} {rest : List (Except ProtocolError Command)}
    (waiting : x.activity = .waiting) (queue : x.queue = r :: rest) :
    x.turn = take { x with queue := rest } r := by
  unfold turn
  rw [waiting, queue]

/-- If the reader waits for the answer, a line is answered as the backend answers it. -/
theorem exists_schedule_answer {arrival : Arrival} {rest : List Arrival} {a : Answer}
    (settled : x.Settled) (serving : x.activity = .waiting) (unread : x.unread = arrival :: rest)
    (taken : x.connection.take arrival = some a) (patient : a.response ≠ givenUp) :
    ∃ schedule started, x.after schedule = { x.answer a with unread := rest, started } := by
  obtain ⟨r, hnext, htake⟩ | ⟨-, htake⟩ := take_eq x.connection arrival rest
  · cases htake.symm.trans taken
    rw [← unread] at hnext
    obtain ⟨c, hread, same, raised⟩ := read_next settled hnext
    let y : Exchange := { x with unread := rest, queue := [], connection := c }
    have hturn : x.read.turn = y.take r := by
      rw [hread]
      exact turn_of_queue serving rfl
    obtain ⟨n, started, hn⟩ := alone_take (x := y) r raised (by rwa [same])
    refine ⟨.reader :: List.replicate (n + 1) .session, started, ?_⟩
    calc x.after (.reader :: List.replicate (n + 1) .session) = x.read.turn.alone n := rfl
      _ = { y.answer (answerTo c r) with started } := by rw [hturn]; exact hn
      _ = { x.answer (answerTo x.connection r) with unread := rest, started } := by
        rw [same]
        exact congrArg (fun queue => Exchange.mk _ _ queue _ _ _ _) settled.queue.symm
  · exact absurd (htake.symm.trans taken) nofun

/-- A backend writes what its two actors write if the reader reads each line when the line before has
been answered, as long as no program is given up. -/
theorem exists_schedule_serve : ∀ (arrivals : List Arrival) {x : Exchange}, x.Settled →
    x.unread = arrivals → .response givenUp ∉ (x.connection.serve arrivals).1 →
    ∃ schedule, (x.after schedule).written = x.written ++ (x.connection.serve arrivals).1
  | [], x, _, _, _ => ⟨[], (List.append_nil _).symm⟩
  | arrival :: rest, x, settled, unread, patient => by
    have activity := settled.activity
    unfold Connection.serve at patient ⊢
    split at patient
    · next closed =>
      rw [if_pos closed]
      exact ⟨[], (List.append_nil _).symm⟩
    · next opened =>
      rw [if_neg opened] at activity ⊢
      cases htake : x.connection.take arrival with
      | none => exact ⟨[], (List.append_nil _).symm⟩
      | some a =>
        rw [htake] at patient
        dsimp only at patient ⊢
        rw [List.mem_append, not_or] at patient
        have answered : a.response ≠ givenUp := by
          rintro h
          exact patient.1 (List.mem_append_right _ (by rw [h]; exact List.mem_singleton_self _))
        obtain ⟨schedule, started, hafter⟩ :=
          exists_schedule_answer settled activity unread htake answered
        obtain ⟨later, hlater⟩ := exists_schedule_serve rest
          (x := { x.answer a with unread := rest, started })
          ⟨settled.ended, settled.queue, rfl⟩ rfl patient.2
        refine ⟨schedule ++ later, ?_⟩
        rw [after_append, hafter, hlater, ← List.append_assoc]
        rfl

end Exchange

end Backend

end ScriptLang
