import ScriptLang.Backend.Connection
import ScriptLang.Proofs.Footing

/-!
# The two actors of a connection

Two actors serve a connection.  The reader takes the lines as they arrive and queues the commands on
them; when it reads a `stop`, and when it comes to the end of the input, it raises the flag that is
published.  The session takes the commands from the queue, one after the other.  A command that starts
a program publishes a flag of the program's own before the program goes through its stages; the
program then looks at this flag at each check point.  An `Exchange` is where both have come to, and a
schedule says whose turn it is.  The reader's turns change nothing but the flag and the queue, so it
does not matter that it raises the flag and queues the command in one turn.
-/

namespace ScriptLang

open Machine (Advance Outcome Mode)

/-- The session after its machine has moved. -/
def Session.moved (s : Session) (a : Advance) : Session :=
  let s := { s with machine := some a.machine, sent := s.sent ++ a.emitted }
  match a.outcome with
  | some (.exited _) => s.announce .stageEnd s.stage
  | _ => s

namespace Backend

open Wire

inductive Actor where
  | reader
  | session
deriving DecidableEq, Repr

/-- What the session is doing. -/
inductive Activity where
  /-- It waits for a command. -/
  | waiting
  /-- It has taken a command that starts a program, and has not published the program's flag. -/
  | starting (kind : CommandKind) (command : Command)
  /-- The flag is published, and the program has to go through its stages. -/
  | loading (kind : CommandKind)
  /-- The program runs; so many messages and texts were sent before the command. -/
  | running (before : Nat)
  /-- It serves no more. -/
  | finished

structure Exchange where
  /-- What has arrived and has not been read. -/
  unread : List Arrival
  /-- Whether the reader has come to the end of the input. -/
  ended : Bool := false
  /-- What was read and not yet taken by the session. -/
  queue : List (Except ProtocolError Command) := []
  /-- The program that was started last is the one whose flag is published. -/
  connection : Connection
  activity : Activity := .waiting
  /-- What was written for the commands that have been answered. -/
  written : List Wire.Frame := []
  /-- The number of programs that were started. -/
  started : Nat := 0

namespace Exchange

/-- A connection that has been opened. -/
def opened (config : Config) (host : Host) (arrivals : List Arrival) : Exchange where
  unread := arrivals
  connection := { config, host }

/-! ### The reader -/

/-- What the reader queues next, and what is left to read.  None at the end of the input. -/
def nextLine? : List Arrival → Option (Except ProtocolError Command × List Arrival)
  | .ok (.command c) :: rest => some (.ok c, rest)
  | .ok f :: rest => some (.error (.unexpected "a command" f.describe), rest)
  | .error (.malformed m) :: rest => some (.error (.malformed m), rest)
  | _ => none

/-- Raise the flag that is published, if there is one. -/
def raise (x : Exchange) : Exchange :=
  { x with connection := { x.connection with
      session := x.connection.session.map fun s => s.requestStop true } }

/-- Whether the reader's turn is to read a `stop` or to come to the end of the input. -/
def readsStop (x : Exchange) : Bool :=
  !x.ended && match nextLine? x.unread with
    | some (.ok c, _) => c.command == CommandKind.stop.name
    | some (.error _, _) => false
    | none => true

/-- The reader's turn. -/
def read (x : Exchange) : Exchange :=
  if x.ended then x
  else
    let y := if x.readsStop then x.raise else x
    match nextLine? x.unread with
    | some (r, rest) => { y with unread := rest, queue := y.queue ++ [r] }
    | none => { y with ended := true }

/-! ### The session -/

/-- Answer a command. -/
def answer (x : Exchange) (a : Answer) : Exchange :=
  { x with
    connection := a.connection
    written := x.written ++ a.written
    activity := if a.connection.closed then .finished else .waiting }

/-- Go on to where the machine has moved. -/
def proceed (x : Exchange) (before : Nat) (s : Session) (a : Advance) : Exchange :=
  match a.outcome with
  | some o => x.answer (x.connection.replyAfter before (.ok o, s.moved a) fun o _ => replyOf o)
  | none =>
    { x with
      connection := { x.connection with session := some (s.moved a) }
      activity := .running before }

/-- Begin to run the machine in a mode. -/
def launch (x : Exchange) (before : Nat) (mode : Mode) (s : Session) : Exchange :=
  match s.machine with
  | none =>
    x.answer (x.connection.replyAfter before ((.error .notSuspended, s) : Session.Answer Outcome)
      fun o _ => replyOf o)
  | some m => x.proceed before s (m.opening mode)

/-- Resume the program. -/
def resume (x : Exchange) (mode : Mode) : Exchange :=
  match x.connection.session with
  | none => x.answer (x.connection.resume mode)
  | some s =>
    if s.isSuspended then x.launch s.sent.size mode s
    else x.answer (x.connection.resume mode)

/-- Take a `stop` from the queue.  Only a suspended program is resumed for it; a running one was told
by the reader. -/
def stop (x : Exchange) : Exchange :=
  match x.connection.session with
  | none => x.answer (x.connection.reply (.ok .ok))
  | some s =>
    if s.isSuspended then x.launch s.sent.size .run (s.requestStop true)
    else x.answer (x.connection.reply (.ok .ok))

/-- Begin what a command asks for. -/
def perform (x : Exchange) (kind : CommandKind) (command : Command) : Exchange :=
  match kind with
  | .compile | .run | .debug => { x with activity := .starting kind command }
  | .step => x.resume .singleStep
  | .stepOver => x.resume .stepOver
  | .runToReturn => x.resume .runToReturn
  | .continue => x.resume .continue
  | .stop => x.stop
  | .hello | .break | .goodbye => x.answer (x.connection.perform kind command)

/-- Take what comes next from the queue. -/
def take (x : Exchange) : Except ProtocolError Command → Exchange
  | .error e => x.answer (x.connection.reply (.error (.ofError e)))
  | .ok command =>
    match command.kind with
    | .ok kind => x.perform kind command
    | .error e => x.answer (x.connection.reply (.error (.ofError e)))

/-- Publish the flag of a new program. -/
def publish (x : Exchange) (kind : CommandKind) (command : Command) : Exchange :=
  let (name, options) := splitArguments command.arguments
  let (config, errors) := x.connection.config.withOptions options
  let warnings := errors.map fun e => Wire.Frame.warning (.ofError e)
  match (x.connection.begin config).load (.text name command.payload) with
  | (.error e, _) =>
    x.answer { x.connection.reply (.error (failureOf e)) with frames := warnings }
  | (.ok (), s) =>
    { x with
      connection := { x.connection with session := some s }
      activity := .loading kind
      written := x.written ++ warnings
      started := x.started + 1 }

/-- Take the program through its stages and begin to run it. -/
def enter (x : Exchange) (kind : CommandKind) (s : Session) : Exchange :=
  match s.enterTerminal with
  | (.error e, s) =>
    x.answer (x.connection.replyAfter 0 ((.error e, s) : Session.Answer Outcome)
      fun o _ => replyOf o)
  | (.ok (), s) =>
    if kind = .run then x.launch 0 .run s
    else x.launch 0 .continue { s with machine := s.machine.map Machine.pauseAtStart }

/-- Do what a command asks for with the program that it has started. -/
def load (x : Exchange) (kind : CommandKind) (s : Session) : Exchange :=
  match kind with
  | .compile => x.answer (x.connection.replyAfter 0 s.compile fun _ s => .ok (.compiled s.stage))
  | kind => x.enter kind s

/-- The session's turn.  A running program takes a step, for which it looks at its flag. -/
def turn (x : Exchange) : Exchange :=
  match x.activity, x.connection.session with
  | .waiting, _ =>
    match x.queue with
    | r :: rest => take { x with queue := rest } r
    | [] => if x.ended then { x with activity := .finished } else x
  | .starting kind command, _ => x.publish kind command
  | .loading kind, some s => x.load kind s
  | .running before, some s =>
    match s.machine with
    | some m => x.proceed before s (m.step s.stopRequested)
    | none => x
  | _, _ => x

/-! ### Schedules -/

def move (x : Exchange) : Actor → Exchange
  | .reader => x.read
  | .session => x.turn

/-- What a schedule leads to. -/
def after (x : Exchange) (schedule : List Actor) : Exchange := schedule.foldl move x

/-- Whether a command of a kind ends a suspended program. -/
def obeys (x : Exchange) (kind : CommandKind) : Bool :=
  kind = .stop && (x.connection.session.map Session.isSuspended).getD false

/-- Whether the session's turn is to take a `stop` that ends a suspended program. -/
def obeysStop (x : Exchange) : Bool :=
  match x.activity, x.queue with
  | .waiting, .ok command :: _ =>
    match command.kind with
    | .ok kind => x.obeys kind
    | .error _ => false
  | _, _ => false

/-- Whether a turn tells the program to stop whose flag is published. -/
def tells (x : Exchange) : Actor → Bool
  | .reader => x.readsStop
  | .session => x.obeysStop

/-- In the course of a schedule the program is told to stop. -/
def Told (x : Exchange) (schedule : List Actor) : Prop :=
  ∃ earlier actor later, schedule = earlier ++ actor :: later ∧
    (x.after earlier).tells actor = true

/-- Whether the published flag is up. -/
def flag (x : Exchange) : Bool := (x.connection.session.map Session.stopRequested).getD false

/-- The machine of the program that was started last. -/
def machine? (x : Exchange) : Option Machine := x.connection.session.bind Session.machine

/-- The number of instructions that the program started last has executed. -/
def executed (x : Exchange) : Nat := (x.machine?.map Machine.executed).getD 0

/-- All that has been sent to the client. -/
def seen (x : Exchange) : List Wire.Frame :=
  match x.activity, x.connection.session with
  | .running before, some s => x.written ++ (s.sent.toList.drop before).map frameOf
  | _, _ => x.written

/-- What is sent when a run ends. -/
def ending (status : Machine.ExitStatus) (stage : Stage) : List Wire.Frame :=
  [.event ⟨.programExit, .exit status⟩, .event (.ofStage .stageEnd stage),
    .response (.result (.exited status))]

/-- However the turns go on, the run has ended when the session has had so many of them: nothing but
its end is sent, and the session waits for the next command. -/
def EndsWithin (x : Exchange) (turns : Nat) (status : Machine.ExitStatus) : Prop :=
  ∀ schedule : List Actor, turns ≤ schedule.count .session → ∃ u v stage, schedule = u ++ v ∧
    (x.after u).activity = .waiting ∧ (x.after u).started = x.started ∧
      (x.after u).seen = x.seen ++ ending status stage

end Exchange

end Backend

end ScriptLang
