import ScriptLang.Decimal.Read
import ScriptLang.Host
import ScriptLang.Session.State
import ScriptLang.Wire.Client

/-!
# Connections of a backend

A backend serves every client on a connection of its own.  It takes the lines that arrive one by one;
each line that is not blank gets one response, and before it go the messages, printed texts and
warnings that the line has caused.  A line that is refused does not end the connection: only `goodbye`,
the end of the input, and bytes that are no text do.

A connection has at most one program at a time.  A new program replaces the one before and keeps
nothing of it; breakpoints belong to the connection and are set in every program.
-/

namespace ScriptLang.Backend

open Wire

/-- The version of the protocol. -/
def protocolVersion : Nat := 1

/-- The name of a source that comes without a name. -/
def usualSourceName : String := "main.scribble"

structure Connection where
  /-- The settings that a command's options are applied to. -/
  config : Config
  host : Host
  session : Option Session := none
  breakpoints : List Nat := []
  /-- Whether nothing more is read. -/
  closed : Bool := false

/-- What a line leads to. -/
structure Answer where
  connection : Connection
  /-- What goes before the response, in order. -/
  frames : List Wire.Frame := []
  response : Response

/-- All that is written for a line. -/
def Answer.written (a : Answer) : List Wire.Frame := a.frames ++ [.response a.response]

/-! ### Arguments -/

/-- The source's name and the options among the arguments of a command. -/
def splitArguments (arguments : List String) : String × Options :=
  arguments.foldl (fun (name, options) argument =>
    match Options.splitPair argument with
    | ("file", some value) => (value, options)
    | (key, value) => (name, options.set key value)) (usualSourceName, {})

/-- What the number of a line may follow. -/
def lineMark : List Char := "line=".toList

/-- The number of a line, with or without the mark before it. -/
def lineNumber? (argument : String) : Option Nat :=
  let cs := argument.toList
  Decimal.readBits? 64 (if lineMark.isPrefixOf cs then cs.drop lineMark.length else cs)

/-- The line that a breakpoint is wanted on: the first argument that is one. -/
def breakpointLine? (arguments : List String) : Option Nat := arguments.findSome? lineNumber?

/-! ### Responses -/

/-- What a run that came to a halt is answered with. -/
def replyOf : Machine.Outcome → Except Failure Reply
  | .suspended reason position => .ok (.suspended reason position)
  | .exited status => .ok (.exited status)
  | .unfinished => .error { message := "the program takes too long" }

/-- What a refused request is answered with. -/
def failureOf : Session.SessionError → Failure
  | .stageFailed stage ds => ⟨"the " ++ stage.name ++ " stage failed", ds⟩
  | e => ⟨e.text, [.ofError e]⟩

def responseOf : Except Failure Reply → Response
  | .ok r => .result r
  | .error f => .error f

def frameOf : Machine.Emission → Wire.Frame
  | .message m => .event m
  | .output text => .output text

namespace Connection

/-- Answer without any frames on the way. -/
def reply (c : Connection) (r : Except Failure Reply) : Answer where
  connection := c
  response := responseOf r

/-- Answer with what a session gives for a request, after what it sent since it had sent `before`. -/
def replyAfter {α : Type} (c : Connection) (before : Nat) (a : Session.Answer α)
    (reply : α → Session → Except Failure Reply) : Answer :=
  let (r, s) := a
  { connection :=
      { c with session := some s, host := { c.host with files := s.files, bridge := s.bridge } }
    frames := (s.sent.toList.drop before).map frameOf
    response := responseOf (match r with
      | .ok a => reply a s
      | .error e => .error (failureOf e)) }

/-! ### Commands -/

/-- The session of a new program. -/
def begin (c : Connection) (config : Config) : Session :=
  c.breakpoints.foldl Session.addBreakpoint (.ofConfig config c.host.files c.host.bridge c.host.fuel)

/-- Start a program in place of the one before. -/
def start (c : Connection) (kind : CommandKind) (command : Command) : Answer :=
  let (name, options) := splitArguments command.arguments
  let (config, errors) := c.config.withOptions options
  let warnings := errors.map fun e => Wire.Frame.warning (.ofError e)
  let answer := match (c.begin config).load (.text name command.payload) with
    | (.error e, _) => c.reply (.error (failureOf e))
    | (.ok (), s) =>
      match kind with
      | .compile => c.replyAfter 0 s.compile fun _ s => .ok (.compiled s.stage)
      | .run => c.replyAfter 0 s.run fun outcome _ => replyOf outcome
      | _ => c.replyAfter 0 s.debug fun outcome _ => replyOf outcome
  { answer with frames := warnings ++ answer.frames }

/-- Resume the program. -/
def resume (c : Connection) (mode : Machine.Mode) : Answer :=
  match c.session with
  | none => c.reply (.error { message := "no program has been started" })
  | some s => c.replyAfter s.sent.size (s.resume mode) fun outcome _ => replyOf outcome

/-- Set a breakpoint in this program and all later ones. -/
def addBreakpoint (c : Connection) (command : Command) : Answer :=
  match breakpointLine? command.arguments with
  | none =>
    c.reply (.error (.ofError
      (.invalidArguments command.command "expected a line number, as 'line=<n>'")))
  | some line =>
    let breakpoints :=
      if c.breakpoints.contains line then c.breakpoints else c.breakpoints ++ [line]
    let session := c.session.map fun (s : Session) => s.addBreakpoint line
    { c with breakpoints, session }.reply (.ok (.breakpoint line))

/-- Tell the program to stop; a suspended one is resumed for it. -/
def stop (c : Connection) : Answer :=
  match c.session.map fun s => s.requestStop true with
  | none => c.reply (.ok .ok)
  | some s =>
    let c := { c with session := some s }
    if s.isSuspended then c.resume .run else c.reply (.ok .ok)

/-- Handle a command of a known kind. -/
def perform (c : Connection) (kind : CommandKind) (command : Command) : Answer :=
  match kind with
  | .hello => c.reply (.ok (.hello protocolVersion))
  | .compile | .run | .debug => c.start kind command
  | .step => c.resume .singleStep
  | .stepOver => c.resume .stepOver
  | .runToReturn => c.resume .runToReturn
  | .continue => c.resume .continue
  | .break => c.addBreakpoint command
  | .stop => c.stop
  | .goodbye => { c with closed := true }.reply (.ok .goodbye)

/-- Handle a command. -/
def handle (c : Connection) (command : Command) : Answer :=
  match command.kind with
  | .ok kind => c.perform kind command
  | .error e => c.reply (.error (.ofError e))

/-! ### Lines -/

/-- Take a frame that has arrived. -/
def receive (c : Connection) : Wire.Frame → Answer
  | .command command => c.handle command
  | f => c.reply (.error (.ofError (.unexpected "a command" f.describe)))

/-- Take what has arrived.  None if the connection ends. -/
def take (c : Connection) : Arrival → Option Answer
  | .ok f => some (c.receive f)
  | .error (.malformed m) => some (c.reply (.error (.ofError (.malformed m))))
  | .error _ => none

/-- Serve all that arrives: the frames that are written, and the connection at the end. -/
def serve (c : Connection) : List Arrival → List Wire.Frame × Connection
  | [] => ([], c)
  | arrival :: rest =>
    if c.closed then ([], c)
    else
      match c.take arrival with
      | none => ([], { c with closed := true })
      | some a =>
        let (frames, last) := a.connection.serve rest
        (a.written ++ frames, last)

/-- The other end of a connection to this backend, for a client. -/
def peer (c : Connection) : Peer Connection where
  state := c
  answer c command :=
    let (frames, c) := c.serve [.ok (.command command)]
    (frames.map .ok, c)

end Connection

end ScriptLang.Backend
