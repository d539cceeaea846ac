import ScriptLang.Backend.Connection
import ScriptLang.Launch.Error
import ScriptLang.Text.Words

/-!
# Dialogues

A frontend starts a backend, sends it a program and shows what comes back.  While the program is
suspended it asks its user for the next command, one line at a time, so that a dialogue is a state that
lines are fed to.  At the end of the input it stops the program.
-/

namespace ScriptLang

open Wire (Client Command CommandKind Reply Response)

/-- What a user wants to be run, and how. -/
structure Frontend where
  file : String
  config : Config := {}
  /-- Whether to reach the backend over the network. -/
  tcp : Bool := false
  /-- Whether to start suspended and ask what to do. -/
  step : Bool := false
  /-- Whether to show all messages. -/
  showEvents : Bool := false

/-- Where a text is shown. -/
inductive Channel where
  | output
  | error
deriving DecidableEq, Repr

structure Dialogue where
  file : String
  showEvents : Bool
  client : Client Backend.Connection
  /-- All that has been shown. -/
  shown : Array (Channel × String) := #[]
  /-- How the dialogue has ended: with the exit code of the program, or an error. -/
  ended : Option (Except LaunchError Int) := none

namespace Frontend

/-- The exit code of a program that was told to stop. -/
def stoppedExitCode : Int := 130

/-! ### Commands of the user -/

/-- What to say to a line that is no command. -/
def help : String :=
  "<enter>/s step, n step over, o run to return, c continue, b <line> breakpoint, q stop"

/-- The command that a line asks for. -/
def commandOf? (line : String) : Option Command :=
  let plain (kind : CommandKind) : Option Command := some (.ofKind kind [] "")
  match Text.words line with
  | [] => plain .step
  | word :: arguments =>
    match word with
    | "s" | "step" => plain .step
    | "n" | "next" => plain .stepOver
    | "o" | "out" => plain .runToReturn
    | "c" | "continue" => plain .continue
    | "q" | "quit" => plain .stop
    | "b" | "break" => do
      let line ← Decimal.readBits? 64 (← arguments.head?).toList
      return .ofKind .break ["line=" ++ toString line] ""
    | _ => none

/-! ### The backend -/

/-- The settings of a backend process, which gets them as flags. -/
def throughFlags (c : Config) : Config :=
  (Config.withOptions {} (Options.ofFlags (c.toOptions.toPairs.map ("--" ++ ·))).1).1

/-- The settings of the backend. -/
def backendConfig (f : Frontend) : Config :=
  if f.config.threaded then f.config else throughFlags f.config

/-- A name for the socket of a backend of one's own. -/
def socket : Wire.Endpoint := .socket "backend.sock"

/-- Start a backend and connect to it. -/
def connect (f : Frontend) (host : Host) : Except Wire.ProtocolError (Client Backend.Connection) := do
  host.network.reach (if f.tcp then .loopback else socket)
  match Client.connect (Backend.Connection.peer { config := f.backendConfig, host }) with
  | (.ok (), client) => return client
  | (.error e, _) => throw e

end Frontend

namespace Dialogue

open Frontend

/-! ### Showing -/

def say (d : Dialogue) (channel : Channel) (text : String) : Dialogue :=
  { d with shown := d.shown.push (channel, text) }

/-- Show a line for the user's eyes. -/
def tell (d : Dialogue) (line : String) : Dialogue := d.say .error (line ++ "\n")

/-- Show a diagnostic with its place. -/
def report (d : Dialogue) (diagnostic : Diagnostic) : Dialogue :=
  match diagnostic.location with
  | some l => d.tell (l.text ++ ": " ++ diagnostic.text)
  | none => d.tell diagnostic.text

/-- Show a frame that comes before a response. -/
def showFrame (d : Dialogue) : Wire.Frame → Dialogue
  | .output text => d.say .output text
  | .event m => if d.showEvents then d.tell m.text else d
  | .warning w => d.report w
  | _ => d

/-- All texts shown in one place. -/
def textOn (d : Dialogue) (channel : Channel) : String :=
  String.join ((d.shown.toList.filter fun s => s.1 = channel).map Prod.snd)

/-! ### Responses -/

/-- Ask for the next command. -/
def ask (d : Dialogue) : Dialogue := d.say .error "(step) "

def finish (d : Dialogue) (result : Except LaunchError Int) : Dialogue :=
  { d with ended := some result }

/-- The program has ended. -/
def finishWith (d : Dialogue) : Machine.ExitStatus → Dialogue
  | .code n => d.finish (.ok n.toInt)
  | .stopped => d.finish (.ok stoppedExitCode)
  | .error e => (d.report e).finish (.ok 1)

/-- Take a response. -/
def takeResponse (d : Dialogue) : Response → Dialogue
  | .result (.exited status) => d.finishWith status
  | .result (.suspended reason p) =>
    (d.tell ("[" ++ reason.text ++ "] " ++ p.function ++ ":" ++ Code.indexText p.index ++ " at " ++
      p.location.text ++ " (depth " ++ toString p.depth ++ ")")).ask
  | .result (.breakpoint line) => (d.tell ("breakpoint at line " ++ toString line)).ask
  | .result r => d.finish (.error (.unexpectedReply r.text))
  | .error f =>
    let d := if f.diagnostics.isEmpty then d.tell ("error: " ++ f.message) else d
    (f.diagnostics.foldl report d).finish (.ok 1)

/-- Send a command and show what comes back. -/
def send (d : Dialogue) (c : Command) : Dialogue :=
  let (seen, r, client) := d.client.request c
  let d := seen.foldl showFrame { d with client }
  match r with
  | .ok r => d.takeResponse r
  | .error e => d.finish (.error (.protocol e))

/-! ### The course of a dialogue -/

/-- Begin: send the program. -/
def start (f : Frontend) (host : Host) : Except LaunchError Dialogue := do
  match host.files.readText f.file with
  | .error _ => throw (.unreadable f.file)
  | .ok source =>
    match f.connect host with
    | .error e => throw (.protocol e)
    | .ok client =>
      let d : Dialogue := { file := f.file, showEvents := f.showEvents, client }
      return d.send (.ofKind (if f.step then .debug else .run) ["file=" ++ f.file] source)

/-- Take a line of the user; none at the end of the input. -/
def feed (d : Dialogue) (line : Option String) : Dialogue :=
  if d.ended.isSome then d
  else
    match line with
    | none => d.send (.ofKind .stop [] "")
    | some line =>
      match commandOf? line with
      | some c => d.send c
      | none => (d.tell help).ask

/-- Take all lines of the user and the end of the input. -/
def converse (d : Dialogue) (input : List String) : Dialogue :=
  (input.foldl (fun d line => d.feed (some line)) d).feed none

end Dialogue

end ScriptLang
