import ScriptLang.Wire.Error
import ScriptLang.Wire.Values

/-!
# Frames

What the two ends of a connection send each other: commands one way, and the other way messages,
printed texts, warnings and one response to each command.  A frame is one document.
-/

namespace ScriptLang.Wire

open Machine (Message ExitStatus SuspendReason Position Mode)

/-- A request by its name, with `key[=value]` arguments and the source text for those that need one. -/
structure Command where
  command : String
  arguments : List String := []
  payload : String := ""
deriving DecidableEq, Repr

/-- The requests that are understood. -/
inductive CommandKind where
  | hello
  | compile
  | run
  | debug
  | step
  | stepOver
  | runToReturn
  | continue
  | break
  | stop
  | goodbye
deriving DecidableEq, Repr

namespace CommandKind

def all : List CommandKind :=
  [hello, compile, run, debug, step, stepOver, runToReturn, .continue, .break, stop, goodbye]

def name : CommandKind → String
  | hello => "hello"
  | compile => "compile"
  | run => "run"
  | debug => "debug"
  | step => "step"
  | stepOver => "step-over"
  | runToReturn => "run-to-return"
  | .continue => "continue"
  | .break => "break"
  | stop => "stop"
  | goodbye => "goodbye"

def ofName? (s : String) : Option CommandKind := named? all name s

/-- The mode in which a command resumes a program. -/
def mode? : CommandKind → Option Mode
  | step => some .singleStep
  | stepOver => some .stepOver
  | runToReturn => some .runToReturn
  | .continue => some .continue
  | _ => none

end CommandKind

namespace Command

/-- A request of some kind. -/
def ofKind (kind : CommandKind) (arguments : List String) (payload : String) : Command :=
  ⟨kind.name, arguments, payload⟩

def kind (c : Command) : Except ProtocolError CommandKind :=
  match CommandKind.ofName? c.command with
  | some kind => .ok kind
  | none => .error (.unknownCommand c.command)

end Command

/-- What a command that succeeded gives. -/
inductive Reply where
  | hello (version : Nat)
  /-- The stage that was reached without errors. -/
  | compiled (stage : Stage)
  | suspended (reason : SuspendReason) (position : Position)
  | exited (status : ExitStatus)
  | breakpoint (line : Nat)
  | ok
  | goodbye
deriving DecidableEq

/-- Why a command failed. -/
structure Failure where
  message : String
  diagnostics : List Diagnostic := []
deriving DecidableEq

inductive Response where
  | result (reply : Reply)
  | error (failure : Failure)
deriving DecidableEq

inductive Frame where
  | command (c : Command)
  | response (r : Response)
  | event (m : Message)
  | output (text : String)
  | warning (d : Diagnostic)
deriving DecidableEq

def Response.isError : Response → Bool
  | error _ => true
  | result _ => false

/-- The failure that a connection error is. -/
def Failure.ofError (e : ProtocolError) : Failure := ⟨e.text, [.ofError e]⟩

/-- A frame in a few words. -/
def Frame.describe : Frame → String
  | command c => "command '" ++ c.command ++ "'"
  | response (.result _) => "a result"
  | response (.error f) => "an error (" ++ f.message ++ ")"
  | event m => "event " ++ m.kind.text
  | output _ => "program output"
  | warning _ => "a warning"

/-- A reply in full. -/
def Reply.text : Reply → String
  | hello version => Machine.recordText "Hello" [("version", toString version)]
  | compiled stage => Machine.recordText "Compiled" [("stage", stage.name.capitalize)]
  | suspended reason p =>
    Machine.recordText "Suspended" [("reason", reason.text), ("function", Text.quoted p.function),
      ("index", toString p.index), ("location", Machine.locationText p.location),
      ("depth", toString p.depth)]
  | exited status => Machine.recordText "Exited" [("status", status.text)]
  | breakpoint line => Machine.recordText "Breakpoint" [("line", toString line)]
  | ok => "Ok"
  | goodbye => "Goodbye"

/-! ### Documents -/

namespace Command

def toJson (c : Command) : Json :=
  .record [("command", .string c.command), ("arguments", .array (c.arguments.map .string)),
    ("payload", .string c.payload)]

def ofJson? (j : Json) : Option Command := do
  let f ← j.fields? ["command", "arguments", "payload"]
  return ⟨← f.required "command" Json.string?,
    ← f.defaulted "arguments" [] (Json.list? Json.string?),
    ← f.defaulted "payload" "" Json.string?⟩

end Command

namespace Reply

/-- The kind of a reply and its fields. -/
def parts : Reply → String × List (String × Json)
  | hello version => ("hello", [("version", .nat version)])
  | compiled stage => ("compiled", [("stage", stage.toJson)])
  | suspended reason p =>
    ("suspended", [("reason", reason.toJson), ("function", .string p.function),
      ("index", .nat p.index), ("location", p.location.toJson), ("depth", .nat p.depth)])
  | exited status => ("exited", [("status", status.toJson)])
  | breakpoint line => ("breakpoint", [("line", .nat line)])
  | ok => ("ok", [])
  | goodbye => ("goodbye", [])

def toJson (r : Reply) : Json := .record (("kind", .string r.parts.1) :: r.parts.2)

def ofJson? (j : Json) : Option Reply := do
  let (kind, j) ← j.kinded?
  match kind with
  | "hello" => do
    let f ← j.fields? ["version"]
    return hello (← f.required "version" (Json.nat? 32))
  | "compiled" => do
    let f ← j.fields? ["stage"]
    return compiled (← f.required "stage" Stage.ofJson?)
  | "suspended" => do
    let f ← j.fields? ["reason", "function", "index", "location", "depth"]
    return suspended (← f.required "reason" SuspendReason.ofJson?)
      ⟨← f.required "function" Json.string?, ← f.required "index" Json.size?,
        ← f.required "location" Location.ofJson?, ← f.required "depth" Json.size?⟩
  | "exited" => do
    let f ← j.fields? ["status"]
    return exited (← f.required "status" ExitStatus.ofJson?)
  | "breakpoint" => do
    let f ← j.fields? ["line"]
    return breakpoint (← f.required "line" Json.size?)
  | "ok" => j.noFields?.map fun _ => ok
  | "goodbye" => j.noFields?.map fun _ => goodbye
  | _ => none

end Reply

namespace Failure

def toJson (f : Failure) : Json :=
  .record (("message", .string f.message) :: Diagnostic.listField f.diagnostics)

def ofJson? (j : Json) : Option Failure := do
  let f ← j.fields? ["message", "diagnostics"]
  return ⟨← f.required "message" Json.string?,
    ← f.defaulted "diagnostics" [] (Json.list? Diagnostic.ofJson?)⟩

end Failure

namespace Response

def toJson : Response → Json
  | result r => .tagged "result" r.toJson
  | error f => .tagged "error" f.toJson

def ofJson? (j : Json) : Option Response := do
  match ← j.variant? with
  | ("result", some j) => return result (← Reply.ofJson? j)
  | ("error", some j) => return error (← Failure.ofJson? j)
  | _ => none

end Response

namespace Frame

def toJson : Frame → Json
  | command c => .tagged "command" c.toJson
  | response r => .tagged "response" r.toJson
  | event m => .tagged "event" m.toJson
  | output text => .tagged "output" (.string text)
  | warning d => .tagged "warning" d.toJson

def ofJson? (j : Json) : Option Frame := do
  match ← j.variant? with
  | ("command", some j) => return command (← Command.ofJson? j)
  | ("response", some j) => return response (← Response.ofJson? j)
  | ("event", some j) => return event (← Message.ofJson? j)
  | ("output", some j) => return output (← j.string?)
  | ("warning", some j) => return warning (← Diagnostic.ofJson? j)
  | _ => none

end Frame

end ScriptLang.Wire
