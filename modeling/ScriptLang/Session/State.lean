import ScriptLang.Bound.Binder
import ScriptLang.Code.Lowering
import ScriptLang.Config.Settings
import ScriptLang.Diagram.Bound
import ScriptLang.Diagram.Syntax
import ScriptLang.Machine.State
import ScriptLang.Session.Error

/-!
# Sessions

A session takes one program through the stages, each of which works on what the one before has left.
The first stage that fails halts the session.  A session remembers all that it has sent and logged.
The stage that runs the program is always announced, the others only if the settings ask for it.
-/

namespace ScriptLang

open Machine (Emission Message MessageKind Mode Outcome)

namespace Session

/-- Where the backend of a session runs. -/
inductive Deployment where
  | thread
  | process
deriving DecidableEq, Repr

/-- What a session works on: a text under a name, or a file or directory. -/
inductive Source where
  | text (name text : String)
  | path (path : String)
deriving DecidableEq, Repr

inductive LogLevel where
  | info
  | warning
deriving DecidableEq, Repr

structure LogRecord where
  level : LogLevel
  target : String
  message : String
deriving DecidableEq, Repr

/-- The written form `LEVEL target: message`. -/
def LogRecord.text (r : LogRecord) : String :=
  let level := match r.level with
    | .info => "INFO"
    | .warning => "WARN"
  level ++ " " ++ r.target ++ ": " ++ r.message

end Session

structure Session where
  config : Config
  deployment : Session.Deployment
  /-- The file tree that sources are read from and diagrams written to. -/
  files : FileSystem
  bridge : Native.Bridge
  /-- The most steps that one request may take. -/
  fuel : Nat
  stage : Stage := .init
  failed : Option Stage := none
  /-- Whether the program has been told to stop. -/
  stopRequested : Bool := false
  /-- Breakpoints set before there is a machine. -/
  breakpoints : List Nat := []
  source : Option Session.Source := none
  parsed : Option Syntax.Program := none
  bound : Option Bound.Program := none
  code : Option Code.Program := none
  executable : Option Machine.Executable := none
  machine : Option Machine := none
  sent : Array Emission := #[]
  log : Array Session.LogRecord := #[]

namespace Session

/-- A new session. -/
def ofConfig (config : Config) (files : FileSystem) (bridge : Native.Bridge) (fuel : Nat) :
    Session where
  config
  deployment := if config.threaded then .thread else .process
  files
  bridge
  fuel

/-- What a request gives, and the session after it. -/
abbrev Answer (α : Type) := Except SessionError α × Session

def send (s : Session) (m : Message) : Session := { s with sent := s.sent.push (.message m) }

/-- Send a message about a stage in which nothing went wrong. -/
def announce (s : Session) (kind : MessageKind) (stage : Stage) : Session :=
  s.send (.ofStage kind stage)

def record (s : Session) (level : LogLevel) (target message : String) : Session :=
  { s with log := s.log.push ⟨level, target, message⟩ }

/-- The name of the program: the name of its source without directories and extension. -/
def programName (s : Session) : String :=
  let path := match s.source with
    | some (.text name _) => name
    | some (.path path) => path
    | none => ""
  (Path.stem? path).getD "program"

/-- Give the session something to work on. -/
def load (s : Session) (source : Source) : Answer Unit :=
  if s.stage = .init then (.ok (), { s with source := some source })
  else (.error (.wrongStage "load a source" s.stage), s)

/-- Set or clear the request to stop. -/
def requestStop (s : Session) (stop : Bool) : Session := { s with stopRequested := stop }

/-! ### The work of the stages -/

/-- What the work of a stage gives, and the session after it. -/
abbrev Work := Except (List Diagnostic) Unit × Session

/-- A stage has nothing to work on. -/
def missing (what : String) : List Diagnostic :=
  [{ code := "scribble::engine::internal", message := "no " ++ what ++ " to work on" }]

/-- Write a diagram to the directory for diagrams, if there is one.  A failure is only logged. -/
def writeDiagram (s : Session) (tree : String) (dot : String → String) : Session :=
  match s.config.graph with
  | none => s
  | some dir =>
    let name := s.programName
    let path := Path.join dir (name ++ "-" ++ tree ++ ".dot")
    match s.files.writeText path (dot name) with
    | .ok files =>
      record { s with files } .info "engine" ("wrote the " ++ tree ++ " tree to " ++ path)
    | .error e =>
      s.record .warning "engine"
        ("could not write the " ++ tree ++ " tree to " ++ dir ++ ": " ++ e.message)

/-- Parse a source under the session's settings. -/
def parseSource (s : Session) : Source → Syntax.ParseOutcome
  | .text name text => Syntax.parseText s.config.parseOptions name text
  | .path path => Syntax.parseTarget s.files s.config.parseOptions path

def parse (s : Session) : Work :=
  match s.source with
  | none => (.error [.ofError SessionError.noSource], s)
  | some source =>
    let parsed := s.parseSource source
    let s := parsed.remarks.foldl (fun s r => s.record .warning "parse" r) s
    if parsed.errors.isEmpty then
      (.ok (),
        { s.writeDiagram "syntax" (fun name => parsed.program.dot name) with
          parsed := some parsed.program })
    else (.error (parsed.errors.map .ofError), s)

def bind (s : Session) : Work :=
  match s.parsed with
  | none => (.error (missing "syntax tree"), s)
  | some p =>
    match Bound.bind p with
    | .error es => (.error (es.map .ofError), s)
    | .ok b => (.ok (), { s.writeDiagram "bound" (fun name => b.dot name) with bound := some b })

def lower (s : Session) : Work :=
  match s.bound with
  | none => (.error (missing "bound program"), s)
  | some b =>
    match Code.lower b s.programName s.config.entryPoint with
    | .error es => (.error (es.map .ofError), s)
    | .ok code =>
      let s := if s.config.listCode then s.record .info "ir" ("\n" ++ code.listing) else s
      (.ok (), { s with code := some code })

/-- Load libraries; the errors of those that cannot be loaded. -/
def loadLibraries (b : Native.Bridge) : List String → List Native.NativeError × Native.Bridge
  | [] => ([], b)
  | library :: libraries =>
    match b.load library with
    | (.ok _, b) => loadLibraries b libraries
    | (.error e, b) =>
      let (errors, b) := loadLibraries b libraries
      (e :: errors, b)

def link (s : Session) : Work :=
  match s.code with
  | none => (.error (missing "IR program"), s)
  | some code =>
    let (errors, bridge) := loadLibraries s.bridge s.config.libraries
    let s := { s with bridge }
    if errors.isEmpty then
      match Machine.link code s.bridge s.config.execute with
      | .error es => (.error (es.map .ofError), s)
      | .ok e => (.ok (), { s with executable := some e })
    else (.error (errors.map .ofError), s)

/-- Set up the machine with the breakpoints that wait for it. -/
def install (s : Session) (image : Machine.Image) : Session :=
  let stepper := s.breakpoints.foldl (fun (t : Machine.Stepper) line => (t.addBreakpoint line).2) {}
  let machine : Machine :=
    { Machine.ofImage image with stepper, maxCallDepth := s.config.maxCallDepth }
  { s with machine := some machine, breakpoints := [] }

def prepareLinked (s : Session) : Work :=
  match s.executable with
  | some e => (.ok (), s.install (.linked e))
  | none => (.error (missing "executable"), s)

def prepareInterpreted (s : Session) : Work :=
  match s.code with
  | some code => (.ok (), s.install (.interpreted code s.bridge))
  | none => (.error (missing "IR program"), s)

/-- The work of a stage. -/
def work (s : Session) : Stage → Work
  | .init => (.ok (), s)
  | .parse => s.parse
  | .bind => s.bind
  | .intermediate => s.lower
  | .generate => s.link
  | .execute => s.prepareLinked
  | .interpret => s.prepareInterpreted

/-! ### Requests -/

/-- Whether a stage is announced. -/
def announces (s : Session) (stage : Stage) : Bool := s.config.debug || stage.isTerminal

/-- Enter a stage and do its work. -/
def perform (s : Session) (stage : Stage) : Answer Stage :=
  let loud := s.announces stage
  let s := if loud then (s.announce .stageInit stage).announce .stageStart stage else s
  match work { s with stage } stage with
  | (.ok (), s) =>
    (.ok stage, if loud && !stage.isTerminal then s.announce .stageEnd stage else s)
  | (.error ds, s) =>
    let s := { s with failed := some stage }
    (.error (.stageFailed stage ds), if loud then s.send ⟨.stageEnd, .stage stage ds⟩ else s)

/-- Go on to the next stage. -/
def advance (s : Session) : Answer Stage :=
  match s.failed with
  | some stage => (.error (.halted stage), s)
  | none =>
    match s.stage.next? s.config.execute with
    | none => (.error (.wrongStage "advance" s.stage), s)
    | some stage => s.perform stage

/-- Go on until the program is linked, by at most `steps` stages. -/
def advanceToLinked : (steps : Nat) → Session → Answer Unit
  | 0, s => (.ok (), s)
  | steps + 1, s =>
    if s.stage.rank < Stage.generate.rank then
      match s.advance with
      | (.ok _, s) => advanceToLinked steps s
      | (.error e, s) => (.error e, s)
    else (.ok (), s)

/-- Take the program through all stages but the last. -/
def compile (s : Session) : Answer Unit := advanceToLinked Stage.generate.rank s

/-- Go on to the stage that runs the program. -/
def enterTerminal (s : Session) : Answer Unit :=
  if s.stage.isTerminal then (.error (.wrongStage "start the program" s.stage), s)
  else
    match s.compile with
    | (.error e, s) => (.error e, s)
    | (.ok (), s) =>
      match s.advance with
      | (.error e, s) => (.error e, s)
      | (.ok _, s) => (.ok (), s)

/-- Run the machine in a mode. -/
def drive (s : Session) (mode : Mode) : Answer Outcome :=
  match s.machine with
  | none => (.error .notSuspended, s)
  | some m =>
    let (m, emitted, outcome) := m.resume mode s.stopRequested s.fuel
    let s := { s with machine := some m, sent := s.sent ++ emitted }
    match outcome with
    | .exited _ => (.ok outcome, s.announce .stageEnd s.stage)
    | _ => (.ok outcome, s)

/-- Run the program to its end. -/
def run (s : Session) : Answer Outcome :=
  match s.enterTerminal with
  | (.error e, s) => (.error e, s)
  | (.ok (), s) => s.drive .run

/-- Start the program and suspend it before its first instruction. -/
def debug (s : Session) : Answer Outcome :=
  match s.enterTerminal with
  | (.error e, s) => (.error e, s)
  | (.ok (), s) => drive { s with machine := s.machine.map Machine.pauseAtStart } .continue

/-- Whether the program is suspended. -/
def isSuspended (s : Session) : Bool := (s.machine.map Machine.isSuspended).getD false

/-- Resume the program. -/
def resume (s : Session) (mode : Mode) : Answer Outcome :=
  if s.isSuspended then s.drive mode else (.error .notSuspended, s)

/-- Suspend the program wherever it comes to a line. -/
def addBreakpoint (s : Session) (line : Nat) : Session :=
  match s.machine with
  | some m => { s with machine := some { m with stepper := (m.stepper.addBreakpoint line).2 } }
  | none => { s with breakpoints := s.breakpoints ++ [line] }

end Session

end ScriptLang
