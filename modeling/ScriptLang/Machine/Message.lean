import ScriptLang.Stage
import ScriptLang.Diagnostic
import ScriptLang.Text.Quoted
import ScriptLang.Code.Program
import ScriptLang.Machine.Stepper

/-!
# Messages of a session

What a session tells whoever listens: the stages it passes, and every step of the program it runs.
Texts that the program prints come in between, in order.
-/

namespace ScriptLang.Machine

inductive MessageKind where
  | stageInit
  | stageStart
  | programStart
  | functionEntry
  | onInstruction
  | afterInstruction
  | functionReturn
  | programExit
  | stageEnd
deriving DecidableEq, Repr

/-- How a run ended. -/
inductive ExitStatus where
  /-- The entry point returned this number; zero if it returned none. -/
  | code (n : Int64)
  /-- A request to stop ended it. -/
  | stopped
  | error (d : Diagnostic)
deriving DecidableEq

inductive Payload where
  /-- A stage, with what went wrong in it. -/
  | stage (stage : Stage) (diagnostics : List Diagnostic)
  | program (name entry : String)
  | function (name : String) (depth : Nat)
  | instruction (function : String) (index : Nat) (instruction : String) (location : Location)
      (depth : Nat)
  | exit (status : ExitStatus)
deriving DecidableEq

structure Message where
  kind : MessageKind
  payload : Payload
deriving DecidableEq

/-- What a session sends: a message, or a text printed by the program. -/
inductive Emission where
  | message (m : Message)
  | output (text : String)
deriving DecidableEq

/-- A message about a stage in which nothing went wrong. -/
def Message.ofStage (kind : MessageKind) (stage : Stage) : Message := ⟨kind, .stage stage []⟩

namespace Emission

def message? : Emission → Option Message
  | message m => some m
  | output _ => none

def output? : Emission → Option String
  | message _ => none
  | output text => some text

end Emission

/-! ### Written forms -/

def MessageKind.text : MessageKind → String
  | stageInit => "StageInit"
  | stageStart => "StageStart"
  | programStart => "ProgramStart"
  | functionEntry => "FunctionEntry"
  | onInstruction => "OnInstruction"
  | afterInstruction => "AfterInstruction"
  | functionReturn => "FunctionReturn"
  | programExit => "ProgramExit"
  | stageEnd => "StageEnd"

def SuspendReason.text : SuspendReason → String
  | start => "Start"
  | step => "Step"
  | breakpoint => "Breakpoint"

/-- A record as `Name \x7b field: value, … \x7d`. -/
def recordText (name : String) (fields : List (String × String)) : String :=
  name ++ " \x7b " ++ String.intercalate ", " (fields.map fun f => f.1 ++ ": " ++ f.2) ++ " \x7d"

def optionText : Option String → String
  | some s => "Some(" ++ s ++ ")"
  | none => "None"

def locationText (l : Location) : String :=
  recordText "TokenLocation" [("file", Text.quoted l.file), ("index", toString l.index),
    ("line", toString l.line), ("column", toString l.column)]

def diagnosticText (d : Diagnostic) : String :=
  recordText "Diagnostic" [("code", Text.quoted d.code), ("message", Text.quoted d.message),
    ("location", optionText (d.location.map locationText)),
    ("help", optionText (d.help.map Text.quoted))]

def ExitStatus.text : ExitStatus → String
  | code n => "Code(" ++ toString n.toInt ++ ")"
  | stopped => "Stopped"
  | error d => "Error(" ++ diagnosticText d ++ ")"

def Payload.text : Payload → String
  | stage s [] => s.name
  | stage s ds => s.name ++ " (" ++ toString ds.length ++ " errors)"
  | program name entry => name ++ " (" ++ entry ++ ")"
  | function name depth => name ++ " depth " ++ toString depth
  | instruction f index op location _ =>
    f ++ ":" ++ Code.indexText index ++ " " ++ op ++ " at " ++ location.text
  | exit status => status.text

def Message.text (m : Message) : String := m.kind.text ++ " " ++ m.payload.text

end ScriptLang.Machine
