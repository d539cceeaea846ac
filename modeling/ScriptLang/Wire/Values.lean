import ScriptLang.Config.Settings
import ScriptLang.Machine.State
import ScriptLang.Wire.Reading

/-!
# Documents of places, diagnostics and messages

The written form of what a session tells, and its reading (`ofJson?`), for each kind of value beside
each other.  Values of programs and settings are only written.
-/

namespace ScriptLang

open Wire (Json)

/-- The one of some values that has a name. -/
def named? {α : Type} (all : List α) (name : α → String) (s : String) : Option α :=
  all.find? fun a => name a == s

namespace Location

def toJson (l : Location) : Json :=
  .record [("file", .string l.file), ("index", .nat l.index), ("line", .nat l.line),
    ("column", .nat l.column)]

def ofJson? (j : Json) : Option Location := do
  let f ← j.fields? ["file", "index", "line", "column"]
  return ⟨← f.required "file" Json.string?, ← f.required "index" Json.size?,
    ← f.required "line" Json.size?, ← f.required "column" Json.size?⟩

end Location

namespace Diagnostic

def toJson (d : Diagnostic) : Json :=
  .record ([("code", .string d.code), ("message", .string d.message),
    ("location", (d.location.map Location.toJson).getD .null)] ++
    d.help.toList.map fun h => ("help", .string h))

def ofJson? (j : Json) : Option Diagnostic := do
  let f ← j.fields? ["code", "message", "location", "help"]
  return ⟨← f.required "code" Json.string?, ← f.required "message" Json.string?,
    ← f.optional "location" Location.ofJson?,
    ← f.defaulted "help" none (Json.nullable? Json.string?)⟩

/-- Diagnostics as a field that is left out if there are none. -/
def listField (ds : List Diagnostic) : List (String × Json) :=
  if ds.isEmpty then [] else [("diagnostics", .array (ds.map toJson))]

end Diagnostic

namespace Value

/-- A value under the name of its type; what has no value is only the name, and a float has no
document. -/
def toJson : Value → Json
  | .void => .string "Void"
  | .bool b => .tagged "Bool" (.bool b)
  | .int t bits => .tagged t.name.capitalize (.int (t.toInt bits))
  | .float _ => .null
  | .string s => .tagged "String" (.string s)
  | .pointer p => .tagged "Pointer" (.nat p.toNat)

end Value

namespace Config

def toJson (c : Config) : Json :=
  .record [("debug", .bool c.debug), ("trace", .bool c.trace), ("execute", .bool c.execute),
    ("list-ir", .bool c.listCode), ("graph", (c.graph.map Json.string).getD .null),
    ("include-paths", .array (c.includePaths.map .string)),
    ("libraries", .array (c.libraries.map .string)), ("entry-point", .string c.entryPoint),
    ("max-include-depth", .nat c.maxIncludeDepth), ("max-nesting", .nat c.maxNesting),
    ("max-call-depth", .nat c.maxCallDepth), ("threaded", .bool c.threaded)]

end Config

namespace Stage

def all : List Stage := [init, parse, bind, intermediate, generate, execute, interpret]

def wireName : Stage → String
  | init => "INIT"
  | parse => "PARSE"
  | bind => "BIND"
  | intermediate => "INTERMEDIATE"
  | generate => "GENERATE"
  | execute => "EXECUTE"
  | interpret => "INTERPRET"

def toJson (s : Stage) : Json := .string s.wireName

def ofJson? (j : Json) : Option Stage := j.unit? Json.isBlank (named? all wireName)

end Stage

namespace Machine

def Mode.wireName : Mode → String
  | .run => "run"
  | .singleStep => "single-step"
  | .stepOver => "step-over"
  | .runToReturn => "run-to-return"
  | .continue => "continue"

def Mode.all : List Mode := [.run, .singleStep, .stepOver, .runToReturn, .continue]

namespace SuspendReason

def all : List SuspendReason := [start, step, breakpoint]

def wireName : SuspendReason → String
  | start => "start"
  | step => "step"
  | breakpoint => "breakpoint"

def toJson (r : SuspendReason) : Json := .string r.wireName

def ofJson? (j : Json) : Option SuspendReason := j.unit? Json.isBlank (named? all wireName)

end SuspendReason

namespace MessageKind

def all : List MessageKind :=
  [stageInit, stageStart, programStart, functionEntry, onInstruction, afterInstruction,
   functionReturn, programExit, stageEnd]

def wireName : MessageKind → String
  | stageInit => "STAGE_INIT"
  | stageStart => "STAGE_START"
  | programStart => "PROGRAM_START"
  | functionEntry => "FUNCTION_ENTRY"
  | onInstruction => "ON_INSTRUCTION"
  | afterInstruction => "AFTER_INSTRUCTION"
  | functionReturn => "FUNCTION_RETURN"
  | programExit => "PROGRAM_EXIT"
  | stageEnd => "STAGE_END"

def toJson (k : MessageKind) : Json := .string k.wireName

def ofJson? (j : Json) : Option MessageKind := j.unit? Json.isNull (named? all wireName)

end MessageKind

namespace ExitStatus

def toJson : ExitStatus → Json
  | code n => .tagged "code" (.int n.toInt)
  | stopped => .string "stopped"
  | error d => .tagged "error" d.toJson

/-- A number of 64 bits with its sign. -/
def number? (j : Json) : Option Int64 :=
  j.int?.bind fun n =>
    if Int64.minValue.toInt ≤ n ∧ n ≤ Int64.maxValue.toInt then some (Int64.ofInt n) else none

def ofJson? (j : Json) : Option ExitStatus := do
  match ← j.variant? with
  | ("code", some j) => return code (← number? j)
  | ("stopped", none) => return stopped
  | ("stopped", some j) => if j.isBlank then return stopped else none
  | ("error", some j) => return error (← Diagnostic.ofJson? j)
  | _ => none

end ExitStatus

namespace Payload

/-- The kind of a payload and its fields. -/
def parts : Payload → String × List (String × Json)
  | stage s ds => ("stage", ("stage", s.toJson) :: Diagnostic.listField ds)
  | program name entry => ("program", [("name", .string name), ("entry", .string entry)])
  | function name depth => ("function", [("name", .string name), ("depth", .nat depth)])
  | instruction f index op location depth =>
    ("instruction", [("function", .string f), ("index", .nat index), ("instruction", .string op),
      ("location", location.toJson), ("depth", .nat depth)])
  | exit status => ("exit", [("status", status.toJson)])

def toJson (p : Payload) : Json := .record (("kind", .string p.parts.1) :: p.parts.2)

def ofJson? (j : Json) : Option Payload := do
  let (kind, j) ← j.kinded?
  match kind with
  | "stage" => do
    let f ← j.fields? ["stage", "diagnostics"]
    return stage (← f.required "stage" Stage.ofJson?)
      (← f.defaulted "diagnostics" [] (Json.list? Diagnostic.ofJson?))
  | "program" => do
    let f ← j.fields? ["name", "entry"]
    return program (← f.required "name" Json.string?) (← f.required "entry" Json.string?)
  | "function" => do
    let f ← j.fields? ["name", "depth"]
    return function (← f.required "name" Json.string?) (← f.required "depth" Json.size?)
  | "instruction" => do
    let f ← j.fields? ["function", "index", "instruction", "location", "depth"]
    return instruction (← f.required "function" Json.string?) (← f.required "index" Json.size?)
      (← f.required "instruction" Json.string?) (← f.required "location" Location.ofJson?)
      (← f.required "depth" Json.size?)
  | "exit" => do
    let f ← j.fields? ["status"]
    return exit (← f.required "status" ExitStatus.ofJson?)
  | _ => none

end Payload

namespace Message

def toJson (m : Message) : Json :=
  .record [("type", m.kind.toJson), ("payload", m.payload.toJson)]

def ofJson? (j : Json) : Option Message := do
  let f ← j.fields? ["type", "payload"]
  return ⟨← f.required "type" MessageKind.ofJson?, ← f.required "payload" Payload.ofJson?⟩

end Message

end Machine

end ScriptLang
