import ScriptLang.Config.Options
import ScriptLang.Decimal.Read
import ScriptLang.Syntax.Program

/-!
# Settings

The settings of a session.  Options change them one by one; an option that cannot be applied is
reported and changes nothing.
-/

namespace ScriptLang

structure Config where
  /-- Announce every stage, not only the last. -/
  debug : Bool := false
  trace : Bool := false
  /-- Link the program before it is run. -/
  execute : Bool := false
  /-- Log the program's code. -/
  listCode : Bool := false
  /-- The directory that diagrams of the trees are written to. -/
  graph : Option String := none
  includePaths : List String := []
  /-- Libraries that native functions are looked for in. -/
  libraries : List String := []
  entryPoint : String := "main"
  maxIncludeDepth : Nat := 64
  maxNesting : Nat := 128
  maxCallDepth : Nat := 10000
  /-- Run the backend within the frontend. -/
  threaded : Bool := false
deriving DecidableEq, Repr

/-- What is wrong with a setting. -/
inductive ConfigError where
  | unreadable (path message : String)
  | invalidFile (path message : String)
  | unknownOption (key : String)
  | missingValue (key : String)
  | invalidValue (key value expected : String)
deriving DecidableEq, Repr

namespace ConfigError

def codeName : ConfigError → String
  | unreadable .. => "io"
  | invalidFile .. => "parse"
  | unknownOption .. => "unknown_option"
  | missingValue .. => "missing_value"
  | invalidValue .. => "invalid_value"

def text : ConfigError → String
  | unreadable path message => "failed to read configuration at " ++ path ++ ": " ++ message
  | invalidFile path message => "failed to parse configuration at " ++ path ++ ": " ++ message
  | unknownOption key => "unknown option '" ++ key ++ "'"
  | missingValue key => "option '" ++ key ++ "' needs a value"
  | invalidValue key value expected =>
    "invalid value '" ++ value ++ "' for option '" ++ key ++ "', expected " ++ expected

def help? : ConfigError → Option String
  | unknownOption _ =>
    some ("known options: debug, trace, execute, list-ir, threaded, include, library, entry, " ++
      "max-include-depth, max-nesting, max-call-depth, graph")
  | _ => none

instance : Described ConfigError where
  code e := "scribble::config::" ++ e.codeName
  message := text
  help? := help?

end ConfigError

namespace Config

/-! ### Values of options -/

/-- A truth value; an option without a value is switched on. -/
def flagValue (key : String) : Option String → Except ConfigError Bool
  | none => .ok true
  | some v =>
    if v ∈ ["true", "1", "yes", "on"] then .ok true
    else if v ∈ ["false", "0", "no", "off"] then .ok false
    else .error (.invalidValue key v "a boolean")

/-- A text, which must not be empty. -/
def textValue (key : String) : Option String → Except ConfigError String
  | some v => if v.isEmpty then .error (.missingValue key) else .ok v
  | none => .error (.missingValue key)

/-- A number of at most 64 bits. -/
def numberValue (key : String) (value : Option String) : Except ConfigError Nat := do
  let v ← textValue key value
  match Decimal.readBits? 64 v.toList with
  | some n => return n
  | none => throw (.invalidValue key v "a number")

/-- A directory; the current one without a value. -/
def directoryValue (value : Option String) : String :=
  match value with
  | some v => if v.isEmpty then "." else v
  | none => "."

/-! ### Options -/

/-- Apply one option. -/
def apply (c : Config) (key : String) (value : Option String) : Except ConfigError Config :=
  match key with
  | "debug" => do return { c with debug := ← flagValue key value }
  | "trace" => do return { c with trace := ← flagValue key value }
  | "execute" => do return { c with execute := ← flagValue key value }
  | "list-ir" => do return { c with listCode := ← flagValue key value }
  | "threaded" => do return { c with threaded := ← flagValue key value }
  | "include" => do return { c with includePaths := c.includePaths ++ [← textValue key value] }
  | "library" => do return { c with libraries := c.libraries ++ [← textValue key value] }
  | "entry" => do return { c with entryPoint := ← textValue key value }
  | "max-include-depth" => do return { c with maxIncludeDepth := ← numberValue key value }
  | "max-nesting" => do return { c with maxNesting := ← numberValue key value }
  | "max-call-depth" => do return { c with maxCallDepth := ← numberValue key value }
  | "graph" => .ok { c with graph := some (directoryValue value) }
  | _ => .error (.unknownOption key)

/-- Apply options in order; the errors of those that cannot be applied. -/
def applyAll (c : Config) : List (String × Option String) → Config × List ConfigError
  | [] => (c, [])
  | (key, value) :: rest =>
    match c.apply key value with
    | .ok c => applyAll c rest
    | .error e =>
      let (c, errors) := applyAll c rest
      (c, e :: errors)

def withOptions (c : Config) (o : Options) : Config × List ConfigError := c.applyAll o.entries

/-- A switch that is on. -/
def flagEntry (key : String) (value : Bool) : List (String × Option String) :=
  if value then [(key, none)] else []

/-- A number that is not the usual one. -/
def numberEntry (key : String) (value usual : Nat) : List (String × Option String) :=
  if value = usual then [] else [(key, some (toString value))]

/-- The options that change the usual settings to these. -/
def toEntries (c : Config) : List (String × Option String) :=
  let usual : Config := {}
  flagEntry "debug" c.debug ++ flagEntry "trace" c.trace ++ flagEntry "execute" c.execute ++
    flagEntry "list-ir" c.listCode ++ flagEntry "threaded" c.threaded ++
    c.includePaths.map (fun p => ("include", some p)) ++
    c.libraries.map (fun l => ("library", some l)) ++
    (if c.entryPoint = usual.entryPoint then [] else [("entry", some c.entryPoint)]) ++
    numberEntry "max-include-depth" c.maxIncludeDepth usual.maxIncludeDepth ++
    numberEntry "max-nesting" c.maxNesting usual.maxNesting ++
    numberEntry "max-call-depth" c.maxCallDepth usual.maxCallDepth ++
    c.graph.toList.map fun dir => ("graph", some dir)

def toOptions (c : Config) : Options := c.toEntries.foldl (fun o e => o.set e.1 e.2) {}

/-- How programs are parsed under these settings. -/
def parseOptions (c : Config) : Syntax.ParseOptions where
  includePaths := c.includePaths
  lexer := { maxIncludeDepth := c.maxIncludeDepth }
  maxNesting := c.maxNesting

end Config

end ScriptLang
