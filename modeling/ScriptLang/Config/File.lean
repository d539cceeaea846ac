import ScriptLang.Config.Settings
import ScriptLang.Config.Toml
import ScriptLang.FileSystem

/-!
# Settings in files

A file of settings gives them by name; those that it does not name keep their usual values, and names
that belong to no setting are passed over.  The file for a program is the nearest one in the program's
directory and those above it (`Config.findFile`).
-/

namespace ScriptLang.Config

/-- The name of a file of settings. -/
def fileName : String := "scribble.toml"

/-! ### Reading -/

def boolOf? : Toml.Value → Option Bool
  | .bool b => some b
  | _ => none

def stringOf? : Toml.Value → Option String
  | .string s => some s
  | _ => none

def sizeOf? : Toml.Value → Option Nat
  | .int n => if 0 ≤ n then some n.toNat else none
  | _ => none

def stringsOf? : Toml.Value → Option (List String)
  | .array vs => vs.mapM stringOf?
  | _ => none

/-- A setting, or its usual value if it is not named; none if it has a value of the wrong kind. -/
def setting {α : Type} (es : Toml.Entries) (name : String) (usual : α) (read : Toml.Value → Option α) :
    Option α :=
  match es.lookup name with
  | some v => read v
  | none => some usual

/-- The settings that named values give. -/
def ofEntries? (es : Toml.Entries) : Option Config := do
  let usual : Config := {}
  return {
    debug := ← setting es "debug" usual.debug boolOf?
    trace := ← setting es "trace" usual.trace boolOf?
    execute := ← setting es "execute" usual.execute boolOf?
    listCode := ← setting es "list-ir" usual.listCode boolOf?
    graph := ← setting es "graph" usual.graph fun v => (stringOf? v).map some
    includePaths := ← setting es "include-paths" usual.includePaths stringsOf?
    libraries := ← setting es "libraries" usual.libraries stringsOf?
    entryPoint := ← setting es "entry-point" usual.entryPoint stringOf?
    maxIncludeDepth := ← setting es "max-include-depth" usual.maxIncludeDepth sizeOf?
    maxNesting := ← setting es "max-nesting" usual.maxNesting sizeOf?
    maxCallDepth := ← setting es "max-call-depth" usual.maxCallDepth sizeOf?
    threaded := ← setting es "threaded" usual.threaded boolOf? }

/-- The settings in a text that stands at a path. -/
def ofText (path text : String) : Except ConfigError Config :=
  match (Toml.ofString? text).bind ofEntries? with
  | some c => .ok c
  | none => .error (.invalidFile path "invalid settings")

/-- The settings in a file. -/
def ofFile (fs : FileSystem) (path : String) : Except ConfigError Config :=
  match fs.readText path with
  | .ok text => ofText path text
  | .error e => .error (.unreadable path e.message)

/-! ### Searching -/

/-- The file of settings in a directory or the nearest directory above it, as far as the path itself
leads up; `fuel` bounds the number of directories. -/
def findAbove (fs : FileSystem) : (fuel : Nat) → (dir : String) → Option String
  | 0, _ => none
  | fuel + 1, dir =>
    let path := Path.join dir fileName
    if fs.isFile path then some path
    else (Path.parent? dir).bind (findAbove fs fuel)

/-- The file of settings for a program at a path. -/
def findFile (fs : FileSystem) (path : String) : Option String :=
  let dir := if fs.isDirectory path then path else (Path.parent? path).getD path
  findAbove fs (dir.length + 2) dir

end ScriptLang.Config
