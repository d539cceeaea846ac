import ScriptLang.Config.File
import ScriptLang.Dialogue

/-!
# The command line of the frontend

The arguments are the file to run and switches.  A switch may be given once, `-v` and `-q` any number of
times but not both; what follows `--` is no switch.  The first thing that is wrong ends the reading, and
so does a request for help, so that the order of the arguments decides between the two.
-/

namespace ScriptLang

namespace Frontend

/-- The switches that take no value. -/
inductive Switch where
  | threaded
  | tcp
  | debug
  | trace
  | execute
  | listCode
  | step
deriving DecidableEq, Repr

namespace Switch

def all : List Switch := [threaded, tcp, debug, trace, execute, listCode, step]

def name : Switch → String
  | threaded => "threaded"
  | tcp => "tcp"
  | debug => "debug"
  | trace => "trace"
  | execute => "execute"
  | listCode => "list-ir"
  | step => "step"

/-- The option that a switch sets in the settings. -/
def option? : Switch → Option String
  | tcp => none
  | step => none
  | s => some s.name

end Switch

/-- What the arguments ask for, as far as they have been read. -/
structure Arguments where
  file : Option String := none
  switches : List Switch := []
  config : Option String := none
  verbose : Nat := 0
  quiet : Nat := 0
deriving DecidableEq, Repr

/-- Why the arguments do not lead to a run. -/
inductive Refusal where
  | help
  | usage
deriving DecidableEq, Repr

namespace Arguments

def has (a : Arguments) (s : Switch) : Bool := a.switches.contains s

def addFile (a : Arguments) (file : String) : Except Refusal Arguments :=
  if a.file.isSome || file.isEmpty then .error .usage else .ok { a with file := some file }

def addConfig (a : Arguments) (path : String) : Except Refusal Arguments :=
  if a.config.isSome || path.isEmpty then .error .usage else .ok { a with config := some path }

def addSwitch (a : Arguments) (s : Switch) : Except Refusal Arguments :=
  if a.has s then .error .usage else .ok { a with switches := a.switches ++ [s] }

/-- Take letters after a single dash. -/
def addLetters (a : Arguments) : List Char → Except Refusal Arguments
  | [] => .ok a
  | 'v' :: cs => addLetters { a with verbose := a.verbose + 1 } cs
  | 'q' :: cs => addLetters { a with quiet := a.quiet + 1 } cs
  | 'h' :: _ => .error .help
  | _ => .error .usage

/-- Take a name after two dashes that stands without a value. -/
def addNamed (a : Arguments) (name : String) : Except Refusal Arguments :=
  match Switch.all.find? fun s => s.name = name with
  | some s => a.addSwitch s
  | none =>
    match name with
    | "verbose" => .ok { a with verbose := a.verbose + 1 }
    | "quiet" => .ok { a with quiet := a.quiet + 1 }
    | "help" => .error .help
    | _ => .error .usage

/-- How an argument is written. -/
inductive Form where
  | plain
  /-- Two dashes alone. -/
  | escape
  | named (name : String) (value : Option String)
  | letters (cs : List Char)

/-- The form of an argument. -/
def formOf (argument : String) : Form :=
  match argument.toList with
  | ['-', '-'] => .escape
  | '-' :: '-' :: cs =>
    let (name, value) := Options.splitPair (String.ofList cs)
    .named name value
  | '-' :: c :: cs => .letters (c :: cs)
  | _ => .plain

/-- Take arguments one by one. -/
def read (a : Arguments) : List String → Except Refusal Arguments
  | [] => .ok a
  | argument :: rest =>
    match formOf argument with
    | .escape => rest.foldlM addFile a
    | .plain => do (← a.addFile argument).read rest
    | .letters cs => do (← a.addLetters cs).read rest
    | .named "config" (some path) => do (← a.addConfig path).read rest
    | .named "config" none =>
      match rest with
      | path :: rest =>
        match formOf path with
        | .plain => do (← a.addConfig path).read rest
        | _ => .error .usage
      | [] => .error .usage
    | .named name none => do (← a.addNamed name).read rest
    | .named _ (some _) => .error .usage

/-- The arguments of a run and the file in them. -/
def ofList (arguments : List String) : Except Refusal (Arguments × String) := do
  let a ← read {} arguments
  match a.file with
  | some file => if a.verbose > 0 ∧ a.quiet > 0 then .error .usage else .ok (a, file)
  | none => .error .usage

/-- The options that the arguments set; the file's own directory is searched for includes. -/
def options (a : Arguments) (file : String) : Options :=
  let switches := (Switch.all.filter a.has).filterMap Switch.option?
  let switched := switches.foldl (fun (o : Options) key => o.set key none) {}
  match (Path.parent? file).filter fun dir => !dir.isEmpty with
  | some dir => switched.set "include" (some dir)
  | none => switched

/-- The settings of a run. -/
def settings (a : Arguments) (file : String) (fs : FileSystem) : Except ConfigError Config := do
  let base ← match a.config <|> Config.findFile fs file with
    | some path => Config.ofFile fs path
    | none => .ok {}
  return (base.withOptions (a.options file)).1

/-- The run that the arguments ask for. -/
def frontend (a : Arguments) (file : String) (fs : FileSystem) : Except ConfigError Frontend := do
  let config ← a.settings file fs
  return { file, config, tcp := a.has .tcp, step := a.has .step, showEvents := config.trace }

end Arguments

/-! ### Help -/

/-- The text that explains the arguments. -/
def helpText : String :=
  "Compile and run Scribble programs\n\n" ++
  "Usage: scribble [OPTIONS] <FILE>\n\n" ++
  "Arguments:\n" ++
  "  <FILE>  Source file to run\n\n" ++
  "Options:\n" ++
  "      --threaded       Run the backend in a thread instead of a separate process\n" ++
  "      --tcp            Talk to the backend over TCP instead of a Unix-domain socket\n" ++
  "      --debug          Report every stage\n" ++
  "      --trace          Print every execution message\n" ++
  "      --execute        Link and execute instead of interpreting the IR\n" ++
  "      --list-ir        Log the IR listing\n" ++
  "      --step           Start suspended and step through the program\n" ++
  "      --config <FILE>  Configuration file (defaults to the nearest scribble.toml)\n" ++
  "  -v, --verbose...     Increase logging verbosity\n" ++
  "  -q, --quiet...       Decrease logging verbosity\n" ++
  "  -h, --help           Print help\n"

/-- What to say to arguments that are not taken. -/
def usageText : String := "usage: scribble [OPTIONS] <FILE>\n"

/-! ### Exit codes -/

/-- The exit code of the process for that of a program: its low byte, but never zero for a failure. -/
def exitByte (code : Int) : Nat :=
  let byte := (code % 256).toNat
  if byte = 0 ∧ code ≠ 0 then 1 else byte

/-- What a run of the program comes to. -/
inductive Launch where
  /-- It ended at once with this exit code and these texts. -/
  | ended (exit : Nat) (output error : String)
  /-- It talks to its user. -/
  | talking (d : Dialogue)

/-- What an error is reported as. -/
def errorText (e : LaunchError) : String := "[" ++ e.code ++ "] " ++ e.text ++ "\n"

/-- Run the program with these arguments. -/
def launch (arguments : List String) (host : Host) : Launch :=
  match Arguments.ofList arguments with
  | .error .help => .ended 0 helpText ""
  | .error .usage => .ended 2 "" usageText
  | .ok (a, file) =>
    match a.frontend file host.files with
    | .error e => .ended 1 "" (errorText (.config e))
    | .ok f =>
      match Dialogue.start f host with
      | .error e => .ended 1 "" (errorText e)
      | .ok d => .talking d

end Frontend

/-! ### Ends of dialogues -/

namespace Dialogue

/-- The exit code of the process at the end of a dialogue. -/
def exitCode (d : Dialogue) : Nat :=
  match d.ended with
  | some (.ok code) => Frontend.exitByte code
  | _ => 1

end Dialogue

end ScriptLang
