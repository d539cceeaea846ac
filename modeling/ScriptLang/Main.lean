import ScriptLang.Launch.Frontend
import ScriptLang.Native.Library

/-!
# The program

The shell around `Frontend.launch`: it reads the files that a run can ask for, shows what the dialogue
says, hands it the lines of the user and writes the files that the run has made.
-/

namespace ScriptLang.Shell

/-- The steps that a program may take: more than any user waits for. -/
def patience : Nat := Nat.pow 2 62

/-- The paths of settings files in a directory and those above it; `fuel` bounds their number. -/
def settingsAbove : (fuel : Nat) → (dir : String) → List String
  | 0, _ => []
  | fuel + 1, dir =>
    Path.join dir Config.fileName :: ((Path.parent? dir).map (settingsAbove fuel)).getD []

/-- The paths that an argument makes a run look at. -/
def pathsOf (argument : String) : List String :=
  let path := match Options.splitPair argument with
    | ("--config", some path) => path
    | _ => argument
  path :: settingsAbove (path.length + 2) path

/-- A file tree with one more file, and the directories that its path leads through. -/
def withFile (fs : FileSystem) (path : String) (content : ByteArray) : FileSystem :=
  let placed : Except FileError FileSystem := do
    let fs ← fs.createDirectories ((Path.parent? path).getD "")
    return fs.put (← fs.place path) (.file content)
  match placed with
  | .ok fs => fs
  | .error _ => fs

/-- The files that a run with these arguments can ask for. -/
def readFiles (arguments : List String) : IO FileSystem := do
  let names := (Path.pieces (← IO.currentDir).toString.toList).filter fun name => !name.isEmpty
  let here := names.map String.ofList
  let start : FileSystem := { workingDirectory := here, entries := [(here, .directory)] }
  (arguments.flatMap pathsOf).eraseDups.foldlM (fun fs (path : String) => do
    match ← (IO.FS.readBinFile path).toBaseIO with
    | .ok content => return withFile fs path content
    | .error _ => return fs) start

/-- The directory that the settings name for diagrams. -/
def diagramDirectory? (arguments : List String) (fs : FileSystem) : Option String :=
  match Frontend.Arguments.ofList arguments with
  | .ok (a, file) => (a.settings file fs).toOption.bind Config.graph
  | .error _ => none

/-- A file tree with the directory for diagrams, if it stands. -/
def findDiagrams (arguments : List String) (fs : FileSystem) : IO FileSystem := do
  match diagramDirectory? arguments fs with
  | none => return fs
  | some dir =>
    match ← (IO.FS.realPath dir).toBaseIO with
    | .ok path => return if ← path.isDir then (fs.createDirectories dir).toOption.getD fs else fs
    | .error _ => return fs

/-- Write the files that are new or changed, as far as they can be written. -/
def writeFiles (before after : FileSystem) : IO Unit := do
  for (place, node) in after.entries do
    let write (content : ByteArray) : IO Unit := do
      let _ ← (IO.FS.writeBinFile (FileSystem.absolute place) content).toBaseIO
    match node, before.node? place with
    | .directory, _ => pure ()
    | .file content, some (.file old) => if content != old then write content
    | .file content, _ => write content

/-- Show texts in order. -/
def display (shown : Array (Channel × String)) : IO Unit := do
  for (channel, text) in shown do
    let stream ← match channel with
      | .output => IO.getStdout
      | .error => IO.getStderr
    stream.putStr text
    stream.flush

/-- Show what a dialogue has said since `seen` texts ago and go on until it has ended. -/
partial def converse (d : Dialogue) (seen : Nat) : IO Dialogue := do
  display (d.shown.extract seen d.shown.size)
  if d.ended.isSome then return d
  let line ← (← IO.getStdin).getLine
  converse (d.feed (if line.isEmpty then none else some line)) d.shown.size

end ScriptLang.Shell

open ScriptLang in
/-- Run the program that the arguments name, and exit as it does. -/
def main (arguments : List String) : IO UInt32 := do
  let files ← Shell.findDiagrams arguments (← Shell.readFiles arguments)
  let host : Host := { files, bridge := .platform, fuel := Shell.patience }
  match Frontend.launch arguments host with
  | .ended exit output error =>
    Shell.display #[(.output, output), (.error, error)]
    return exit.toUInt32
  | .talking d =>
    let d ← Shell.converse d 0
    Shell.writeFiles files d.client.peer.state.host.files
    match d.ended with
    | some (.error e) => Shell.display #[(.error, Frontend.errorText e)]
    | _ => pure ()
    return d.exitCode.toUInt32
