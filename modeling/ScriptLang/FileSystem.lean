import ScriptLang.Path

/-!
# File trees

A file tree as data: every file and directory with its absolute place, and the directory that
relative paths start from.  Looking a path up walks its components one by one, so that each must
exist and all but the last must be directories.  There are no links.
-/

namespace ScriptLang

/-- What stands at a place of a file tree. -/
inductive FileNode where
  | directory
  | file (content : ByteArray)

/-- Why a file operation fails. -/
inductive FileError where
  | notFound
  | notADirectory
  | isADirectory
  | alreadyExists
  | invalidText
deriving DecidableEq, Repr

def FileError.message : FileError → String
  | notFound => "No such file or directory (os error 2)"
  | notADirectory => "Not a directory (os error 20)"
  | isADirectory => "Is a directory (os error 21)"
  | alreadyExists => "File exists (os error 17)"
  | invalidText => "stream did not contain valid UTF-8"

/-- A file tree; places are lists of names from the root down. -/
structure FileSystem where
  workingDirectory : List String := []
  entries : List (List String × FileNode) := []

namespace FileSystem

/-- What stands at a place.  The root and whatever leads to an entry are directories. -/
def node? (fs : FileSystem) (place : List String) : Option FileNode :=
  match fs.entries.find? fun e => e.1 == place with
  | some (_, node) => some node
  | none =>
    if place.isEmpty || fs.entries.any fun e => place.isPrefixOf e.1 then some .directory else none

def isDirectoryAt (fs : FileSystem) (place : List String) : Bool :=
  match fs.node? place with
  | some .directory => true
  | _ => false

/-- One step of a walk from a place. -/
def step (fs : FileSystem) (place : List String) (name : String) : Except FileError (List String) :=
  match fs.node? place with
  | none => .error .notFound
  | some (.file _) => .error .notADirectory
  | some .directory =>
    if name = "" ∨ name = "." then .ok place
    else if name = ".." then .ok place.dropLast
    else .ok (place ++ [name])

/-- The components of a path and the place that the walk along them starts from. -/
def walkOf (fs : FileSystem) (path : String) : List String × List String :=
  let names := (Path.pieces path.toList).map String.ofList
  (if Path.isAbsolute path then [] else fs.workingDirectory, names)

/-- The place that a path leads to, whether or not something stands there; what comes before the
last component must exist. -/
def place (fs : FileSystem) (path : String) : Except FileError (List String) :=
  if path.isEmpty then .error .notFound
  else
    let (start, names) := fs.walkOf path
    names.foldlM fs.step start

/-- What a path leads to. -/
def lookup (fs : FileSystem) (path : String) : Except FileError (List String × FileNode) := do
  let place ← fs.place path
  match fs.node? place with
  | some node => return (place, node)
  | none => throw .notFound

def isFile (fs : FileSystem) (path : String) : Bool :=
  match fs.lookup path with
  | .ok (_, .file _) => true
  | _ => false

def isDirectory (fs : FileSystem) (path : String) : Bool :=
  match fs.lookup path with
  | .ok (_, .directory) => true
  | _ => false

/-- The path of a place from the root. -/
def absolute (place : List String) : String := "/" ++ String.intercalate "/" place

/-- The one path from the root that leads where `path` leads; the path itself if it leads nowhere. -/
def canonical (fs : FileSystem) (path : String) : String :=
  match fs.lookup path with
  | .ok (place, _) => absolute place
  | .error _ => path

/-- The text of a file. -/
def readText (fs : FileSystem) (path : String) : Except FileError String := do
  match (← fs.lookup path).2 with
  | .directory => throw .isADirectory
  | .file content =>
    match String.fromUTF8? content with
    | some text => return text
    | none => throw .invalidText

/-- The names in a directory. -/
def children (fs : FileSystem) (place : List String) : List String :=
  (fs.entries.filterMap fun e =>
    if place.isPrefixOf e.1 then (e.1.drop place.length).head? else none).eraseDups

/-- Put a node at a place. -/
def put (fs : FileSystem) (place : List String) (node : FileNode) : FileSystem :=
  { fs with entries := fs.entries.filter (fun e => e.1 != place) ++ [(place, node)] }

/-- Go one component further, creating a directory where nothing stands. -/
def ensureStep (state : FileSystem × List String) (name : String) :
    Except FileError (FileSystem × List String) := do
  let (fs, place) := state
  let next ← fs.step place name
  match fs.node? next with
  | some _ => return (fs, next)
  | none => return (fs.put next .directory, next)

/-- Create a directory and whatever leads to it. -/
def createDirectories (fs : FileSystem) (path : String) : Except FileError FileSystem := do
  if path.isEmpty then return fs
  let (start, names) := fs.walkOf path
  let (fs, place) ← names.foldlM ensureStep (fs, start)
  if fs.isDirectoryAt place then return fs else throw .alreadyExists

/-- Write a text to a file, new or not. -/
def writeText (fs : FileSystem) (path : String) (text : String) : Except FileError FileSystem := do
  let place ← fs.place path
  if fs.isDirectoryAt place then throw .isADirectory
  else if fs.isDirectoryAt place.dropLast then return fs.put place (.file text.toUTF8)
  else throw .notFound

end FileSystem

end ScriptLang
