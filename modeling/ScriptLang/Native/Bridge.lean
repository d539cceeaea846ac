import ScriptLang.Native.Call

/-!
# Loaded libraries and their symbols

A bridge keeps the libraries that were loaded, in the order of loading, and for each of them the
names it was asked for: those it exports and those it lacks.  Libraries are only ever appended, and
no path is loaded twice.  Names are looked up in the library loaded last first.  What a loader
answers may depend on what it was asked before; a `Loader` always answers the same.
-/

namespace ScriptLang.Native

/-- What a loaded library exports. -/
abbrev Image := String → Except NativeError Symbol

/-- Access to the libraries of a platform.  Whatever is asked, the loader may be another one
afterwards, so that an attempt that failed may succeed when it is made again. -/
class DynamicLoader (L : Type) where
  load : (loader : L) → (path : String) → Except NativeError Image × L
  /-- The running program's own image, where the platform gives it. -/
  process : (loader : L) → Option Image × L
  /-- What a loaded library exports under a name. -/
  find : (loader : L) → (image : Image) → (name : String) → Except NativeError Symbol × L
  /-- The paths tried in order for a library that a program names. -/
  candidates : (loader : L) → (image : String) → List String

/-- A loader that always answers the same. -/
structure Loader where
  load : (path : String) → Except NativeError Image
  process : Option Image
  candidates : (image : String) → List String

instance : DynamicLoader Loader where
  load loader path := (loader.load path, loader)
  process loader := (loader.process, loader)
  find loader image name := (image name, loader)
  candidates := Loader.candidates

/-- The library's name itself and, unless it is a path or has an extension, the file name that the
platform gives to a library of that name. -/
def platformNames (image : String) : List String :=
  if image.toList.contains '/' || image.toList.contains '.' then [image]
  else [image, "lib" ++ image ++ ".so"]

/-- The path that the running program's own image is known under. -/
def processImage : String := "<process>"

structure LoadedLibrary where
  path : String
  image : Image
  exported : List (String × Symbol) := []
  missing : List String := []

/-- Where a library stands in the order of loading. -/
structure LibraryHandle where
  path : String
  index : Nat
deriving DecidableEq, Repr

/-- A symbol and the library it was found in. -/
structure FunctionHandle where
  name : String
  library : String
  symbol : Symbol

structure Bridge (L : Type := Loader) where
  loader : L
  libraries : List LoadedLibrary := []
  /-- How often a library was asked for a name. -/
  resolutions : Nat := 0

namespace Bridge

variable {L : Type}

/-- The paths loaded, in order. -/
def paths (b : Bridge L) : List String := b.libraries.map LoadedLibrary.path

/-- The library under a path, if it is loaded. -/
def handle? (b : Bridge L) (path : String) : Option LibraryHandle :=
  (b.paths.findIdx? (· == path)).map fun index => ⟨path, index⟩

/-- Append a library. -/
def append (b : Bridge L) (path : String) (image : Image) : LibraryHandle × Bridge L :=
  (⟨path, b.libraries.length⟩, { b with libraries := b.libraries ++ [{ path, image }] })

variable [DynamicLoader L]

/-! ### Loading -/

/-- Load the first of some paths that can be loaded; `last` is why the one before failed. -/
def loadFirst (b : Bridge L) (image : String) (last : Option NativeError) :
    List String → Except NativeError LibraryHandle × Bridge L
  | [] =>
    let error := match last with
      | some (.imageNotFound _ reason) => .imageNotFound image reason
      | some e => e
      | none => .imageNotFound image "no candidate paths"
    (.error error, b)
  | path :: paths =>
    match DynamicLoader.load b.loader path with
    | (.ok found, loader) =>
      let (handle, b) := { b with loader }.append path found
      (.ok handle, b)
    | (.error e, loader) => loadFirst { b with loader } image (some e) paths

/-- Load a library unless one of its paths is loaded already. -/
def load (b : Bridge L) (image : String) : Except NativeError LibraryHandle × Bridge L :=
  let candidates := DynamicLoader.candidates b.loader image
  match candidates.findSome? b.handle? with
  | some handle => (.ok handle, b)
  | none => b.loadFirst image none candidates

/-- Load the running program's own image, once. -/
def loadProcess (b : Bridge L) : Except NativeError LibraryHandle × Bridge L :=
  match b.handle? processImage with
  | some handle => (.ok handle, b)
  | none =>
    match DynamicLoader.process b.loader with
    | (some image, loader) =>
      let (handle, b) := { b with loader }.append processImage image
      (.ok handle, b)
    | (none, loader) =>
      (.error (.imageNotFound processImage "not supported on this platform"), { b with loader })

/-! ### Symbols -/

/-- The answer of one library to a name. -/
inductive Found where
  | symbol (s : Symbol)
  | absent
  | failed (e : NativeError)

/-- Look a name up in one library; whether its image had to be asked. -/
def lookupWith (loader : L) (l : LoadedLibrary) (name : String) :
    Found × LoadedLibrary × Bool × L :=
  match l.exported.lookup name with
  | some s => (.symbol s, l, false, loader)
  | none =>
    if l.missing.contains name then (.absent, l, false, loader)
    else
      match DynamicLoader.find loader l.image name with
      | (.ok s, loader) => (.symbol s, { l with exported := (name, s) :: l.exported }, true, loader)
      | (.error (.symbolNotFound _), loader) =>
        (.absent, { l with missing := name :: l.missing }, true, loader)
      | (.error e, loader) => (.failed e, l, true, loader)

/-- Look a name up in libraries one after the other; how many images had to be asked. -/
def lookupAllWith (name : String) (loader : L) :
    List LoadedLibrary → Except NativeError FunctionHandle × List LoadedLibrary × Nat × L
  | [] => (.error (.symbolNotFound name), [], 0, loader)
  | l :: ls =>
    let (found, l, asked, loader) := lookupWith loader l name
    let count := if asked then 1 else 0
    match found with
    | .symbol s => (.ok ⟨name, l.path, s⟩, l :: ls, count, loader)
    | .failed e => (.error e, l :: ls, count, loader)
    | .absent =>
      let (r, ls, more, loader) := lookupAllWith name loader ls
      (r, l :: ls, count + more, loader)

/-- Find a symbol, in the library loaded last first. -/
def resolve (b : Bridge L) (name : String) : Except NativeError FunctionHandle × Bridge L :=
  let (r, ls, asked, loader) := lookupAllWith name b.loader b.libraries.reverse
  (r, { b with loader, libraries := ls.reverse, resolutions := b.resolutions + asked })

/-- Call a symbol found before. -/
def callHandle (f : FunctionHandle) (s : Signature) (args : List Value) : Except NativeError Call :=
  call f.name f.symbol s args

/-- Find a symbol and call it. -/
def callNamed (b : Bridge L) (name : String) (s : Signature) (args : List Value) :
    Except NativeError Call × Bridge L :=
  match checkSignature name s with
  | .error e => (.error e, b)
  | .ok () =>
    match b.resolve name with
    | (.error e, b) => (.error e, b)
    | (.ok f, b) => (callHandle f s args, b)

end Bridge

end ScriptLang.Native
