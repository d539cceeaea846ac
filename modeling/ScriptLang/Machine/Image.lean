import ScriptLang.Code.Program
import ScriptLang.Machine.Error
import ScriptLang.Native.Bridge

/-!
# The two forms that a program is run in

A program can be run as it is, so that every call and jump looks its target up by name, or linked,
with all targets found beforehand (`link`).  Functions are known by their place in the program.  What
a bridge remembers of its searches does not change what they find, so an image keeps the bridge as
it is when the image is made.
-/

namespace ScriptLang.Machine

open Code (Instruction)
open Native (NativeError Bridge FunctionHandle)

/-- What linking finds out about one function. -/
structure LinkedFunction where
  /-- The places of the labels. -/
  labels : List (Code.Label × Nat)
  /-- The functions called, by the place of the call. -/
  callees : List (Nat × Nat)
  native : Option FunctionHandle

structure Executable where
  program : Code.Program
  entry : Nat
  functions : List LinkedFunction
  bridge : Bridge

/-- A program in a form that can be run. -/
inductive Image where
  | interpreted (program : Code.Program) (bridge : Bridge)
  | linked (e : Executable)

/-- The place of a function in a program. -/
def functionIndex? (p : Code.Program) (name : String) : Option Nat :=
  p.functions.findIdx? fun f => f.name == name

/-! ### Linking -/

/-- The labels that code marks, each with its place, the last one first. -/
def labelPlaces (code : List Instruction) : List (Code.Label × Nat) :=
  (code.zipIdx.filterMap fun (i, place) =>
    match i.op with
    | .label l => some (l, place)
    | _ => none).reverse

/-- What an instruction refers to that is not there. -/
def unlinkable (p : Code.Program) (f : Code.Function) (labels : List (Code.Label × Nat))
    (i : Instruction) : Option LinkError :=
  match i.op with
  | .call name _ | .callNative name _ =>
    if (functionIndex? p name).isSome then none else some (.unknownFunction name i.location)
  | op =>
    match op.target? with
    | some l => if (labels.lookup l).isSome then none else some (.unknownLabel l f.name i.location)
    | none => none

/-- The callee of every call in some code. -/
def calleePlaces (p : Code.Program) (code : List Instruction) : List (Nat × Nat) :=
  code.zipIdx.filterMap fun (i, place) =>
    match i.op with
    | .call name _ | .callNative name _ => (functionIndex? p name).map fun f => (place, f)
    | _ => none

/-- Find the symbol of a native function. -/
def linkNative (b : Bridge) (f : Code.Function) (symbol : String) : Except LinkError FunctionHandle :=
  let found := do
    Native.checkSignature symbol f.signature
    (b.resolve symbol).1
  found.mapError fun e => .native f.name e f.location

/-- Link one function; natives are found now only if `natives` says so. -/
def linkFunction (p : Code.Program) (b : Bridge) (natives : Bool) (f : Code.Function) :
    LinkedFunction × List LinkError :=
  let labels := labelPlaces f.code
  let errors := f.code.filterMap (unlinkable p f labels)
  let linked : LinkedFunction := ⟨labels, calleePlaces p f.code, none⟩
  match f.kind with
  | .native symbol =>
    if natives then
      match linkNative b f symbol with
      | .ok handle => ({ linked with native := some handle }, errors)
      | .error e => (linked, errors ++ [e])
    else (linked, errors)
  | _ => (linked, errors)

/-- Link a program, or all that is in the way. -/
def link (p : Code.Program) (b : Bridge) (natives : Bool) : Except (List LinkError) Executable :=
  let results := p.functions.map (linkFunction p b natives)
  let errors := results.flatMap Prod.snd
  match p.entry.bind (functionIndex? p) with
  | none => .error (.noEntryPoint (p.entry.getD "") :: errors)
  | some entry =>
    if errors.isEmpty then .ok ⟨p, entry, results.map Prod.fst, b⟩ else .error errors

/-! ### What the machine asks of an image -/

namespace Image

def program : Image → Code.Program
  | interpreted p _ => p
  | linked e => e.program

def bridge : Image → Bridge
  | interpreted _ b => b
  | linked e => e.bridge

def function? (i : Image) (index : Nat) : Option Code.Function := i.program.functions[index]?

/-- The function that sets the globals. -/
def init? (i : Image) : Option Nat := functionIndex? i.program Code.initName

/-- The function that the program begins with. -/
def entry? : Image → Option Nat
  | interpreted p _ => p.entry.bind (functionIndex? p)
  | linked e => some e.entry

/-- The function called at a place of a function's code, which names `name`. -/
def callee? (i : Image) (function place : Nat) (name : String) : Option Nat :=
  match i with
  | interpreted p _ => functionIndex? p name
  | linked e => (e.functions[function]?).bind fun f => f.callees.lookup place

/-- The place of a label in a function's code. -/
def labelPlace? (i : Image) (function : Nat) (l : Code.Label) : Option Nat :=
  match i with
  | interpreted .. => (i.function? function).bind fun f => f.code.findIdx? fun j => j.op.marks l
  | linked e => (e.functions[function]?).bind fun f => f.labels.lookup l

/-- The symbol found when the program was linked. -/
def handle? (i : Image) (function : Nat) : Option FunctionHandle :=
  match i with
  | interpreted .. => none
  | linked e => (e.functions[function]?).bind LinkedFunction.native

/-- Call a native function. -/
def callNative (i : Image) (function : Nat) (args : List Value) : Except NativeError Value :=
  match i.function? function with
  | none => .error (.symbolNotFound ("#" ++ toString function))
  | some f =>
    let made :=
      match i.handle? function, f.kind with
      | some handle, _ => Bridge.callHandle handle f.signature args
      | none, .native symbol => (i.bridge.callNamed symbol f.signature args).1
      | none, _ => .error (.symbolNotFound f.name)
    made.map Native.Call.value

end Image

end ScriptLang.Machine
