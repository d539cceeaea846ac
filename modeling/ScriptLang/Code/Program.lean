import ScriptLang.Bound.Tree
import ScriptLang.Code.Instruction

/-!
# Programs of stack code

A program is a list of functions, each under its own name.  The function `$init` sets the globals and
runs before the entry point.
-/

namespace ScriptLang.Code

/-- The name of the function that sets the globals. -/
def initName : String := "$init"

structure Global where
  name : String
  ty : Ty
  isConst : Bool
deriving DecidableEq, Repr

inductive FunctionKind where
  | body (code : List Instruction)
  | native (symbol : String)
  | intrinsic (f : Bound.Intrinsic)

structure Function where
  name : String
  signature : Signature
  /-- The parameters come first. -/
  locals : List Bound.LocalSlot
  kind : FunctionKind
  location : Location

namespace Function

def code (f : Function) : List Instruction :=
  match f.kind with
  | .body code => code
  | _ => []

def isNative (f : Function) : Bool :=
  match f.kind with
  | .native _ => true
  | _ => false

end Function

structure Program where
  name : String
  globals : List Global
  functions : List Function
  /-- The name of the function to begin with, if the program has it. -/
  entry : Option String

namespace Program

def function? (p : Program) (name : String) : Option Function :=
  p.functions.find? fun f => f.name == name

def instructionCount (p : Program) : Nat := p.functions.foldl (fun n f => n + f.code.length) 0

/-- Put a function under its name, in the place of an earlier one of that name. -/
def insertFunction (fs : List Function) (f : Function) : List Function :=
  if fs.any fun g => g.name == f.name then fs.map fun g => if g.name == f.name then f else g
  else fs ++ [f]

end Program

/-! ### Listings -/

/-- An index in at least four digits. -/
def indexText (n : Nat) : String :=
  let digits := toString n
  "".pushn '0' (4 - digits.length) ++ digits

/-- The lines of a function. -/
def Function.listing (f : Function) : List String :=
  let head := f.name ++ f.signature.text
  match f.kind with
  | .native symbol => ["native " ++ head ++ " -> " ++ Text.quoted symbol]
  | .intrinsic i => ["intrinsic " ++ head ++ " => " ++ Text.quoted i.name]
  | .body code =>
    ("func " ++ head) ::
      (f.locals.zipIdx.map fun (l, slot) =>
        "  local " ++ toString slot ++ " " ++ l.name ++ ": " ++ l.ty.name) ++
      (code.zipIdx.map fun (i, index) => "  " ++ indexText index ++ "  " ++ i.op.text)

/-- The program as text. -/
def Program.listing (p : Program) : String :=
  let globals := p.globals.zipIdx.map fun (g, id) =>
    (if g.isConst then "const " else "global ") ++ toString id ++ " " ++ g.name ++ ": " ++ g.ty.name
  let lines :=
    ("program " ++ p.name) :: (p.entry.toList.map fun e => "entry " ++ e) ++ globals ++
      p.functions.flatMap fun f => "" :: f.listing
  String.join (lines.map fun l => l ++ "\n")

end ScriptLang.Code
