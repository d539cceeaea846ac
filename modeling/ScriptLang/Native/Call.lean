import ScriptLang.Native.Error
import ScriptLang.Value

/-!
# The calling convention of native functions

Integers of every width, truth values and pointers travel as words of 64 bits; strings travel as
words that point to their bytes, which a zero byte ends; floats travel as they are.  The arguments of
one call are either all floats or all words.  A call is prepared first (`prepare`), which is where the
arguments are checked, and then made if there is a caller for so many of them (`callWith`).
-/

namespace ScriptLang.Native

/-- How values of a type travel. -/
inductive PassClass where
  | word
  | float
deriving DecidableEq, Repr

/-- The class of a type that can be passed at all. -/
def PassClass.of? : Ty → Option PassClass
  | .float => some .float
  | .string | .pointer | .bool | .int _ => some .word
  | .void => none

/-- The most arguments that a call passes as words. -/
def maxWords : Nat := 6

/-- The most arguments that a call passes as floats. -/
def maxFloats : Nat := 4

/-- What an argument register holds: bits, or the address of a text. -/
inductive Word where
  | bits (b : BitVec 64)
  | text (s : String)

/-- The arguments of a call as the called function receives them. -/
inductive Arguments where
  | words (ws : List Word)
  | floats (xs : List Float)

/-- What the called function leaves in the two registers for results. -/
structure Results where
  word : BitVec 64 := 0
  float : Float := 0.0

/-- A function of a library. -/
abbrev Symbol := Arguments → Results

/-- A call ready to be made: the arguments, and the class of the result if there is one. -/
structure Invocation where
  arguments : Arguments
  result : Option PassClass

/-! ### Signatures -/

/-- Whether functions of a signature can be called. -/
def checkSignature (name : String) (s : Signature) : Except NativeError Unit := do
  let classes ← s.params.mapM fun p =>
    match PassClass.of? p with
    | some c => pure c
    | none => throw (.unsupportedAs name p "an argument")
  let floats := classes.count .float
  if 0 < floats ∧ floats < classes.length then
    throw (.unsupportedType name "integer and float arguments cannot be mixed")
  if maxFloats < floats then
    throw (.unsupportedType name ("at most " ++ toString maxFloats ++ " float arguments"))
  if floats = 0 ∧ maxWords < classes.length then
    throw (.unsupportedType name ("at most " ++ toString maxWords ++ " integer arguments"))
  if s.ret = .string then throw (.unsupportedAs name .string "a result")

/-! ### Conversions -/

/-- The bits of an integer, a truth value or a pointer, extended to 64 by the sign of its type. -/
def widen? : Value → Option (BitVec 64)
  | .bool b => some (if b then 1 else 0)
  | .pointer p => some p
  | .int t bits => some (BitVec.ofInt 64 (t.toInt bits))
  | _ => none

/-- The value of a type in the low bits of a register. -/
def narrow (ty : Ty) (raw : BitVec 64) : Value :=
  match ty with
  | .bool => .bool (raw &&& 0xff != 0)
  | .pointer => .pointer raw
  | ty => .wrap ty raw.toInt

/-- The word that an argument travels as. -/
def wordOf (name : String) (v : Value) : Except NativeError Word :=
  match v with
  | .string s =>
    if s.toList.contains '\x00' then
      .error (.unsupportedType name "string argument contains a NUL byte")
    else .ok (.text s)
  | v =>
    match widen? v with
    | some b => .ok (.bits b)
    | none => .error (.unsupportedAs name v.type "an argument")

/-! ### Calls -/

/-- The first argument that has not the declared type is refused. -/
def checkArguments (name : String) : List Value → List Ty → Except NativeError Unit
  | v :: vs, p :: ps =>
    if v.type = p then checkArguments name vs ps
    else
      .error (.unsupportedType name ("expected a " ++ p.name ++ " argument, got " ++ v.type.name))
  | _, _ => .ok ()

/-- The arguments in the form in which they travel. -/
def passArguments (name : String) (args : List Value) : Except NativeError Arguments :=
  let floats := args.filterMap Value.float?
  if !args.isEmpty && floats.length == args.length then .ok (.floats floats)
  else (args.mapM (wordOf name)).map .words

/-- The call that a function of some signature is to receive for some arguments. -/
def prepare (name : String) (s : Signature) (args : List Value) : Except NativeError Invocation := do
  if args.length ≠ s.params.length then
    throw (.arityMismatch name s.params.length args.length)
  checkSignature name s
  checkArguments name args s.params
  return ⟨← passArguments name args, PassClass.of? s.ret⟩

/-- The value of a type that a call leaves. -/
def resultValue (ret : Ty) (r : Results) : Value :=
  match PassClass.of? ret with
  | none => .void
  | some .word => narrow ret r.word
  | some .float => .float r.float

/-- A call that was made, and the value it gave. -/
structure Call where
  invocation : Invocation
  value : Value

/-- Whether there is a caller for so many arguments. -/
def Arguments.hasCaller : Arguments → Bool
  | .words [] | .words [_] | .words [_, _] | .words [_, _, _] | .words [_, _, _, _]
  | .words [_, _, _, _, _] | .words [_, _, _, _, _, _] => true
  | .floats [_] | .floats [_, _] | .floats [_, _, _] | .floats [_, _, _, _] => true
  | _ => false

/-- What is said of arguments that no caller takes. -/
def Arguments.tooMany : Arguments → String
  | .words _ => "too many integer arguments"
  | .floats _ => "too many float arguments"

/-- Call a function of some signature; `invoke` is what its symbol does when it is invoked. -/
def callWith {m : Type → Type} [Monad m] (name : String) (invoke : Invocation → m Results)
    (s : Signature) (args : List Value) : m (Except NativeError Call) :=
  match prepare name s args with
  | .error e => return .error e
  | .ok i =>
    if i.arguments.hasCaller then do
      let r ← invoke i
      return .ok ⟨i, resultValue s.ret r⟩
    else return .error (.unsupportedType name i.arguments.tooMany)

/-- Call a symbol as a function of some signature. -/
def call (name : String) (symbol : Symbol) (s : Signature) (args : List Value) :
    Except NativeError Call :=
  Id.run (callWith name (fun i => return symbol i.arguments) s args)

end ScriptLang.Native
