import ScriptLang.Diagnostic
import ScriptLang.Code.Instruction
import ScriptLang.Native.Error

/-!
# Errors of linking and running
-/

namespace ScriptLang.Machine

open Native (NativeError)

/-- Why a program cannot be linked. -/
inductive LinkError where
  | noEntryPoint (name : String)
  | unknownFunction (name : String) (location : Location)
  | unknownLabel (label : Code.Label) (function : String) (location : Location)
  | native (function : String) (e : NativeError) (location : Location)
deriving DecidableEq, Repr

namespace LinkError

def location? : LinkError → Option Location
  | noEntryPoint _ => none
  | unknownFunction _ l | unknownLabel _ _ l | native _ _ l => some l

def codeName : LinkError → String
  | noEntryPoint .. => "no_entry_point"
  | unknownFunction .. => "unknown_function"
  | unknownLabel .. => "unknown_label"
  | native .. => "native"

end LinkError

/-- Why a running program failed. -/
inductive RuntimeError where
  | operation (e : ValueError) (location : Location)
  | native (function : String) (e : NativeError) (location : Location)
  | stackUnderflow (function : String) (location : Location)
  | stackOverflow (function : String) (depth : Nat) (location : Location)
  | unknownFunction (name : String) (location : Location)
  | unknownLabel (label : Code.Label) (function : String) (location : Location)
  | arity (function : String) (expected found : Nat) (location : Location)
  | noEntryPoint (name : String)
deriving DecidableEq, Repr

namespace RuntimeError

def location? : RuntimeError → Option Location
  | noEntryPoint _ => none
  | operation _ l | native _ _ l | stackUnderflow _ l | stackOverflow _ _ l | unknownFunction _ l
  | unknownLabel _ _ l | arity _ _ _ l => some l

def codeName : RuntimeError → String
  | operation .. => "operation"
  | native .. => "native"
  | stackUnderflow .. => "stack_underflow"
  | stackOverflow .. => "stack_overflow"
  | unknownFunction .. => "unknown_function"
  | unknownLabel .. => "unknown_label"
  | arity .. => "arity"
  | noEntryPoint .. => "no_entry_point"

def reason : RuntimeError → String
  | operation e _ => e.message
  | native function e _ => "native call to '" ++ function ++ "' failed: " ++ e.text
  | stackUnderflow function _ => "stack underflow in '" ++ function ++ "'"
  | stackOverflow function depth _ =>
    "stack overflow calling '" ++ function ++ "', more than " ++ toString depth ++ " frames"
  | unknownFunction name _ => "call to unknown function '" ++ name ++ "'"
  | unknownLabel label function _ =>
    "jump to undefined label " ++ Code.labelText label ++ " in '" ++ function ++ "'"
  | arity function expected found _ =>
    "'" ++ function ++ "' expects " ++ toString expected ++ " argument(s), found " ++ toString found
  | noEntryPoint name => "no entry point: the program has no function '" ++ name ++ "'"

def help? : RuntimeError → Option String
  | stackOverflow .. => some "look for recursion without a base case, or raise max-call-depth"
  | _ => none

end RuntimeError

/-- A reason behind the place it is about, if there is one. -/
def placed (location : Option Location) (reason : String) : String :=
  match location with
  | some l => l.text ++ ": " ++ reason
  | none => reason

instance : Described ValueError where
  code e := "scribble::runtime::" ++ e.codeName
  message := ValueError.message

instance : Described RuntimeError where
  code e := "scribble::runtime::" ++ e.codeName
  message e := placed e.location? e.reason
  location? := RuntimeError.location?
  help? := RuntimeError.help?

def LinkError.reason : LinkError → String
  | noEntryPoint name => RuntimeError.reason (.noEntryPoint name)
  | unknownFunction name l => RuntimeError.reason (.unknownFunction name l)
  | unknownLabel label function l => RuntimeError.reason (.unknownLabel label function l)
  | native function e _ => "cannot bind '" ++ function ++ "': " ++ e.text

instance : Described LinkError where
  code e := "scribble::link::" ++ e.codeName
  message e := placed e.location? e.reason
  location? := LinkError.location?
  help?
    | .noEntryPoint _ => some "set the entry point with the `entry` option"
    | _ => none

end ScriptLang.Machine
