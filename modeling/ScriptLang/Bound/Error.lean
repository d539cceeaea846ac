import ScriptLang.Diagnostic
import ScriptLang.Types

/-!
# Errors of resolving names and types
-/

namespace ScriptLang.Bound

/-- What can be wrong with a name or a type. -/
inductive Fault where
  | unknownName (name : String)
  | unknownFunction (name : String)
  | unknownType (name : String)
  | unknownIntrinsic (name : String)
  | typeMismatch (expected found : Ty)
  | invalidOperand (op : String) (ty : Ty)
  | invalidCast (source target : Ty)
  | arityMismatch (name : String) (expected found : Nat)
  | notAssignable (name : String)
  | duplicate (name : String)
  | missingType (name : String)
  | outsideLoop (keyword : String)
  | literalOutOfRange (value : Int) (ty : Ty)
  | unsupported (message : String)
deriving DecidableEq, Repr

namespace Fault

def codeName : Fault → String
  | unknownName .. => "unknown_name"
  | unknownFunction .. => "unknown_function"
  | unknownType .. => "unknown_type"
  | unknownIntrinsic .. => "unknown_intrinsic"
  | typeMismatch .. => "type_mismatch"
  | invalidOperand .. => "invalid_operand"
  | invalidCast .. => "invalid_cast"
  | arityMismatch .. => "arity"
  | notAssignable .. => "not_assignable"
  | duplicate .. => "duplicate"
  | missingType .. => "missing_type"
  | outsideLoop .. => "misplaced_control"
  | literalOutOfRange .. => "literal_out_of_range"
  | unsupported .. => "unsupported"

def text : Fault → String
  | unknownName name => "unknown name '" ++ name ++ "'"
  | unknownFunction name => "unknown function '" ++ name ++ "'"
  | unknownType name => "unknown type '" ++ name ++ "'"
  | unknownIntrinsic name => "unknown intrinsic '" ++ name ++ "'"
  | typeMismatch expected found => "expected " ++ expected.name ++ ", found " ++ found.name
  | invalidOperand op ty => "operator '" ++ op ++ "' cannot be applied to " ++ ty.name
  | invalidCast source target => "cannot cast " ++ source.name ++ " to " ++ target.name
  | arityMismatch name expected found =>
    "'" ++ name ++ "' takes " ++ toString expected ++ " argument(s), " ++ toString found ++ " given"
  | notAssignable name => "cannot assign to '" ++ name ++ "'"
  | duplicate name => "'" ++ name ++ "' is already defined"
  | missingType name => "cannot infer the type of '" ++ name ++ "'"
  | outsideLoop keyword => "'" ++ keyword ++ "' outside of a loop"
  | literalOutOfRange value ty =>
    "integer literal " ++ toString value ++ " does not fit in " ++ ty.name
  | unsupported message => message

def help? : Fault → Option String
  | unknownIntrinsic .. => some "known intrinsics are 'print' and 'println'"
  | missingType .. => some "add a type annotation or an initializer"
  | _ => none

end Fault

/-- A fault and its place. -/
structure BindError where
  fault : Fault
  location : Location
deriving DecidableEq, Repr

instance : Described BindError where
  code e := "scribble::bind::" ++ e.fault.codeName
  message e := e.location.text ++ ": " ++ e.fault.text
  location? e := some e.location
  help? e := e.fault.help?

end ScriptLang.Bound
