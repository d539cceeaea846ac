import ScriptLang.Diagnostic
import ScriptLang.Types

/-!
# Errors of native functions
-/

namespace ScriptLang.Native

/-- Why a native function cannot be found or called. -/
inductive NativeError where
  | imageNotFound (image reason : String)
  | symbolNotFound (name : String)
  | arityMismatch (name : String) (expected found : Nat)
  /-- The calling convention does not cover the signature or the arguments. -/
  | unsupportedType (name reason : String)
deriving DecidableEq, Repr

namespace NativeError

def codeName : NativeError → String
  | imageNotFound .. => "image_not_found"
  | symbolNotFound .. => "symbol_not_found"
  | arityMismatch .. => "arity"
  | unsupportedType .. => "unsupported_type"

def text : NativeError → String
  | imageNotFound image reason => "cannot load library '" ++ image ++ "': " ++ reason
  | symbolNotFound name => "no loaded library exports '" ++ name ++ "'"
  | arityMismatch name expected found =>
    "'" ++ name ++ "' takes " ++ toString expected ++ " argument(s), " ++ toString found ++ " given"
  | unsupportedType name reason => "'" ++ name ++ "': " ++ reason

/-- A type stands where the convention has no place for it. -/
def unsupportedAs (name : String) (ty : Ty) (position : String) : NativeError :=
  unsupportedType name (ty.name ++ " cannot be passed as " ++ position)

instance : Described NativeError where
  code e := "scribble::native::" ++ e.codeName
  message := text
  help?
    | symbolNotFound _ => some "add the library that defines it to the `libraries` option"
    | _ => none

end NativeError

end ScriptLang.Native
