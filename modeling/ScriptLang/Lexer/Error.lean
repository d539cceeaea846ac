import ScriptLang.Diagnostic
import ScriptLang.Token

/-!
# Errors of reading tokens
-/

namespace ScriptLang

/-- What is wrong with the text of a source. -/
inductive LexError where
  | unexpected (expected found : String) (location : Location) (width : Nat)
  | invalidToken (text : String) (location : Location) (width : Nat)
  | directive (message : String) (location : Location) (width : Nat)
  | includeNotFound (name : String) (location : Location)
  | includeCycle (name : String) (location : Location)
  | includeTooDeep (name : String) (limit : Nat) (location : Location)
deriving DecidableEq, Repr

namespace LexError

def location : LexError → Location
  | unexpected _ _ l _ | invalidToken _ l _ | directive _ l _ => l
  | includeNotFound _ l | includeCycle _ l | includeTooDeep _ _ l => l

def codeName : LexError → String
  | unexpected .. => "unexpected"
  | invalidToken .. => "invalid_token"
  | directive .. => "directive"
  | includeNotFound .. => "include_not_found"
  | includeCycle .. => "include_cycle"
  | includeTooDeep .. => "include_too_deep"

/-- What is wrong, without the place. -/
def reason : LexError → String
  | unexpected expected found _ _ => "expected " ++ expected ++ ", got " ++ found
  | invalidToken text _ _ => "invalid token '" ++ text ++ "'"
  | directive message _ _ => message
  | includeNotFound name _ => "cannot find included source '" ++ name ++ "'"
  | includeCycle name _ => "source '" ++ name ++ "' includes itself"
  | includeTooDeep name limit _ =>
    "including '" ++ name ++ "' would exceed the maximum include depth of " ++ toString limit

def help? : LexError → Option String
  | includeNotFound .. =>
    some ("includes are looked up next to the including file, then in the configured include " ++
      "paths")
  | _ => none

def labels : LexError → List Label
  | unexpected _ found l width => [l.label width ("unexpected " ++ found)]
  | invalidToken _ l width => [l.label width "not a valid token"]
  | directive _ l width => [l.label width "in this directive"]
  | _ => []

instance : Described LexError where
  code e := "scribble::lex::" ++ e.codeName
  message e := e.location.text ++ ": " ++ e.reason
  location? e := some e.location
  help? := help?
  labels := labels

end LexError

end ScriptLang
