import ScriptLang.Diagnostic
import ScriptLang.Stage

/-!
# Errors of sessions
-/

namespace ScriptLang.Session

/-- Why a session does not do what it is asked. -/
inductive SessionError where
  /-- A stage failed, with all that it found. -/
  | stageFailed (stage : Stage) (diagnostics : List Diagnostic)
  /-- A stage failed earlier. -/
  | halted (stage : Stage)
  | noSource
  | wrongStage (action : String) (stage : Stage)
  | notSuspended
deriving DecidableEq, Repr

namespace SessionError

def codeName : SessionError → String
  | stageFailed stage _ => stage.name
  | halted _ => "halted"
  | noSource => "no_source"
  | wrongStage .. => "wrong_stage"
  | notSuspended => "not_suspended"

def text : SessionError → String
  | stageFailed stage ds => stage.name ++ " failed with " ++ toString ds.length ++ " error(s)"
  | halted stage => "the session halted after the " ++ stage.name ++ " stage failed"
  | noSource => "no source has been loaded"
  | wrongStage action stage => "cannot " ++ action ++ " in the " ++ stage.name ++ " stage"
  | notSuspended => "no program is suspended"

instance : Described SessionError where
  code e := "scribble::engine::" ++ e.codeName
  message := text
  help?
    | halted _ => some "start a new session"
    | _ => none

end SessionError

end ScriptLang.Session
