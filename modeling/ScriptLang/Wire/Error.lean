import ScriptLang.Diagnostic

/-!
# Errors of connections
-/

namespace ScriptLang.Wire

/-- What can go wrong between the two ends of a connection. -/
inductive ProtocolError where
  | malformed (message : String)
  | unknownCommand (command : String)
  | invalidArguments (command message : String)
  | transport (message : String)
  | closed
  | unexpected (expected received : String)
  /-- The backend could not be started. -/
  | startFailed (message : String)
deriving DecidableEq, Repr

namespace ProtocolError

def codeName : ProtocolError → String
  | malformed .. => "malformed"
  | unknownCommand .. => "unknown_command"
  | invalidArguments .. => "arguments"
  | transport .. => "transport"
  | closed => "closed"
  | unexpected .. => "unexpected"
  | startFailed .. => "spawn"

def text : ProtocolError → String
  | malformed message => "malformed message: " ++ message
  | unknownCommand command => "unknown command '" ++ command ++ "'"
  | invalidArguments command message => "invalid arguments for '" ++ command ++ "': " ++ message
  | transport message => "transport failure: " ++ message
  | closed => "the connection was closed"
  | unexpected expected received => "expected " ++ expected ++ ", received " ++ received
  | startFailed message => "failed to start the backend: " ++ message

def help? : ProtocolError → Option String
  | unknownCommand _ =>
    some ("commands: hello, compile, run, debug, step, step-over, run-to-return, continue, break, " ++
      "stop, goodbye")
  | _ => none

instance : Described ProtocolError where
  code e := "scribble::ipc::" ++ e.codeName
  message := text
  help? := help?

end ProtocolError

end ScriptLang.Wire
