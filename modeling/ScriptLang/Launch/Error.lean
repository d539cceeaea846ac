import ScriptLang.Config.Settings
import ScriptLang.Wire.Error

/-!
# Errors of the programs

Why a program that a user starts ends before it has done its work.
-/

namespace ScriptLang

inductive LaunchError where
  /-- The file to run cannot be read. -/
  | unreadable (path : String)
  | config (e : ConfigError)
  | protocol (e : Wire.ProtocolError)
  /-- The backend answered with something that no command asks for. -/
  | unexpectedReply (received : String)
  /-- The arguments are not those that the program takes. -/
  | usage (message : String)
deriving DecidableEq, Repr

namespace LaunchError

def code : LaunchError → String
  | unreadable _ => "scribble::cli::io"
  | config e => Described.code e
  | protocol e => Described.code e
  | unexpectedReply _ => "scribble::cli::unexpected_reply"
  | usage _ => "scribble::cli::usage"

def text : LaunchError → String
  | unreadable path => "failed to read " ++ path
  | config e => e.text
  | protocol e => e.text
  | unexpectedReply received => "the backend answered with " ++ received
  | usage message => "usage: " ++ message

def help? : LaunchError → Option String
  | config e => Described.help? e
  | protocol e => Described.help? e
  | _ => none

instance : Described LaunchError where
  code := code
  message := text
  help? := help?

end LaunchError

end ScriptLang
