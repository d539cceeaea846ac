import ScriptLang.Dialogue

/-!
# The command line of the backend

The arguments are the endpoint to listen on and options for the settings.  Once the backend listens it
says so on a line of its own.
-/

namespace ScriptLang.Backend

open Wire (Endpoint ProtocolError)

/-- What the arguments have to be. -/
def usageText : String := "scribble-backend <socket-path|host:port> [--option[=value]...]"

/-- The greatest length of a socket's path in bytes. -/
def maxSocketPath : Nat := 107

/-- Whether a socket can be created. -/
def listenOnSocket (fs : FileSystem) (path : String) : Except ProtocolError Unit :=
  if path.utf8ByteSize > maxSocketPath then
    .error (.transport "path must be shorter than SUN_LEN")
  else
    match fs.place path with
    | .error e => .error (.transport e.message)
    | .ok place =>
      if (fs.node? place).isSome then .error (.transport "Address already in use (os error 98)")
      else .ok ()

/-- Whether a backend can listen on an endpoint. -/
def listen (host : Host) : Endpoint → Except ProtocolError Unit
  | .socket path => listenOnSocket host.files path
  | .address address => host.network.listen address

/-- Start a backend with these arguments: the endpoint it listens on, and its settings. -/
def launch (arguments : List String) (host : Host) : Except LaunchError (Endpoint × Config) :=
  match Options.ofFlags arguments with
  | (options, [text]) => do
    let endpoint ← (Endpoint.ofText text).mapError LaunchError.protocol
    (listen host endpoint).mapError LaunchError.protocol
    return (endpoint, (Config.withOptions {} options).1)
  | _ => .error (.usage usageText)

end ScriptLang.Backend
