import ScriptLang.Wire.Endpoint

/-!
# Networks

Which endpoints a backend can listen on, and which of those a client reaches.  A machine always has its
own hosts; whether a client reaches them is another matter.
-/

namespace ScriptLang.Wire

/-- The network of a machine. -/
structure Network where
  /-- The hosts whose addresses are the machine's own. -/
  hosts : List String := ["127.0.0.1", "localhost", "0.0.0.0", "[::1]", "[::]"]
  /-- Why no address can be reached, if that is so. -/
  failure : Option String := none

namespace Network

/-- Whether a backend can listen on an address. -/
def listen (n : Network) (address : String) : Except ProtocolError Unit :=
  match Endpoint.splitPort address.toList with
  | none => .error (.transport "invalid socket address")
  | some (host, port) =>
    if (Decimal.readBits? 16 port).isNone then .error (.transport "invalid port value")
    else if n.hosts.contains (String.ofList host) then .ok ()
    else .error (.transport "failed to lookup address information: Name or service not known")

/-- Whether a client reaches a backend that listens on an endpoint. -/
def reach (n : Network) : Endpoint → Except ProtocolError Unit
  | .socket _ => .ok ()
  | .address _ =>
    match n.failure with
    | none => .ok ()
    | some reason => .error (.transport reason)

end Network

end ScriptLang.Wire
