import ScriptLang.Decimal.Read
import ScriptLang.Wire.Error

/-!
# Endpoints

Where a backend listens: a socket in the file tree or a network address.  A text that begins with
`tcp:`, or that is a host, a colon and a port, is an address; any other text is the path of a socket.
-/

namespace ScriptLang.Wire

inductive Endpoint where
  | socket (path : String)
  | address (hostAndPort : String)
deriving DecidableEq, Repr

namespace Endpoint

/-- What an address may begin with to be told from a path. -/
def addressMark : String := "tcp:"

/-- The text before and after the last colon. -/
def splitPort (cs : List Char) : Option (List Char × List Char) :=
  let port := (cs.reverse.takeWhile (· ≠ ':')).reverse
  match cs.reverse.dropWhile (· ≠ ':') with
  | _ :: host => some (host.reverse, port)
  | [] => none

/-- Whether a text is a host, a colon and a port of 16 bits. -/
def isHostAndPort (cs : List Char) : Bool :=
  !cs.contains '/' &&
    match splitPort cs with
    | some (host, port) => !host.isEmpty && (Decimal.readBits? 16 port).isSome
    | none => false

/-- The endpoint that a text names. -/
def ofText (s : String) : Except ProtocolError Endpoint :=
  if s.isEmpty then .error (.invalidArguments "connect" "empty endpoint")
  else if addressMark.toList.isPrefixOf s.toList then
    .ok (.address (String.ofList (s.toList.drop addressMark.length)))
  else if isHostAndPort s.toList then .ok (.address s)
  else .ok (.socket s)

/-- The written form of an endpoint. -/
def text : Endpoint → String
  | socket path => path
  | address a => addressMark ++ a

/-- An address of the machine's own, with a port that nobody uses. -/
def loopback : Endpoint := .address "127.0.0.1:0"

/-- The line that a backend prints when it listens. -/
def readyLine (e : Endpoint) : String := "READY " ++ e.text

end Endpoint

end ScriptLang.Wire
