import ScriptLang.Wire.Codec

/-!
# Clients

A client sends commands over a connection and reads a response to each.  Whatever arrives before the
response belongs to the command too.  The other end is given by what it sends for each command, so that
a client can talk to a backend or to a script.
-/

namespace ScriptLang.Wire

/-- The other end of a connection in some state. -/
structure Peer (σ : Type) where
  state : σ
  /-- What arrives in answer to a command, and the state after that. -/
  answer : σ → Command → List Arrival × σ

structure Client (σ : Type) where
  peer : Peer σ
  /-- What has arrived and has not been read. -/
  incoming : List Arrival := []
  /-- The version that the other end has announced. -/
  version : Nat := 0

namespace Client

variable {σ : Type}

/-- Read frames up to a response: the frames before it, the response, and what is left to read. -/
def awaitResponse : List Arrival → List Frame × Except ProtocolError Response × List Arrival
  | [] => ([], .error .closed, [])
  | .error e :: rest => ([], .error e, rest)
  | .ok (.response r) :: rest => ([], .ok r, rest)
  | .ok (.command c) :: rest =>
    ([], .error (.unexpected "a response" (Frame.command c).describe), rest)
  | .ok f :: rest =>
    let (seen, r, rest) := awaitResponse rest
    (f :: seen, r, rest)

/-- Send a command and wait for its response. -/
def request (client : Client σ) (c : Command) :
    List Frame × Except ProtocolError Response × Client σ :=
  let (sent, state) := client.peer.answer client.peer.state c
  let (seen, r, rest) := awaitResponse (client.incoming ++ sent)
  (seen, r, { client with peer := { client.peer with state }, incoming := rest })

/-- A response of another kind than the one expected. -/
def mismatch (expected : String) (r : Response) : ProtocolError :=
  .unexpected expected (Frame.response r).describe

/-- Open a conversation. -/
def connect (peer : Peer σ) : Except ProtocolError Unit × Client σ :=
  let (_, r, client) := request { peer } (.ofKind .hello [] "")
  match r with
  | .ok (.result (.hello version)) => (.ok (), { client with version })
  | .ok r => (.error (mismatch "a hello reply" r), client)
  | .error e => (.error e, client)

/-- End a conversation. -/
def close (client : Client σ) : Except ProtocolError Unit × Client σ :=
  let (_, r, client) := client.request (.ofKind .goodbye [] "")
  match r with
  | .ok (.result .goodbye) => (.ok (), client)
  | .ok r => (.error (mismatch "a goodbye reply" r), client)
  | .error e => (.error e, client)

end Client

end ScriptLang.Wire
