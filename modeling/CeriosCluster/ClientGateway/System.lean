import CeriosCluster.ClientGateway.Receive
import CeriosCluster.Lib.Run

/-!
# The gateway as a machine

One event is one handler run by a worker thread: the two halves of an accept, the completion of an
operation a client has in flight, or a datagram. An exception that leaves a handler is caught by the
worker, so the run goes on from the state it left; undefined behaviour and loops that do not end have
no next state.
-/

namespace CeriosCluster.ClientGateway

open CeriosCluster.Lib CeriosCluster.MCPacket

/-- A completed operation, and what its handler is given. Requests are numbered within their client. -/
inductive Event
  | acceptConstruct (handle : Word) (loopback : Bool) (verifyToken : Block 4)
  | acceptInsert
  | onLengthReceive (i : ConnId) (error : Bool) (data : Bytes)
  | onWriteComplete (i : ConnId) (error : Bool)
  | keepAlive (i : ConnId) (error expired : Bool)
  | connectedToMojang (i : ConnId) (k : Nat) (isOpen : Bool)
  | sslHandshakeComplete (i : ConnId) (k : Nat) (error : Bool)
  | sendHTTPRequestDone (i : ConnId) (k : Nat) (error : Bool)
  | readHTTPHeader (i : ConnId) (k : Nat) (error : Bool) (data : Bytes)
  | onHasJoinedPostComplete (i : ConnId) (k : Nat) (error : ReadError) (data : Bytes)
  | onDataReceived (datagram : Option Bytes)
  | peerReset (i : ConnId)

variable (E : Env)

/-- `handleClient` up to the constructed client, which already reads. -/
def acceptConstruct (handle : Word) (loopback : Bool) (verifyToken : Block 4) : M Unit :=
  Exec.modify fun g =>
    { g with
      objects := g.objects ++ [Client.new .login ⟨handle, loopback, .connected⟩ verifyToken]
      accepting := some g.objects.length }

/-- The rest of `handleClient`; a client that was under the same handle is freed. -/
def acceptInsert (i : ConnId) : M Unit := do
  let c ← client i
  let handle := c.socket.native_handle
  let g ← Exec.get
  Exec.set { g with pendingClients := g.pendingClients.insert handle (some i), accepting := none }
  free ((g.pendingClients.lookup handle).getD none)

/-- The stage of a client's request, if it has one of that number. -/
def stageOf (g : Gateway) (i : ConnId) (k : Nat) : Option Request := do
  let c ← g.objects[i]?
  c.requests[k]?

/-- No open socket has this handle. -/
def handleIsNew (g : Gateway) (handle : Word) : Prop :=
  handle ≠ BitVec.ofInt 32 (-1) ∧ ∀ c ∈ g.objects, ¬ c.freed → c.socket.state ≠ .closed → c.socket.handle ≠ handle

instance (g : Gateway) (handle : Word) : Decidable (handleIsNew g handle) := inferInstanceAs (Decidable (_ ∧ _))

/-- The handler of an event, or nothing if the operation it completes is not in flight. -/
def handler (g : Gateway) (w : World) : Event → Option (M Unit)
  | .acceptConstruct handle loopback verifyToken =>
    if g.accepting = none ∧ handleIsNew g handle then some (acceptConstruct handle loopback verifyToken) else none
  | .acceptInsert => g.accepting.map acceptInsert
  | .onLengthReceive i error data => do
    let c ← g.objects[i]?
    if c.readPending ∧ (error ∨ data ≠ []) then
      some do
        modifyClient i fun c => { c with readPending := false }
        onLengthReceive E w i error data
    else none
  | .onWriteComplete i error => do
    let c ← g.objects[i]?
    if 0 < c.writesPending then
      some do
        modifyClient i fun c => { c with writesPending := c.writesPending - 1 }
        onWriteComplete w i error
    else none
  | .keepAlive i error expired => do
    let c ← g.objects[i]?
    if 0 < c.waitsPending then
      some do
        modifyClient i fun c => { c with waitsPending := c.waitsPending - 1 }
        keepAlive E w i error expired
    else none
  | .connectedToMojang i k isOpen => do
    let r ← stageOf g i k
    if r.stage = .connecting then some (connectedToMojang i k isOpen) else none
  | .sslHandshakeComplete i k error => do
    let r ← stageOf g i k
    if r.stage = .handshaking then some (sslHandshakeComplete i k error) else none
  | .sendHTTPRequestDone i k error => do
    let r ← stageOf g i k
    if r.stage = .sending then some (sendHTTPRequestDone i k error) else none
  | .readHTTPHeader i k error data => do
    let r ← stageOf g i k
    if r.stage = .readingHeader then some (readHTTPHeader i k error data) else none
  | .onHasJoinedPostComplete i k error more => do
    let r ← stageOf g i k
    match r.stage with
    | .readingBody contentLength data =>
      -- without an error exactly `contentLength` more bytes have been read
      if error = .none → more.length = contentLength then
        some (onHasJoinedPostComplete E w i k r.sharedSecret error (data ++ more) contentLength)
      else none
    | _ => none
  | .onDataReceived datagram => if g.receivePending then some (ClientServer.onDataReceived E datagram) else none
  | .peerReset i => do
    let c ← g.objects[i]?
    if c.socket.state = .connected then
      some (modifyClient i fun c => { c with socket := { c.socket with state := .reset } })
    else none

/-- The state after an event, which comes with what its handler takes from outside. -/
def step (g : Gateway) (e : World × Event) : Option Gateway :=
  match handler E g e.1 e.2 with
  | none => none
  | some m =>
    match m g with
    | .ok _ g' => some g'
    | .threw _ g' => some g'
    | .undefined => none
    | .diverged => none

end CeriosCluster.ClientGateway
