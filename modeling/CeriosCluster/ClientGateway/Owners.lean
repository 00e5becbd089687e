import CeriosCluster.ClientGateway.Send
import CeriosCluster.InternalComms.Message

/-!
# The owners of the clients

`Login` owns a client until it is logged in and `ClientServer` from then on. Both are `ClientOwner`s,
and a client calls `clientDisconnected` and `handoffClient` of whichever owns it; `onPacketReceived` is
the base class's for both.
-/

namespace CeriosCluster.ClientGateway

open CeriosCluster.Lib CeriosCluster.MCPacket CeriosCluster.InternalComms

variable (E : Env)

/-! ## Login -/

def erasePendingClient (handle : Word) : M Unit := do
  let g ← Exec.get
  Exec.set { g with pendingClients := g.pendingClients.erase handle }
  free ((g.pendingClients.lookup handle).getD none)

/-- `Login::clientDisconnected`: on a socket that is not connected the endpoint it prints throws first. -/
def Login.clientDisconnected (i : ConnId) : M Unit := do
  remoteEndpoint i
  let c ← client i
  erasePendingClient c.socket.native_handle

/-! ## ClientServer -/

def setClient (userid : Bytes) (i : ConnId) : M Unit := do
  let g ← Exec.get
  Exec.set { g with clients := g.clients.insert userid (some i) }
  free ((g.clients.lookup userid).getD none)

/-- `ClientServer::addClient`. The queries to the database change nothing of the gateway. -/
def ClientServer.addClient (w : World) (i : ConnId) : M Unit := do
  sendNewPacket E i (newPacket .clientBound .PLAY 0x01 w.ambient)
  sendNewPacket E i (newPacket .clientBound .PLAY 0x05 w.ambient)
  sendNewPacket E i (newPacket .clientBound .PLAY 0x08 w.ambient)
  sendNewPacket E i (newPacket .clientBound .PLAY 0x39 w.ambient)
  let c ← client i
  setClient c.userid i

/-- `ClientServer::clientDisconnected`. It prints the endpoint of the client, which it has just freed if the
entry was the client's own; what that throws is caught. -/
def ClientServer.clientDisconnected (w : World) (i : ConnId) : M Unit := do
  let c ← client i
  let g ← Exec.get
  Exec.set { g with clients := g.clients.erase c.userid }
  free ((g.clients.lookup c.userid).getD none)
  if w.freedReads then pure () else Exec.tryCatch (remoteEndpoint i) fun _ => pure ()

/-- `clients[playerId]`, which puts a null pointer under a key that is not there. -/
def clientAt (playerId : Bytes) : M (Option ConnId) := do
  let g ← Exec.get
  match g.clients.lookup playerId with
  | some p => pure p
  | none => do
    Exec.set { g with clients := g.clients.insert playerId none }
    pure none

/-- `ClientServer::handleMessage`; the threshold is compared as a `std::size_t`. -/
def ClientServer.handleMessage (packet : Message) : M Unit := do
  match ← clientAt packet.getPlayerID with
  | none => pure ()
  | some i =>
    if packet.getMessageID = .MC_PACKET then do
      let c ← client i
      let payload ← Exec.onLocal packet.getPayload do
        let payload ← Exec.get
        if asSize c.compressionThreshold ≤ payload.length then compressData E.zlib E.fuel else pure ()
        writeBufferLengthToFront
        Exec.get
      sendData E i payload
    else pure ()

/-- `ClientServer::onDataReceived`, with the datagram it receives, if it receives one; a null packet is
dereferenced. -/
def ClientServer.onDataReceived (datagram : Option Bytes) : M Unit := do
  Exec.modify fun g => { g with receivePending := false }
  match datagram with
  | none => pure ()
  | some data => do
    match ← Exec.onLocal data (fromData false) with
    | none => Exec.undefined
    | some packet => ClientServer.handleMessage E packet
    Exec.modify fun g => { g with receivePending := true }

/-! ## Either owner -/

/-- `Login::handoffClient`. The entry looked up keeps a null pointer when it does not hold a client; an
exception out of `addClient` frees the client. -/
def Login.handoffClient (w : World) (i : ConnId) : M Unit := do
  let c ← client i
  let handle := c.socket.native_handle
  let g ← Exec.get
  Exec.set { g with pendingClients := g.pendingClients.insert handle none }
  match (g.pendingClients.lookup handle).getD none with
  | none => pure ()
  | some j => do
    let c ← client j
    erasePendingClient c.socket.native_handle
    modifyClient j fun c => { c with owner := .clientServer }
    Exec.tryCatch (ClientServer.addClient E w j) fun e => do
      free (some j)
      Exec.throw e

/-- `owner->handoffClient(client)`; the base class's does nothing. -/
def handoffClient (w : World) (owner : OwnerRef) (i : ConnId) : M Unit :=
  match owner with
  | .login => Login.handoffClient E w i
  | .clientServer => pure ()

def clientDisconnected (w : World) (owner : OwnerRef) (i : ConnId) : M Unit :=
  match owner with
  | .login => Login.clientDisconnected i
  | .clientServer => ClientServer.clientDisconnected w i

/-- `owner->onPacketReceived(side, client, packet)`: `ClientServer` declares one of another signature, which
does not override it. -/
def onPacketReceived (_owner : OwnerRef) (_i : ConnId) (_packet : Packet) : M Bool := pure false

/-- The client goes on with every packet itself. -/
theorem onPacketReceived_then {owner : OwnerRef} {i : ConnId} {packet : Packet} {m m' : M Unit} :
    (onPacketReceived owner i packet >>= fun received => if received then m else m') = m' := rfl

def disconnect (w : World) (i : ConnId) : M Unit := do
  let c ← client i
  if !c.alive then pure ()
  else do
    modifyClient i fun c => { c with alive := false }
    Exec.tryCatch
      (do
        socketCancel i
        socketShutdown i
        socketClose i)
      fun _ => pure ()
    let c ← client i
    clientDisconnected w c.owner i

end CeriosCluster.ClientGateway
