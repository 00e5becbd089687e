import CeriosCluster.ClientGateway.Client

/-!
# Sending, and the socket

`sendPacket` serializes, compresses and frames a packet for the side `getSide` names, and `sendData`
encrypts the bytes once the connection is encrypted and starts to write them.
-/

namespace CeriosCluster.ClientGateway

open CeriosCluster.Lib CeriosCluster.MCPacket

def EVP_MAX_BLOCK_LENGTH : Nat := 32

variable (E : Env)

/-- `Client::encrypt`; `none` is `-1`. A length over `INT_MAX`, whose conversion to `int` is
implementation-defined, is left undefined, as is a context that was never initialised. -/
def encrypt (i : ConnId) (plaintext : Bytes) : M (Option Bytes) := do
  let c ← client i
  match c.encryptCipherContext with
  | none => Exec.undefined
  | some context =>
    if 2 ^ 31 ≤ plaintext.length then Exec.undefined
    else
      match E.cipher.encryptUpdate context plaintext with
      | none => pure none
      | some ciphertext => do
        modifyClient i fun c =>
          { c with encryptCipherContext := some { context with processed := context.processed ++ plaintext } }
        pure (some ciphertext.val)

def decrypt (i : ConnId) (ciphertext : Bytes) : M (Option Bytes) := do
  let c ← client i
  match c.decryptCipherContext with
  | none => Exec.undefined
  | some context =>
    if 2 ^ 31 ≤ ciphertext.length then Exec.undefined
    else
      match E.cipher.decryptUpdate context ciphertext with
      | none => pure none
      | some plaintext => do
        modifyClient i fun c =>
          { c with decryptCipherContext := some { context with processed := context.processed ++ ciphertext } }
        pure (some plaintext.val)

/-- `asio::async_write`. Its buffer does not own the bytes: they are what the vector holds at the call, and whatever of
them the socket does not take then is read from where the vector was. -/
def asyncWrite (i : ConnId) (vector : SendVector) (bytes : Bytes) : M Unit := do
  record i (.write vector bytes)
  modifyClient i fun c => { c with writesPending := c.writesPending + 1 }

def sendData (i : ConnId) (data : Bytes) : M Unit := do
  let c ← client i
  record i (.sendData data c.encrypted)
  if !c.alive then pure ()
  else if c.encrypted then do
    match ← encrypt E i data with
    | some encryptedData => asyncWrite i .encryptedData encryptedData
    -- the length `-1` selects the whole buffer
    | none => asyncWrite i .encryptedData (List.replicate (data.length + EVP_MAX_BLOCK_LENGTH) 0)
  else asyncWrite i .data data

def getSide : Side := .serverBound

/-- The bytes that `sendPacket` hands to `sendData`. -/
def packetData (compressionThreshold : Word) (packet : Packet) : M Bytes :=
  Exec.onLocal packet do
    Packet.toWire E.zlib E.fuel getSide compressionThreshold
    let packet ← Exec.get
    pure packet.rawPayload

def sendPacket (i : ConnId) (packet : Packet) : M Unit := do
  let c ← client i
  record i (.sendPacket packet)
  let data ← packetData E c.compressionThreshold packet
  sendData E i data

/-- `sendPacket` of what `newPacket` gave; there is no class to set the fields of on a null pointer. -/
def sendNewPacket (i : ConnId) (packet : Option Packet) : M Unit :=
  match packet with
  | none => Exec.undefined
  | some packet => sendPacket E i packet

/-! ## The socket -/

/-- `socket->cancel()`, which throws on a closed socket. -/
def socketCancel (i : ConnId) : M Unit := do
  let c ← client i
  if c.socket.state = .closed then Exec.throw .systemError else pure ()

/-- `socket->remote_endpoint()`, which throws unless the socket is connected. -/
def remoteEndpoint (i : ConnId) : M Unit := do
  let c ← client i
  if c.socket.state = .connected then pure () else Exec.throw .systemError

def socketShutdown (i : ConnId) : M Unit := do
  let c ← client i
  if c.socket.state = .connected then pure () else Exec.throw .systemError

def socketClose (i : ConnId) : M Unit :=
  modifyClient i fun c => { c with socket := { c.socket with state := .closed } }

def startAsyncRead (i : ConnId) : M Unit := modifyClient i fun c => { c with readPending := true }

end CeriosCluster.ClientGateway
