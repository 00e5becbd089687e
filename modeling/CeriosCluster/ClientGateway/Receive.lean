import CeriosCluster.ClientGateway.Login

/-!
# Receiving

`onLengthReceive` appends what arrived to the receive buffer, decrypted once the connection is
encrypted, takes at most one frame off it and hands the frame's packet to `receivedMessage`.
-/

namespace CeriosCluster.ClientGateway

open CeriosCluster.Lib CeriosCluster.MCPacket

variable (E : Env) (w : World)

/-- `buffer.resize(size)`, to a size the buffer does not have to grow for, or to one that no vector has. -/
def shrinkBuffer (i : ConnId) (size : Nat) : M Unit :=
  if maxSize < size then Exec.throw .lengthError
  else modifyClient i fun c => { c with buffer := c.buffer.take size }

/-- A size with the length `-1` of a failed decryption added to it, as a `std::size_t`. -/
def sizeAfterFailure (size : Nat) : Nat := (size + (2 ^ 64 - 1)) % 2 ^ 64

/-- The decryption in `onLengthReceive`: all whole blocks of `encryptedBuffer`, which nothing is ever
removed from. -/
def appendDecrypted (i : ConnId) (data : Bytes) : M Unit := do
  modifyClient i fun c => { c with encryptedBuffer := c.encryptedBuffer ++ data }
  let c ← client i
  let cyphertextLength := (c.encryptedBuffer.length >>> 4) <<< 4
  match ← decrypt E i (c.encryptedBuffer.take cyphertextLength) with
  | some cleartext => do
    modifyClient i fun c => { c with buffer := c.buffer ++ cleartext }
    record i (.appended cleartext)
  | none => do
    -- the room for the cleartext is in the buffer by now, with nothing decrypted into it
    modifyClient i fun c => { c with buffer := c.buffer ++ List.replicate cyphertextLength 0 }
    shrinkBuffer i (sizeAfterFailure c.buffer.length)

/-- What `onLengthReceive` does with the bytes that arrived. -/
def appendReceived (i : ConnId) (data : Bytes) : M Unit := do
  let c ← client i
  if c.encrypted then appendDecrypted E i data
  else do
    modifyClient i fun c => { c with buffer := c.buffer ++ data }
    record i (.appended data)

/-- The length VarInt at the front of a buffer, when it is complete and the buffer passes the test that the
frame is too: `size() >= messageLength + varintSize`, on 64 bits. -/
def completeLength (buffer : Bytes) (messageLength : VarIntRead) : Prop :=
  0 < messageLength.size ∧ (asSize messageLength.value + messageLength.size) % 2 ^ 64 ≤ buffer.length

instance (buffer : Bytes) (messageLength : VarIntRead) : Decidable (completeLength buffer messageLength) :=
  inferInstanceAs (Decidable (_ ∧ _))

/-- The packet at the front of the buffer; `none` also when its frame is not complete. -/
def parseReceived (state : ClientState) (compressed : Bool) : BufferM (Option Packet) := do
  let messageLength ← readVarIntFromBuffer false
  let buffer ← Exec.get
  if completeLength buffer messageLength then do
    -- remove the message length from the buffer
    Exec.set (buffer.drop messageLength.size)
    parsePacket E.zlib E.fuel .serverBound (asSize messageLength.value) state w.ambient compressed true
  else pure none

/-- `Client::onLengthReceive`. Exceptions of `receivedMessage` end the connection; those of the parser are
not caught, and leave it without a read. -/
def onLengthReceive (i : ConnId) (error : Bool) (data : Bytes) : M Unit := do
  let c ← client i
  if !c.alive then pure ()
  else if error then disconnect w i
  else do
    appendReceived E i data
    let c ← client i
    match ← onBuffer i (parseReceived E w c.state (0 ≤ c.compressionThreshold.toInt)) with
    | none => startAsyncRead i
    | some parsedPacket => do
      let handled ← Exec.tryCatch
        (do
          receivedMessage E w i parsedPacket
          pure true)
        fun _ => do
          disconnect w i
          pure false
      if handled then startAsyncRead i else pure ()

def onWriteComplete (i : ConnId) (error : Bool) : M Unit :=
  if error then disconnect w i else pure ()

/-- `Client::keepAlive`; `expired` says whether the client was last seen more than ten seconds ago. -/
def keepAlive (i : ConnId) (error expired : Bool) : M Unit := do
  let c ← client i
  if !c.alive then pure ()
  else if error then disconnect w i
  else if expired then socketCancel i
  else
    match newPacket .clientBound c.state 0x00 w.ambient with
    | some keepAlive@⟨_, _, _, .keepAlive _⟩ => do
      sendPacket E i keepAlive
      modifyClient i fun c => { c with waitsPending := c.waitsPending + 1 }
    | _ => socketCancel i

end CeriosCluster.ClientGateway
