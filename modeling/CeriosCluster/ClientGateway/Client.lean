import CeriosCluster.MCPacket.Parse

/-!
# The state of the gateway

A `Client` is one connection: its socket, its buffers and ciphers, the operations it has in flight,
and a `log` of what its handlers did, which no handler reads. The gateway owns the clients through
two maps of pointers that may be null: `Login::pendingClients`, by native handle, and
`ClientServer::clients`, by player id. A client that loses its owner is freed, and a handler that
touches it afterwards has no defined behaviour.
-/

namespace CeriosCluster.ClientGateway

open CeriosCluster.Lib CeriosCluster.MCPacket

/-! ## What the gateway is linked with -/

/-- An initialised `EVP_CIPHER_CTX`: the key, which is also the initialisation vector, and the bytes it
has processed since. -/
structure CipherContext where
  key : Block 16
  processed : Bytes
  deriving DecidableEq

/-- The cipher: an update gives as many bytes as it takes, or fails. -/
structure Cipher where
  encryptUpdate : CipherContext → (input : Bytes) → Option (Block input.length)
  decryptUpdate : CipherContext → (input : Bytes) → Option (Block input.length)

/-- The libraries and the key pair. `parsePlayerInfo` gives the members `id` and `name` of a JSON text
that has them as strings. -/
structure Env where
  zlib : Zlib
  fuel : Nat
  cipher : Cipher
  sha1 : Bytes → Block 20
  sha256 : Bytes → Block 32
  publicKeyString : Bytes
  parsePlayerInfo : Bytes → Option (Bytes × Bytes)

/-- What one handler takes from outside: the memory its packets are made in, the random numbers, and how
the calls to OpenSSL and to the resolver turn out. `freedReads` says that memory just freed can still be read. -/
structure World where
  ambient : Ambient
  verifyToken : Block 4
  pkeyContext : Bool
  pkeyDecryptInit : Bool
  pkeyPadding : Bool
  pkeyDecrypt : Bytes → Option Bytes
  sha1Init : Bool
  resolves : Bool
  freedReads : Bool

/-! ## One connection -/

abbrev ConnId := Nat

/-- What a client's `owner` points to. Both live as long as the process, so `owner.lock()` never fails. -/
inductive OwnerRef
  | login
  | clientServer
  deriving DecidableEq

/-- A socket is open until it is closed; on one that the peer has reset, `shutdown` and the throwing
`remote_endpoint` fail. -/
inductive SocketState
  | connected
  | reset
  | closed
  deriving DecidableEq

structure Socket where
  handle : Word
  loopback : Bool
  state : SocketState
  deriving DecidableEq

/-- The invalid handle, `-1`, once the socket is closed. -/
def Socket.native_handle (s : Socket) : Word := if s.state = .closed then BitVec.ofInt 32 (-1) else s.handle

inductive Stage
  | connecting
  | handshaking
  | sending
  | readingHeader
  | readingBody (contentLength : Nat) (data : Bytes)
  | finished
  deriving DecidableEq

/-- A session-server request, with the shared secret its digest was computed over. -/
structure Request where
  sharedSecret : Bytes
  text : Bytes
  stage : Stage
  deriving DecidableEq

def Request.InFlight (r : Request) : Prop := r.stage ≠ .finished

instance (r : Request) : Decidable r.InFlight := inferInstanceAs (Decidable (_ ≠ _))

/-- The vector that `sendData` makes its `asio::buffer` of: its caller's, or its own, which is gone when it returns. -/
inductive SendVector
  | data
  | encryptedData
  deriving DecidableEq

/-- What a handler did to a client. -/
inductive Action
  | appended (plaintext : Bytes)
  | receivedMessage (packet : Packet)
  | sendPacket (packet : Packet)
  | sendData (data : Bytes) (encrypted : Bool)
  | write (vector : SendVector) (bytes : Bytes)
  | tokenMatched (verifyTokenBuffer : Bytes) (verifyToken : Block 4)
  | hasJoined (sharedSecret : Bytes) (encryptContext decryptContext : Option CipherContext)
  | onPlayerLogin
  deriving DecidableEq

/-- A connection's threshold until compression is switched on. -/
def noCompression : Word := BitVec.ofInt 32 (-1)

structure Client where
  freed : Bool
  owner : OwnerRef
  socket : Socket
  buffer : Bytes
  state : ClientState
  compressionThreshold : Word
  encryptCipherContext : Option CipherContext
  decryptCipherContext : Option CipherContext
  encrypted : Bool
  encryptedBuffer : Bytes
  verifyToken : Block 4
  requestedUsername : Bytes
  userid : Bytes
  alive : Bool
  readPending : Bool
  waitsPending : Nat
  writesPending : Nat
  requests : List Request
  log : List Action
  deriving DecidableEq

/-- A client as its constructor leaves it, which includes its first read; `verifyToken` is not set. -/
def Client.new (owner : OwnerRef) (socket : Socket) (verifyToken : Block 4) : Client where
  freed := false
  owner := owner
  socket := socket
  buffer := []
  state := .HANDSHAKE
  compressionThreshold := BitVec.ofInt 32 (-1)
  encryptCipherContext := none
  decryptCipherContext := none
  encrypted := false
  encryptedBuffer := []
  verifyToken := verifyToken
  requestedUsername := []
  userid := ascii "00000000-0000-0000-0000-000000000000"
  alive := true
  readPending := true
  waitsPending := 0
  writesPending := 0
  requests := []
  log := []

/-! ## The gateway -/

/-- A `std::unordered_map` to client pointers, which may be null. -/
abbrev ClientMap (κ : Type) := AList fun _ : κ => Option ConnId

/-- `objects` are the clients ever constructed, by their number; `accepting` is the client the accept
handler has constructed and not yet put into `pendingClients`, and `receivePending` says whether
`ClientServer` waits for a datagram. -/
structure Gateway where
  objects : List Client
  pendingClients : ClientMap Word
  clients : ClientMap Bytes
  accepting : Option ConnId
  receivePending : Bool
  deriving DecidableEq

def Gateway.init : Gateway := ⟨[], ∅, ∅, none, true⟩

abbrev M := Exec Exn Gateway

/-- The client a pointer points to, unless it has been freed. -/
def client (i : ConnId) : M Client := do
  let g ← Exec.get
  match g.objects[i]? with
  | none => Exec.undefined
  | some c => if c.freed then Exec.undefined else pure c

def modifyClient (i : ConnId) (f : Client → Client) : M Unit := do
  let _ ← client i
  Exec.modify fun g => { g with objects := g.objects.modify i f }

def Client.logged (c : Client) (a : Action) : Client := { c with log := c.log ++ [a] }

def record (i : ConnId) (a : Action) : M Unit := modifyClient i fun c => c.logged a

/-- `delete`, or nothing for the null pointer. -/
def free : Option ConnId → M Unit
  | none => pure ()
  | some i => modifyClient i fun c => { c with freed := true }

def onBuffer {α : Type} (i : ConnId) (m : BufferM α) : M α := do
  let c ← client i
  Exec.zoom (fun _ => c.buffer)
    (fun b g => { g with objects := g.objects.modify i fun c => { c with buffer := b } }) m

end CeriosCluster.ClientGateway
