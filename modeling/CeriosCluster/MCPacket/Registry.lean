import CeriosCluster.MCPacket.Classes

/-!
# Packets and the packet registry

A packet object is the id, the buffer and the `compressed` flag of the base class with the fields of
its own class. The registry maps a side, a connection state and an id to the class registered there;
a key that is not found is tried again under `BI_DIRECTIONAL`.
-/

namespace CeriosCluster.MCPacket

open CeriosCluster.Lib

inductive PacketClass
  | handshake
  | serverStatus
  | ping
  | loginStart
  | encryption
  | loginSuccess
  | setCompression
  | keepAlive
  | joinGame
  | chatMessage
  | spawnPosition
  | playerPositionAndLook
  | playerAbilities
  deriving DecidableEq, Repr

inductive Fields
  | handshake (f : HandshakePacket)
  | serverStatus (f : ServerStatusPacket)
  | ping (f : PingPacket)
  | loginStart (f : LoginStartPacket)
  | encryption (f : EncryptionPacket)
  | loginSuccess (f : LoginSuccessPacket)
  | setCompression (f : SetCompressionPacket)
  | keepAlive (f : KeepAlivePacket)
  | joinGame (f : JoinGamePacket)
  | chatMessage (f : ChatMessagePacket)
  | spawnPosition (f : SpawnPositionPacket)
  | playerPositionAndLook (f : PlayerPositionAndLookPacket)
  | playerAbilities (f : PlayerAbilitiesPacket)
  deriving DecidableEq

def Fields.packetClass : Fields → PacketClass
  | .handshake _ => .handshake
  | .serverStatus _ => .serverStatus
  | .ping _ => .ping
  | .loginStart _ => .loginStart
  | .encryption _ => .encryption
  | .loginSuccess _ => .loginSuccess
  | .setCompression _ => .setCompression
  | .keepAlive _ => .keepAlive
  | .joinGame _ => .joinGame
  | .chatMessage _ => .chatMessage
  | .spawnPosition _ => .spawnPosition
  | .playerPositionAndLook _ => .playerPositionAndLook
  | .playerAbilities _ => .playerAbilities

/-- What `serializePacket` appends after the id. -/
def Fields.payload (side : Side) : Fields → Bytes
  | .handshake f => f.payload
  | .serverStatus f => f.payload
  | .ping f => f.payload
  | .loginStart f => f.payload
  | .encryption f => f.payload side
  | .loginSuccess f => f.payload
  | .setCompression f => f.payload
  | .keepAlive f => f.payload
  | .joinGame f => f.payload
  | .chatMessage f => f.payload side
  | .spawnPosition f => f.payload
  | .playerPositionAndLook f => f.payload
  | .playerAbilities f => f.payload

/-- The base object `Packet::Packet(length, buffer, …)` makes: the id and the bytes after it. -/
structure PacketInProgress where
  packetId : Word
  rawPayload : Bytes
  deriving DecidableEq

structure Packet where
  packetId : Word
  rawPayload : Bytes
  compressed : Bool
  fields : Fields
  deriving DecidableEq

/-- The parsing constructor of a class, over the payload. -/
def PacketClass.parse (side : Side) (a : Ambient) : PacketClass → BufferM Fields
  | .handshake => do pure (.handshake (← HandshakePacket.parse))
  | .serverStatus => do pure (.serverStatus (← ServerStatusPacket.parse))
  | .ping => do pure (.ping (← PingPacket.parse a))
  | .loginStart => do pure (.loginStart (← LoginStartPacket.parse))
  | .encryption => do pure (.encryption (← EncryptionPacket.parse side a))
  | .loginSuccess => do pure (.loginSuccess (← LoginSuccessPacket.parse))
  | .setCompression => do pure (.setCompression (← SetCompressionPacket.parse))
  | .keepAlive => do pure (.keepAlive (← KeepAlivePacket.parse))
  | .joinGame => do pure (.joinGame (← JoinGamePacket.parse))
  | .chatMessage => do pure (.chatMessage (← ChatMessagePacket.parse side a))
  | .spawnPosition => do pure (.spawnPosition (← SpawnPositionPacket.parse a))
  | .playerPositionAndLook => do pure (.playerPositionAndLook (← PlayerPositionAndLookPacket.parse a))
  | .playerAbilities => do pure (.playerAbilities (← PlayerAbilitiesPacket.parse a))

/-- `D::parsePacket`: the class's object made from the base object. -/
def PacketClass.parsePacket {σ : Type} (c : PacketClass) (side : Side) (a : Ambient) (p : PacketInProgress) :
    Exec Exn σ Packet :=
  Exec.onLocal p.rawPayload do
    let fields ← c.parse side a
    let rawPayload ← Exec.get
    pure ⟨p.packetId, rawPayload, false, fields⟩

/-- `D::newPacket`, with the id each constructor sets. -/
def PacketClass.newPacket (side : Side) (a : Ambient) : PacketClass → Packet
  | .handshake => ⟨0x00, [], false, .handshake (HandshakePacket.new a)⟩
  | .serverStatus => ⟨0x00, [], false, .serverStatus ServerStatusPacket.new⟩
  | .ping => ⟨0x01, [], false, .ping (PingPacket.new a)⟩
  | .loginStart => ⟨0x00, [], false, .loginStart LoginStartPacket.new⟩
  | .encryption => ⟨0x01, [], false, .encryption (EncryptionPacket.new a)⟩
  | .loginSuccess => ⟨0x02, [], false, .loginSuccess LoginSuccessPacket.new⟩
  | .setCompression => ⟨0x01, [], false, .setCompression SetCompressionPacket.new⟩
  | .keepAlive => ⟨0x00, [], false, .keepAlive (KeepAlivePacket.new a)⟩
  | .joinGame => ⟨0x01, [], false, .joinGame JoinGamePacket.new⟩
  | .chatMessage => ⟨if side = .serverBound then 0x01 else 0x02, [], false, .chatMessage (ChatMessagePacket.new a)⟩
  | .spawnPosition => ⟨0x05, [], false, .spawnPosition (SpawnPositionPacket.new a)⟩
  | .playerPositionAndLook => ⟨0x08, [], false, .playerPositionAndLook (PlayerPositionAndLookPacket.new a)⟩
  | .playerAbilities => ⟨0x39, [], false, .playerAbilities (PlayerAbilitiesPacket.new a)⟩

/-- `serializePacket`: the base part resets the buffer and writes the id, the class appends its fields. -/
def Packet.serializePacket (side : Side) (p : Packet) : Packet :=
  { p with compressed := false, rawPayload := writeVarIntToBuffer p.packetId ++ p.fields.payload side }

/-! ## The registry -/

structure Registration where
  side : Side
  state : ClientState
  packetId : Word
  packetClass : PacketClass
  deriving DecidableEq

def registry : List Registration :=
  [⟨.serverBound, .HANDSHAKE, 0x00, .handshake⟩,
    ⟨.biDirectional, .STATUS, 0x00, .serverStatus⟩,
    ⟨.biDirectional, .STATUS, 0x01, .ping⟩,
    ⟨.serverBound, .LOGIN, 0x00, .loginStart⟩,
    ⟨.biDirectional, .LOGIN, 0x01, .encryption⟩,
    ⟨.clientBound, .LOGIN, 0x02, .loginSuccess⟩,
    ⟨.clientBound, .LOGIN, 0x03, .setCompression⟩,
    ⟨.biDirectional, .PLAY, 0x00, .keepAlive⟩,
    ⟨.clientBound, .PLAY, 0x01, .joinGame⟩,
    ⟨.clientBound, .PLAY, 0x02, .chatMessage⟩,
    ⟨.serverBound, .PLAY, 0x01, .chatMessage⟩,
    ⟨.clientBound, .PLAY, 0x05, .spawnPosition⟩,
    ⟨.clientBound, .PLAY, 0x08, .playerPositionAndLook⟩,
    ⟨.clientBound, .PLAY, 0x39, .playerAbilities⟩,
    ⟨.clientBound, .PLAY, 0x46, .setCompression⟩]

def findClass (side : Side) (state : ClientState) (packetId : Word) : Option PacketClass :=
  (registry.find? fun r => r.side = side ∧ r.state = state ∧ r.packetId = packetId).map (·.packetClass)

/-- The class under a key, or else under the same key with `BI_DIRECTIONAL`. -/
def lookupClass (side : Side) (state : ClientState) (packetId : Word) : Option PacketClass :=
  match findClass side state packetId with
  | some c => some c
  | none => findClass .biDirectional state packetId

/-- `instantiateFromData`; an unregistered id gives no packet. -/
def instantiateFromData {σ : Type} (side : Side) (state : ClientState) (a : Ambient) (p : PacketInProgress) :
    Exec Exn σ (Option Packet) :=
  match lookupClass side state p.packetId with
  | none => pure none
  | some c => do pure (some (← c.parsePacket side a p))

def newPacket (side : Side) (state : ClientState) (packetId : Word) (a : Ambient) : Option Packet :=
  (lookupClass side state packetId).map fun c => c.newPacket side a

end CeriosCluster.MCPacket
