import CeriosCluster.MCPacket.Framing
import CeriosCluster.MCPacket.Bitfield

/-!
# The packet classes

The fields of the thirteen packet classes, their parsing constructors over the payload that follows
the packet id, and the bytes their `serializePacket` appends after the id. A constructor may leave
fields unset; what they then hold is part of `Ambient`, with the clock and the random engine.
-/

namespace CeriosCluster.MCPacket

open CeriosCluster.Lib

inductive Side
  | clientBound
  | serverBound
  | biDirectional
  deriving DecidableEq, Repr

/-- `enum class ClientState`: the `int` underneath, since a network value is stored in it unchecked. -/
structure ClientState where
  raw : Word
  deriving DecidableEq

namespace ClientState

def HANDSHAKE : ClientState := ⟨0⟩

def STATUS : ClientState := ⟨1⟩

def LOGIN : ClientState := ⟨2⟩

def PLAY : ClientState := ⟨3⟩

def IsEnumerator (s : ClientState) : Prop := s = HANDSHAKE ∨ s = STATUS ∨ s = LOGIN ∨ s = PLAY

instance (s : ClientState) : Decidable s.IsEnumerator := inferInstanceAs (Decidable (_ ∨ _))

end ClientState

/-- What a packet object takes from around it: the prior contents of the fields its constructors leave
unset, the clock, a random number, and what over-wide shifts give. -/
structure Ambient where
  protocolVersion : Word
  serverPort : BitVec 16
  requestedNextState : ClientState
  clearVerifyToken : Block 4
  chatPosition : Byte
  rawPosition : BitVec 64
  coordinates : BitVec 64 × BitVec 64 × BitVec 64
  angles : BitVec 32 × BitVec 32
  relativeFlags : Byte
  abilities : Byte
  speeds : BitVec 32 × BitVec 32
  unixEpoch : BitVec 64
  randomId : Word
  wideShift : Word → Nat → Word

abbrev zeroToken : Block 4 := ⟨[0, 0, 0, 0], rfl⟩

def Ambient.zero : Ambient :=
  ⟨0, 0, ⟨0⟩, zeroToken, 0, 0, ⟨0, 0, 0⟩, ⟨0, 0⟩, 0, 0, ⟨0, 0⟩, 0, 0, fun _ _ => 0⟩

/-- A string or byte array as the packets write it: its size as a VarInt, then its bytes. -/
def writeString (s : Bytes) : Bytes := writeVarIntToBuffer (BitVec.ofNat 32 s.length) ++ s

/-! ## Handshake -/

structure HandshakePacket where
  protocolVersion : Word
  serverAddress : Bytes
  serverPort : BitVec 16
  requestedNextState : ClientState
  deriving DecidableEq

def HandshakePacket.parse : BufferM HandshakePacket := do
  let protocolVersion ← readVarIntFromBuffer true
  let stringLength ← readVarIntFromBuffer true
  -- the length is used as it was read
  let serverAddress ← copyPrefix stringLength.value
  erasePrefix stringLength.value
  let serverPort ← readPODFromBuffer 2 16 25565
  let requestedNextState ← readVarIntFromBuffer true
  clear
  pure ⟨protocolVersion.value, serverAddress, serverPort, ⟨requestedNextState.value⟩⟩

def HandshakePacket.new (a : Ambient) : HandshakePacket := ⟨a.protocolVersion, [], a.serverPort, a.requestedNextState⟩

/-- `HandshakePacket` does not override `serializePacket`: nothing follows the id. -/
def HandshakePacket.payload (_ : HandshakePacket) : Bytes := []

/-! ## Status -/

structure ServerStatusPacket where
  jsonEncodedServerStatus : Bytes
  deriving DecidableEq

def ServerStatusPacket.parse : BufferM ServerStatusPacket := do
  clear
  pure ⟨[]⟩

def ServerStatusPacket.new : ServerStatusPacket := ⟨[]⟩

def ServerStatusPacket.payload (p : ServerStatusPacket) : Bytes := writeString p.jsonEncodedServerStatus

structure PingPacket where
  unixEpoch : BitVec 64
  deriving DecidableEq

def PingPacket.parse (a : Ambient) : BufferM PingPacket := do
  let unixEpoch ← readPODFromBuffer 8 64 a.unixEpoch
  clear
  pure ⟨unixEpoch⟩

def PingPacket.new (a : Ambient) : PingPacket := ⟨a.unixEpoch⟩

def PingPacket.payload (p : PingPacket) : Bytes := podBytes 8 p.unixEpoch

/-! ## Login -/

/-- A length-prefixed string whose length is compared with what is left: `size() >= length` converts
the length to `std::size_t` first. -/
def copyGuarded (length : Word) : BufferM Bytes := do
  let buffer ← Exec.get
  if asSize length ≤ buffer.length then copyPrefix length else pure []

/-- The same, with the string erased after it was copied. -/
def takeGuarded (length : Word) : BufferM Bytes := do
  let buffer ← Exec.get
  if asSize length ≤ buffer.length then do
    let text ← copyPrefix length
    erasePrefix length
    pure text
  else pure []

structure LoginStartPacket where
  playerName : Bytes
  deriving DecidableEq

def LoginStartPacket.parse : BufferM LoginStartPacket := do
  let stringLength ← readVarIntFromBuffer true
  let playerName ← copyGuarded stringLength.value
  clear
  pure ⟨playerName⟩

def LoginStartPacket.new : LoginStartPacket := ⟨[]⟩

def LoginStartPacket.payload (p : LoginStartPacket) : Bytes := writeString p.playerName

structure EncryptionPacket where
  serverId : Bytes
  publickKey : Bytes
  clearVerifyToken : Block 4
  clearSharedSecret : Bytes
  sealedVerifyToken : Bytes
  sealedSharedSecret : Bytes
  deriving DecidableEq

def EncryptionPacket.parse (side : Side) (a : Ambient) : BufferM EncryptionPacket := do
  if side = .clientBound then do
    let stringLength ← readVarIntFromBuffer true
    let serverId ← copyGuarded stringLength.value
    clear
    pure ⟨serverId, [], a.clearVerifyToken, [], [], []⟩
  else do
    let sharedSecretLength ← readVarIntFromBuffer true
    let sealedSharedSecret ← copyPrefix sharedSecretLength.value
    erasePrefix sharedSecretLength.value
    let verifyTokenLength ← readVarIntFromBuffer true
    let sealedVerifyToken ← copyPrefix verifyTokenLength.value
    clear
    pure ⟨[], [], a.clearVerifyToken, [], sealedVerifyToken, sealedSharedSecret⟩

def EncryptionPacket.new (a : Ambient) : EncryptionPacket := ⟨[], [], a.clearVerifyToken, [], [], []⟩

/-- Only the client-bound form has a body. -/
def EncryptionPacket.payload (side : Side) (p : EncryptionPacket) : Bytes :=
  if side = .clientBound then
    writeString p.serverId ++ writeString p.publickKey ++ writeString p.clearVerifyToken.val
  else []

structure LoginSuccessPacket where
  uuid : Bytes
  username : Bytes
  deriving DecidableEq

def LoginSuccessPacket.parse : BufferM LoginSuccessPacket := do
  let uuidLength ← readVarIntFromBuffer true
  let uuid ← takeGuarded uuidLength.value
  let usernameLength ← readVarIntFromBuffer true
  let buffer ← Exec.get
  -- the length of the uuid, already erased, is subtracted once more, on unsigned 64-bit sizes
  let left := (buffer.length + 2 ^ 64 - asSize uuidLength.value) % 2 ^ 64
  let username ← if asSize usernameLength.value ≤ left then copyPrefix usernameLength.value else pure []
  clear
  pure ⟨uuid, username⟩

def LoginSuccessPacket.new : LoginSuccessPacket := ⟨[], []⟩

def LoginSuccessPacket.payload (p : LoginSuccessPacket) : Bytes := writeString p.uuid ++ writeString p.username

structure SetCompressionPacket where
  compressionThreshold : Word
  deriving DecidableEq

def SetCompressionPacket.parse : BufferM SetCompressionPacket := do
  let compressionThreshold ← readVarIntFromBuffer true
  clear
  pure ⟨compressionThreshold.value⟩

def SetCompressionPacket.new : SetCompressionPacket := ⟨BitVec.ofInt 32 (-1)⟩

def SetCompressionPacket.payload (p : SetCompressionPacket) : Bytes := writeVarIntToBuffer p.compressionThreshold

/-! ## Play -/

structure KeepAlivePacket where
  keepAliveId : Word
  deriving DecidableEq

def KeepAlivePacket.parse : BufferM KeepAlivePacket := do
  let keepAliveId ← readVarIntFromBuffer false
  clear
  pure ⟨keepAliveId.value⟩

def KeepAlivePacket.new (a : Ambient) : KeepAlivePacket := ⟨a.randomId⟩

def KeepAlivePacket.payload (p : KeepAlivePacket) : Bytes := writeVarIntToBuffer p.keepAliveId

structure JoinGamePacket where
  playerEntityId : Word
  gamemode : Byte
  dimensionId : Byte
  difficulty : Byte
  maxPlayersOnPlayerList : Byte
  levelType : Bytes
  reducedDebugInfo : Byte
  deriving DecidableEq

def JoinGamePacket.parse : BufferM JoinGamePacket := do
  let playerEntityId ← readPODFromBuffer 4 32 0
  let gamemode ← readPODFromBuffer 1 8 0
  let dimensionId ← readPODFromBuffer 1 8 0
  let difficulty ← readPODFromBuffer 1 8 0
  let maxPlayersOnPlayerList ← readPODFromBuffer 1 8 255
  let levelTypeStringLength ← readVarIntFromBuffer true
  let levelType ← takeGuarded levelTypeStringLength.value
  let reducedDebugInfo ← readPODFromBuffer 1 8 0
  clear
  pure ⟨playerEntityId, gamemode, dimensionId, difficulty, maxPlayersOnPlayerList, levelType, reducedDebugInfo⟩

def JoinGamePacket.new : JoinGamePacket := ⟨0, 0, 0, 0, 255, ascii "default", 0⟩

def JoinGamePacket.payload (p : JoinGamePacket) : Bytes :=
  podBytes 4 p.playerEntityId ++ podBytes 1 p.gamemode ++ podBytes 1 p.dimensionId ++ podBytes 1 p.difficulty ++
    podBytes 1 p.maxPlayersOnPlayerList ++ writeString p.levelType ++ podBytes 1 p.reducedDebugInfo

structure ChatMessagePacket where
  jsonChatData : Bytes
  chatPosition : Byte
  deriving DecidableEq

/-- The position is read but not stored. -/
def ChatMessagePacket.parse (side : Side) (a : Ambient) : BufferM ChatMessagePacket := do
  let jsonChatDataLength ← readVarIntFromBuffer true
  let jsonChatData ← takeGuarded jsonChatDataLength.value
  if side = .clientBound then do
    let _ ← readPODFromBuffer 1 8 a.chatPosition
    clear
    pure ⟨jsonChatData, a.chatPosition⟩
  else do
    clear
    pure ⟨jsonChatData, a.chatPosition⟩

def ChatMessagePacket.new (a : Ambient) : ChatMessagePacket := ⟨[], a.chatPosition⟩

def ChatMessagePacket.payload (side : Side) (p : ChatMessagePacket) : Bytes :=
  writeString p.jsonChatData ++ (if side = .clientBound then podBytes 1 p.chatPosition else [])

structure SpawnPositionPacket where
  rawPosition : BitVec 64
  deriving DecidableEq

/-- The position is read but not stored; the field keeps its default. -/
def SpawnPositionPacket.parse (a : Ambient) : BufferM SpawnPositionPacket := do
  let spawnPosition := Position.default a.wideShift a.rawPosition
  let _ ← readPODFromBuffer 8 64 spawnPosition
  clear
  pure ⟨spawnPosition⟩

def SpawnPositionPacket.new (a : Ambient) : SpawnPositionPacket := ⟨Position.default a.wideShift a.rawPosition⟩

def SpawnPositionPacket.payload (p : SpawnPositionPacket) : Bytes := podBytes 8 p.rawPosition

/-- The floating-point fields are their bit patterns. -/
structure PlayerPositionAndLookPacket where
  x : BitVec 64
  y : BitVec 64
  z : BitVec 64
  yaw : BitVec 32
  pitch : BitVec 32
  flags : Byte
  deriving DecidableEq

/-- No field is stored. -/
def PlayerPositionAndLookPacket.parse (a : Ambient) : BufferM PlayerPositionAndLookPacket := do
  let (x, y, z) := a.coordinates
  let (yaw, pitch) := a.angles
  let _ ← readPODFromBuffer 8 64 x
  let _ ← readPODFromBuffer 8 64 y
  let _ ← readPODFromBuffer 8 64 z
  let _ ← readPODFromBuffer 4 32 yaw
  let _ ← readPODFromBuffer 4 32 pitch
  let _ ← readPODFromBuffer 1 8 a.relativeFlags
  clear
  pure ⟨x, y, z, yaw, pitch, a.relativeFlags⟩

/-- `270.0f` is `0x43870000`. -/
def PlayerPositionAndLookPacket.new (a : Ambient) : PlayerPositionAndLookPacket :=
  let flags := BitField.assignFlag 0 a.relativeFlags true
  let flags := BitField.assignFlag 1 flags true
  let flags := BitField.assignFlag 2 flags true
  ⟨0, 0, 0, 0x43870000, 0, flags⟩

def PlayerPositionAndLookPacket.payload (p : PlayerPositionAndLookPacket) : Bytes :=
  podBytes 8 p.x ++ podBytes 8 p.y ++ podBytes 8 p.z ++ podBytes 4 p.yaw ++ podBytes 4 p.pitch ++ podBytes 1 p.flags

structure PlayerAbilitiesPacket where
  abilities : Byte
  flyingSpeed : BitVec 32
  walkingSpeed : BitVec 32
  deriving DecidableEq

/-- No field is stored. -/
def PlayerAbilitiesPacket.parse (a : Ambient) : BufferM PlayerAbilitiesPacket := do
  let (flyingSpeed, walkingSpeed) := a.speeds
  let _ ← readPODFromBuffer 1 8 a.abilities
  let _ ← readPODFromBuffer 4 32 flyingSpeed
  let _ ← readPODFromBuffer 4 32 walkingSpeed
  clear
  pure ⟨a.abilities, flyingSpeed, walkingSpeed⟩

/-- `2.0f` is `0x40000000` and `1.0f` is `0x3F800000`. -/
def PlayerAbilitiesPacket.new (a : Ambient) : PlayerAbilitiesPacket :=
  let abilities := BitField.assignFlag 3 a.abilities true
  let abilities := BitField.assignFlag 2 abilities true
  let abilities := BitField.assignFlag 1 abilities true
  ⟨abilities, 0x40000000, 0x3F800000⟩

def PlayerAbilitiesPacket.payload (p : PlayerAbilitiesPacket) : Bytes :=
  podBytes 1 p.abilities ++ podBytes 4 p.flyingSpeed ++ podBytes 4 p.walkingSpeed

end CeriosCluster.MCPacket
