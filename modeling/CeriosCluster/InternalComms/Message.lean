import CeriosCluster.MCPacket.Buffer

/-!
# Messages between the nodes

A message is a packed header of 46 bytes and a payload whose length the header gives in its last 8
bytes. `fromData` copies the header before it looks at the size of what it was given, and adds the
two lengths as 64-bit numbers.
-/

namespace CeriosCluster.InternalComms

open CeriosCluster.Lib CeriosCluster.MCPacket

/-- `enum class MessageID`: the byte underneath, since a network value is stored in it unchecked. -/
structure MessageID where
  raw : Byte
  deriving DecidableEq

namespace MessageID

def ACK : MessageID := ⟨0⟩

def NAK : MessageID := ⟨1⟩

def ACCEPT_CLIENT : MessageID := ⟨2⟩

def MC_PACKET : MessageID := ⟨3⟩

end MessageID

structure MessagePacketHeader where
  id : Byte
  packetNumber : Byte
  playerUUID : Block 36
  payloadLength : BitVec 64
  deriving DecidableEq

/-- `sizeof(MessagePacketHeader)`, packed: 1, 1, 36 and 8 bytes. -/
def MessagePacketHeader.size : Nat := 46

def MessagePacketHeader.ofBytes (bytes : Bytes) : MessagePacketHeader :=
  ⟨podOf 8 (bytes.take 1), podOf 8 ((bytes.drop 1).take 1), ⟨(bytes.drop 2).takeD 36 0, List.takeD_length ..⟩,
    podOf 64 ((bytes.drop 38).take 8)⟩

def MessagePacketHeader.toBytes (header : MessagePacketHeader) : Bytes :=
  podBytes 1 header.id ++ podBytes 1 header.packetNumber ++ header.playerUUID.val ++ podBytes 8 header.payloadLength

structure Message where
  packetHeader : MessagePacketHeader
  payload : Bytes
  deriving DecidableEq

def Message.getMessageID (m : Message) : MessageID := ⟨m.packetHeader.id⟩

def Message.getPlayerID (m : Message) : Bytes := m.packetHeader.playerUUID.val

def Message.getPayload (m : Message) : Bytes := m.payload

def Message.getPacketNumber (m : Message) : Byte := m.packetHeader.packetNumber

def Message.setPacketNumber (m : Message) (packetNumber : Byte) : Message :=
  { m with packetHeader := { m.packetHeader with packetNumber := packetNumber } }

/-- `Packet::newPacket`, in uninitialised memory: a player id of other than 36 bytes is cut off, or leaves the rest
of its field as it was, and the packet number is not set. -/
def newPacket (memory : Block 46) (messageType : MessageID) (playerId payload : Bytes) : Message :=
  let header := MessagePacketHeader.ofBytes memory.val
  ⟨{ header with
      id := messageType.raw
      playerUUID := ⟨playerId.take 36 ++ header.playerUUID.val.drop playerId.length, by
        have hlength := header.playerUUID.property
        rw [List.length_append, List.length_take, List.length_drop]
        omega⟩
      payloadLength := BitVec.ofNat 64 payload.length }, payload⟩

/-- `PacketImpl::serializeData`, which appends. -/
def serializeData (m : Message) : BufferM Unit := do
  Exec.modify (· ++ m.packetHeader.toBytes)
  let payloadLength := m.packetHeader.payloadLength.toNat
  if m.payload.length < payloadLength then Exec.undefined
  else Exec.modify (· ++ m.payload.take payloadLength)

/-- `Packet::fromData`; `none` is the null pointer. -/
def fromData (consume : Bool) : BufferM (Option Message) := do
  let rawData ← Exec.get
  if rawData.length < MessagePacketHeader.size then Exec.undefined
  else do
    let messageHeader := MessagePacketHeader.ofBytes (rawData.take MessagePacketHeader.size)
    let payloadLength := messageHeader.payloadLength.toNat
    -- the sum wraps
    if rawData.length < (MessagePacketHeader.size + payloadLength) % 2 ^ 64 then pure none
    else if rawData.length < MessagePacketHeader.size + payloadLength then Exec.undefined
    else do
      if consume then Exec.set (rawData.drop (MessagePacketHeader.size + payloadLength))
      pure (some ⟨messageHeader, (rawData.drop MessagePacketHeader.size).take payloadLength⟩)

end CeriosCluster.InternalComms
