import CeriosCluster.MCPacket.RegistryCoherence

/-!
# Well-formed server-bound payloads

The payload a client sends for a packet: VarInts, strings with their length in front, and plain values as
host bytes. The constructors of the six classes recover the fields from it whatever bytes follow.
-/

namespace CeriosCluster.MCPacket

open CeriosCluster.Lib

/-- A string or byte array whose length an `int32_t` holds. -/
abbrev ShortBytes := { bytes : Bytes // bytes.length < 2 ^ 31 }

/-- What a client says in a packet. -/
inductive ServerBound
  | handshake (protocolVersion : Word) (serverAddress : ShortBytes) (serverPort : BitVec 16)
    (requestedNextState : ClientState)
  | loginStart (playerName : ShortBytes)
  | encryption (sealedSharedSecret sealedVerifyToken : ShortBytes)
  | keepAlive (keepAliveId : Word)
  | ping (unixEpoch : BitVec 64)
  | chatMessage (jsonChatData : ShortBytes)

namespace ServerBound

def packetClass : ServerBound → PacketClass
  | .handshake .. => .handshake
  | .loginStart .. => .loginStart
  | .encryption .. => .encryption
  | .keepAlive .. => .keepAlive
  | .ping .. => .ping
  | .chatMessage .. => .chatMessage

def payload : ServerBound → Bytes
  | .handshake protocolVersion serverAddress serverPort requestedNextState =>
    writeVarIntToBuffer protocolVersion ++ writeString serverAddress.val ++ podBytes 2 serverPort ++
      writeVarIntToBuffer requestedNextState.raw
  | .loginStart playerName => writeString playerName.val
  | .encryption sealedSharedSecret sealedVerifyToken =>
    writeString sealedSharedSecret.val ++ writeString sealedVerifyToken.val
  | .keepAlive keepAliveId => writeVarIntToBuffer keepAliveId
  | .ping unixEpoch => podBytes 8 unixEpoch
  | .chatMessage jsonChatData => writeString jsonChatData.val

/-- The packet's fields; those that the server-bound form does not carry are as the constructor leaves them. -/
def fields (a : Ambient) : ServerBound → Fields
  | .handshake protocolVersion serverAddress serverPort requestedNextState =>
    .handshake ⟨protocolVersion, serverAddress.val, serverPort, requestedNextState⟩
  | .loginStart playerName => .loginStart ⟨playerName.val⟩
  | .encryption sealedSharedSecret sealedVerifyToken =>
    .encryption { EncryptionPacket.new a with
      sealedSharedSecret := sealedSharedSecret.val, sealedVerifyToken := sealedVerifyToken.val }
  | .keepAlive keepAliveId => .keepAlive ⟨keepAliveId⟩
  | .ping unixEpoch => .ping ⟨unixEpoch⟩
  | .chatMessage jsonChatData => .chatMessage { ChatMessagePacket.new a with jsonChatData := jsonChatData.val }

end ServerBound

/-! ## Strings with their length in front -/

section Strings

variable (s : ShortBytes) (r : Bytes)

theorem toInt_length : (BitVec.ofNat 32 s.val.length).toInt = s.val.length := toInt_ofNat_size s.property

theorem toNat_length : (BitVec.ofNat 32 s.val.length).toNat = s.val.length := by
  have h := s.property
  rw [BitVec.toNat_ofNat]
  omega

theorem length_inBounds : InBounds (BitVec.ofNat 32 s.val.length) (s.val ++ r).length := by
  rw [InBounds, toInt_length, List.length_append]
  omega

theorem copyPrefix_string : copyPrefix (BitVec.ofNat 32 s.val.length) (s.val ++ r) = .ok s.val (s.val ++ r) :=
  copyPrefix_eq_ok.mpr ⟨length_inBounds s r, by rw [toNat_length, List.take_left], rfl⟩

theorem erasePrefix_string : erasePrefix (BitVec.ofNat 32 s.val.length) (s.val ++ r) = .ok () r :=
  erasePrefix_eq_ok.mpr ⟨length_inBounds s r, by rw [toNat_length, List.drop_left]⟩

/-- The comparison in front of a copy admits the string. -/
theorem asSize_length_le : asSize (BitVec.ofNat 32 s.val.length) ≤ (s.val ++ r).length := by
  rw [asSize_of_nonneg (length_inBounds s r).1, toNat_length, List.length_append]
  omega

theorem copyGuarded_string : copyGuarded (BitVec.ofNat 32 s.val.length) (s.val ++ r) = .ok s.val (s.val ++ r) := by
  rw [copyGuarded, Exec.run_bind_ok (Exec.run_get _), if_pos (asSize_length_le s r)]
  exact copyPrefix_string s r

theorem takeGuarded_string : takeGuarded (BitVec.ofNat 32 s.val.length) (s.val ++ r) = .ok s.val r := by
  rw [takeGuarded, Exec.run_bind_ok (Exec.run_get _), if_pos (asSize_length_le s r),
    Exec.run_bind_ok (copyPrefix_string s r), Exec.run_bind_ok (erasePrefix_string s r)]
  rfl

end Strings

/-! ## One class at a time -/

section Classes

variable {a : Ambient} (tail : Bytes)

theorem HandshakePacket.parse_payload (protocolVersion : Word) (serverAddress : ShortBytes) (serverPort : BitVec 16)
    (requestedNextState : ClientState) :
    HandshakePacket.parse ((ServerBound.handshake protocolVersion serverAddress serverPort
      requestedNextState).payload ++ tail)
      = .ok ⟨protocolVersion, serverAddress.val, serverPort, requestedNextState⟩ [] := by
  simp only [ServerBound.payload, writeString, List.append_assoc]
  rw [HandshakePacket.parse, Exec.run_bind_ok (readVarInt_write protocolVersion), Exec.run_bind_ok (readVarInt_write _),
    Exec.run_bind_ok (copyPrefix_string serverAddress _), Exec.run_bind_ok (erasePrefix_string serverAddress _),
    Exec.run_bind_ok (readPOD_podBytes serverPort), Exec.run_bind_ok (readVarInt_write requestedNextState.raw),
    podOf_podBytes (show 16 = 8 * 2 from rfl)]
  rfl

theorem LoginStartPacket.parse_payload (playerName : ShortBytes) :
    LoginStartPacket.parse ((ServerBound.loginStart playerName).payload ++ tail) = .ok ⟨playerName.val⟩ [] := by
  simp only [ServerBound.payload, writeString, List.append_assoc]
  rw [LoginStartPacket.parse, Exec.run_bind_ok (readVarInt_write _), Exec.run_bind_ok (copyGuarded_string playerName _)]
  rfl

theorem EncryptionPacket.parse_payload (sealedSharedSecret sealedVerifyToken : ShortBytes) :
    EncryptionPacket.parse .serverBound a ((ServerBound.encryption sealedSharedSecret sealedVerifyToken).payload ++
      tail)
      = .ok ⟨[], [], a.clearVerifyToken, [], sealedVerifyToken.val, sealedSharedSecret.val⟩ [] := by
  simp only [ServerBound.payload, writeString, List.append_assoc]
  rw [EncryptionPacket.parse, if_neg (by simp), Exec.run_bind_ok (readVarInt_write _),
    Exec.run_bind_ok (copyPrefix_string sealedSharedSecret _),
      Exec.run_bind_ok (erasePrefix_string sealedSharedSecret _),
    Exec.run_bind_ok (readVarInt_write _), Exec.run_bind_ok (copyPrefix_string sealedVerifyToken _)]
  rfl

/-- The id is read without being consumed; the rest of the payload is cleared with it. -/
theorem KeepAlivePacket.parse_payload (keepAliveId : Word) :
    KeepAlivePacket.parse ((ServerBound.keepAlive keepAliveId).payload ++ tail) = .ok ⟨keepAliveId⟩ [] := by
  have hread : readVarIntFromBuffer false (writeVarIntToBuffer keepAliveId ++ tail) =
      .ok ⟨(writeVarIntToBuffer keepAliveId).length, keepAliveId⟩ (writeVarIntToBuffer keepAliveId ++ tail) :=
    readVarIntFromBuffer_eq_ok.mpr ⟨scanVarInt_write keepAliveId tail, rfl⟩
  rw [ServerBound.payload, KeepAlivePacket.parse, Exec.run_bind_ok hread]
  rfl

theorem PingPacket.parse_payload (unixEpoch : BitVec 64) :
    PingPacket.parse a ((ServerBound.ping unixEpoch).payload ++ tail) = .ok ⟨unixEpoch⟩ [] := by
  rw [ServerBound.payload, PingPacket.parse, Exec.run_bind_ok (readPOD_podBytes unixEpoch),
    podOf_podBytes (show 64 = 8 * 8 from rfl)]
  rfl

theorem ChatMessagePacket.parse_payload (jsonChatData : ShortBytes) :
    ChatMessagePacket.parse .serverBound a ((ServerBound.chatMessage jsonChatData).payload ++ tail)
      = .ok ⟨jsonChatData.val, a.chatPosition⟩ [] := by
  simp only [ServerBound.payload, writeString, List.append_assoc]
  rw [ChatMessagePacket.parse, Exec.run_bind_ok (readVarInt_write _),
    Exec.run_bind_ok (takeGuarded_string jsonChatData _), if_neg (by simp)]
  rfl

end Classes

/-- **Well-formed payloads are recovered**: the class's constructor gives back the fields, and leaves nothing of
the bytes that follow. -/
theorem recoversFields (said : ServerBound) (a : Ambient) (tail : Bytes) :
    said.packetClass.parse .serverBound a (said.payload ++ tail) = .ok (said.fields a) [] := by
  cases said with
  | handshake protocolVersion serverAddress serverPort requestedNextState =>
    exact Exec.run_bind_ok (HandshakePacket.parse_payload tail protocolVersion serverAddress serverPort
      requestedNextState)
  | loginStart playerName => exact Exec.run_bind_ok (LoginStartPacket.parse_payload tail playerName)
  | encryption sealedSharedSecret sealedVerifyToken =>
    exact Exec.run_bind_ok (EncryptionPacket.parse_payload tail sealedSharedSecret sealedVerifyToken)
  | keepAlive keepAliveId => exact Exec.run_bind_ok (KeepAlivePacket.parse_payload tail keepAliveId)
  | ping unixEpoch => exact Exec.run_bind_ok (PingPacket.parse_payload tail unixEpoch)
  | chatMessage jsonChatData => exact Exec.run_bind_ok (ChatMessagePacket.parse_payload tail jsonChatData)

end CeriosCluster.MCPacket
