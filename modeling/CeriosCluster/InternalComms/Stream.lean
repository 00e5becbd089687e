import CeriosCluster.InternalComms.Message

/-!
# Streams of messages

Messages serialized one behind the other come back one by one when `fromData` consumes what it reads, and
what follows them is left. Of a datagram that does not hold a whole message `fromData` makes a null pointer, or
it reads past the end.
-/

namespace CeriosCluster.InternalComms

open CeriosCluster.Lib CeriosCluster.MCPacket

/-- A message to be sent, and the memory it is made in. -/
structure Outgoing where
  memory : Block 46
  messageID : MessageID
  playerID : Block 36
  packetNumber : Byte
  payload : { bytes : Bytes // bytes.length ≤ maxSize }

def Outgoing.message (m : Outgoing) : Message :=
  (newPacket m.memory m.messageID m.playerID.val m.payload.val).setPacketNumber m.packetNumber

def serializeAll : List Message → BufferM Unit
  | [] => pure ()
  | m :: ms => do
    serializeData m
    serializeAll ms

/-- `fromData` with `consume`, `n` times. -/
def fromDataAll : Nat → BufferM (List (Option Message))
  | 0 => pure []
  | n + 1 => do
    let m ← fromData true
    let ms ← fromDataAll n
    pure (m :: ms)

/-! ## Headers -/

namespace MessagePacketHeader

theorem length_toBytes (header : MessagePacketHeader) : header.toBytes.length = size := by
  simp only [toBytes, List.length_append, length_podBytes]
  rw [header.playerUUID.property]
  rfl

theorem ofBytes_toBytes (header : MessagePacketHeader) : ofBytes header.toBytes = header := by
  have hbyte (b : Byte) : podOf 8 (podBytes 1 b) = b := podOf_podBytes (show 8 = 8 * 1 from rfl) b
  have hlength : podOf 64 (podBytes 8 header.payloadLength) = header.payloadLength :=
    podOf_podBytes (show 64 = 8 * 8 from rfl) _
  obtain ⟨id, packetNumber, ⟨playerUUID, huuid⟩, payloadLength⟩ := header
  dsimp only at hlength
  have hid : (podBytes 1 id ++ (podBytes 1 packetNumber ++ (playerUUID ++ podBytes 8 payloadLength))).drop 1 =
      podBytes 1 packetNumber ++ (playerUUID ++ podBytes 8 payloadLength) := List.drop_left' (length_podBytes id)
  have hnumber : (podBytes 1 id ++ (podBytes 1 packetNumber ++ (playerUUID ++ podBytes 8 payloadLength))).drop 2 =
      playerUUID ++ podBytes 8 payloadLength := by
    rw [show 2 = 1 + 1 from rfl, ← List.drop_drop, hid, List.drop_left' (length_podBytes packetNumber)]
  have hplayer : (podBytes 1 id ++ (podBytes 1 packetNumber ++ (playerUUID ++ podBytes 8 payloadLength))).drop 38 =
      podBytes 8 payloadLength := by
    rw [show 38 = 2 + 36 from rfl, ← List.drop_drop, hnumber, List.drop_left' huuid]
  simp only [ofBytes, toBytes, List.append_assoc]
  simp only [hid, hnumber, hplayer, List.take_left' (length_podBytes id),
    List.take_left' (length_podBytes packetNumber), List.takeD_left' huuid,
      List.take_of_length_le (length_podBytes payloadLength).le, hbyte, hlength]

end MessagePacketHeader

/-! ## One message -/

/-- A message whose header tells the length of its payload. -/
structure Message.WellFormed (m : Message) : Prop where
  payloadLength : m.packetHeader.payloadLength.toNat = m.payload.length
  fits : m.payload.length ≤ maxSize

section Message

variable {m : Message}

theorem serializeData_run (h : m.WellFormed) (b : Bytes) :
    serializeData m b = .ok () (b ++ (m.packetHeader.toBytes ++ m.payload)) := by
  rw [serializeData, Exec.run_bind_ok (Exec.run_modify _ _), if_neg (by rw [h.payloadLength]; omega), Exec.run_modify,
    h.payloadLength, List.take_length, List.append_assoc]

/-- **One round trip**: `fromData` gives the message back and consumes exactly its bytes. -/
theorem fromData_serialized (h : m.WellFormed) (consume : Bool) (t : Bytes) :
    fromData consume (m.packetHeader.toBytes ++ m.payload ++ t) =
      .ok (some m) (if consume then t else m.packetHeader.toBytes ++ m.payload ++ t) := by
  have hheader := m.packetHeader.length_toBytes
  have hsize : MessagePacketHeader.size = 46 := rfl
  have hfits := h.fits
  unfold maxSize at hfits
  have hmod : (MessagePacketHeader.size + m.payload.length) % 2 ^ 64 = MessagePacketHeader.size + m.payload.length := by
    rw [hsize]
    omega
  have htake : (m.packetHeader.toBytes ++ (m.payload ++ t)).take MessagePacketHeader.size = m.packetHeader.toBytes :=
    List.take_left' hheader
  have hdrop : (m.packetHeader.toBytes ++ (m.payload ++ t)).drop MessagePacketHeader.size = m.payload ++ t :=
    List.drop_left' hheader
  rw [List.append_assoc, fromData, Exec.run_bind_ok (Exec.run_get _),
    if_neg (by rw [List.length_append, hheader]; omega)]
  dsimp only
  rw [htake, MessagePacketHeader.ofBytes_toBytes, h.payloadLength, hmod,
    if_neg (by simp only [List.length_append, hheader]; omega),
      if_neg (by simp only [List.length_append, hheader]; omega),
    ← List.drop_drop, hdrop, List.take_left, List.drop_left]
  cases consume <;> rfl

end Message

section NewPacket

variable (memory : Block 46) (messageType : MessageID) (playerId : Bytes)

theorem newPacket_wellFormed (payload : { bytes : Bytes // bytes.length ≤ maxSize }) :
    (newPacket memory messageType playerId payload.val).WellFormed where
  payloadLength := by
    show (BitVec.ofNat 64 payload.val.length).toNat = payload.val.length
    have hfits := payload.property
    unfold maxSize at hfits
    rw [BitVec.toNat_ofNat]
    omega
  fits := payload.property

end NewPacket

theorem newPacket_getPlayerID (memory : Block 46) (messageID : MessageID) (playerID : Block 36) (payload : Bytes) :
    (newPacket memory messageID playerID.val payload).getPlayerID = playerID.val := by
  have hfield := (MessagePacketHeader.ofBytes memory.val).playerUUID.property
  show playerID.val.take 36 ++ (MessagePacketHeader.ofBytes memory.val).playerUUID.val.drop playerID.val.length =
    playerID.val
  rw [playerID.property, List.take_of_length_le playerID.property.le, List.drop_eq_nil_of_le hfield.le, List.append_nil]

theorem Outgoing.getPlayerID_message (m : Outgoing) : m.message.getPlayerID = m.playerID.val :=
  newPacket_getPlayerID m.memory m.messageID m.playerID m.payload.val

theorem Outgoing.wellFormed (m : Outgoing) : m.message.WellFormed :=
  have h := newPacket_wellFormed m.memory m.messageID m.playerID.val m.payload
  ⟨h.payloadLength, h.fits⟩

/-! ## The stream -/

def stream (ms : List Message) : Bytes := ms.flatMap fun m => m.packetHeader.toBytes ++ m.payload

theorem serializeAll_run {ms : List Message} (h : ∀ m ∈ ms, m.WellFormed) (b : Bytes) :
    serializeAll ms b = .ok () (b ++ stream ms) := by
  induction ms generalizing b with
  | nil => simp [serializeAll, stream]
  | cons m ms ih =>
    rw [serializeAll, Exec.run_bind_ok (serializeData_run (h m (by simp)) b), ih fun m' hm' => h m' (by simp [hm'])]
    simp [stream]

theorem fromDataAll_stream {ms : List Message} (h : ∀ m ∈ ms, m.WellFormed) (t : Bytes) :
    fromDataAll ms.length (stream ms ++ t) = .ok (ms.map some) t := by
  induction ms with
  | nil => rfl
  | cons m ms ih =>
    have hstream : stream (m :: ms) ++ t = m.packetHeader.toBytes ++ m.payload ++ (stream ms ++ t) := by simp [stream]
    rw [hstream, List.length_cons, fromDataAll, Exec.run_bind_ok (fromData_serialized (h m (by simp)) true _),
      if_pos rfl, Exec.run_bind_ok (ih fun m' hm' => h m' (by simp [hm']))]
    rfl

/-- **Stream round trip.** What was serialized comes back in order, and what followed it is left. -/
theorem fromDataAll_serialized (ms : List Outgoing) (t : Bytes) :
    ∃ (raw : Bytes) (received : List Message), serializeAll (ms.map Outgoing.message) [] = .ok () raw ∧
      fromDataAll ms.length (raw ++ t) = .ok (received.map some) t ∧
      received.map (fun m => (m.getMessageID, m.getPlayerID, m.getPacketNumber, m.getPayload)) =
        ms.map fun m => (m.messageID, m.playerID.val, m.packetNumber, m.payload.val) := by
  have hwell : ∀ m ∈ ms.map Outgoing.message, m.WellFormed := by
    intro m hm
    obtain ⟨out, -, rfl⟩ := List.mem_map.mp hm
    exact out.wellFormed
  refine ⟨_, ms.map Outgoing.message, serializeAll_run hwell [], ?_, ?_⟩
  · have hstream := fromDataAll_stream hwell t
    rwa [List.length_map] at hstream
  · rw [List.map_map]
    refine List.map_congr_left fun m _ => ?_
    rw [Function.comp_apply, m.getPlayerID_message]
    rfl

/-! ## Datagrams -/

def headerOf (data : Bytes) : MessagePacketHeader := .ofBytes (data.take MessagePacketHeader.size)

/-- The datagram holds a header and as many bytes behind it as the header says. -/
def Whole (data : Bytes) : Prop :=
  MessagePacketHeader.size ≤ data.length ∧ MessagePacketHeader.size + (headerOf data).payloadLength.toNat ≤ data.length

instance (data : Bytes) : Decidable (Whole data) := inferInstanceAs (Decidable (_ ∧ _))

/-- The message that a whole datagram holds. -/
def received (data : Bytes) : Message :=
  ⟨headerOf data, (data.drop MessagePacketHeader.size).take (headerOf data).payloadLength.toNat⟩

section Datagrams

variable {data : Bytes}

/-- What `fromData` makes of a datagram, in the order of the source's tests. -/
theorem fromData_eq (consume : Bool) (data : Bytes) :
    fromData consume data =
      if data.length < MessagePacketHeader.size then .undefined
      else if data.length < (MessagePacketHeader.size + (headerOf data).payloadLength.toNat) % 2 ^ 64 then .ok none data
      else if data.length < MessagePacketHeader.size + (headerOf data).payloadLength.toNat then .undefined
      else .ok (some (received data))
        (if consume then data.drop (MessagePacketHeader.size + (headerOf data).payloadLength.toNat) else data) := by
  rw [fromData, Exec.run_bind_ok (Exec.run_get _)]
  split
  · rfl
  · dsimp only
    rw [show MessagePacketHeader.ofBytes (data.take MessagePacketHeader.size) = headerOf data from rfl]
    split
    · rfl
    · split
      · rfl
      · cases consume <;> rfl

theorem fromData_whole (consume : Bool) (h : Whole data) (hmax : data.length ≤ maxSize) :
    ∃ rest, fromData consume data = .ok (some (received data)) rest := by
  obtain ⟨hheader, hpayload⟩ := h
  unfold maxSize at hmax
  rw [fromData_eq, if_neg (by omega), Nat.mod_eq_of_lt (by omega), if_neg (by omega), if_neg (by omega)]
  exact ⟨_, rfl⟩

/-- The bytes of a header run out, or the payload does: by what the comparison of sizes sees of it. -/
theorem fromData_cut (consume : Bool) (h : ¬ Whole data) :
    fromData consume data = .undefined ∨ ∃ rest, fromData consume data = .ok none rest := by
  rw [fromData_eq]
  split
  · exact Or.inl rfl
  · next hheader =>
    split
    · exact Or.inr ⟨_, rfl⟩
    · split
      · exact Or.inl rfl
      · next hpayload => exact absurd ⟨not_lt.mp hheader, not_lt.mp hpayload⟩ h

variable {σ : Type} (s : σ)

theorem onLocal_whole (consume : Bool) (h : Whole data) (hmax : data.length ≤ maxSize) :
    (Exec.onLocal data (fromData consume) : Exec Exn σ (Option Message)) s = .ok (some (received data)) s := by
  obtain ⟨rest, hparse⟩ := fromData_whole consume h hmax
  exact Exec.run_onLocal_ok hparse

/-- The null pointer, or a read past the end, of a datagram that is cut. -/
theorem onLocal_cut (consume : Bool) (h : ¬ Whole data) :
    (Exec.onLocal data (fromData consume) : Exec Exn σ (Option Message)) s = .undefined ∨
      (Exec.onLocal data (fromData consume) : Exec Exn σ (Option Message)) s = .ok none s := by
  rcases fromData_cut consume h with hparse | ⟨rest, hparse⟩
  · exact Or.inl (Exec.run_onLocal_undefined hparse)
  · exact Or.inr (Exec.run_onLocal_ok hparse)

end Datagrams

end CeriosCluster.InternalComms
