import CeriosCluster.InternalComms.Stream
import CeriosCluster.MCPacket.Safety

/-!
# The memory behind a header

A new packet's header lies in memory that nothing has set. `newPacket` writes the message's id, as
much of the player's id as there is, and the payload's length; the packet number and the rest of the
player's field go out as they were found.
-/

namespace CeriosCluster.InternalComms

open CeriosCluster.Lib CeriosCluster.MCPacket

abbrev PlayerID := { bytes : Bytes // bytes.length ≤ 36 }

/-! ## The other overloads -/

def newPacketOfPayload (memory : Block 46) (messageType : MessageID) (payload : Bytes) : Message :=
  newPacket memory messageType [] payload

def newPacketOfType (memory : Block 46) (messageType : MessageID) : Message := newPacketOfPayload memory messageType []

def newPacketOfPlayer (memory : Block 46) (messageType : MessageID) (playerId : Bytes) : Message :=
  newPacket memory messageType playerId []

/-! ## Headers in memory -/

def headerIn (memory : Block 46) : MessagePacketHeader := .ofBytes memory.val

def memoryOf (header : MessagePacketHeader) : Block 46 := ⟨header.toBytes, header.length_toBytes⟩

theorem headerIn_memoryOf (header : MessagePacketHeader) : headerIn (memoryOf header) = header :=
  header.ofBytes_toBytes

/-- What `newPacket` leaves of the memory: the packet number and the end of the player's field. -/
def unset (playerId : Bytes) (memory : Block 46) : Byte × Bytes :=
  ((headerIn memory).packetNumber, (headerIn memory).playerUUID.val.drop playerId.length)

section NewPacket

variable (memory memory' : Block 46) (messageType : MessageID) (playerId : Bytes)

theorem newPacket_getPlayerID_of_begins {playerId : Bytes} (hbegins : playerId <+: (headerIn memory).playerUUID.val)
    (payload : Bytes) :
    (newPacket memory messageType playerId payload).getPlayerID = (headerIn memory).playerUUID.val := by
  have hlen : playerId.length ≤ 36 := hbegins.length_le.trans_eq (headerIn memory).playerUUID.property
  show playerId.take 36 ++ (headerIn memory).playerUUID.val.drop playerId.length = (headerIn memory).playerUUID.val
  obtain ⟨rest, hrest⟩ := hbegins
  rw [← hrest, List.take_of_length_le hlen, List.drop_left]

/-- **Two runs**: the bytes are the same exactly when the memories agree on what is not set. -/
theorem serializeData_newPacket_iff (payload : Payload) (output : Bytes) :
    serializeData (newPacket memory messageType playerId payload.val) output =
      serializeData (newPacket memory' messageType playerId payload.val) output ↔
        unset playerId memory = unset playerId memory' := by
  rw [serializeData_run (newPacket_wellFormed memory messageType playerId payload),
    serializeData_run (newPacket_wellFormed memory' messageType playerId payload)]
  constructor
  · intro h
    simp only [Res.ok.injEq, true_and, List.append_cancel_left_eq] at h
    have hbytes := List.append_cancel_right h
    have hheader := congrArg MessagePacketHeader.ofBytes hbytes
    rw [MessagePacketHeader.ofBytes_toBytes,
      MessagePacketHeader.ofBytes_toBytes] at hheader
    have hnumber := congrArg MessagePacketHeader.packetNumber hheader
    have hplayer := List.append_cancel_left (congrArg (·.playerUUID.val) hheader)
    exact Prod.ext hnumber hplayer
  · intro h
    have hnumber : (headerIn memory).packetNumber = (headerIn memory').packetNumber := congrArg Prod.fst h
    have hplayer : (headerIn memory).playerUUID.val.drop playerId.length =
      (headerIn memory').playerUUID.val.drop playerId.length :=
      congrArg Prod.snd h
    have hheader : (newPacket memory messageType playerId payload.val).packetHeader =
        (newPacket memory' messageType playerId payload.val).packetHeader := by
      unfold newPacket
      simp only [MessagePacketHeader.mk.injEq, true_and, and_true, Subtype.mk.injEq]
      exact ⟨hnumber, congrArg (playerId.take 36 ++ ·) hplayer⟩
    rw [hheader]
    rfl

end NewPacket

/-! ## Independence of the memory -/

/-- Messages made in any two memories are serialized to the same bytes. -/
def Independent (make : Block 46 → Message) : Prop :=
  ∀ memory memory' output, serializeData (make memory) output = serializeData (make memory') output

/-- The player's id that is read from a message which was serialized. -/
def receivedPlayerID (m : Message) : Option Bytes :=
  match serializeData m [] with
  | .ok _ rawData =>
    match fromData true rawData with
    | .ok (some received) _ => some received.getPlayerID
    | _ => none
  | _ => none

/-- The id that is read is that of no other player. -/
def Determined (messageType : MessageID) (playerId : PlayerID) (payload : Payload) : Prop :=
  ∀ (memory memory' : Block 46) (playerId' : PlayerID),
    receivedPlayerID (newPacket memory messageType playerId.val payload.val) =
      receivedPlayerID (newPacket memory' messageType playerId'.val payload.val) → playerId = playerId'

theorem receivedPlayerID_eq {m : Message} (h : m.WellFormed) : receivedPlayerID m = some m.getPlayerID := by
  have hread := fromData_serialized h true []
  rw [List.append_nil] at hread
  rw [receivedPlayerID, serializeData_run h, List.nil_append]
  dsimp only
  rw [hread]

def numbered (packetNumber : Byte) : MessagePacketHeader := ⟨0, packetNumber, ⟨List.replicate 36 0, rfl⟩, 0⟩

theorem not_independent (messageType : MessageID) (playerId : Bytes) (payload : Payload) :
    ¬ Independent fun memory => newPacket memory messageType playerId payload.val := by
  intro h
  have hunset := (serializeData_newPacket_iff (memoryOf (numbered 0)) (memoryOf (numbered 1)) messageType
    playerId payload []).mp (h _ _ _)
  have hnumber := congrArg Prod.fst hunset
  simp only [unset, headerIn_memoryOf, numbered] at hnumber
  exact absurd hnumber (by decide)

/-- Two ids that begin the same field are read alike. -/
theorem not_determined_of_begins {messageType : MessageID} {playerId : PlayerID} {payload : Payload} {field : Block 36}
    (playerId' : PlayerID) (hbegins : playerId.val <+: field.val) (hbegins' : playerId'.val <+: field.val)
    (hne : playerId ≠ playerId') :
    ¬ Determined messageType playerId payload := by
  intro h
  have hmemory : (headerIn (memoryOf ⟨0, 0, field, 0⟩)).playerUUID = field := by rw [headerIn_memoryOf]
  refine hne (h (memoryOf ⟨0, 0, field, 0⟩) (memoryOf ⟨0, 0, field, 0⟩) playerId' ?_)
  rw [receivedPlayerID_eq (newPacket_wellFormed _ messageType playerId.val payload),
    receivedPlayerID_eq (newPacket_wellFormed _ messageType playerId'.val payload),
    newPacket_getPlayerID_of_begins _ _ (by rwa [hmemory]), newPacket_getPlayerID_of_begins _ _ (by rwa [hmemory])]

theorem not_determined (messageType : MessageID) (playerId : PlayerID) (payload : Payload) :
    ¬ Determined messageType playerId payload := by
  obtain ⟨playerId, hlen⟩ := playerId
  have hlength : (playerId ++ List.replicate (36 - playerId.length) 0).length = 36 := by
    rw [List.length_append, List.length_replicate]
    omega
  let field : Block 36 := ⟨playerId ++ List.replicate (36 - playerId.length) 0, hlength⟩
  have hbegins : playerId <+: field.val := List.prefix_append ..
  cases playerId with
  | nil => exact not_determined_of_begins ⟨[0], by decide⟩ hbegins ⟨List.replicate 35 0, rfl⟩ (by simp)
  | cons byte playerId => exact not_determined_of_begins ⟨[], by decide⟩ hbegins List.nil_prefix (by simp)

/-- **No message is independent of the memory** it was made in, by any overload, and no player's id can be told from
what is read. -/
theorem newPacket_depends (messageType : MessageID) (playerId : PlayerID) (payload : Payload) :
    ¬ Independent (fun memory => newPacket memory messageType playerId.val payload.val) ∧
      ¬ Independent (fun memory => newPacketOfType memory messageType) ∧
      ¬ Independent (fun memory => newPacketOfPayload memory messageType payload.val) ∧
      ¬ Independent (fun memory => newPacketOfPlayer memory messageType playerId.val) ∧
      ¬ Determined messageType playerId payload := by
  have hempty : ([] : Bytes).length ≤ maxSize := Nat.zero_le _
  exact ⟨not_independent messageType playerId.val payload, not_independent messageType [] ⟨[], hempty⟩,
    not_independent messageType [] payload, not_independent messageType playerId.val ⟨[], hempty⟩,
    not_determined messageType playerId payload⟩

/-- An acknowledgement, which has neither a player nor a payload. -/
theorem acknowledgement_depends : ¬ Independent fun memory => newPacket memory .ACK [] [] :=
  not_independent .ACK [] ⟨[], Nat.zero_le _⟩

end CeriosCluster.InternalComms
