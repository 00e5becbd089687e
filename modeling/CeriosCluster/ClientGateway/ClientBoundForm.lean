import CeriosCluster.ClientGateway.Frame

/-!
# The form in which packets are sent

`getSide` names the server-bound side for every connection, so what `sendPacket` hands to `sendData` is
the server-bound form. Two classes write something else to a player: `EncryptionPacket`, which has no
server-bound body, and `ChatMessagePacket`, which leaves its position out.
-/

namespace CeriosCluster.ClientGateway

open CeriosCluster.Lib CeriosCluster.MCPacket

/-- What `sendPacket` hands to `sendData` on a connection without compression; nothing if it throws. -/
def handedToSendData (E : Env) (p : Packet) : Option Bytes :=
  match packetData E noCompression p Gateway.init with
  | .ok data _ => some data
  | _ => none

/-- A player is sent the client-bound form of the packet, framed. -/
def SendsClientBound (E : Env) (p : Packet) : Prop := handedToSendData E p = frame (p.serialized .clientBound)

instance (E : Env) (p : Packet) : Decidable (SendsClientBound E p) := inferInstanceAs (Decidable (_ = _))

section Send

variable {E : Env} {i : ConnId} {g : Gateway} {c : Client} {p : Packet}

theorem packetData_noCompression : packetData E noCompression p g =
    match frame (p.serialized getSide) with
    | some data => .ok data g
    | none => .threw (tooLarge (p.serialized getSide).length) g := by
  have hrun : Packet.toWire E.zlib E.fuel getSide noCompression p = framePacket (p.serializePacket getSide) := rfl
  rw [packetData, Exec.onLocal, Exec.run_bind, hrun]
  cases hframe : frame (p.serialized getSide) with
  | some data =>
    rw [framePacket_frame hframe]
    rfl
  | none =>
    rw [framePacket_large hframe]
    rfl

theorem handedToSendData_eq : handedToSendData E p = frame (p.serialized getSide) := by
  rw [handedToSendData, packetData_noCompression]
  cases frame (p.serialized getSide) <;> rfl

theorem sendPacket_hands (hl : Live g i c) (hthreshold : c.compressionThreshold = noCompression) :
    sendPacket E i p g =
      match handedToSendData E p with
      | some data => sendData E i data (g.modify i fun c => c.logged (.sendPacket p))
      | none => .threw (tooLarge (p.serialized getSide).length) (g.modify i fun c => c.logged (.sendPacket p)) := by
  have hclient : ∀ {α : Type} {m : Client → M α}, (client i >>= m) g = m c g := by
    intro α m
    refine Exec.run_bind_ok ?_
    rw [client, Exec.run_bind_ok (Exec.run_get g), hl.1]
    simp [hl.2]
  have hrecord : record i (.sendPacket p) g = .ok () (g.modify i fun c => c.logged (.sendPacket p)) := by
    rw [record, modifyClient, hclient]
    rfl
  rw [sendPacket, hclient, Exec.run_bind_ok hrecord, Exec.run_bind, hthreshold, packetData_noCompression,
    handedToSendData_eq]
  cases frame (p.serialized getSide) <;> rfl

end Send

/-! ## Two forms of a packet -/

section Forms

variable {E : Env} {p : Packet}

/-- Only two classes tell the sides apart. -/
theorem serialized_serverBound (hencryption : p.fields.packetClass ≠ .encryption)
    (hchat : p.fields.packetClass ≠ .chatMessage) : p.serialized .serverBound = p.serialized .clientBound := by
  rw [serialized_eq, serialized_eq]
  cases hf : p.fields <;> rw [hf] at hencryption hchat <;>
    first | rfl | exact absurd rfl hencryption | exact absurd rfl hchat

theorem encryption_lengths (h : p.fields.packetClass = .encryption) :
    (p.serialized .serverBound).length ≤ 5 ∧ (p.serialized .serverBound).length <
    (p.serialized .clientBound).length := by
  rw [serialized_eq, serialized_eq]
  cases hf : p.fields <;> rw [hf] at h <;> cases h
  next f =>
    have hid := length_writeVarIntToBuffer_le p.packetId
    have hbody := length_writeVarIntToBuffer_pos (BitVec.ofNat 32 f.serverId.length)
    simp only [Fields.payload, EncryptionPacket.payload, writeString, if_true, List.length_append]
    simp
    omega

theorem chatMessage_length (h : p.fields.packetClass = .chatMessage) :
    (p.serialized .clientBound).length = (p.serialized .serverBound).length + 1 := by
  rw [serialized_eq, serialized_eq]
  cases hf : p.fields <;> rw [hf] at h <;> cases h
  simp [Fields.payload, ChatMessagePacket.payload, podBytes]
  omega

/-- Two forms of different lengths are framed alike only if neither can be framed. -/
theorem frame_eq_iff_large {b b' : Bytes} (h : b.length ≠ b'.length) :
    frame b = frame b' ↔ ¬ FitsFrame b.length ∧ ¬ FitsFrame b'.length := by
  constructor
  · intro heq
    cases hb : frame b with
    | none =>
      have hlarge {x : Bytes} (hx : frame x = none) : ¬ FitsFrame x.length := fun hfits => by
        rw [frame_fits hfits] at hx
        cases hx
      exact ⟨hlarge hb, hlarge (heq.symm.trans hb)⟩
    | some framed => exact absurd (congrArg List.length (frame_injective hb (heq.symm.trans hb))) h
  · rintro ⟨hb, hb'⟩
    rw [frame_large hb, frame_large hb']

end Forms

/-- **The client-bound form** is sent exactly for the classes that do not tell the sides apart, and for a
`ChatMessagePacket` that is too large to be sent in either form. -/
theorem sendsClientBound_iff (E : Env) (p : Packet) :
    SendsClientBound E p ↔ p.fields.packetClass ≠ .encryption ∧
      (p.fields.packetClass = .chatMessage → ¬ FitsFrame (p.serialized .serverBound).length ∧
        ¬ FitsFrame (p.serialized .clientBound).length) := by
  rw [SendsClientBound, handedToSendData_eq, getSide]
  by_cases hencryption : p.fields.packetClass = .encryption
  · obtain ⟨hshort, hlonger⟩ := encryption_lengths hencryption
    have hfits : FitsFrame (p.serialized .serverBound).length := (fitsFrame_iff (by omega)).mpr (by omega)
    simp [frame_eq_iff_large (Nat.ne_of_lt hlonger), hfits, hencryption]
  by_cases hchat : p.fields.packetClass = .chatMessage
  · have hlength := chatMessage_length hchat
    simp [frame_eq_iff_large (show (p.serialized .serverBound).length ≠ (p.serialized .clientBound).length by omega),
      hchat]
  · simp [serialized_serverBound hencryption hchat, hencryption, hchat]

/-- An `EncryptionPacket`, as the gateway asks a player for its secret with it, goes out without a body. -/
theorem encryption_sent_without_body : ¬ ∀ (E : Env) (p : Packet), SendsClientBound E p := by
  intro h
  have hform := h ⟨.unusable, 0, ⟨fun _ _ => none, fun _ _ => none⟩, fun _ => ⟨List.replicate 20 0, rfl⟩,
    fun _ => ⟨List.replicate 32 0, rfl⟩, [], fun _ => none⟩ (PacketClass.encryption.newPacket .clientBound Ambient.zero)
  exact absurd hform (by decide)

end CeriosCluster.ClientGateway
