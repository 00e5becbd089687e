import CeriosCluster.MCPacket.PositionFields
import CeriosCluster.MCPacket.Compression

/-!
# The memory behind a new packet

A new packet lies in memory that nothing has cleared, and `serializePacket` writes every byte of its
fields. The constructors that set each field send nothing of that memory. Those that leave a field
unset, or set single bits of a byte, send what was there before: `stale` is that part.
-/

namespace CeriosCluster.MCPacket

open CeriosCluster.Lib

/-- Nothing but the prior contents of the memory differs: the clock, the random engine and the result of
an over-wide shift are the same. -/
structure SameSurroundings (a b : Ambient) : Prop where
  unixEpoch : a.unixEpoch = b.unixEpoch
  randomId : a.randomId = b.randomId
  wideShift : a.wideShift = b.wideShift

/-- The bytes `serializePacket(side)` writes for a packet just returned by `newPacket(side, state, id)`. -/
def freshBytes (side : Side) (state : ClientState) (packetId : Word) (a : Ambient) : Option Bytes :=
  (newPacket side state packetId a).map (Packet.serialized side)

/-- The memory that a new packet of the class sends: fields never set, and the bits of a byte beside the flags. -/
def PacketClass.stale (side : Side) (a : Ambient) : PacketClass → Bytes
  | .encryption => if side = .clientBound then a.clearVerifyToken.val else []
  | .chatMessage => if side = .clientBound then [a.chatPosition] else []
  | .playerPositionAndLook => [a.relativeFlags &&& 0xF8]
  | .playerAbilities => [a.abilities &&& 0xF1]
  | _ => []

/-- A new packet of the class sends some of its memory. -/
def PacketClass.SendsMemory (side : Side) (c : PacketClass) : Prop :=
  (c = .encryption ∨ c = .chatMessage) ∧ side = .clientBound ∨ c = .playerPositionAndLook ∨ c = .playerAbilities

instance (side : Side) (c : PacketClass) : Decidable (c.SendsMemory side) := inferInstanceAs (Decidable (_ ∨ _))

/-! ## The parts a constructor leaves -/

/-- Every bit of a default position is set. -/
theorem default_any_memory (wideShift : Word → Nat → Word) (raw raw' : BitVec 64) :
    Position.default wideShift raw = Position.default wideShift raw' := by
  apply BitVec.eq_of_getLsbD_eq
  intro k hk
  rw [Position.default, Position.default, getLsbD_make hk, getLsbD_make hk]

theorem or_eq_or_iff (x y set : Byte) : x ||| set = y ||| set ↔ x &&& ~~~set = y &&& ~~~set := by
  constructor
  · intro h
    have hand := congrArg (· &&& ~~~set) h
    simpa only [BitVec.and_or_distrib_right, BitVec.and_not_self, show ∀ v : Byte, v ||| 0 =
      v from fun v => BitVec.or_zero] using hand
  · intro h
    have hsplit (v : Byte) : v ||| set = (v &&& ~~~set) ||| set := by
      apply BitVec.eq_of_getLsbD_eq
      intro k hk
      simp only [BitVec.getLsbD_or, BitVec.getLsbD_and, BitVec.getLsbD_not, hk, decide_true, Bool.true_and]
      cases v.getLsbD k <;> cases set.getLsbD k <;> rfl
    rw [hsplit x, h, ← hsplit y]

/-- The three relative flags; the two rotations are not among them. -/
theorem flags_new (a : Ambient) : (PlayerPositionAndLookPacket.new a).flags = a.relativeFlags ||| 7 := by
  show BitField.assignFlag 2 (BitField.assignFlag 1 (BitField.assignFlag 0 a.relativeFlags true) true) true =
    a.relativeFlags ||| 7
  generalize a.relativeFlags = raw
  revert raw
  decide +kernel

/-- The three abilities; `isCreative` is not among them. -/
theorem abilities_new (a : Ambient) : (PlayerAbilitiesPacket.new a).abilities = a.abilities ||| 14 := by
  show BitField.assignFlag 1 (BitField.assignFlag 2 (BitField.assignFlag 3 a.abilities true) true) true =
    a.abilities ||| 14
  generalize a.abilities = raw
  revert raw
  decide +kernel

theorem writeString_block_inj {n : Nat} (x y : Block n) : writeString x.val = writeString y.val ↔ x.val = y.val := by
  rw [writeString, writeString, x.property, y.property, List.append_right_inj]

theorem podBytes_byte (b : Byte) : podBytes 1 b = [b] := by
  revert b
  decide +kernel

/-! ## Two runs -/

variable {side : Side} {a b : Ambient}

theorem payload_new_iff (c : PacketClass) (h : SameSurroundings a b) :
    (c.newPacket side a).fields.payload side = (c.newPacket side b).fields.payload side ↔
      c.stale side a = c.stale side b := by
  cases c with
  | handshake => exact iff_of_true rfl rfl
  | serverStatus => exact iff_of_true rfl rfl
  | ping =>
    refine iff_of_true ?_ rfl
    show podBytes 8 a.unixEpoch = podBytes 8 b.unixEpoch
    rw [h.unixEpoch]
  | loginStart => exact iff_of_true rfl rfl
  | encryption =>
    show EncryptionPacket.payload side _ = EncryptionPacket.payload side _ ↔ ite _ _ _ = ite _ _ _
    by_cases hside : side = .clientBound
    · rw [EncryptionPacket.payload, EncryptionPacket.payload, if_pos hside, if_pos hside, if_pos hside, if_pos hside]
      show _ ++ _ ++ writeString a.clearVerifyToken.val = _ ++ _ ++ writeString b.clearVerifyToken.val ↔ _
      exact (List.append_right_inj _).trans (writeString_block_inj _ _)
    · exact iff_of_true (by rw [EncryptionPacket.payload, EncryptionPacket.payload, if_neg hside, if_neg hside])
        (by rw [if_neg hside, if_neg hside])
  | loginSuccess => exact iff_of_true rfl rfl
  | setCompression => exact iff_of_true rfl rfl
  | keepAlive =>
    refine iff_of_true ?_ rfl
    show writeVarIntToBuffer a.randomId = writeVarIntToBuffer b.randomId
    rw [h.randomId]
  | joinGame => exact iff_of_true rfl rfl
  | chatMessage =>
    show ChatMessagePacket.payload side _ = ChatMessagePacket.payload side _ ↔ ite _ _ _ = ite _ _ _
    by_cases hside : side = .clientBound
    · rw [ChatMessagePacket.payload, ChatMessagePacket.payload, if_pos hside, if_pos hside, if_pos hside, if_pos hside,
        podBytes_byte, podBytes_byte]
      exact List.append_right_inj _
    · exact iff_of_true (by rw [ChatMessagePacket.payload, ChatMessagePacket.payload, if_neg hside, if_neg hside]; rfl)
        (by rw [if_neg hside, if_neg hside])
  | spawnPosition =>
    refine iff_of_true ?_ rfl
    show podBytes 8 (Position.default a.wideShift a.rawPosition) =
      podBytes 8 (Position.default b.wideShift b.rawPosition)
    rw [h.wideShift, default_any_memory b.wideShift a.rawPosition b.rawPosition]
  | playerPositionAndLook =>
    have hflags := (List.singleton_inj.trans (or_eq_or_iff a.relativeFlags b.relativeFlags 7)).trans
      List.singleton_inj.symm
    show _ ++ podBytes 1 _ = _ ++ podBytes 1 _ ↔ _
    rw [flags_new, flags_new, podBytes_byte, podBytes_byte]
    exact (List.append_right_inj _).trans hflags
  | playerAbilities =>
    have hflags := (List.singleton_inj.trans (or_eq_or_iff a.abilities b.abilities 14)).trans List.singleton_inj.symm
    show podBytes 1 _ ++ _ ++ _ = podBytes 1 _ ++ _ ++ _ ↔ _
    rw [abilities_new, abilities_new, podBytes_byte, podBytes_byte]
    exact (List.append_left_inj _).trans ((List.append_left_inj _).trans hflags)

/-- **Two runs**: a new packet is serialized to the same bytes exactly from memories that agree on its stale part. -/
theorem freshBytes_eq_iff {state : ClientState} {packetId : Word} {c : PacketClass}
    (hc : lookupClass side state packetId = some c) (h : SameSurroundings a b) :
    freshBytes side state packetId a = freshBytes side state packetId b ↔ c.stale side a = c.stale side b := by
  have hid : (c.newPacket side a).packetId = (c.newPacket side b).packetId := by cases c <;> rfl
  rw [freshBytes, freshBytes, newPacket, newPacket, hc]
  simp only [Option.map_some, Option.some.injEq, serialized_eq, hid, List.append_right_inj]
  exact payload_new_iff c h

/-- A memory whose unset fields hold the byte `b`. -/
def Ambient.filled (b : Byte) : Ambient :=
  { Ambient.zero with clearVerifyToken := ⟨[b, b, b, b], rfl⟩, chatPosition := b, relativeFlags := b, abilities := b }

theorem filled_sameSurroundings (b b' : Byte) : SameSurroundings (.filled b) (.filled b') := ⟨rfl, rfl, rfl⟩

theorem stale_filled_iff (side : Side) (c : PacketClass) :
    c.stale side (.filled 0) = c.stale side (.filled 255) ↔ ¬ c.SendsMemory side := by
  cases c <;> cases side <;> decide

theorem stale_of_not_sends {c : PacketClass} (h : ¬ c.SendsMemory side) (a : Ambient) : c.stale side a = [] := by
  cases c with
  | encryption => exact if_neg fun hside => h (.inl ⟨.inl rfl, hside⟩)
  | chatMessage => exact if_neg fun hside => h (.inl ⟨.inr rfl, hside⟩)
  | playerPositionAndLook => exact absurd (.inr (.inl rfl)) h
  | playerAbilities => exact absurd (.inr (.inr rfl)) h
  | _ => rfl

/-- **Fresh packets.** The bytes of a new packet are the same from every memory exactly when its class sends none of
it. -/
theorem fresh_bytes_iff (side : Side) (state : ClientState) (packetId : Word) (c : PacketClass)
    (hc : lookupClass side state packetId = some c) :
    (∀ a b, SameSurroundings a b → freshBytes side state packetId a = freshBytes side state packetId b) ↔
      ¬ c.SendsMemory side := by
  constructor
  · intro h
    have hfilled := h _ _ (filled_sameSurroundings 0 255)
    rw [freshBytes_eq_iff hc (filled_sameSurroundings 0 255)] at hfilled
    exact (stale_filled_iff side c).mp hfilled
  · intro hnot a b hsame
    rw [freshBytes_eq_iff hc hsame, stale_of_not_sends hnot, stale_of_not_sends hnot]

/-- A new `JoinGamePacket` has every field set. -/
theorem joinGame_fresh :
    lookupClass .clientBound .PLAY 0x01 = some .joinGame ∧
      ∀ a b, SameSurroundings a b → freshBytes .clientBound .PLAY 0x01 a = freshBytes .clientBound .PLAY 0x01 b :=
  have hc : lookupClass .clientBound .PLAY 0x01 = some .joinGame := by decide
  ⟨hc, (fresh_bytes_iff .clientBound .PLAY 0x01 .joinGame hc).mpr (by decide)⟩

/-- A new `PlayerAbilitiesPacket`, which every joining player is sent, shows whether its memory held zeros or ones. -/
theorem playerAbilities_not_fresh :
    ¬ ∀ side state packetId c, lookupClass side state packetId = some c → c ≠ .keepAlive → c ≠ .ping →
      ∀ a b, SameSurroundings a b → freshBytes side state packetId a = freshBytes side state packetId b := by
  intro h
  have hc : lookupClass .clientBound .PLAY 0x39 = some .playerAbilities := by decide
  have hsame := h _ _ _ _ hc (by decide) (by decide) _ _ (filled_sameSurroundings 0 255)
  rw [freshBytes_eq_iff hc (filled_sameSurroundings 0 255)] at hsame
  revert hsame
  decide

end CeriosCluster.MCPacket
