import CeriosCluster.MCPacket.Isolation

/-!
# The compressed round trip

With compression switched on, a packet goes through `toWire` and comes back through `readPacket`. The
two do not agree. A packet at or below the threshold is sent without a data length, so its id is read
as one; a packet above it is sent with one, but the inflate loop never counts what it inflates.
-/

namespace CeriosCluster.MCPacket

open CeriosCluster.Lib

/-- Where one call of `deflate` finishes the data, one call of `inflate` with room for the data gives it
back. -/
def Zlib.InflateUndoesDeflate (z : Zlib) : Prop :=
  ∀ (d : z.Deflater) (i : z.Inflater) data room more, z.deflateInit = some d → z.inflateInit = some i →
    (z.deflate d data room).returnCode = .Z_STREAM_END →
      (z.inflate i ((z.deflate d data room).output ++ more) data.length).output = data

def Zlib.stored : Zlib :=
  ⟨Unit, Unit, some (),
    fun _ input room =>
      if input.length ≤ room then ⟨(), .Z_STREAM_END, input.length, input⟩
      else ⟨(), .Z_OK, room, input.take room⟩,
    some (),
    fun _ input room => ⟨(), .Z_OK, min room input.length, input.take room⟩⟩

theorem Zlib.stored_inflateUndoesDeflate : Zlib.stored.InflateUndoesDeflate := by
  intro _ _ data room more _ _ hend
  simp only [Zlib.stored] at hend ⊢
  split at hend
  · next hroom => simp [hroom]
  · cases hend

variable (z : Zlib) (side : Side) (compressionThreshold : Word) (p : Packet)

/-- `p` is sent, and whatever follows its frame, `readPacket` returns with the id and the payload of `p`
and has consumed exactly the frame. -/
def RoundTrips : Prop :=
  ∃ fuel sent size length, p.toWire z fuel side compressionThreshold = .ok () sent ∧
    scanVarInt sent.rawPayload = some ⟨size, length⟩ ∧ 0 < size ∧
      ∀ tail, ∃ fuel', readPacket z fuel' (asSize length) true true (sent.rawPayload.drop size ++ tail) =
        .ok (some ⟨p.packetId, p.fields.payload side⟩) tail

variable {z side compressionThreshold p} {fuel : Nat} {sent : Packet}

/-! ## Sending -/

/-- At or below the threshold, or when `deflateInit` fails, the serialized packet is framed as it is. -/
theorem toWire_plain (fuel : Nat) (hcompress : 0 ≤ compressionThreshold.toInt)
    (hclass : p.fields.packetClass ≠ .setCompression) (hfits : (p.serialized side).length < 2 ^ 21)
    (hplain : (p.serialized side).length ≤ asSize compressionThreshold ∨ z.deflateInit = none) :
    ∃ sent, p.toWire z fuel side compressionThreshold = .ok () sent ∧
      sent.rawPayload = writeVarIntToBuffer (BitVec.ofNat 32 (p.serialized side).length) ++ p.serialized side := by
  obtain ⟨q, hq, hraw⟩ : ∃ q, compressIfLargerThan z fuel (asSize compressionThreshold) (p.serializePacket side) =
    .ok () q ∧
      q.rawPayload = p.serialized side := by
    rcases Nat.lt_or_ge (asSize compressionThreshold) (p.serialized side).length with hlarge | hsmall
    · have hfailed := hplain.resolve_left (Nat.not_le.mpr hlarge)
      exact ⟨_, (compressIfLargerThan_large hlarge rfl).mpr ⟨_, compressData_failed hfailed, rfl⟩, rfl⟩
    · exact ⟨_, compressIfLargerThan_small hsmall, rfl⟩
  rw [Packet.toWire, Exec.run_bind_ok (Exec.run_modify _ _), Exec.run_bind_ok (Exec.run_get _),
    if_pos ⟨hcompress, hclass⟩, Exec.run_bind_ok hq]
  exact ⟨_, framePacket_fits (by rw [hraw]; exact hfits), by simp only [hraw]⟩

/-- Above the threshold, what is framed starts with the size of the serialized packet. -/
theorem toWire_compressed {u : Unit} {d : z.Deflater} (hcompress : 0 ≤ compressionThreshold.toInt)
    (hclass : p.fields.packetClass ≠ .setCompression)
    (hlarge : asSize compressionThreshold < (p.serialized side).length) (hinit : z.deflateInit = some d)
    (h : p.toWire z fuel side compressionThreshold = .ok u sent) :
    ∃ output body, body = writeVarIntToBuffer (BitVec.ofNat 32 (p.serialized side).length) ++ output ∧
      sent.rawPayload = writeVarIntToBuffer (BitVec.ofNat 32 body.length) ++ body := by
  rw [Packet.toWire, Exec.run_bind_ok (Exec.run_modify _ _), Exec.run_bind_ok (Exec.run_get _),
    if_pos ⟨hcompress, hclass⟩] at h
  obtain ⟨_, q, hq, hframe⟩ := Exec.bind_eq_ok.mp h
  obtain ⟨body, hbody, rfl⟩ := (compressIfLargerThan_large hlarge rfl).mp hq
  obtain ⟨output, houtput⟩ := compressData_eq_ok hinit hbody
  exact ⟨output, body, houtput, framePacket_eq_ok hframe⟩

/-! ## Receiving -/

/-- The inflate loop does not come back with data while it still waits for some. -/
theorem inflateLoop_never_returns {length : Word} {s s' : Inflating z} {data : Bytes}
    (h : s.inflatedData < asSize length) : inflateLoop z length fuel s ≠ .ok (some data) s' := by
  induction fuel generalizing s with
  | zero => exact fun h => nomatch h
  | succ fuel ih =>
    rw [inflateLoop, Exec.run_bind_ok (Exec.run_get s)]
    dsimp only
    split
    · exact fun h => nomatch h
    · split
      · exact fun h => nomatch h
      · rw [Exec.run_bind_ok (Exec.run_set _ s)]
        exact ih h

theorem readPacket_of_dataLength {length : Nat} {b b' : Bytes} {size : Nat} {dataLength : Word}
    {q : PacketInProgress} (hscan : scanVarInt b = some ⟨size, dataLength⟩) (hpos : 0 < dataLength.toInt) :
    readPacket z fuel length true true b ≠ .ok (some q) b' := by
  intro h
  rw [readPacket, Exec.run_bind_ok (Exec.run_get b)] at h
  split at h
  · cases h
  · rw [if_pos rfl, Exec.run_bind_ok (readVarIntFromBuffer_eq_ok.mpr ⟨hscan, rfl⟩), if_pos hpos] at h
    cases hinit : z.inflateInit with
    | none =>
      simp only [hinit] at h
      obtain ⟨_, _, -, h⟩ := Exec.bind_eq_ok.mp h
      cases h
    | some stream =>
      simp only [hinit] at h
      obtain ⟨inflated, b₁, hloop, h⟩ := Exec.bind_eq_ok.mp h
      cases inflated with
      | none =>
        obtain ⟨_, _, -, h⟩ := Exec.bind_eq_ok.mp h
        cases h
      | some data =>
        have hbelow : 0 < asSize dataLength := by
          have := toNat_eq_of_nonneg (Int.le_of_lt hpos)
          rw [asSize_of_nonneg (Int.le_of_lt hpos)]
          omega
        rw [Exec.onLocal] at hloop
        split at hloop
        · next hrun =>
          cases hloop
          exact inflateLoop_never_returns hbelow hrun
        all_goals cases hloop

/-- A data length that is not positive is taken for the id of an uncompressed packet. -/
theorem readPacket_of_noDataLength {length : Nat} {b : Bytes} {size : Nat} {dataLength : Word}
    (hscan : scanVarInt b = some ⟨size, dataLength⟩) (hsize : 0 < size) (hneg : dataLength.toInt ≤ 0)
    (hle : size ≤ length) (hlen : length ≤ b.length) :
    readPacket z fuel length true true b = .ok (some ⟨dataLength, (b.take length).drop size⟩) (b.drop length) := by
  rw [readPacket, Exec.run_bind_ok (Exec.run_get b), if_neg (by omega), if_pos rfl,
    Exec.run_bind_ok (readVarIntFromBuffer_eq_ok.mpr ⟨hscan, rfl⟩), if_neg (by simp only; omega)]
  exact Exec.run_bind_ok (construct_of_scan hscan hle hlen)

/-! ## The round trip -/

theorem asSize_serialized (hfits : (p.serialized side).length < 2 ^ 21) :
    0 ≤ (BitVec.ofNat 32 (p.serialized side).length).toInt ∧
      asSize (BitVec.ofNat 32 (p.serialized side).length) = (p.serialized side).length := by
  have hnat : (BitVec.ofNat 32 (p.serialized side).length).toNat = (p.serialized side).length := by
    rw [BitVec.toNat_ofNat]
    omega
  have hnn : 0 ≤ (BitVec.ofNat 32 (p.serialized side).length).toInt := by
    rw [toInt_ofNat_size (by omega)]
    omega
  exact ⟨hnn, (asSize_of_nonneg hnn).trans hnat⟩

theorem scanVarInt_serialized (tail : Bytes) :
    scanVarInt (p.serialized side ++ tail) = some ⟨(writeVarIntToBuffer p.packetId).length, p.packetId⟩ := by
  rw [serialized_eq, List.append_assoc, scanVarInt_write]

theorem roundTrips_of_plain (hcompress : 0 ≤ compressionThreshold.toInt)
    (hclass : p.fields.packetClass ≠ .setCompression) (hfits : (p.serialized side).length < 2 ^ 21)
    (hneg : p.packetId.toInt ≤ 0) (hplain : (p.serialized side).length ≤ asSize compressionThreshold ∨
      z.deflateInit = none) :
    RoundTrips z side compressionThreshold p := by
  obtain ⟨sent, hsend, hraw⟩ := toWire_plain 0 hcompress hclass hfits hplain
  refine ⟨0, sent, _, _, hsend, by rw [hraw, scanVarInt_write], length_writeVarIntToBuffer_pos _, fun tail => ⟨0, ?_⟩⟩
  have hle : (writeVarIntToBuffer p.packetId).length ≤ (p.serialized side).length := by
    rw [serialized_eq, List.length_append]
    omega
  rw [hraw, List.drop_left, (asSize_serialized hfits).2,
    readPacket_of_noDataLength (scanVarInt_serialized tail) (length_writeVarIntToBuffer_pos _) hneg hle (by simp),
    List.take_left, List.drop_left, serialized_eq, List.drop_left]

theorem RoundTrips.plain (h : RoundTrips z side compressionThreshold p) (hcompress : 0 ≤ compressionThreshold.toInt)
    (hclass : p.fields.packetClass ≠ .setCompression) (hfits : (p.serialized side).length < 2 ^ 21) :
    p.packetId.toInt ≤ 0 ∧ ((p.serialized side).length ≤ asSize compressionThreshold ∨ z.deflateInit = none) := by
  obtain ⟨fuel, sent, size, length, hsend, hscan, -, hback⟩ := h
  obtain ⟨fuel', hread⟩ := hback []
  by_cases hplain : (p.serialized side).length ≤ asSize compressionThreshold ∨ z.deflateInit = none
  · refine ⟨?_, hplain⟩
    obtain ⟨sent', hsend', hraw⟩ := toWire_plain fuel hcompress hclass hfits hplain
    obtain rfl : sent = sent' := by
      rw [hsend] at hsend'
      cases hsend'
      rfl
    rw [hraw, scanVarInt_write] at hscan
    cases hscan
    rw [hraw, List.drop_left] at hread
    by_contra hpos
    exact readPacket_of_dataLength (scanVarInt_serialized []) (Int.not_le.mp hpos) hread
  · rw [not_or, Nat.not_le] at hplain
    obtain ⟨hlarge, hinit⟩ := hplain
    obtain ⟨d, hinit⟩ := Option.ne_none_iff_exists'.mp hinit
    obtain ⟨output, body, hbody, hraw⟩ := toWire_compressed hcompress hclass hlarge hinit hsend
    rw [hraw, scanVarInt_write] at hscan
    cases hscan
    rw [hraw, List.drop_left, hbody, List.append_assoc] at hread
    refine (readPacket_of_dataLength (scanVarInt_write _ _) ?_ hread).elim
    -- the data length is the size of the packet, which is above the threshold
    obtain ⟨hnn, hsize⟩ := asSize_serialized hfits
    have := toNat_eq_of_nonneg hnn
    rw [asSize_of_nonneg hnn] at hsize
    omega

/-- **The compressed round trip** works exactly for a packet whose id is not positive, and which is not
compressed: it is at or below the threshold, or `deflateInit` fails. -/
theorem roundTrips_iff (z : Zlib) (side : Side) (compressionThreshold : Word) (p : Packet)
    (hcompress : 0 ≤ compressionThreshold.toInt) (hclass : p.fields.packetClass ≠ .setCompression)
    (hfits : (p.serialized side).length < 2 ^ 21) :
    RoundTrips z side compressionThreshold p ↔
      p.packetId.toInt ≤ 0 ∧ ((p.serialized side).length ≤ asSize compressionThreshold ∨ z.deflateInit = none) :=
  ⟨fun h => h.plain hcompress hclass hfits, fun h => roundTrips_of_plain hcompress hclass hfits h.1 h.2⟩

theorem roundTrips_iff_keepAlive :
    RoundTrips .stored .serverBound 256 (PacketClass.keepAlive.newPacket .clientBound Ambient.zero) ↔
      (0 : Word).toInt ≤ 0 ∧ (2 ≤ 256 ∨ Zlib.stored.deflateInit = none) :=
  roundTrips_iff .stored .serverBound 256 (PacketClass.keepAlive.newPacket .clientBound Ambient.zero)
    (by decide) (by decide) (by decide)

/-- `JoinGamePacket`, eighteen bytes under a threshold of 256, goes out as it is; its id `1` comes back as
a data length. -/
theorem joinGame_does_not_return :
    ¬ ∀ (z : Zlib) (side : Side) (compressionThreshold : Word) (p : Packet), z.InflateUndoesDeflate →
      0 ≤ compressionThreshold.toInt → p.fields.packetClass ≠ .setCompression →
        (p.serialized side).length < 2 ^ 21 → RoundTrips z side compressionThreshold p := by
  intro h
  have hback := h .stored .serverBound 256 (PacketClass.joinGame.newPacket .clientBound Ambient.zero)
    Zlib.stored_inflateUndoesDeflate (by decide) (by decide) (by decide)
  exact absurd (hback.plain (by decide) (by decide) (by decide)).1 (by decide)

end CeriosCluster.MCPacket
