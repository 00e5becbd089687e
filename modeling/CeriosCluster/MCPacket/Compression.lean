import CeriosCluster.MCPacket.Registry

/-!
# Compression and framing of an outgoing packet

zlib is an oracle that keeps a stream object and, on each call, consumes part of the input and
emits part of the output. `compressData` drives `deflate` over windows of a buffer that has the size
of the input and is never enlarged: output past its end is undefined behaviour.
-/

namespace CeriosCluster.MCPacket

open CeriosCluster.Lib

inductive ZCode
  | Z_OK
  | Z_STREAM_END
  | Z_NEED_DICT
  | Z_BUF_ERROR
  | Z_DATA_ERROR
  | Z_MEM_ERROR
  | Z_STREAM_ERROR
  deriving DecidableEq

/-- The result of one `deflate` or `inflate` call. -/
structure ZCall (S : Type) where
  stream : S
  returnCode : ZCode
  consumed : Nat
  output : Bytes

/-- zlib: `deflateInit` and `inflateInit` give `none` when they fail; a call gets the stream, the input
left and the room for output. -/
structure Zlib where
  Deflater : Type
  Inflater : Type
  deflateInit : Option Deflater
  deflate : Deflater → Bytes → Nat → ZCall Deflater
  inflateInit : Option Inflater
  inflate : Inflater → Bytes → Nat → ZCall Inflater

def Zlib.unusable : Zlib :=
  ⟨Unit, Unit, none, fun _ _ _ => ⟨(), .Z_STREAM_ERROR, 0, []⟩, none, fun _ _ _ => ⟨(), .Z_STREAM_ERROR, 0, []⟩⟩

variable (z : Zlib)

/-- The locals of `compressData`'s loop; `output` is what lies in the buffer so far. -/
structure Deflating where
  stream : z.Deflater
  input : Bytes
  availOut : Nat
  nextOut : Nat
  offset : Nat
  output : Bytes

/-- The loop of `compressData`, for at most `fuel` turns, over a buffer of `inflatedSize` bytes. -/
def compressLoop (inflatedSize : Nat) : Nat → Exec Exn (Deflating z) Bytes
  | 0 => Exec.diverge
  | fuel + 1 => do
    let s ← Exec.get
    let (availOut, nextOut) :=
      if 0 < s.input.length ∧ s.availOut = 0 then (inflatedSize % 2 ^ 32, s.offset) else (s.availOut, s.nextOut)
    let call := z.deflate s.stream s.input availOut
    if call.output ≠ [] ∧ inflatedSize < nextOut + call.output.length then Exec.undefined
    else do
      let input := s.input.drop call.consumed
      let output := s.output ++ call.output
      let left := availOut - call.output.length
      let offset := if 0 < input.length ∧ left = 0 then s.offset + inflatedSize else s.offset
      if call.returnCode ≠ .Z_STREAM_ERROR ∧ 0 < input.length ∧ call.returnCode ≠ .Z_STREAM_END then do
        Exec.set ⟨call.stream, input, left, nextOut + call.output.length, offset, output⟩
        compressLoop inflatedSize fuel
      else pure output

/-- A failing `deflateInit` leaves the data as it was. -/
def compressData (fuel : Nat) : BufferM Unit := do
  let data ← Exec.get
  match z.deflateInit with
  | none => pure ()
  | some stream => do
    let output ← Exec.onLocal ⟨stream, data.take (data.length % 2 ^ 32), 0, 0, 0, []⟩
      (compressLoop z data.length fuel)
    Exec.set output
    writeVarIntToFront (BitVec.ofNat 32 data.length)

abbrev PacketM := Exec Exn Packet

def Packet.onRawPayload {α : Type} (m : BufferM α) : PacketM α :=
  Exec.zoom (·.rawPayload) (fun b p => { p with rawPayload := b }) m

def compressPacket (fuel : Nat) : PacketM Unit := do
  let p ← Exec.get
  if p.compressed then pure ()
  else do
    Packet.onRawPayload (compressData z fuel)
    Exec.modify fun p => { p with compressed := true }

def compressIfLargerThan (fuel lengthBytes : Nat) : PacketM Unit := do
  let p ← Exec.get
  if p.rawPayload.length > lengthBytes then compressPacket z fuel else pure ()

def framePacket : PacketM Unit := Packet.onRawPayload writeBufferLengthToFront

section Run

variable {z} {fuel lengthBytes : Nat} {p p' : Packet} {b : Bytes} {u : Unit}

theorem compressIfLargerThan_small (h : p.rawPayload.length ≤ lengthBytes) :
    compressIfLargerThan z fuel lengthBytes p = .ok () p := by
  rw [compressIfLargerThan, Exec.run_bind_ok (Exec.run_get p), if_neg (Nat.not_lt.mpr h)]
  rfl

theorem compressIfLargerThan_large (h : lengthBytes < p.rawPayload.length) (hnew : p.compressed = false) :
    compressIfLargerThan z fuel lengthBytes p = .ok u p' ↔
      ∃ b, compressData z fuel p.rawPayload = .ok () b ∧ p' = { p with rawPayload := b, compressed := true } := by
  rw [compressIfLargerThan, Exec.run_bind_ok (Exec.run_get p), if_pos h, compressPacket,
    Exec.run_bind_ok (Exec.run_get p), hnew]
  simp only [Bool.false_eq_true, if_false, Exec.run_bind, Packet.onRawPayload, Exec.zoom]
  cases compressData z fuel p.rawPayload <;> simp [eq_comm]

theorem compressData_failed (h : z.deflateInit = none) : compressData z fuel b = .ok () b := by
  rw [compressData, Exec.run_bind_ok (Exec.run_get b), h]
  rfl

theorem compressData_eq_ok {d : z.Deflater} {b' : Bytes} (hinit : z.deflateInit = some d)
    (h : compressData z fuel b = .ok u b') :
    ∃ output, b' = writeVarIntToBuffer (BitVec.ofNat 32 b.length) ++ output := by
  rw [compressData, Exec.run_bind_ok (Exec.run_get b), hinit] at h
  obtain ⟨output, b₁, -, h⟩ := Exec.bind_eq_ok.mp h
  rw [Exec.run_bind_ok (Exec.run_set output b₁)] at h
  exact ⟨output, writeVarIntToFront_eq_ok h⟩

theorem framePacket_fits (h : p.rawPayload.length < 2 ^ 21) :
    framePacket p = .ok ()
      { p with rawPayload := writeVarIntToBuffer (BitVec.ofNat 32 p.rawPayload.length) ++ p.rawPayload } := by
  simp only [framePacket, Packet.onRawPayload, Exec.zoom, writeBufferLengthToFront_fits h]

theorem framePacket_large (h : frame p.rawPayload = none) :
    framePacket p = .threw (tooLarge p.rawPayload.length) p := by
  by_cases hfits : FitsFrame p.rawPayload.length
  · rw [frame_fits hfits] at h
    cases h
  · simp only [framePacket, Packet.onRawPayload, Exec.zoom, writeBufferLengthToFront_large hfits]

theorem framePacket_frame (h : frame p.rawPayload = some b) : framePacket p = .ok () { p with rawPayload := b } := by
  by_cases hfits : FitsFrame p.rawPayload.length
  · rw [frame_fits hfits] at h
    cases h
    simp only [framePacket, Packet.onRawPayload, Exec.zoom, writeBufferLengthToFront_ok hfits]
  · rw [frame_large hfits] at h
    cases h

theorem framePacket_eq_ok (h : framePacket p = .ok u p') :
    p'.rawPayload = writeVarIntToBuffer (BitVec.ofNat 32 p.rawPayload.length) ++ p.rawPayload := by
  simp only [framePacket, Packet.onRawPayload, Exec.zoom] at h
  split at h
  · next hb =>
    cases h
    exact writeBufferLengthToFront_eq_ok hb
  all_goals cases h

end Run

def Packet.serialized (side : Side) (p : Packet) : Bytes := (p.serializePacket side).rawPayload

theorem serialized_eq {side : Side} {p : Packet} :
    p.serialized side = writeVarIntToBuffer p.packetId ++ p.fields.payload side := rfl

/-- A packet none of whose fields has been set is short. -/
theorem fresh_short (c : PacketClass) (side side' : Side) (a : Ambient) :
    ((c.newPacket side a).serialized side').length ≤ 85 := by
  have hvarint : ∀ n, (writeVarIntToBuffer n).length ≤ 5 := length_writeVarIntToBuffer_le
  have hpod : ∀ {n w : Nat} (v : BitVec w), (podBytes n v).length = n := fun v => by simp [podBytes]
  have hstring : ∀ s : Bytes, (writeString s).length ≤ s.length + 5 := fun s => by
    have := hvarint (BitVec.ofNat 32 s.length)
    rw [writeString, List.length_append]
    omega
  have hempty := hstring []
  have hdefault := hstring (ascii "default")
  have htoken := hstring a.clearVerifyToken.val
  rw [a.clearVerifyToken.property] at htoken
  rw [show (ascii "default").length = 7 from by decide] at hdefault
  have hshort : ((c.newPacket side a).fields.payload side').length ≤ 80 := by
    cases c <;> simp only [PacketClass.newPacket, Fields.payload, HandshakePacket.payload, ServerStatusPacket.payload,
      ServerStatusPacket.new,
      PingPacket.payload, LoginStartPacket.payload, LoginStartPacket.new, EncryptionPacket.payload,
        EncryptionPacket.new,
      LoginSuccessPacket.payload, LoginSuccessPacket.new, SetCompressionPacket.payload, KeepAlivePacket.payload,
      JoinGamePacket.payload, JoinGamePacket.new, ChatMessagePacket.payload, ChatMessagePacket.new,
        SpawnPositionPacket.payload,
      PlayerPositionAndLookPacket.payload, PlayerAbilitiesPacket.payload, List.length_append, hpod] <;> grind
  have hid := hvarint (c.newPacket side a).packetId
  rw [serialized_eq, List.length_append]
  omega

theorem fresh_fits (c : PacketClass) (side side' : Side) (a : Ambient) :
    FitsFrame ((c.newPacket side a).serialized side').length := by
  have hshort := fresh_short c side side' a
  exact (fitsFrame_iff (by omega)).mpr (by omega)

/-- What `Client::sendPacket` makes of a packet before it hands its bytes to `sendData`. -/
def Packet.toWire (fuel : Nat) (side : Side) (compressionThreshold : Word) : PacketM Unit := do
  Exec.modify (Packet.serializePacket side)
  let p ← Exec.get
  if 0 ≤ compressionThreshold.toInt ∧ p.fields.packetClass ≠ .setCompression then
    compressIfLargerThan z fuel (asSize compressionThreshold)
  else pure ()
  framePacket

end CeriosCluster.MCPacket
