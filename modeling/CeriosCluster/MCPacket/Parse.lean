import CeriosCluster.MCPacket.Compression

/-!
# Parsing a received packet

`parsePacket` makes the base object from the front of the receive buffer (after inflating it, in
compressed mode) and hands it to the class registered for its id.
-/

namespace CeriosCluster.MCPacket

open CeriosCluster.Lib

/-- `Packet::Packet(length, buffer, state, consumeData)`. The id is read from the whole buffer; the
copied range `[idSize, length)` has to be one of the buffer. -/
def Packet.construct (length : Nat) (consumeData : Bool) : BufferM PacketInProgress := do
  let id ← readVarIntFromBuffer false
  let buffer ← Exec.get
  if id.size ≤ length ∧ length ≤ buffer.length then do
    -- the length includes the packet id
    if consumeData then Exec.set (buffer.drop length)
    pure ⟨id.value, (buffer.take length).drop id.size⟩
  else Exec.undefined

variable (z : Zlib)

structure Inflating where
  stream : z.Inflater
  input : Bytes
  availOut : Nat
  inflatedData : Nat
  inflatedPacketBuffer : Bytes

/-- The inflate loop, for at most `fuel` turns; `none` is the return on `Z_STREAM_ERROR`. Nothing in the
loop changes `inflatedData`. -/
def inflateLoop (inflatedPacketLength : Word) : Nat → Exec Exn (Inflating z) (Option Bytes)
  | 0 => Exec.diverge
  | fuel + 1 => do
    let s ← Exec.get
    let call := z.inflate s.stream s.input s.availOut
    let written := s.inflatedData + call.output.length
    if s.inflatedPacketBuffer.length < written then Exec.undefined
    else do
      let inflated := s.inflatedPacketBuffer.take s.inflatedData ++ call.output ++ s.inflatedPacketBuffer.drop written
      if call.returnCode = .Z_STREAM_ERROR then pure none
      else if s.inflatedData < asSize inflatedPacketLength then do
        Exec.set ⟨call.stream, s.input.drop call.consumed, s.availOut - call.output.length, s.inflatedData, inflated⟩
        inflateLoop inflatedPacketLength fuel
      else pure (some inflated)

/-- `buffer.erase(buffer.begin(), buffer.begin() + length)` of `consumeFunc`. -/
def consumeFunc (length : Nat) (consumeData : Bool) : BufferM Unit := do
  let buffer ← Exec.get
  if consumeData then
    if length ≤ buffer.length then Exec.set (buffer.drop length) else Exec.undefined
  else pure ()

/-- The part of `parsePacket` up to the base object it hands to `instantiateFromData`. -/
def readPacket (fuel length : Nat) (compressed consumeData : Bool) : BufferM (Option PacketInProgress) := do
  let buffer ← Exec.get
  if buffer.length = 0 then pure none
  else if compressed then do
    let inflatedPacketLength ← readVarIntFromBuffer false
    if 0 < inflatedPacketLength.value.toInt then
      match z.inflateInit with
      | none => do
        consumeFunc length consumeData
        pure none
      | some stream => do
        let size := inflatedPacketLength.value.toNat
        let inflated ← Exec.onLocal ⟨stream, buffer.take (buffer.length % 2 ^ 32), size, 0, List.replicate size 0⟩
          (inflateLoop z inflatedPacketLength.value fuel)
        consumeFunc length consumeData
        match inflated with
        | none => pure none
        | some data =>
          if data.length ≠ size then pure none
          else do pure (some (← Exec.onLocal data (Packet.construct size consumeData)))
    else do pure (some (← Packet.construct length consumeData))
  else do pure (some (← Packet.construct length consumeData))

/-- `Packet::parsePacket`; `none` is the null pointer. -/
def parsePacket (fuel : Nat) (side : Side) (length : Nat) (state : ClientState) (a : Ambient)
    (compressed consumeData : Bool) : BufferM (Option Packet) := do
  match ← readPacket z fuel length compressed consumeData with
  | none => pure none
  | some p => instantiateFromData side state a p

end CeriosCluster.MCPacket
