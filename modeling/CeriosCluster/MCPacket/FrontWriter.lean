import CeriosCluster.MCPacket.Safety
import CeriosCluster.MCPacket.VarIntReader

/-!
# Numbers in front of a buffer

`writeVarIntToFront` runs the loop of `writeVarIntToBuffer` on a signed word, whose shift keeps the
sign: on a negative number it never stops. The sizes that `writeBufferLengthToFront` lets through
are far below that, so a framed buffer is read back.
-/

namespace CeriosCluster.MCPacket

open CeriosCluster.Lib CeriosCluster.Lib.Septets

/-! ## The two writers -/

/-- The loop of `writeVarIntToFront` ends with the bytes of `writeVarIntToBuffer`, and they are put in front. -/
def WritersAgree (input : Word) (buffer : Bytes) : Prop :=
  (∃ fuel, writeVarIntToFrontLoop fuel input = some (writeVarIntToBuffer input)) ∧
    writeVarIntToFront input buffer = .ok () (writeVarIntToBuffer input ++ buffer)

/-- The two writers agree exactly on the numbers that are not negative. -/
theorem writersAgree_iff (input : Word) (buffer : Bytes) : WritersAgree input buffer ↔ 0 ≤ input.toInt := by
  constructor
  · rintro ⟨⟨fuel, hloop⟩, -⟩
    by_contra hneg
    rw [writeVarIntToFrontLoop_neg fuel input (by omega)] at hloop
    cases hloop
  · intro hnn
    have hbits : input.toNat < 2 ^ (7 * (4 + 1)) := by
      have := input.isLt
      omega
    exact ⟨⟨_, writeVarIntToFrontLoop_nonneg 4 0 input hnn hbits⟩, writeVarIntToFront_nonneg input hnn buffer⟩

/-- The front writer on `-1`. -/
theorem minus_one_in_front : ¬ ∀ input buffer, WritersAgree input buffer := by
  intro h
  obtain ⟨⟨fuel, hloop⟩, -⟩ := h (BitVec.ofInt 32 (-1)) []
  rw [writeVarIntToFrontLoop_neg fuel _ (by decide)] at hloop
  cases hloop

/-! ## Framed buffers -/

theorem length_writeVarIntLoop_le (left : Nat) (v : Word) : (writeVarIntLoop left v).length ≤ left + 1 := by
  induction left generalizing v with
  | zero => exact Nat.le_refl 1
  | succ left ih =>
    rw [writeVarIntLoop]
    split
    · rw [List.length_cons]
      exact Nat.succ_le_succ (ih _)
    · simp

theorem length_writeVarIntToBuffer_of_lt {v : Word} (h : v.toNat < 2 ^ 21) :
    (writeVarIntToBuffer v).length ≤ MAX_LENGTH_BYTES := by
  have hthree : writeVarIntToBuffer v = writeVarIntLoop 2 v := by
    rw [writeVarIntToBuffer, ← writeVarIntLoop_succ 3 v (by omega), ← writeVarIntLoop_succ 2 v (by omega)]
  rw [hthree]
  exact length_writeVarIntLoop_le 2 v

/-- **Length framing**: below `2 ^ 21` bytes a buffer gets its length in front, in at most three bytes, and the reader
takes the length off again; a larger one is refused as it is. -/
theorem writeBufferLengthToFront_frames (b : Payload) :
    (b.val.length < 2 ^ 21 →
      writeBufferLengthToFront b.val = .ok () (writeVarIntToBuffer (BitVec.ofNat 32 b.val.length) ++ b.val) ∧
        (writeVarIntToBuffer (BitVec.ofNat 32 b.val.length)).length ≤ 3 ∧
        ∃ read, readVarIntFromBuffer true (writeVarIntToBuffer (BitVec.ofNat 32 b.val.length) ++ b.val) =
          .ok read b.val ∧
          0 < read.size ∧ read.value.toInt = b.val.length) ∧
      (2 ^ 21 ≤ b.val.length → ∃ e, writeBufferLengthToFront b.val = .threw e b.val) := by
  obtain ⟨b, hb⟩ := b
  dsimp only
  unfold maxSize at hb
  constructor
  · intro hlt
    have hbits : (BitVec.ofNat 32 b.length).toNat < 2 ^ 21 := by
      rw [BitVec.toNat_ofNat]
      omega
    have hread := readVarIntFromBuffer_of_scan true (scanVarInt_write (BitVec.ofNat 32 b.length) b)
    rw [if_pos rfl, List.drop_left] at hread
    exact ⟨writeBufferLengthToFront_fits hlt, length_writeVarIntToBuffer_of_lt hbits, _, hread,
      length_writeVarIntToBuffer_pos _, toInt_ofNat_size (by omega)⟩
  · intro hlarge
    have hnot : ¬ FitsFrame b.length := by
      rw [fitsFrame_iff (by omega)]
      omega
    exact ⟨_, writeBufferLengthToFront_large hnot⟩

end CeriosCluster.MCPacket
