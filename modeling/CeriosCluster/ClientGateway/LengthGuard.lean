import CeriosCluster.ClientGateway.Frames
import CeriosCluster.MCPacket.FrontWriter

/-!
# Which lengths the guard of `onLengthReceive` admits

The guard adds the length of a frame, which may be negative, to the size of its prefix and compares
the sum with the size of the buffer, all on 64 bits. A negative length wraps around, and the sum is
small again exactly when the length is less than its own prefix below zero.
-/

namespace CeriosCluster.ClientGateway

open CeriosCluster.Lib CeriosCluster.Lib.Septets CeriosCluster.MCPacket

/-- A length prefix that passes the guard is a length of what follows it. -/
def GuardSound (buffer : Payload) : Prop :=
  ∀ messageLength, scanVarInt buffer.val = some messageLength → completeLength buffer.val messageLength →
    0 ≤ messageLength.value.toInt ∧ messageLength.value.toInt ≤ (buffer.val.length - messageLength.size : Int)

def StartsNegative (buffer : Payload) : Prop :=
  ∃ messageLength, scanVarInt buffer.val = some messageLength ∧ 0 < messageLength.size ∧
    -5 ≤ messageLength.value.toInt ∧ messageLength.value.toInt < 0

section Guard

variable {b : Bytes} {r : VarIntRead}

/-- A negative number takes all five bytes. -/
theorem size_of_negative (hscan : scanVarInt b = some r) (hpos : 0 < r.size) (hneg : r.value.toInt < 0) :
    r.size = 5 := by
  have hread := readVarIntFromBuffer_of_scan false hscan
  obtain ⟨hends, hfive⟩ := endsAt_of_read hread hpos
  by_contra hne
  have hvalue : r.value = BitVec.ofNat 32 (number (b.take r.size)) := by
    have hscan' := scanVarInt_of_endsAt hends hfive
    rw [hscan] at hscan'
    exact congrArg VarIntRead.value (Option.some.inj hscan')
  have hlt := number_lt (b.take r.size)
  rw [List.length_take, Nat.min_eq_left hends.le_length] at hlt
  have hpow : 2 ^ (7 * r.size) ≤ 2 ^ 28 := Nat.pow_le_pow_right (by decide) (by omega)
  rw [hvalue, toInt_ofNat_size (by omega)] at hneg
  omega

theorem completeLength_of_neg (hpos : 0 < r.size) (hsize : r.size ≤ b.length) (hneg : r.value.toInt < 0)
    (hmax : b.length ≤ maxSize) : completeLength b r ↔ -r.size ≤ r.value.toInt := by
  have hlow : -r.value.toInt ≤ 2 ^ 31 := by
    have := BitVec.le_toInt r.value
    simp only [Nat.add_one_sub_one] at this
    omega
  unfold maxSize at hmax
  rw [completeLength, asSize_of_neg hneg]
  by_cases hnear : -r.size ≤ r.value.toInt
  · have hsum : (2 ^ 64 - (-r.value.toInt).toNat + r.size) % 2 ^ 64 = r.size - (-r.value.toInt).toNat := by omega
    rw [hsum]
    simp only [hnear, iff_true]
    omega
  · have hsum : (2 ^ 64 - (-r.value.toInt).toNat + r.size) % 2 ^ 64 = 2 ^ 64 - (-r.value.toInt).toNat + r.size :=
      Nat.mod_eq_of_lt (by omega)
    rw [hsum]
    simp only [hnear, iff_false]
    omega

end Guard

/-- **The guard**: it admits only lengths of what follows the prefix, except for the lengths from `-5` to `-1`, all of
which it admits. -/
theorem guardSound_iff (buffer : Payload) : GuardSound buffer ↔ ¬ StartsNegative buffer := by
  obtain ⟨b, hmax⟩ := buffer
  constructor
  · rintro hsound ⟨r, hscan, hpos, hlow, hneg⟩
    have hfive := size_of_negative hscan hpos hneg
    have hcomplete := (completeLength_of_neg hpos (scanVarInt_size_le hscan).2 hneg hmax).mpr (by omega)
    have := (hsound r hscan hcomplete).1
    omega
  · intro hstart r hscan hcomplete
    have hpos := hcomplete.1
    have hnn : 0 ≤ r.value.toInt := by
      by_contra hneg
      have hfive := size_of_negative hscan hpos (by omega)
      have hnear := (completeLength_of_neg hpos (scanVarInt_size_le hscan).2 (by omega) hmax).mp hcomplete
      exact hstart ⟨r, hscan, hpos, by omega, by omega⟩
    have hle : asSize r.value + r.size ≤ b.length := completeLength_nonneg hscan hnn hcomplete
    have hvalue := toNat_eq_of_nonneg hnn
    have hfits : r.value.toInt ≤ (b.length - r.size : Int) := by
      rw [asSize_of_nonneg hnn] at hle
      omega
    exact ⟨hnn, hfits⟩

/-- A length of `-1`, and nothing behind it. -/
theorem minus_one_admitted : ¬ ∀ buffer, GuardSound buffer := by
  intro h
  have hsound := h ⟨[0xff, 0xff, 0xff, 0xff, 0x0f], by decide⟩ ⟨5, BitVec.ofInt 32 (-1)⟩ (by decide) (by decide)
  exact absurd hsound.1 (by decide)

end CeriosCluster.ClientGateway
