import CeriosCluster.InternalComms.Stream
import CeriosCluster.MCPacket.Safety

/-!
# `fromData` on any input

The header is copied before anything is compared, and the comparison adds the header's size to a
length of 64 bits that is read from the input. So `fromData` reads past the end of what it is given
when that has no header, and when the sum wraps around.
-/

namespace CeriosCluster.InternalComms

open CeriosCluster.Lib CeriosCluster.MCPacket

/-- `fromData` stays inside its input, returns the message of a whole input and its null pointer for any other, which it
then leaves as it was. -/
def FromDataExact (rawData : Payload) : Prop :=
  ∀ consume,
    fromData consume rawData.val ≠ .undefined ∧
      (Whole rawData.val → ∃ rest, fromData consume rawData.val = .ok (some (received rawData.val)) rest) ∧
      (¬ Whole rawData.val → fromData consume rawData.val = .ok none rawData.val)

/-- There is a header, and adding its size to the payload's length does not wrap around. -/
def SumFits (rawData : Bytes) : Prop :=
  MessagePacketHeader.size ≤ rawData.length ∧
    MessagePacketHeader.size + (headerOf rawData).payloadLength.toNat < 2 ^ 64

instance (rawData : Bytes) : Decidable (SumFits rawData) := inferInstanceAs (Decidable (_ ∧ _))

theorem fromData_short {rawData : Bytes} (consume : Bool) (h : rawData.length < MessagePacketHeader.size) :
    fromData consume rawData = .undefined := by
  rw [fromData_eq, if_pos h]

/-- A sum that wraps around is smaller than a header. -/
theorem fromData_wraps {rawData : Bytes} (consume : Bool) (hheader : MessagePacketHeader.size ≤ rawData.length)
    (hwraps : 2 ^ 64 ≤ MessagePacketHeader.size + (headerOf rawData).payloadLength.toNat)
    (hmax : rawData.length ≤ maxSize) :
    fromData consume rawData = .undefined := by
  have hlength := (headerOf rawData).payloadLength.isLt
  have hsize : MessagePacketHeader.size = 46 := rfl
  have hsum : (MessagePacketHeader.size + (headerOf rawData).payloadLength.toNat) % 2 ^ 64 < MessagePacketHeader.size :=
    by omega
  unfold maxSize at hmax
  rw [fromData_eq, if_neg (by omega), if_neg (by omega), if_pos (by omega)]

/-- **Arbitrary input**: `fromData` is safe and exact on the inputs that have a header whose length does not make the
sum wrap around, and on no others. -/
theorem fromDataExact_iff (rawData : Payload) : FromDataExact rawData ↔ SumFits rawData.val := by
  obtain ⟨raw, hmax⟩ := rawData
  constructor
  · intro h
    obtain ⟨hdefined, -, -⟩ := h false
    by_contra hfits
    rcases Nat.lt_or_ge raw.length MessagePacketHeader.size with hshort | hheader
    · exact hdefined (fromData_short false hshort)
    · refine hdefined (fromData_wraps false hheader ?_ hmax)
      by_contra hlt
      exact hfits ⟨hheader, by omega⟩
  · rintro ⟨hheader, hsum⟩ consume
    dsimp only at hheader hsum ⊢
    rw [fromData_eq, if_neg (by omega), Nat.mod_eq_of_lt hsum]
    by_cases hpayload : raw.length < MessagePacketHeader.size + (headerOf raw).payloadLength.toNat
    · have hcut : ¬ Whole raw := fun hwhole => by
        have := hwhole.2
        omega
      rw [if_pos hpayload]
      exact ⟨by simp, fun hwhole => absurd hwhole hcut, fun _ => rfl⟩
    · have hwhole : Whole raw := ⟨hheader, by omega⟩
      rw [if_neg hpayload, if_neg hpayload]
      exact ⟨by simp, fun _ => ⟨_, rfl⟩, fun hcut => absurd hwhole hcut⟩

/-- An empty input, and a header alone that announces the longest payload. -/
theorem reads_past_the_end :
    ¬ FromDataExact ⟨[], by decide⟩ ∧ ¬ FromDataExact ⟨List.replicate 46 0xff, by decide⟩ := by
  constructor
  · intro h
    exact (h true).1 (by decide)
  · intro h
    exact (h true).1 (by decide)

end CeriosCluster.InternalComms
