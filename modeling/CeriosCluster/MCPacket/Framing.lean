import CeriosCluster.MCPacket.VarInt

/-!
# Length framing

`writeBufferLengthToFront` puts the length of a buffer in front of it as a VarInt and refuses
buffers whose length needs more than `MAX_LENGTH_BYTES` bytes. The front writer shifts a signed
word, so it never stops on a negative one.
-/

namespace CeriosCluster.MCPacket

open CeriosCluster.Lib

/-- The loop of `writeVarIntToFront` for at most `fuel` turns; `none` if it is still running. -/
def writeVarIntToFrontLoop : Nat → Word → Option Bytes
  | 0, _ => none
  | fuel + 1, input =>
    if input &&& BitVec.ofInt 32 (-128) ≠ 0#32 then
      (writeVarIntToFrontLoop fuel (input.sshiftRight 7)).map
        ((((input &&& 127) ||| 128).setWidth 8 : Byte) :: ·)
    else some [(input &&& 127).setWidth 8]

/-- Six turns decide: by then a non-negative word is used up and a negative one has become `-1`. -/
def writeVarIntToFront (input : Word) : BufferM Unit :=
  match writeVarIntToFrontLoop 6 input with
  | some bytes => Exec.modify (bytes ++ ·)
  | none => Exec.diverge

theorem msb_false_of_nonneg {v : Word} (h : 0 ≤ v.toInt) : v.msb = false := by
  rw [BitVec.msb_eq_toInt]
  simpa using h

theorem writeVarIntToFrontLoop_nonneg (left extra : Nat) (v : Word) (h : 0 ≤ v.toInt)
    (hv : v.toNat < 2 ^ (7 * (left + 1))) :
    writeVarIntToFrontLoop (left + 1 + extra) v = some (writeVarIntLoop left v) := by
  have hlow : ∀ {w : Word}, w &&& BitVec.ofInt 32 (-128) = 0#32 → w &&& 127 = w := by
    intro w hw
    apply BitVec.eq_of_toNat_eq
    rw [BitVec.toNat_and, show (127 : Word).toNat = 2 ^ 7 - 1 from rfl, Nat.and_two_pow_sub_one_eq_mod]
    have := (and_neg128_eq_zero_iff w).mp hw
    omega
  induction left generalizing v with
  | zero =>
    have h0 : v &&& BitVec.ofInt 32 (-128) = 0#32 := (and_neg128_eq_zero_iff v).mpr (by omega)
    rw [Nat.add_comm, ← Nat.add_assoc, writeVarIntToFrontLoop, writeVarIntLoop, if_neg (not_not_intro h0), hlow h0]
  | succ left ih =>
    rw [show left + 1 + 1 + extra = (left + 1 + extra) + 1 by omega, writeVarIntToFrontLoop, writeVarIntLoop]
    by_cases h0 : v &&& BitVec.ofInt 32 (-128) = 0#32
    · rw [if_neg (not_not_intro h0), if_neg (not_not_intro h0), hlow h0]
    · have hmsb := msb_false_of_nonneg h
      have hshift : v.sshiftRight 7 = v >>> 7 := BitVec.sshiftRight_eq_of_msb_false hmsb
      have hlt : (v >>> 7).toNat < 2 ^ (7 * (left + 1)) := toNat_ushiftRight_lt hv
      have hnn : 0 ≤ (v >>> 7).toInt := by
        rw [BitVec.toInt_eq_toNat_of_lt]
        · omega
        · rw [BitVec.toNat_ushiftRight, Nat.shiftRight_eq_div_pow]
          have := v.isLt
          omega
      rw [if_pos h0, if_pos h0, hshift, ih (v >>> 7) hnn hlt, Option.map_some]

/-- On a negative word the loop never stops. -/
theorem writeVarIntToFrontLoop_neg (fuel : Nat) (v : Word) (h : v.toInt < 0) :
    writeVarIntToFrontLoop fuel v = none := by
  induction fuel generalizing v with
  | zero => rfl
  | succ fuel ih =>
    have hbig : ¬ v &&& BitVec.ofInt 32 (-128) = 0#32 := by
      rw [and_neg128_eq_zero_iff]
      rw [BitVec.toInt_eq_toNat_cond] at h
      split at h <;> omega
    have hneg : (v.sshiftRight 7).toInt < 0 := by
      rw [BitVec.toInt_sshiftRight]
      rw [Int.shiftRight_eq_div_pow]
      omega
    rw [writeVarIntToFrontLoop, if_pos hbig, ih _ hneg, Option.map_none]

theorem writeVarIntToFront_nonneg (v : Word) (h : 0 ≤ v.toInt) (b : Bytes) :
    writeVarIntToFront v b = .ok () (writeVarIntToBuffer v ++ b) := by
  have hv : v.toNat < 2 ^ (7 * (4 + 1)) := by have := v.isLt; omega
  rw [writeVarIntToFront, writeVarIntToFrontLoop_nonneg 4 1 v h hv]
  rfl

theorem writeVarIntToFront_eq_ok {v : Word} {b b' : Bytes} {u : Unit} (h : writeVarIntToFront v b = .ok u b') :
    b' = writeVarIntToBuffer v ++ b := by
  rcases Int.lt_or_le v.toInt 0 with hneg | hnn
  · rw [writeVarIntToFront, writeVarIntToFrontLoop_neg 6 v hneg] at h
    cases h
  · rw [writeVarIntToFront_nonneg v hnn b] at h
    cases h
    rfl

def MAX_LENGTH_BYTES : Nat := 3

/-- `getVarIntSize`: the mask is an `int`, sign-extended to the width of the input. -/
def getVarIntSize (input : BitVec 64) : Nat :=
  if input &&& ((BitVec.ofInt 32 (-1) <<< 7).signExtend 64) = 0 then 1
  else if input &&& ((BitVec.ofInt 32 (-1) <<< 14).signExtend 64) = 0 then 2
  else if input &&& ((BitVec.ofInt 32 (-1) <<< 21).signExtend 64) = 0 then 3
  else if input &&& ((BitVec.ofInt 32 (-1) <<< 28).signExtend 64) = 0 then 4
  else 5

/-- A buffer of `size` bytes passes the length check. -/
def FitsFrame (size : Nat) : Prop := getVarIntSize (BitVec.ofNat 64 size) ≤ MAX_LENGTH_BYTES

instance (size : Nat) : Decidable (FitsFrame size) := inferInstanceAs (Decidable (_ ≤ _))

/-- On sizes that fit in memory the length check admits exactly what is below `2 ^ 21` bytes. -/
theorem fitsFrame_iff {size : Nat} (hsize : size < 2 ^ 64) : FitsFrame size ↔ size < 2 ^ 21 := by
  have hmask : ∀ k ∈ [7, 14, 21, 28], ((BitVec.ofInt 32 (-1) <<< k).signExtend 64) = BitVec.allOnes 64 <<< k := by
    decide
  have hnat : (BitVec.ofNat 64 size).toNat = size := by
    rw [BitVec.toNat_ofNat, Nat.mod_eq_of_lt hsize]
  have htest : ∀ k ∈ [7, 14, 21, 28],
      (BitVec.ofNat 64 size &&& ((BitVec.ofInt 32 (-1) <<< k).signExtend 64) = 0 ↔ size < 2 ^ k) := by
    intro k hk
    have h := and_highBits_eq_zero_iff (BitVec.ofNat 64 size) k
    rw [hnat] at h
    rw [hmask k hk]
    exact h
  unfold FitsFrame getVarIntSize MAX_LENGTH_BYTES
  rw [if_congr (htest 7 (by simp)) rfl rfl, if_congr (htest 14 (by simp)) rfl rfl,
    if_congr (htest 21 (by simp)) rfl rfl, if_congr (htest 28 (by simp)) rfl rfl]
  split_ifs <;> omega

def tooLarge (size : Nat) : Exn :=
  .runtimeError ("Packet size too large to prepend! Packet size: " ++
    toString (getVarIntSize (BitVec.ofNat 64 size)))

def writeBufferLengthToFront : BufferM Unit := do
  let buffer ← Exec.get
  if getVarIntSize (BitVec.ofNat 64 buffer.length) > MAX_LENGTH_BYTES then
    Exec.throw (tooLarge buffer.length)
  else writeVarIntToFront (BitVec.ofNat 32 buffer.length)

theorem writeBufferLengthToFront_ok {b : Bytes} (h : FitsFrame b.length) :
    writeBufferLengthToFront b = .ok () (writeVarIntToBuffer (BitVec.ofNat 32 b.length) ++ b) := by
  -- the check sees the length on 64 bits and the writer on 32
  have hmod : BitVec.ofNat 64 (b.length % 2 ^ 64) = BitVec.ofNat 64 b.length := by
    apply BitVec.eq_of_toNat_eq
    rw [BitVec.toNat_ofNat, BitVec.toNat_ofNat, Nat.mod_mod]
  have hfits : FitsFrame (b.length % 2 ^ 64) := by
    rw [FitsFrame, hmod]
    exact h
  have hlt : b.length % 2 ^ 64 < 2 ^ 21 := (fitsFrame_iff (Nat.mod_lt _ (by decide))).mp hfits
  have hnn : 0 ≤ (BitVec.ofNat 32 b.length).toInt := by
    rw [BitVec.toInt_eq_toNat_of_lt] <;> rw [BitVec.toNat_ofNat] <;> omega
  rw [writeBufferLengthToFront, Exec.run_bind_ok (Exec.run_get b), if_neg (by exact Nat.not_lt.mpr h)]
  exact writeVarIntToFront_nonneg _ hnn b

theorem writeBufferLengthToFront_fits {b : Bytes} (h : b.length < 2 ^ 21) :
    writeBufferLengthToFront b = .ok () (writeVarIntToBuffer (BitVec.ofNat 32 b.length) ++ b) :=
  writeBufferLengthToFront_ok ((fitsFrame_iff (by omega)).mpr h)

theorem writeBufferLengthToFront_eq_ok {b b' : Bytes} {u : Unit} (h : writeBufferLengthToFront b = .ok u b') :
    b' = writeVarIntToBuffer (BitVec.ofNat 32 b.length) ++ b := by
  rw [writeBufferLengthToFront, Exec.run_bind_ok (Exec.run_get b)] at h
  split at h
  · cases h
  · exact writeVarIntToFront_eq_ok h

theorem writeBufferLengthToFront_large {b : Bytes} (h : ¬ FitsFrame b.length) :
    writeBufferLengthToFront b = .threw (tooLarge b.length) b := by
  rw [writeBufferLengthToFront, Exec.run_bind_ok (Exec.run_get b), if_pos (by exact Nat.not_le.mp h)]
  rfl

/-- A buffer with its length in front, if it can be framed. -/
def frame (b : Bytes) : Option Bytes :=
  match writeBufferLengthToFront b with
  | .ok _ framed => some framed
  | _ => none

theorem frame_fits {b : Bytes} (h : FitsFrame b.length) :
    frame b = some (writeVarIntToBuffer (BitVec.ofNat 32 b.length) ++ b) := by
  rw [frame, writeBufferLengthToFront_ok h]

theorem frame_large {b : Bytes} (h : ¬ FitsFrame b.length) : frame b = none := by
  rw [frame, writeBufferLengthToFront_large h]

theorem frame_injective {b b' framed : Bytes} (h : frame b = some framed) (h' : frame b' = some framed) : b = b' := by
  have hfits {b : Bytes} (h : frame b = some framed) :
    framed = writeVarIntToBuffer (BitVec.ofNat 32 b.length) ++ b := by
    by_cases hb : FitsFrame b.length
    · rw [frame_fits hb] at h
      exact (Option.some.inj h).symm
    · rw [frame_large hb] at h
      cases h
  have hscan := scanVarInt_write (BitVec.ofNat 32 b.length) b
  have hscan' := scanVarInt_write (BitVec.ofNat 32 b'.length) b'
  rw [← hfits h] at hscan
  rw [← hfits h', hscan] at hscan'
  have hlength : (writeVarIntToBuffer (BitVec.ofNat 32 b.length)).length =
    (writeVarIntToBuffer (BitVec.ofNat 32 b'.length)).length := by
    simpa using congrArg (Option.map (·.size)) hscan'
  exact (List.append_inj ((hfits h).symm.trans (hfits h')) hlength).2

end CeriosCluster.MCPacket
