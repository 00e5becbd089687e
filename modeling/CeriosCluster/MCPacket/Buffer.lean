import CeriosCluster.Lib.Exec
import Mathlib

/-!
# Byte buffers

The `std::vector<std::uint8_t>` buffers of the packet code and what it does to them: copies from
the front, erasures of a prefix, reads and writes of plain values as host (little-endian) bytes. A
copy or an erasure whose length is negative or beyond the end has no defined behaviour.
-/

namespace CeriosCluster.MCPacket

open CeriosCluster.Lib

abbrev Byte := BitVec 8

abbrev Bytes := List Byte

/-- A `std::int32_t` or `std::uint32_t`; `toInt` is the signed reading. -/
abbrev Word := BitVec 32

abbrev Block (n : Nat) := { bytes : Bytes // bytes.length = n }

/-- The exceptions the program throws or lets through. -/
inductive Exn
  | runtimeError (what : String)
  | lengthError
  | invalidArgument
  | outOfRange
  | systemError
  deriving DecidableEq

abbrev BufferM := Exec Exn Bytes

def ascii (text : String) : Bytes := text.toList.map fun c => BitVec.ofNat 8 c.toNat

/-- An `int32_t` converted to `std::size_t`. -/
def asSize (n : Word) : Nat := (n.signExtend 64).toNat

def InBounds (n : Word) (size : Nat) : Prop := 0 ≤ n.toInt ∧ n.toInt ≤ size

instance (n : Word) (size : Nat) : Decidable (InBounds n size) := inferInstanceAs (Decidable (_ ∧ _))

def copyPrefix (n : Word) : BufferM Bytes := do
  let buffer ← Exec.get
  if InBounds n buffer.length then pure (buffer.take n.toNat) else Exec.undefined

def erasePrefix (n : Word) : BufferM Unit := do
  let buffer ← Exec.get
  if InBounds n buffer.length then Exec.set (buffer.drop n.toNat) else Exec.undefined

def clear : BufferM Unit := Exec.set []

/-- A value of `w` bits stored as `n` bytes, lowest first. -/
def podBytes (n : Nat) {w : Nat} (value : BitVec w) : Bytes :=
  (List.range n).map fun i => value.extractLsb' (8 * i) 8

/-- The value of `w` bits that bytes, lowest first, hold. -/
def podOf (w : Nat) (bytes : Bytes) : BitVec w :=
  BitVec.ofNat w (bytes.foldr (fun b acc => b.toNat + 256 * acc) 0)

/-- `readPODFromBuffer`: a value of `n` bytes off the front, or the default on a short buffer. -/
def readPODFromBuffer (n w : Nat) (defaultReturn : BitVec w) : BufferM (BitVec w) := do
  let buffer ← Exec.get
  if buffer.length < n then pure defaultReturn else do
    Exec.set (buffer.drop n)
    pure (podOf w (buffer.take n))

theorem asSize_of_nonneg {n : Word} (h : 0 ≤ n.toInt) : asSize n = n.toNat := by
  have hmsb : n.msb = false := by
    rw [BitVec.msb_eq_false_iff_two_mul_lt]
    rw [BitVec.toInt_eq_toNat_cond] at h
    have := n.isLt
    split at h <;> omega
  rw [asSize, BitVec.toNat_signExtend, hmsb]
  have := n.isLt
  simp only [BitVec.toNat_setWidth, Bool.false_eq_true, if_false, Nat.add_zero]
  omega

theorem asSize_of_neg {n : Word} (h : n.toInt < 0) : asSize n = 2 ^ 64 - (-n.toInt).toNat := by
  have hn := n.isLt
  have hmsb : n.msb = true := by
    rw [BitVec.msb_eq_true_iff_two_mul_ge]
    rw [BitVec.toInt_eq_toNat_cond] at h
    split at h <;> omega
  rw [asSize, BitVec.toNat_signExtend, hmsb]
  simp only [BitVec.toNat_setWidth, if_true]
  rw [BitVec.toInt_eq_toNat_cond] at h ⊢
  split at h
  · omega
  · next hc => rw [if_neg hc]; omega

theorem toNat_eq_of_nonneg {n : Word} (h : 0 ≤ n.toInt) : (n.toNat : Int) = n.toInt := by
  rw [BitVec.toInt_eq_toNat_cond] at h ⊢
  have := n.isLt
  split at h
  · next hc => rw [if_pos hc]
  · omega

section Run

variable {n : Word} {b b' : Bytes} {k w : Nat} {v : BitVec w}

theorem copyPrefix_eq_ok {x : Bytes} :
    copyPrefix n b = .ok x b' ↔ InBounds n b.length ∧ x = b.take n.toNat ∧ b' = b := by
  rw [copyPrefix, Exec.run_bind_ok (Exec.run_get b)]
  by_cases h : InBounds n b.length <;> simp [h, eq_comm]

theorem copyPrefix_eq_undefined : copyPrefix n b = .undefined ↔ ¬ InBounds n b.length := by
  rw [copyPrefix, Exec.run_bind_ok (Exec.run_get b)]
  by_cases h : InBounds n b.length <;> simp [h]

theorem erasePrefix_eq_ok {u : Unit} :
    erasePrefix n b = .ok u b' ↔ InBounds n b.length ∧ b' = b.drop n.toNat := by
  rw [erasePrefix, Exec.run_bind_ok (Exec.run_get b)]
  by_cases h : InBounds n b.length <;> simp [h, eq_comm]

theorem erasePrefix_eq_undefined : erasePrefix n b = .undefined ↔ ¬ InBounds n b.length := by
  rw [erasePrefix, Exec.run_bind_ok (Exec.run_get b)]
  by_cases h : InBounds n b.length <;> simp [h]

theorem clear_ne_undefined : clear b ≠ .undefined := by simp [clear]

theorem readPODFromBuffer_ne_undefined : readPODFromBuffer k w v b ≠ .undefined := by
  rw [readPODFromBuffer, Exec.run_bind_ok (Exec.run_get b)]
  split
  · simp
  · simp [Exec.run_bind]

end Run

/-! ## Plain values -/

theorem length_podBytes {n w : Nat} (value : BitVec w) : (podBytes n value).length = n := by simp [podBytes]

theorem foldr_podBytes (n : Nat) {w : Nat} (value : BitVec w) :
    (podBytes n value).foldr (fun b acc => b.toNat + 256 * acc) 0 = value.toNat % 2 ^ (8 * n) := by
  induction n generalizing value with
  | zero => simp [podBytes, Nat.mod_one]
  | succ n ih =>
    have hbytes : podBytes (n + 1) value = value.extractLsb' 0 8 :: podBytes n (value >>> 8) := by
      rw [podBytes, List.range_succ_eq_map, List.map_cons, List.map_map]
      refine congrArg (_ :: ·) (List.map_congr_left fun i _ => ?_)
      apply BitVec.eq_of_getLsbD_eq
      intro k hk
      simp only [Function.comp_apply, BitVec.getLsbD_extractLsb', BitVec.getLsbD_ushiftRight]
      rw [show 8 * Nat.succ i + k = 8 + (8 * i + k) by omega]
    rw [hbytes, List.foldr_cons, ih, BitVec.toNat_ushiftRight, Nat.shiftRight_eq_div_pow, BitVec.extractLsb'_toNat,
      Nat.shiftRight_zero, show 8 * (n + 1) = 8 + 8 * n by omega, Nat.pow_add, Nat.mod_mul]

/-- **Round trip** of a plain value through all its bytes. -/
theorem podOf_podBytes {n w : Nat} (hw : w = 8 * n) (value : BitVec w) : podOf w (podBytes n value) = value := by
  apply BitVec.eq_of_toNat_eq
  rw [podOf, foldr_podBytes, ← hw, BitVec.toNat_ofNat, Nat.mod_mod, Nat.mod_eq_of_lt value.isLt]

theorem foldr_eq_ofDigits (bytes : Bytes) :
    bytes.foldr (fun b acc => b.toNat + 256 * acc) 0 = Nat.ofDigits 256 (bytes.map (·.toNat)) := by
  rw [Nat.ofDigits_eq_foldr, List.foldr_map]
  rfl

theorem foldr_bytes_lt (bytes : Bytes) : bytes.foldr (fun b acc => b.toNat + 256 * acc) 0 < 2 ^ (8 * bytes.length) := by
  have hlt := Nat.ofDigits_lt_base_pow_length (b := 256) (l := bytes.map (·.toNat)) (by decide) fun x hx => by
    obtain ⟨b, -, rfl⟩ := List.mem_map.mp hx
    exact b.isLt
  rw [foldr_eq_ofDigits, Nat.pow_mul]
  rwa [List.length_map] at hlt

/-- **Round trip** of bytes through the plain value they hold. -/
theorem podBytes_podOf {n : Nat} (bytes : Block n) : podBytes n (podOf (8 * n) bytes.val) = bytes.val := by
  obtain ⟨bytes, rfl⟩ := bytes
  have hlt := foldr_bytes_lt bytes
  have hvalue : (podBytes bytes.length (podOf (8 * bytes.length) bytes)).foldr (fun b acc => b.toNat + 256 * acc) 0 =
      bytes.foldr (fun b acc => b.toNat + 256 * acc) 0 := by
    rw [foldr_podBytes, podOf, BitVec.toNat_ofNat, Nat.mod_mod, Nat.mod_eq_of_lt hlt]
  have hbytes {l : Bytes} : ∀ x ∈ l.map (·.toNat), x < 256 := by
    intro x hx
    obtain ⟨b, -, rfl⟩ := List.mem_map.mp hx
    exact b.isLt
  rw [foldr_eq_ofDigits, foldr_eq_ofDigits] at hvalue
  have hmap := Nat.ofDigits_inj_of_len_eq (by decide) (by simp [length_podBytes]) hbytes hbytes hvalue
  exact List.map_injective_iff.mpr (fun a b h => BitVec.eq_of_toNat_eq h) hmap

theorem toInt_ofNat_size {size : Nat} (h : size < 2 ^ 31) : (BitVec.ofNat 32 size).toInt = size := by
  have hword : (BitVec.ofNat 32 size).toNat = size := by
    rw [BitVec.toNat_ofNat]
    omega
  rw [BitVec.toInt_eq_toNat_of_lt (by omega), hword]

/-- The largest `std::vector<std::uint8_t>` or `std::string`. -/
def maxSize : Nat := 2 ^ 63 - 1

/-- On buffers that fit in memory, the mixed-sign test `buffer.size() >= n` admits exactly the lengths
inside the buffer. -/
theorem asSize_le_iff {n : Word} {size : Nat} (hsize : size ≤ maxSize) : asSize n ≤ size ↔ InBounds n size := by
  unfold InBounds
  unfold maxSize at hsize
  by_cases h : 0 ≤ n.toInt
  · rw [asSize_of_nonneg h]
    have := toNat_eq_of_nonneg h
    omega
  · have hlow : -n.toInt ≤ 2 ^ 31 := by
      have := BitVec.le_toInt n
      simp only [Nat.add_one_sub_one] at this
      omega
    rw [asSize_of_neg (by omega)]
    omega

end CeriosCluster.MCPacket
