import CeriosCluster.MCPacket.Bitfield

/-!
# The fields of a `Position`

An assignment to a field masks and shifts in 32 bits what it ORs into 64. `x` lies in the low bits and is stored
whole; of `y` the upper six bits are lost, and its sixth is copied into `z`; for `z` the shift is wider than the
type. The getters read a field without its sign.
-/

namespace CeriosCluster.MCPacket

open CeriosCluster.Lib

/-! ## One assignment, bit by bit -/

def BitField.Covers (index bits k : Nat) : Prop := index ≤ k ∧ k < index + bits

instance (index bits k : Nat) : Decidable (BitField.Covers index bits k) := inferInstanceAs (Decidable (_ ∧ _))

/-- What an assignment of `value` ORs into the storage, before it is converted to it. -/
def BitField.shifted (index bits : Nat) (wideShift : Word → Nat → Word) (value : Word) : Word :=
  shiftInt wideShift (value &&& ((1#32 <<< bits) - 1#32)) index

def signBit (n : Word) (k : Nat) : Bool := if k < 32 then n.getLsbD k else n.msb

section Bits

variable {index bits k : Nat} {wideShift : Word → Nat → Word} {raw : BitVec 64} {value : Word}

theorem getLsbD_mask (hbits : bits < 32) : ((1#32 <<< bits) - 1#32).getLsbD k = decide (k < bits) := by
  have hlt : 2 ^ bits < 2 ^ 32 := Nat.pow_lt_pow_right (by decide) hbits
  have hpos : 0 < 2 ^ bits := Nat.two_pow_pos bits
  have hmask : (1#32 <<< bits) - 1#32 = BitVec.ofNat 32 (2 ^ bits - 1) := by
    apply BitVec.eq_of_toNat_eq
    rw [BitVec.toNat_sub, BitVec.toNat_shiftLeft, BitVec.toNat_ofNat, BitVec.toNat_ofNat, Nat.shiftLeft_eq]
    omega
  rw [hmask, BitVec.getLsbD_ofNat, Nat.testBit_two_pow_sub_one]
  by_cases hk : k < 32
  · simp [hk]
  · simp [hk]
    omega

theorem decide_covers : decide (BitField.Covers index bits k) = (!decide (k < index) && decide (k - index < bits)) := by
  rw [Bool.eq_iff_iff, decide_eq_true_eq]
  simp only [Bool.and_eq_true, Bool.not_eq_true', decide_eq_true_eq, decide_eq_false_iff_not]
  unfold BitField.Covers
  omega

theorem le_minimumType (h : index + bits ≤ 64) :
    index + bits ≤ minimumType (index + bits) ∧ minimumType (index + bits) ≤ 64 := by
  unfold minimumType
  split_ifs <;> omega

/-- The field's own bits are what is shifted in; the other bits of the storage keep what they held, or are set. -/
theorem getLsbD_assign (hbits : bits < 32) (hlast : index + bits ≤ 64) (hk : k < 64) :
    (BitField.assign index bits wideShift raw value).getLsbD k =
      if k < minimumType (index + bits) then
        (raw.getLsbD k && !decide (BitField.Covers index bits k)) ||
          signBit (BitField.shifted index bits wideShift value) k
      else raw.getLsbD k := by
  obtain ⟨hfits, hwidth⟩ := le_minimumType hlast
  unfold BitField.assign BitField.shifted signBit
  dsimp only
  generalize minimumType (index + bits) = width at hfits hwidth
  simp only [BitVec.getLsbD_or, BitVec.getLsbD_shiftLeft, BitVec.getLsbD_ushiftRight, BitVec.getLsbD_setWidth,
    BitVec.getLsbD_and, BitVec.getLsbD_not, BitVec.getLsbD_signExtend, getLsbD_mask hbits, hk, decide_true,
      Bool.true_and, decide_covers]
  by_cases hw : k < width
  · have hlow : (decide (k - index < width) && decide (k - index < bits)) = decide (k - index < bits) := by
      rw [Bool.eq_iff_iff, Bool.and_eq_true, decide_eq_true_eq, decide_eq_true_eq]
      omega
    simp only [hw, decide_true, Bool.true_and, Bool.not_true, Bool.false_and, Bool.false_or, if_true, hlow]
  · simp only [hw, decide_false, Bool.false_and, Bool.not_false, Bool.true_and, Bool.or_false, if_false]
    rw [show width + (k - width) = k by omega]

end Bits

/-! ## Assignments to `x`, `y` and `z` -/

inductive Assignment
  | x (value : Word)
  | y (value : BitVec 16)
  | z (value : Word)

namespace Assignment

def index : Assignment → Nat
  | .x _ => 0
  | .y _ => 26
  | .z _ => 38

def bits : Assignment → Nat
  | .x _ => 26
  | .y _ => 12
  | .z _ => 26

def promoted : Assignment → Word
  | .x value => value
  | .y value => value.signExtend 32
  | .z value => value

def perform (wideShift : Word → Nat → Word) (raw : BitVec 64) (a : Assignment) : BitVec 64 :=
  BitField.assign a.index a.bits wideShift raw a.promoted

/-- The field holds the value, modulo what fits in it, and every other bit is as it was. -/
def Stores (wideShift : Word → Nat → Word) (raw : BitVec 64) (a : Assignment) : Prop :=
  ((a.perform wideShift raw).toNat / 2 ^ a.index % 2 ^ a.bits : Int) = a.promoted.toInt % 2 ^ a.bits ∧
    ∀ k, k < 64 → ¬ BitField.Covers a.index a.bits k → (a.perform wideShift raw).getLsbD k = raw.getLsbD k

/-- Of `y` the low five bits are stored right, or also a value whose upper seven bits are all set, if those of `z` are
set already. The over-wide shift for `z` has to give the sign that all its bits have, and no other bit that is not
set already. -/
def Fits (wideShift : Word → Nat → Word) (raw : BitVec 64) : Assignment → Prop
  | .x _ => True
  | .y value => value.toInt % 2 ^ 12 < 32 ∨ 4064 ≤ value.toInt % 2 ^ 12 ∧ ∀ k, 38 ≤ k → k < 64 → raw.getLsbD k = true
  | .z value =>
    let shifted := BitField.shifted 38 26 wideShift value
    value.toInt % 2 ^ 26 = (if shifted.toInt < 0 then 2 ^ 26 - 1 else 0) ∧
      ∀ k, k < 38 → signBit shifted k = true → raw.getLsbD k = true

end Assignment

section Stores

variable {wideShift : Word → Nat → Word} {raw : BitVec 64} {a : Assignment}

theorem toInt_emod_two_pow {w bits : Nat} (n : BitVec w) (h : bits ≤ w) :
    n.toInt % 2 ^ bits = (n.setWidth bits).toNat := by
  have hdvd : (2 ^ bits : Int) ∣ ((2 ^ w : Nat) : Int) := by
    push_cast
    exact pow_dvd_pow 2 h
  rw [BitVec.toNat_setWidth, BitVec.toInt_eq_toNat_bmod, ← Int.emod_emod_of_dvd _ hdvd, Int.bmod_emod,
    Int.emod_emod_of_dvd _ hdvd]
  push_cast
  rfl

theorem toNat_range (raw : BitVec 64) (index bits : Nat) :
    raw.toNat / 2 ^ index % 2 ^ bits = (raw.extractLsb' index bits).toNat := by
  rw [BitVec.extractLsb'_toNat, Nat.shiftRight_eq_div_pow]

/-- The field's own bits have to be those of the value, and no other bit may be set. -/
theorem stores_iff_bits : a.Stores wideShift raw ↔
    (∀ k, BitField.Covers a.index a.bits k →
      signBit (BitField.shifted a.index a.bits wideShift a.promoted) k = a.promoted.getLsbD (k - a.index)) ∧
    ∀ k, k < minimumType (a.index + a.bits) → ¬ BitField.Covers a.index a.bits k →
      signBit (BitField.shifted a.index a.bits wideShift a.promoted) k = true → raw.getLsbD k = true := by
  have hbits : a.bits < 32 := by cases a <;> simp [Assignment.bits]
  have hlast : a.index + a.bits ≤ 64 := by cases a <;> simp [Assignment.index, Assignment.bits]
  obtain ⟨hfits, hwidth⟩ := le_minimumType hlast
  have hbit {k : Nat} (hk : k < 64) : (a.perform wideShift raw).getLsbD k = _ := getLsbD_assign hbits hlast hk
  unfold Assignment.Stores
  refine and_congr ?_ ?_
  · have hrange : ((a.perform wideShift raw).toNat / 2 ^ a.index % 2 ^ a.bits : Int) =
        (((a.perform wideShift raw).extractLsb' a.index a.bits).toNat : Nat) := by
      rw [← toNat_range]
      push_cast
      rfl
    rw [toInt_emod_two_pow _ (Nat.le_of_lt hbits), hrange, Nat.cast_inj, BitVec.toNat_inj]
    have hfield {k : Nat} (hk : k < a.bits) : ((a.perform wideShift raw).extractLsb' a.index a.bits).getLsbD k =
        signBit (BitField.shifted a.index a.bits wideShift a.promoted) (a.index + k) := by
      have hcovers : BitField.Covers a.index a.bits (a.index + k) := ⟨by omega, by omega⟩
      rw [BitVec.getLsbD_extractLsb', hbit (by omega), if_pos (by omega)]
      simp [hk, hcovers]
    have hvalue {k : Nat} (hk : k < a.bits) : (a.promoted.setWidth a.bits).getLsbD k = a.promoted.getLsbD k := by
      rw [BitVec.getLsbD_setWidth, decide_eq_true hk, Bool.true_and]
    constructor
    · intro h k hk
      have hlow : k - a.index < a.bits := by
        unfold BitField.Covers at hk
        omega
      rw [← hvalue hlow, ← h, hfield hlow, Nat.add_sub_cancel' hk.1]
    · intro h
      apply BitVec.eq_of_getLsbD_eq
      intro k hk
      rw [hfield hk, hvalue hk, h _ ⟨by omega, by omega⟩, Nat.add_sub_cancel_left]
  · refine ⟨fun h k hk hout hset => ?_, fun h k hk hout => ?_⟩
    · rw [← h k (by omega) hout, hbit (by omega), if_pos hk, hset, Bool.or_true]
    · rw [hbit hk]
      split
      · next hin =>
        simp only [hout, decide_false, Bool.not_false, Bool.and_true]
        exact Bool.or_eq_left_iff_imp.mpr (h k hin hout)
      · rfl

theorem getLsbD_shifted {index bits k : Nat} {value : Word} (hindex : index < 32) (hbits : bits < 32) (hk : k < 32) :
    (BitField.shifted index bits wideShift value).getLsbD k =
    (decide (BitField.Covers index bits k) && value.getLsbD (k - index)) := by
  rw [BitField.shifted, shiftInt, if_pos hindex, BitVec.getLsbD_shiftLeft, BitVec.getLsbD_and, getLsbD_mask hbits]
  rw [decide_covers, decide_eq_true hk, Bool.true_and, Bool.and_comm (value.getLsbD _), Bool.and_assoc]

theorem signBit_of_lt {n : Word} {k : Nat} (h : k < 32) : signBit n k = n.getLsbD k := if_pos h

theorem signBit_of_le {n : Word} {k : Nat} (h : 32 ≤ k) : signBit n k = n.msb := if_neg (by omega)

theorem signBit_shifted {index bits k : Nat} {value : Word} (hindex : index < 32) (hbits : bits < 32) (hk : k < 32) :
    signBit (BitField.shifted index bits wideShift value) k =
      (decide (BitField.Covers index bits k) && value.getLsbD (k - index)) := by
  rw [signBit_of_lt hk, getLsbD_shifted hindex hbits hk]

theorem stores_x (value : Word) : (Assignment.x value).Stores wideShift raw := by
  have hbit {k : Nat} (hk : k < 32) : signBit (BitField.shifted 0 26 wideShift value) k =
      (decide (BitField.Covers 0 26 k) && value.getLsbD k) := signBit_shifted (by decide) (by decide) hk
  refine stores_iff_bits.mpr ⟨fun k hk => ?_, fun k hk hout hset => ?_⟩
  · have hlow : k < 26 := by simpa [BitField.Covers, Assignment.index, Assignment.bits] using hk
    have hcovers : BitField.Covers 0 26 k := hk
    simp only [Assignment.index, Assignment.bits, Assignment.promoted]
    rw [hbit (by omega), decide_eq_true hcovers, Bool.true_and, Nat.sub_zero]
  · have hnot : ¬ BitField.Covers 0 26 k := hout
    simp only [Assignment.index, Assignment.bits, Assignment.promoted] at hset hk
    rw [hbit hk, decide_eq_false hnot, Bool.false_and] at hset
    cases hset

theorem range_alike_iff {w : Nat} (n : BitVec w) (index bits : Nat) (b : Bool) :
    (∀ k, BitField.Covers index bits k → n.getLsbD k = b) ↔
      n.toNat / 2 ^ index % 2 ^ bits = if b = true then 2 ^ bits - 1 else 0 := by
  have hvalue : (if b = true then BitVec.allOnes bits else (0 : BitVec bits)).toNat = if b =
    true then 2 ^ bits - 1 else 0 := by
    split <;> simp
  rw [← hvalue, ← Nat.shiftRight_eq_div_pow, ← BitVec.extractLsb'_toNat, BitVec.toNat_inj]
  have hbit {k : Nat} (hk : k < bits) : (if b = true then BitVec.allOnes bits else (0 : BitVec bits)).getLsbD k =
    b := by
    cases b <;> simp [hk]
  constructor
  · intro h
    apply BitVec.eq_of_getLsbD_eq
    intro k hk
    rw [hbit hk, BitVec.getLsbD_extractLsb', decide_eq_true hk, Bool.true_and]
    exact h _ ⟨by omega, by omega⟩
  · rintro h k ⟨hlow, hhigh⟩
    have hk : k - index < bits := by omega
    have hat := congrArg (fun x => x.getLsbD (k - index)) h
    simp only [hbit hk, BitVec.getLsbD_extractLsb', decide_eq_true hk, Bool.true_and, Nat.add_sub_cancel' hlow] at hat
    exact hat

theorem signBit_y {k : Nat} {value : Word} (hk : 32 ≤ k) :
    signBit (BitField.shifted 26 12 wideShift value) k = value.getLsbD 5 := by
  rw [signBit_of_le hk, BitVec.msb_eq_getLsbD_last, getLsbD_shifted (by decide) (by decide) (by decide)]
  rfl

/-- The bits of `y` are those of the value if its upper seven bits are alike. -/
theorem field_y_iff (value : Word) :
    (∀ k, BitField.Covers 26 12 k → signBit (BitField.shifted 26 12 wideShift value) k = value.getLsbD (k - 26)) ↔
      ∀ k, BitField.Covers 5 7 k → value.getLsbD k = value.getLsbD 5 := by
  unfold BitField.Covers
  refine ⟨fun h k hk => ?_, fun h k hk => ?_⟩
  · rcases Nat.eq_or_lt_of_le hk.1 with rfl | hsixth
    · rfl
    · have hbit := h (26 + k) ⟨by omega, by omega⟩
      rw [signBit_y (by omega), Nat.add_sub_cancel_left] at hbit
      exact hbit.symm
  · by_cases hin : k < 32
    · have hcovers : BitField.Covers 26 12 k := hk
      rw [signBit_shifted (by decide) (by decide) hin, decide_eq_true hcovers, Bool.true_and]
    · rw [signBit_y (by omega), h (k - 26) ⟨by omega, by omega⟩]

/-- The bits outside `y` that are set are those of `z`, by the sign. -/
theorem others_y_iff (value : Word) :
    (∀ k, k < minimumType (26 + 12) → ¬ BitField.Covers 26 12 k →
      signBit (BitField.shifted 26 12 wideShift value) k = true → raw.getLsbD k = true) ↔
        (value.getLsbD 5 = true → ∀ k, 38 ≤ k → k < 64 → raw.getLsbD k = true) := by
  rw [show minimumType (26 + 12) = 64 from rfl]
  refine ⟨fun h hset k hk hlt => h k hlt (fun hin => ?_) (by rw [signBit_y (by omega), hset]),
    fun h k hk hout hset => ?_⟩
  · unfold BitField.Covers at hin
    omega
  · by_cases hin : k < 32
    · rw [signBit_shifted (by decide) (by decide) hin, decide_eq_false hout, Bool.false_and] at hset
      cases hset
    · rw [signBit_y (by omega)] at hset
      unfold BitField.Covers at hout
      exact h hset k (by omega) hk

theorem stores_y_iff (value : BitVec 16) :
    (Assignment.y value).Stores wideShift raw ↔ (Assignment.y value).Fits wideShift raw := by
  have hvalue : value.toInt % 2 ^ 12 = ((value.signExtend 32).toNat % 2 ^ 12 : Nat) := by
    have hsame : (value.signExtend 32).toInt = value.toInt := BitVec.toInt_signExtend_of_le (by decide)
    rw [← hsame, toInt_emod_two_pow _ (by decide), BitVec.toNat_setWidth]
  have hsixth : (value.signExtend 32).getLsbD 5 = decide ((value.signExtend 32).toNat / 2 ^ 5 % 2 = 1) := by
    rw [BitVec.getLsbD, Nat.testBit_eq_decide_div_mod_eq]
  rw [stores_iff_bits]
  simp only [Assignment.index, Assignment.bits, Assignment.promoted, Assignment.Fits]
  rw [field_y_iff, others_y_iff, range_alike_iff, hvalue, hsixth]
  norm_cast
  by_cases hset : (value.signExtend 32).toNat / 2 ^ 5 % 2 = 1
  · rw [decide_eq_true hset, if_pos rfl]
    simp only [true_imp_iff]
    constructor
    · rintro ⟨hrange, hraw⟩
      exact Or.inr ⟨by omega, hraw⟩
    · rintro (hsmall | ⟨hlarge, hraw⟩)
      · omega
      · exact ⟨by omega, hraw⟩
  · rw [decide_eq_false hset]
    simp only [Bool.false_eq_true, if_false, false_imp_iff, and_true]
    constructor
    · intro hrange
      exact Or.inl (by omega)
    · rintro (hsmall | ⟨hlarge, -⟩) <;> omega

theorem stores_z_iff (value : Word) :
    (Assignment.z value).Stores wideShift raw ↔ (Assignment.z value).Fits wideShift raw := by
  rw [stores_iff_bits]
  simp only [Assignment.index, Assignment.bits, Assignment.promoted, Assignment.Fits]
  generalize BitField.shifted 38 26 wideShift value = shifted
  refine and_congr ?_ ?_
  · have hfield : (∀ k, BitField.Covers 38 26 k → signBit shifted k = value.getLsbD (k - 38)) ↔
        ∀ k, BitField.Covers 0 26 k → value.getLsbD k = shifted.msb := by
      unfold BitField.Covers
      refine ⟨fun h k hk => ?_, fun h k hk => ?_⟩
      · have hbit := h (38 + k) ⟨by omega, by omega⟩
        rw [signBit_of_le (by omega), Nat.add_sub_cancel_left] at hbit
        exact hbit.symm
      · rw [signBit_of_le (by omega), h (k - 38) ⟨by omega, by omega⟩]
    have hmsb : shifted.msb = true ↔ shifted.toInt < 0 := by
      rw [BitVec.msb_eq_toInt, decide_eq_true_eq]
    rw [hfield, range_alike_iff, toInt_emod_two_pow _ (by decide), BitVec.toNat_setWidth]
    by_cases hneg : shifted.toInt < 0
    · rw [if_pos (hmsb.mpr hneg), if_pos hneg]
      omega
    · rw [if_neg (mt hmsb.mp hneg), if_neg hneg]
      omega
  · rw [show minimumType (38 + 26) = 64 from rfl]
    unfold BitField.Covers
    exact ⟨fun h k hk => h k (by omega) (by omega), fun h k hk hout => h k (by omega)⟩

end Stores

/-- **A field and the bits around it**: which assignments store their value, and nothing but it. -/
theorem stores_iff (wideShift : Word → Nat → Word) (raw : BitVec 64) (a : Assignment) :
    a.Stores wideShift raw ↔ a.Fits wideShift raw := by
  cases a with
  | x value => exact ⟨fun _ => trivial, fun _ => stores_x value⟩
  | y value => exact stores_y_iff value
  | z value => exact stores_z_iff value

/-- A `y` of 64, which the default position has, is stored as nothing. -/
theorem default_y_not_stored :
    ¬ ∀ (wideShift : Word → Nat → Word) (raw : BitVec 64) (a : Assignment), a.Stores wideShift raw := by
  intro h
  have hfits := (stores_y_iff 64).mp (h (fun _ _ => 0) 0 (.y 64))
  exact absurd hfits (by simp [Assignment.Fits])

/-! ## Positions -/

/-- `BitField<index, bits>::operator T`. -/
def BitField.read (index bits : Nat) (raw : BitVec 64) : BitVec (minimumType (index + bits)) :=
  (raw.setWidth _ >>> index) &&& ((1#32 <<< bits) - 1#32).setWidth _

def Position.getX (raw : BitVec 64) : Word := (BitField.read 0 26 raw).setWidth 32

def Position.getY (raw : BitVec 64) : BitVec 16 := (BitField.read 26 12 raw).setWidth 16

def Position.getZ (raw : BitVec 64) : Word := (BitField.read 38 26 raw).setWidth 32

/-- Coordinates that a position has room for, as signed numbers. -/
structure Coordinates where
  x : Word
  y : BitVec 16
  z : Word
  x_range : -2 ^ 25 ≤ x.toInt ∧ x.toInt < 2 ^ 25
  y_range : -2 ^ 11 ≤ y.toInt ∧ y.toInt < 2 ^ 11
  z_range : -2 ^ 25 ≤ z.toInt ∧ z.toInt < 2 ^ 25

namespace Coordinates

def position (wideShift : Word → Nat → Word) (raw : BitVec 64) (c : Coordinates) : BitVec 64 :=
  Position.make wideShift raw c.x c.y c.z

def ReadBack (wideShift : Word → Nat → Word) (raw : BitVec 64) (c : Coordinates) : Prop :=
  Position.getX (c.position wideShift raw) = c.x ∧ Position.getY (c.position wideShift raw) = c.y ∧
    Position.getZ (c.position wideShift raw) = c.z

/-- No other coordinates make the same position. -/
def Distinguished (wideShift : Word → Nat → Word) (raw : BitVec 64) (c : Coordinates) : Prop :=
  ∀ c' : Coordinates, c' ≠ c → c'.position wideShift raw ≠ c.position wideShift raw

end Coordinates

section Position

variable {wideShift : Word → Nat → Word} {raw : BitVec 64} {x z : Word} {y : BitVec 16} {index bits k : Nat}

theorem getLsbD_read (hbits : bits < 32) (hlast : index + bits ≤ 64) :
    (BitField.read index bits raw).getLsbD k = (decide (k < bits) && raw.getLsbD (index + k)) := by
  obtain ⟨hfits, -⟩ := le_minimumType hlast
  unfold BitField.read
  generalize minimumType (index + bits) = width at hfits
  simp only [BitVec.getLsbD_and, BitVec.getLsbD_ushiftRight, BitVec.getLsbD_setWidth, getLsbD_mask hbits]
  by_cases hk : k < bits
  · have hin : index + k < width := by omega
    have hin' : k < width := by omega
    simp [hk, hin, hin']
  · simp [hk]

theorem getLsbD_make (hk : k < 64) :
    (Position.make wideShift raw x y z).getLsbD k =
      (signBit (BitField.shifted 38 26 wideShift z) k ||
        if k < 26 then x.getLsbD k else if k < 32 then y.getLsbD (k - 26) else if k <
          38 then y.getLsbD 5 else false) := by
  have hy {j : Nat} (hj : j < 12) : (y.signExtend 32).getLsbD j = y.getLsbD j := by
    rw [BitVec.getLsbD_signExtend, decide_eq_true (by omega), Bool.true_and, if_pos (by omega)]
  unfold Position.make
  dsimp only
  rw [getLsbD_assign (by decide) (by decide) hk, getLsbD_assign (by decide) (by decide) hk,
    getLsbD_assign (by decide) (by decide) hk, show minimumType (38 + 26) = 64 from rfl,
    show minimumType (26 + 12) = 64 from rfl, show minimumType (0 + 26) = 32 from rfl, if_pos hk, if_pos hk,
    Bool.or_comm]
  congr 1
  by_cases hfirst : k < 26
  · have hx : signBit (BitField.shifted 0 26 wideShift x) k = x.getLsbD k := by
      rw [signBit_of_lt (by omega), getLsbD_shifted (by decide) (by decide) (by omega), decide_covers]
      simp [hfirst]
    have hnone : signBit (BitField.shifted 26 12 wideShift (y.signExtend 32)) k = false := by
      rw [signBit_of_lt (by omega), getLsbD_shifted (by decide) (by decide) (by omega), decide_covers]
      simp [hfirst]
    rw [if_pos (by omega), if_pos hfirst, hx, hnone]
    simp [decide_covers, hfirst]
    omega
  · rw [if_neg hfirst]
    by_cases hsecond : k < 38
    · have hbit : signBit (BitField.shifted 26 12 wideShift (y.signExtend 32)) k =
          if k < 32 then y.getLsbD (k - 26) else y.getLsbD 5 := by
        by_cases hin : k < 32
        · rw [signBit_of_lt hin, getLsbD_shifted (by decide) (by decide) hin, if_pos hin, hy (by omega), decide_covers]
          simp [hfirst]
          omega
        · rw [signBit_of_le (by omega), BitVec.msb_eq_getLsbD_last, getLsbD_shifted (by decide) (by decide) (by decide),
            if_neg hin, ← hy (by decide)]
          rfl
      rw [hbit, if_pos hsecond]
      simp [decide_covers, hfirst, hsecond]
      omega
    · have hcovers : BitField.Covers 38 26 k := ⟨by omega, by omega⟩
      have hin : ¬ k < 32 := by omega
      simp [hcovers, hsecond, hin]

theorem getLsbD_getX (hk : k < 32) : (Position.getX (Position.make wideShift raw x y z)).getLsbD k =
    (decide (k < 26) && (signBit (BitField.shifted 38 26 wideShift z) k || x.getLsbD k)) := by
  rw [Position.getX, BitVec.getLsbD_setWidth, decide_eq_true hk, Bool.true_and, getLsbD_read (by decide) (by decide),
    Nat.zero_add, getLsbD_make (by omega)]
  by_cases hlow : k < 26 <;> simp [hlow]

theorem getLsbD_getY (hk : k < 16) : (Position.getY (Position.make wideShift raw x y z)).getLsbD k =
    (decide (k < 12) && (signBit (BitField.shifted 38 26 wideShift z) (26 + k) || y.getLsbD
      (if k < 6 then k else 5))) := by
  rw [Position.getY, BitVec.getLsbD_setWidth, decide_eq_true hk, Bool.true_and, getLsbD_read (by decide) (by decide),
    getLsbD_make (by omega), if_neg (by omega), Nat.add_sub_cancel_left]
  by_cases hfield : k < 12
  · by_cases hlow : k < 6
    · rw [if_pos (by omega), if_pos hlow]
    · rw [if_neg (by omega), if_pos (by omega), if_neg hlow]
  · simp [hfield]

theorem getLsbD_getZ (hk : k < 32) : (Position.getZ (Position.make wideShift raw x y z)).getLsbD k =
    (decide (k < 26) && (BitField.shifted 38 26 wideShift z).msb) := by
  rw [Position.getZ, BitVec.getLsbD_setWidth, decide_eq_true hk, Bool.true_and, getLsbD_read (by decide) (by decide)]
  by_cases hlow : k < 26
  · rw [getLsbD_make (by omega), if_neg (by omega), if_neg (by omega), if_neg (by omega), Bool.or_false,
      signBit_of_le (by omega)]
  · simp [hlow]

theorem make_congr_y {y' : BitVec 16} (h : ∀ k, k < 6 → y'.getLsbD k = y.getLsbD k) :
    Position.make wideShift raw x y' z = Position.make wideShift raw x y z := by
  apply BitVec.eq_of_getLsbD_eq
  intro k hk
  rw [getLsbD_make hk, getLsbD_make hk, h 5 (by decide)]
  by_cases hin : k < 26
  · rw [if_pos hin, if_pos hin]
  · by_cases hlow : k < 32
    · rw [if_neg hin, if_neg hin, if_pos hlow, if_pos hlow, h (k - 26) (by omega)]
    · rw [if_neg hin, if_neg hin, if_neg hlow, if_neg hlow]

theorem getLsbD_of_toNat_lt {w : Nat} {n : BitVec w} {j k : Nat} (h : n.toNat < 2 ^ j) (hk : j ≤ k) :
    n.getLsbD k = false := by
  rw [BitVec.getLsbD]
  exact Nat.testBit_lt_two_pow (Nat.lt_of_lt_of_le h (Nat.pow_le_pow_right (by decide) hk))

theorem toNat_lt_of_getLsbD {w : Nat} {n : BitVec w} {j : Nat} (h : ∀ k, j ≤ k → k < w → n.getLsbD k = false) :
    n.toNat < 2 ^ j := by
  refine Nat.lt_pow_two_of_testBit _ fun k hk => ?_
  by_cases hw : k < w
  · exact h k hk hw
  · exact BitVec.getLsbD_of_ge n k (by omega)

end Position

namespace Coordinates

variable {wideShift : Word → Nat → Word} {raw : BitVec 64}

/-- The coordinates that survive: `x` not negative, `y` below 32, no `z`, and an over-wide shift of `0` that gives no
bit that is not one of theirs. -/
def Survive (wideShift : Word → Nat → Word) (c : Coordinates) : Prop :=
  0 ≤ c.x.toInt ∧ 0 ≤ c.y.toInt ∧ c.y.toInt < 32 ∧ c.z = 0 ∧
    wideShift 0 38 ||| (c.x ||| c.y.signExtend 32 <<< 26) = (c.x ||| c.y.signExtend 32 <<< 26)

/-- Moving `y` by 64 makes the same position. -/
theorem not_distinguished (c : Coordinates) : ¬ c.Distinguished wideShift raw := by
  intro h
  let y' : BitVec 16 := BitVec.ofInt 16 (if c.y.toInt < 0 then c.y.toInt + 64 else c.y.toInt - 64)
  obtain ⟨hlow, hhigh⟩ := c.y_range
  have hy' : y'.toInt = if c.y.toInt < 0 then c.y.toInt + 64 else c.y.toInt - 64 := by
    refine BitVec.toInt_ofInt_eq_self (by decide) ?_ ?_ <;> split <;> omega
  refine h ⟨c.x, y', c.z, c.x_range, ?_, c.z_range⟩ (fun heq => ?_) (make_congr_y fun k hk => ?_)
  · rw [hy']
    split <;> omega
  · have hsame := congrArg (fun c => c.y.toInt) heq
    simp only [hy'] at hsame
    split at hsame <;> omega
  · have hcongr : y'.setWidth 6 = c.y.setWidth 6 := by
      apply BitVec.eq_of_toNat_eq
      rw [← Nat.cast_inj (R := Int), ← toInt_emod_two_pow _ (by decide), ← toInt_emod_two_pow _ (by decide), hy']
      split <;> omega
    have hbit := congrArg (fun n => n.getLsbD k) hcongr
    simpa [hk] using hbit

theorem getLsbD_of_nonneg {w j k : Nat} {n : BitVec w} (h : 0 ≤ n.toInt) (hlt : n.toInt < 2 ^ j) (hk : j ≤ k) :
    n.getLsbD k = false := by
  have hnat : (n.toNat : Int) = n.toInt := by
    have hmsb : n.msb = false := by
      rw [BitVec.msb_eq_toInt]
      simpa using h
    rw [BitVec.toInt_eq_toNat_of_msb hmsb]
  refine getLsbD_of_toNat_lt ?_ hk
  exact_mod_cast hnat ▸ hlt

theorem or_eq_right_iff {w : Nat} {m n : BitVec w} :
    m ||| n = n ↔ ∀ k, k < w → m.getLsbD k = true → n.getLsbD k = true := by
  constructor
  · intro h k _ hk
    rw [← h, BitVec.getLsbD_or, hk, Bool.true_or]
  · intro h
    apply BitVec.eq_of_getLsbD_eq
    intro k hk
    rw [BitVec.getLsbD_or, Bool.or_eq_right_iff_imp.mpr (h k hk)]

theorem getLsbD_low (c : Coordinates) {k : Nat} (hk : k < 32) (hx : ∀ k, 26 ≤ k → c.x.getLsbD k = false) :
    (c.x ||| c.y.signExtend 32 <<< 26).getLsbD k = if k < 26 then c.x.getLsbD k else c.y.getLsbD (k - 26) := by
  rw [BitVec.getLsbD_or, BitVec.getLsbD_shiftLeft, BitVec.getLsbD_signExtend, decide_eq_true hk, Bool.true_and,
    decide_eq_true (show k - 26 < 32 by omega), Bool.true_and, if_pos (show k - 26 < 16 by omega)]
  by_cases hin : k < 26
  · simp [hin]
  · simp [hin, hx k (by omega)]

theorem nonneg_of_last_bit {w : Nat} {n : BitVec w} (h : n.getLsbD (w - 1) = false) : 0 ≤ n.toInt := by
  rw [← BitVec.msb_eq_getLsbD_last, BitVec.msb_eq_toInt, decide_eq_false_iff_not] at h
  omega

theorem readBack_iff_bits (c : Coordinates) : c.ReadBack wideShift raw ↔
    (∀ k, k < 32 → (decide (k < 26) && (signBit (BitField.shifted 38 26 wideShift c.z) k || c.x.getLsbD k)) =
      c.x.getLsbD k) ∧
      (∀ k, k < 16 → (decide (k < 12) && (signBit (BitField.shifted 38 26 wideShift c.z) (26 + k) ||
        c.y.getLsbD (if k < 6 then k else 5))) = c.y.getLsbD k) ∧
        ∀ k, k < 32 → (decide (k < 26) && (BitField.shifted 38 26 wideShift c.z).msb) = c.z.getLsbD k := by
  unfold ReadBack position
  rw [BitVec.eq_of_getLsbD_eq_iff, BitVec.eq_of_getLsbD_eq_iff, BitVec.eq_of_getLsbD_eq_iff]
  refine and_congr (forall₂_congr fun k hk => ?_) (and_congr (forall₂_congr fun k hk => ?_)
    (forall₂_congr fun k hk => ?_))
  · rw [getLsbD_getX hk]
  · rw [getLsbD_getY hk]
  · rw [getLsbD_getZ hk]

theorem survive_of_readBack (c : Coordinates) (h : c.ReadBack wideShift raw) : c.Survive wideShift := by
  have hwide : BitField.shifted 38 26 wideShift 0 = wideShift 0 38 := rfl
  obtain ⟨hxbit, hybit, hzbit⟩ := c.readBack_iff_bits.mp h
  have hx0 : 0 ≤ c.x.toInt := nonneg_of_last_bit (hxbit 31 (by decide)).symm
  have hy0 : 0 ≤ c.y.toInt := nonneg_of_last_bit (hybit 15 (by decide)).symm
  -- the last bit of the field is the sign of what was shifted over it and the sixth bit of `y`
  have hlast := hybit 11 (by decide)
  rw [getLsbD_of_nonneg hy0 c.y_range.2 (Nat.le_refl 11)] at hlast
  obtain ⟨hmsb, hsixth⟩ : (BitField.shifted 38 26 wideShift c.z).msb = false ∧ c.y.getLsbD 5 = false := by
    simpa [signBit] using hlast
  have hylow : c.y.toNat < 2 ^ 5 := by
    refine toNat_lt_of_getLsbD fun k hk hk16 => ?_
    by_cases hfield : k < 12
    · by_cases hsix : k = 5
      · rw [hsix, hsixth]
      · have hbit := hybit k hk16
        rw [signBit_of_le (by omega), hmsb, if_neg (by omega), hsixth] at hbit
        rw [← hbit, Bool.or_false, Bool.and_false]
    · rw [← hybit k hk16, decide_eq_false hfield, Bool.false_and]
  have hz0 : c.z = 0 := by
    apply BitVec.eq_of_getLsbD_eq
    intro k hk
    rw [← hzbit k hk, hmsb, Bool.and_false]
    simp
  rw [hz0, hwide] at hxbit hybit
  have hxhigh {k : Nat} (hk : 26 ≤ k) : c.x.getLsbD k = false := getLsbD_of_nonneg hx0 c.x_range.2 (by omega)
  have hy32 : c.y.toInt < 32 := by
    rw [BitVec.toInt_eq_toNat_of_lt (by omega)]
    exact_mod_cast hylow
  refine ⟨hx0, hy0, hy32, hz0, or_eq_right_iff.mpr fun k hk hset => ?_⟩
  rw [getLsbD_low c hk fun k => hxhigh]
  by_cases hin : k < 26
  · rw [if_pos hin, ← hxbit k hk, decide_eq_true hin, signBit_of_lt hk, hset, Bool.true_or, Bool.true_and]
  · rw [if_neg hin, ← hybit (k - 26) (by omega), decide_eq_true (by omega), Nat.add_sub_cancel' (by omega),
      signBit_of_lt hk, hset, Bool.true_or, Bool.true_and]

theorem readBack_of_survive (c : Coordinates) (h : c.Survive wideShift) : c.ReadBack wideShift raw := by
  have hwide : BitField.shifted 38 26 wideShift 0 = wideShift 0 38 := rfl
  obtain ⟨hx0, hy0, hy32, hz0, hor⟩ := h
  have hxhigh {k : Nat} (hk : 26 ≤ k) : c.x.getLsbD k = false := getLsbD_of_nonneg hx0 c.x_range.2 (by omega)
  have hyhigh {k : Nat} (hk : 5 ≤ k) : c.y.getLsbD k = false := getLsbD_of_nonneg (j := 5) hy0 hy32 hk
  -- what is shifted over the field has no bit that `x` and `y` do not have there
  have hset {k : Nat} (hk : k < 32) (h : (wideShift 0 38).getLsbD k = true) :
      (if k < 26 then c.x.getLsbD k else c.y.getLsbD (k - 26)) = true := by
    rw [← getLsbD_low c hk fun k => hxhigh]
    exact or_eq_right_iff.mp hor k hk h
  have hmsb : (wideShift 0 38).msb = false := by
    rw [BitVec.msb_eq_getLsbD_last, ← Bool.not_eq_true]
    intro h
    have hsixth : c.y.getLsbD 5 = true := hset (k := 31) (by decide) h
    rw [hyhigh (by decide)] at hsixth
    cases hsixth
  rw [readBack_iff_bits, hz0, hwide]
  refine ⟨fun k hk => ?_, fun k hk => ?_, fun k hk => ?_⟩
  · by_cases hin : k < 26
    · rw [decide_eq_true hin, Bool.true_and, signBit_of_lt hk]
      refine Bool.or_eq_right_iff_imp.mpr fun hbit => ?_
      have hx := hset hk hbit
      rwa [if_pos hin] at hx
    · rw [decide_eq_false hin, Bool.false_and, hxhigh (by omega)]
  · by_cases hfield : k < 12
    · rw [decide_eq_true hfield, Bool.true_and]
      by_cases hlow : k < 6
      · rw [if_pos hlow, signBit_of_lt (by omega)]
        refine Bool.or_eq_right_iff_imp.mpr fun hbit => ?_
        have hy := hset (k := 26 + k) (by omega) hbit
        rwa [if_neg (by omega), Nat.add_sub_cancel_left] at hy
      · rw [if_neg hlow, signBit_of_le (by omega), hmsb, hyhigh (Nat.le_refl 5), hyhigh (by omega), Bool.or_false]
    · rw [decide_eq_false hfield, Bool.false_and, hyhigh (by omega)]
  · rw [hmsb, Bool.and_false]
    simp

/-- **Positions.** The getters give back the coordinates that survive, and no position has only one triple that makes
it. -/
theorem readBack_iff_and_not_distinguished (wideShift : Word → Nat → Word) (raw : BitVec 64) (c : Coordinates) :
    (c.ReadBack wideShift raw ↔ c.Survive wideShift) ∧ ¬ c.Distinguished wideShift raw :=
  ⟨⟨c.survive_of_readBack, c.readBack_of_survive⟩, c.not_distinguished⟩

/-- The default position's `y` is one of 64, which makes the same position as 0. -/
theorem spawn_height_lost :
    ¬ ∀ (wideShift : Word → Nat → Word) (raw : BitVec 64) (c : Coordinates),
      c.ReadBack wideShift raw ∧ c.Distinguished wideShift raw := by
  intro h
  exact not_distinguished _ (h (fun _ _ => 0) 0 ⟨0, 64, 0, by decide, by decide, by decide⟩).2

end Coordinates

end CeriosCluster.MCPacket
