import Mathlib.Data.Nat.Digits.Defs
import Mathlib.Tactic.Ring

/-!
# Numbers in groups of seven bits

A number is sent seven bits per byte, the lowest first. Every byte but the last has its high bit
set, so a reader finds the end of a number without knowing its size. `number` is the value of any
run of bytes, on as many bits as it needs; what a reader accumulates in a word of `w` bits is that
number modulo `2 ^ w`. No number is the beginning of another, and one without redundant groups is the only
one of its value: a writer that takes the groups of a word off it writes that one, whatever the word's size.
-/

namespace CeriosCluster.Lib.Septets

/-- The high bit: another byte follows. -/
def Continues (byte : BitVec 8) : Prop := byte &&& 128 = 128

instance (byte : BitVec 8) : Decidable (Continues byte) := inferInstanceAs (Decidable (_ = _))

/-- The value of the low seven bits of each byte, lowest first. -/
def number (bytes : List (BitVec 8)) : Nat := Nat.ofDigits 128 (bytes.map (·.toNat % 128))

/-- The first `n` bytes are one number: all but the last of them continue. -/
def EndsAt (n : Nat) (bytes : List (BitVec 8)) : Prop :=
  ∃ init last rest, bytes = init ++ last :: rest ∧ init.length + 1 = n ∧ (∀ byte ∈ init, Continues byte) ∧
    ¬ Continues last

@[simp] theorem number_nil : number [] = 0 := rfl

theorem number_snoc (init : List (BitVec 8)) (last : BitVec 8) :
    number (init ++ [last]) = number init + last.toNat % 128 * 2 ^ (7 * init.length) := by
  rw [number, List.map_append, Nat.ofDigits_append, List.map_singleton, Nat.ofDigits_singleton, List.length_map,
    pow_mul, Nat.mul_comm]
  rfl

theorem number_lt (bytes : List (BitVec 8)) : number bytes < 2 ^ (7 * bytes.length) := by
  have h := Nat.ofDigits_lt_base_pow_length' (b := 126) (l := bytes.map (·.toNat % 128)) ?_
  · rw [List.length_map] at h
    rw [pow_mul]
    exact h
  · intro digit hdigit
    obtain ⟨byte, -, rfl⟩ := List.mem_map.mp hdigit
    exact Nat.mod_lt _ (by decide)

/-- Bytes begin with a number unless all of them continue. -/
theorem all_continue_or_endsAt (bytes : List (BitVec 8)) : (∀ byte ∈ bytes, Continues byte) ∨ ∃ n, EndsAt n bytes := by
  induction bytes with
  | nil => exact Or.inl (by simp)
  | cons byte bytes ih =>
    by_cases hbyte : Continues byte
    · rcases ih with hall | ⟨n, init, last, rest, rfl, rfl, hinit, hlast⟩
      · exact Or.inl (List.forall_mem_cons.mpr ⟨hbyte, hall⟩)
      · exact Or.inr ⟨_, byte :: init, last, rest, rfl, rfl, List.forall_mem_cons.mpr ⟨hbyte, hinit⟩, hlast⟩
    · exact Or.inr ⟨1, [], byte, bytes, rfl, rfl, by simp, hbyte⟩

section EndsAt

variable {n k : Nat} {bytes rest : List (BitVec 8)}

theorem EndsAt.pos (h : EndsAt n bytes) : 0 < n := by
  obtain ⟨init, last, rest, -, rfl, -, -⟩ := h
  exact Nat.succ_pos _

theorem EndsAt.le_length (h : EndsAt n bytes) : n ≤ bytes.length := by
  obtain ⟨init, last, rest, rfl, rfl, -, -⟩ := h
  simp

theorem EndsAt.lt_of_continue (h : EndsAt n bytes) (hall : ∀ byte ∈ bytes.take k, Continues byte) : k < n := by
  obtain ⟨init, last, rest, rfl, rfl, hinit, hlast⟩ := h
  by_contra hle
  refine hlast (hall last ?_)
  rw [List.take_append, show k - init.length = (k - init.length - 1) + 1 by omega, List.take_succ_cons]
  exact List.mem_append_right _ (List.mem_cons_self ..)

end EndsAt

/-- A septet added to a word that holds the lower ones. -/
theorem or_septet {w s k : Nat} (hs : s < 2 ^ (7 * k)) (byte : BitVec 8) :
    BitVec.ofNat w s ||| ((byte &&& 127).setWidth w <<< (k * 7)) =
      BitVec.ofNat w (s + byte.toNat % 128 * 2 ^ (7 * k)) := by
  have hbyte : (byte &&& 127).toNat = byte.toNat % 128 := by
    rw [BitVec.toNat_and, show (127 : BitVec 8).toNat = 2 ^ 7 - 1 from rfl, Nat.and_two_pow_sub_one_eq_mod]
  have hshift : (byte &&& 127).setWidth w <<< (k * 7) = BitVec.ofNat w (byte.toNat % 128 * 2 ^ (7 * k)) := by
    apply BitVec.eq_of_toNat_eq
    rw [BitVec.toNat_shiftLeft, BitVec.toNat_setWidth, hbyte, BitVec.toNat_ofNat, Nat.shiftLeft_eq, Nat.mul_comm k 7,
      Nat.mod_mul_mod]
  have hsum : s + byte.toNat % 128 * 2 ^ (7 * k) = s ||| byte.toNat % 128 * 2 ^ (7 * k) := by
    rw [Nat.add_comm, ← Nat.shiftLeft_eq, Nat.shiftLeft_add_eq_or_of_lt hs, Nat.or_comm]
  apply BitVec.eq_of_toNat_eq
  rw [hshift, hsum, BitVec.toNat_or, BitVec.toNat_ofNat, BitVec.toNat_ofNat, BitVec.toNat_ofNat, Nat.or_mod_two_pow]

/-! ## One encoding for each number -/

theorem number_cons (byte : BitVec 8) (bytes : List (BitVec 8)) :
    number (byte :: bytes) = byte.toNat % 128 + 128 * number bytes := Nat.ofDigits_cons ..

theorem continues_iff {byte : BitVec 8} : Continues byte ↔ 128 ≤ byte.toNat := by
  revert byte
  decide

section Unique

variable {n k : Nat} {a b bytes : List (BitVec 8)} {byte : BitVec 8}

theorem EndsAt.singleton (h : ¬ Continues byte) : EndsAt 1 [byte] := ⟨[], byte, [], rfl, rfl, by simp, h⟩

theorem EndsAt.cons (hbyte : Continues byte) (h : EndsAt n bytes) : EndsAt (n + 1) (byte :: bytes) := by
  obtain ⟨init, last, rest, rfl, rfl, hinit, hlast⟩ := h
  exact ⟨byte :: init, last, rest, rfl, rfl, List.forall_mem_cons.mpr ⟨hbyte, hinit⟩, hlast⟩

theorem EndsAt.append (h : EndsAt n bytes) (rest : List (BitVec 8)) : EndsAt n (bytes ++ rest) := by
  obtain ⟨init, last, rest', rfl, rfl, hinit, hlast⟩ := h
  exact ⟨init, last, rest' ++ rest, by simp, rfl, hinit, hlast⟩

theorem EndsAt.eq_append (h : EndsAt bytes.length bytes) :
    ∃ init last, bytes = init ++ [last] ∧ (∀ byte ∈ init, Continues byte) ∧ ¬ Continues last := by
  obtain ⟨init, last, rest, heq, hlength, hinit, hlast⟩ := h
  obtain rfl : rest = [] := by
    rw [heq, List.length_append, List.length_cons] at hlength
    exact List.length_eq_zero_iff.mp (by omega)
  exact ⟨init, last, heq, hinit, hlast⟩

theorem endsAt_cons : EndsAt n (byte :: bytes) ↔ if Continues byte then ∃ k, n = k + 1 ∧ EndsAt k bytes else n = 1 := by
  constructor
  · rintro ⟨init, last, rest, heq, rfl, hinit, hlast⟩
    cases init with
    | nil =>
      obtain ⟨rfl, -⟩ := List.cons.inj heq
      rw [if_neg hlast]
      rfl
    | cons first init =>
      obtain ⟨rfl, rfl⟩ := List.cons.inj heq
      obtain ⟨hfirst, hinit⟩ := List.forall_mem_cons.mp hinit
      rw [if_pos hfirst]
      exact ⟨_, rfl, init, last, rest, rfl, rfl, hinit, hlast⟩
  · intro h
    split at h
    · next hbyte =>
      obtain ⟨k, rfl, hends⟩ := h
      exact hends.cons hbyte
    · next hbyte =>
      subst h
      exact (EndsAt.singleton hbyte).append bytes

theorem EndsAt.unique (h : EndsAt n bytes) (h' : EndsAt k bytes) : n = k := by
  induction bytes generalizing n k with
  | nil => exact absurd h.le_length (Nat.not_le.mpr h.pos)
  | cons byte bytes ih =>
    rw [endsAt_cons] at h h'
    split at h
    · next hbyte =>
      rw [if_pos hbyte] at h'
      obtain ⟨n, rfl, hn⟩ := h
      obtain ⟨k, rfl, hk⟩ := h'
      rw [ih hn hk]
    · next hbyte =>
      rw [if_neg hbyte] at h'
      rw [h, h']

/-- **Prefix-free**: a number that ends is not the beginning of another. -/
theorem EndsAt.eq_of_prefix (ha : EndsAt a.length a) (hb : EndsAt b.length b) (h : a <+: b) : a = b := by
  obtain ⟨rest, rfl⟩ := h
  exact (List.prefix_append a rest).eq_of_length ((ha.append rest).unique hb)

/-- All bytes but the last continue, and the last is zero only if it is alone. -/
structure Canonical (bytes : List (BitVec 8)) : Prop where
  ends : EndsAt bytes.length bytes
  minimal : 1 < bytes.length → bytes.getLast? ≠ some 0

theorem Canonical.ne_nil (h : Canonical bytes) : bytes ≠ [] := List.length_pos_iff.mp h.ends.pos

theorem toNat_of_not_continues (h : ¬ Continues byte) : byte.toNat % 128 = byte.toNat := by
  rw [continues_iff, Nat.not_le] at h
  exact Nat.mod_eq_of_lt h

theorem toNat_of_continues (h : Continues byte) : byte.toNat = byte.toNat % 128 + 128 := by
  rw [continues_iff] at h
  have := byte.isLt
  omega

theorem Canonical.singleton (h : ¬ Continues byte) : Canonical [byte] :=
  ⟨.singleton h, fun hlength => absurd hlength (Nat.lt_irrefl 1)⟩

theorem Canonical.cons (hbyte : Continues byte) (h : Canonical bytes) (hnumber : number bytes ≠ 0) :
    Canonical (byte :: bytes) := by
  refine ⟨h.ends.cons hbyte, fun _ => ?_⟩
  obtain ⟨first, rest, rfl⟩ := List.exists_cons_of_ne_nil h.ne_nil
  rw [List.getLast?_cons_cons]
  cases rest with
  | nil =>
    intro hlast
    obtain rfl : first = 0 := Option.some.inj hlast
    exact hnumber rfl
  | cons second rest => exact h.minimal (by simp)

theorem number_ne_zero (h : EndsAt bytes.length bytes) (hlast : bytes.getLast? ≠ some 0) : number bytes ≠ 0 := by
  obtain ⟨init, last, rfl, -, hends⟩ := h.eq_append
  rw [List.getLast?_concat] at hlast
  have hne : last.toNat ≠ 0 := fun hzero => hlast (congrArg some (BitVec.eq_of_toNat_eq hzero))
  rw [number_snoc, toNat_of_not_continues hends]
  have hpos := Nat.mul_pos (Nat.pos_of_ne_zero hne) (Nat.two_pow_pos (7 * init.length))
  omega

theorem canonical_cons : Canonical (byte :: bytes) ↔
    if Continues byte then Canonical bytes ∧ number bytes ≠ 0 else bytes = [] := by
  constructor
  · intro h
    have hends := endsAt_cons.mp h.ends
    split
    · next hbyte =>
      rw [if_pos hbyte] at hends
      obtain ⟨k, hlength, hends⟩ := hends
      obtain rfl : bytes.length = k := Nat.succ.inj hlength
      obtain ⟨first, rest, rfl⟩ := List.exists_cons_of_ne_nil (List.length_pos_iff.mp hends.pos)
      have hlast := h.minimal (by simp)
      rw [List.getLast?_cons_cons] at hlast
      exact ⟨⟨hends, fun _ => hlast⟩, number_ne_zero hends hlast⟩
    · next hbyte =>
      rw [if_neg hbyte] at hends
      exact List.length_eq_zero_iff.mp (Nat.succ.inj hends)
  · intro h
    split at h
    · next hbyte => exact h.1.cons hbyte h.2
    · next hbyte =>
      subst h
      exact .singleton hbyte

theorem eq_of_septet {byte byte' : BitVec 8} (hcontinues : Continues byte ↔ Continues byte')
    (hgroup : byte.toNat % 128 = byte'.toNat % 128) : byte = byte' := by
  apply BitVec.eq_of_toNat_eq
  by_cases hbyte : Continues byte
  · rw [toNat_of_continues hbyte, toNat_of_continues (hcontinues.mp hbyte), hgroup]
  · rw [← toNat_of_not_continues hbyte, ← toNat_of_not_continues (hbyte ∘ hcontinues.mpr), hgroup]

/-- **Unique**: a number has one encoding without redundant groups. -/
theorem Canonical.eq_of_number (ha : Canonical a) (hb : Canonical b) (h : number a = number b) : a = b := by
  induction a generalizing b with
  | nil => exact absurd rfl ha.ne_nil
  | cons x xs ih =>
    obtain ⟨y, ys, rfl⟩ := List.exists_cons_of_ne_nil hb.ne_nil
    rw [canonical_cons] at ha hb
    rw [number_cons, number_cons] at h
    have hgroup : x.toNat % 128 = y.toNat % 128 := by omega
    have hrest : number xs = number ys := by omega
    by_cases hcontinues : Continues x
    · rw [if_pos hcontinues] at ha
      by_cases hcontinues' : Continues y
      · rw [if_pos hcontinues'] at hb
        rw [eq_of_septet (iff_of_true hcontinues hcontinues') hgroup, ih ha.1 hb.1 hrest]
      · rw [if_neg hcontinues'] at hb
        subst hb
        exact absurd hrest ha.2
    · rw [if_neg hcontinues] at ha
      subst ha
      by_cases hcontinues' : Continues y
      · rw [if_pos hcontinues'] at hb
        exact absurd hrest.symm hb.2
      · rw [if_neg hcontinues'] at hb
        rw [hb, eq_of_septet (iff_of_false hcontinues hcontinues') hgroup]

/-- The bytes are the encoding of the number. -/
structure Encodes (bytes : List (BitVec 8)) (n : Nat) : Prop where
  canonical : Canonical bytes
  number_eq : number bytes = n

theorem Encodes.unique {n : Nat} (ha : Encodes a n) (hb : Encodes b n) : a = b :=
  ha.canonical.eq_of_number hb.canonical (ha.number_eq.trans hb.number_eq.symm)

end Unique

section Words

variable {w : Nat} {v : BitVec w} {bytes : List (BitVec 8)}

theorem Encodes.last (hv : v.toNat < 128) : Encodes [v.setWidth 8] v.toNat := by
  have hbyte : (v.setWidth 8).toNat = v.toNat := by
    rw [BitVec.toNat_setWidth]
    exact Nat.mod_eq_of_lt (Nat.lt_trans hv (by decide))
  refine ⟨.singleton ?_, ?_⟩
  · rw [continues_iff, hbyte]
    exact Nat.not_le.mpr hv
  · rw [number_cons, number_nil, hbyte]
    omega

theorem toNat_marked (hw : 8 ≤ w) : (((v &&& 127) ||| 128).setWidth 8 : BitVec 8).toNat = v.toNat % 128 + 128 := by
  have hfits (n : Nat) (hn : n < 2 ^ 8) : (BitVec.ofNat w n).toNat = n :=
    Nat.mod_eq_of_lt (Nat.lt_of_lt_of_le hn (Nat.pow_le_pow_right (by decide) hw))
  have hor := Nat.two_pow_add_eq_or_of_lt (Nat.mod_lt v.toNat (Nat.two_pow_pos 7)) 1
  calc (((v &&& 127) ||| 128).setWidth 8 : BitVec 8).toNat
      = (v.toNat &&& 127 ||| 128) % 2 ^ 8 := by
        rw [BitVec.toNat_setWidth, BitVec.toNat_or, BitVec.toNat_and]
        exact congrArg₂ (fun a b => (v.toNat &&& a ||| b) % 2 ^ 8) (hfits 127 (by decide)) (hfits 128 (by decide))
    _ = (2 ^ 7 * 1 ||| v.toNat % 2 ^ 7) % 2 ^ 8 := by
        rw [Nat.and_two_pow_sub_one_eq_mod v.toNat 7, Nat.or_comm]
        rfl
    _ = v.toNat % 128 + 128 := by
        rw [← hor]
        omega

theorem Encodes.more (hw : 8 ≤ w) (hv : 128 ≤ v.toNat) (h : Encodes bytes (v >>> 7).toNat) :
    Encodes (((v &&& 127) ||| 128).setWidth 8 :: bytes) v.toNat := by
  have hbyte := toNat_marked (v := v) hw
  have hshift : (v >>> 7).toNat = v.toNat / 128 := by rw [BitVec.toNat_ushiftRight, Nat.shiftRight_eq_div_pow]
  have hnumber : number bytes = v.toNat / 128 := h.number_eq.trans hshift
  have hcontinues : Continues (((v &&& 127) ||| 128).setWidth 8 : BitVec 8) := by
    rw [continues_iff, hbyte]
    omega
  refine ⟨h.canonical.cons hcontinues (by omega), ?_⟩
  rw [number_cons, hbyte, hnumber]
  omega

end Words

end CeriosCluster.Lib.Septets
