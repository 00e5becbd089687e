import CeriosCluster.MCPacket.VarIntReader

/-!
# VarLongs

`writeVarLongToBuffer` is the loop of `writeVarIntToBuffer` on a word of 64 bits. Ten turns are enough for it. Both
write the one encoding of their number, so they agree where both can be called.
-/

namespace CeriosCluster.MCPacket

open CeriosCluster.Lib CeriosCluster.Lib.Septets

/-! ## The writer -/

def push_back (byte : Byte) : BufferM Unit := Exec.modify (· ++ [byte])

/-- The loop of `writeVarLongToBuffer` for at most `fuel` turns. -/
def writeVarLongToBuffer : Nat → BitVec 64 → BufferM Unit
  | 0, _ => Exec.diverge
  | fuel + 1, input =>
    if input &&& BitVec.ofInt 64 (-128) ≠ 0#64 then do
      push_back (((input &&& 127) ||| 128).setWidth 8)
      writeVarLongToBuffer fuel (input >>> 7)
    else push_back (input.setWidth 8)

/-- With enough turns the writer returns, and has appended these bytes. -/
def AppendsVarLong (input : BitVec 64) (bytes : Bytes) : Prop :=
  ∃ turns, ∀ fuel, turns ≤ fuel → ∀ buffer, writeVarLongToBuffer fuel input buffer = .ok () (buffer ++ bytes)

section Writers

variable {fuel : Nat} {input : BitVec 64} {buffer bytes bytes' : Bytes}

theorem AppendsVarLong.unique (h : AppendsVarLong input bytes) (h' : AppendsVarLong input bytes') : bytes = bytes' := by
  obtain ⟨turns, hrun⟩ := h
  obtain ⟨turns', hrun'⟩ := h'
  have hbytes := (hrun (turns + turns') (Nat.le_add_right _ _) []).symm.trans
    (hrun' (turns + turns') (Nat.le_add_left _ _) [])
  exact List.append_cancel_left (Res.ok.inj hbytes).2

theorem and_neg128L_eq_zero_iff (v : BitVec 64) : v &&& BitVec.ofInt 64 (-128) = 0#64 ↔ v.toNat < 128 := by
  rw [show BitVec.ofInt 64 (-128) = BitVec.allOnes 64 <<< 7 by decide]
  exact and_highBits_eq_zero_iff v 7

theorem run_writeVarLongToBuffer_last (h : input.toNat < 128) :
    writeVarLongToBuffer (fuel + 1) input buffer = .ok () (buffer ++ [input.setWidth 8]) := by
  rw [writeVarLongToBuffer, if_neg (not_not_intro ((and_neg128L_eq_zero_iff input).mpr h))]
  rfl

theorem run_writeVarLongToBuffer_more (h : 128 ≤ input.toNat) :
    writeVarLongToBuffer (fuel + 1) input buffer =
      writeVarLongToBuffer fuel (input >>> 7) (buffer ++ [((input &&& 127) ||| 128).setWidth 8]) := by
  have hmore : input &&& BitVec.ofInt 64 (-128) ≠ 0#64 := fun hzero =>
    absurd ((and_neg128L_eq_zero_iff input).mp hzero) (Nat.not_lt.mpr h)
  rw [writeVarLongToBuffer, if_pos hmore]
  exact Exec.run_bind_ok rfl

/-- A word of `7 * (k + 1)` bits takes at most `k + 1` turns, and gets its encoding appended. By induction on the turns:
each takes seven bits off the word. -/
theorem exists_encoding {k : Nat} (h : input.toNat < 2 ^ (7 * (k + 1))) :
    ∃ bytes, Encodes bytes input.toNat ∧ bytes.length ≤ k + 1 ∧
      ∀ fuel, k + 1 ≤ fuel → ∀ buffer, writeVarLongToBuffer fuel input buffer = .ok () (buffer ++ bytes) := by
  induction k generalizing input with
  | zero =>
    refine ⟨_, .last h, Nat.le_refl 1, fun fuel hfuel buffer => ?_⟩
    obtain ⟨fuel, rfl⟩ := Nat.exists_eq_add_of_le' hfuel
    exact run_writeVarLongToBuffer_last h
  | succ k ih =>
    rcases Nat.lt_or_ge input.toNat 128 with hlast | hmore
    · refine ⟨_, .last hlast, by simp, fun fuel hfuel buffer => ?_⟩
      obtain ⟨fuel, rfl⟩ := Nat.exists_eq_add_of_le' (Nat.le_trans (Nat.le_add_left 1 (k + 1)) hfuel)
      exact run_writeVarLongToBuffer_last hlast
    · obtain ⟨bytes, hencodes, hlength, hrun⟩ := ih (toNat_ushiftRight_lt h)
      refine ⟨_, hencodes.more (by decide) hmore, Nat.succ_le_succ hlength, fun fuel hfuel buffer => ?_⟩
      obtain ⟨fuel, rfl⟩ := Nat.exists_eq_add_of_le' (Nat.le_trans (Nat.le_add_left 1 (k + 1)) hfuel)
      rw [run_writeVarLongToBuffer_more hmore, hrun fuel (Nat.le_of_succ_le_succ hfuel), List.append_assoc]
      rfl

/-- Ten turns are enough for any word. -/
theorem exists_varLong (v : BitVec 64) :
    ∃ bytes, Encodes bytes v.toNat ∧ bytes.length ≤ 10 ∧ AppendsVarLong v bytes := by
  have hbits : v.toNat < 2 ^ (7 * (9 + 1)) := Nat.lt_trans v.isLt (by decide)
  obtain ⟨bytes, hencodes, hlength, hrun⟩ := exists_encoding hbits
  exact ⟨bytes, hencodes, hlength, 10, hrun⟩

theorem AppendsVarLong.encodes {v : BitVec 64} (h : AppendsVarLong v bytes) : Encodes bytes v.toNat := by
  obtain ⟨bytes', hencodes, -, happends⟩ := exists_varLong v
  rw [h.unique happends]
  exact hencodes

end Writers

/-- **VarLongs.** On every word the writer returns, and what it has appended is between one and ten bytes, all of which
continue but the last, whose groups are those of the word and of which no last one is redundant. It is not the beginning
of what is appended for another word, and for a word of 32 bits it is what `writeVarIntToBuffer` appends. -/
theorem writeVarLongToBuffer_appends (v : BitVec 64) :
    ∃ bytes, AppendsVarLong v bytes ∧ 1 ≤ bytes.length ∧ bytes.length ≤ 10 ∧ EndsAt bytes.length bytes ∧
      number bytes = v.toNat ∧ (1 < bytes.length → bytes.getLast? ≠ some 0) ∧
      (∀ v' bytes', AppendsVarLong v' bytes' → v' ≠ v → ¬ bytes <+: bytes') ∧
      (v.toNat < 2 ^ 32 → bytes = writeVarIntToBuffer (v.setWidth 32)) := by
  obtain ⟨bytes, hencodes, hlength, happends⟩ := exists_varLong v
  refine ⟨bytes, happends, hencodes.canonical.ends.pos, hlength, hencodes.canonical.ends, hencodes.number_eq,
    hencodes.canonical.minimal, fun v' bytes' happends' hne hprefix => ?_, fun hv => ?_⟩
  · obtain rfl := hencodes.canonical.ends.eq_of_prefix happends'.encodes.canonical.ends hprefix
    exact hne (BitVec.eq_of_toNat_eq (happends'.encodes.number_eq.symm.trans hencodes.number_eq))
  · have hint := encodes_writeVarIntToBuffer (v.setWidth 32)
    rw [BitVec.toNat_setWidth, Nat.mod_eq_of_lt hv] at hint
    exact hencodes.unique hint

end CeriosCluster.MCPacket
