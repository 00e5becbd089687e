import CeriosCluster.MCPacket.Buffer

/-!
# VarInts

The variable-length integers of the wire format: seven bits per byte, lowest first, the high bit
set on every byte but the last. The reader works on the front of a buffer and reports a truncated
number with the size `0`; the two writers append to a buffer and insert at its front.
-/

namespace CeriosCluster.MCPacket

open CeriosCluster.Lib

/-! ## Reading -/

/-- What `readVarIntFromBuffer` returns, and what it leaves in `*intOut`. -/
structure VarIntRead where
  size : Nat
  value : Word
  deriving DecidableEq

/-- The reading loop after `numByte` bytes; `none` is the throw. -/
def readVarIntLoop (numByte : Nat) (intOut : Word) : Bytes → Option VarIntRead
  | [] => some ⟨0, intOut⟩
  | byte :: rest =>
    let intOut := intOut ||| ((byte &&& 127).setWidth 32 <<< (numByte * 7))
    -- the count is checked only once the byte has been added
    if numByte + 1 > 5 then none
    else if byte &&& 128 = 128 then readVarIntLoop (numByte + 1) intOut rest
    else some ⟨numByte + 1, intOut⟩

def scanVarInt (buffer : Bytes) : Option VarIntRead := readVarIntLoop 0 0 buffer

/-- A truncated number has the size `0`, and then nothing is consumed. -/
def readVarIntFromBuffer (consume : Bool) : BufferM VarIntRead := do
  let buffer ← Exec.get
  match scanVarInt buffer with
  | none => Exec.throw (.runtimeError "VarInt too big")
  | some read => do
    if consume then Exec.set (buffer.drop read.size)
    pure read

theorem readVarIntFromBuffer_eq_ok {consume : Bool} {b b' : Bytes} {r : VarIntRead} :
    readVarIntFromBuffer consume b = .ok r b' ↔
      scanVarInt b = some r ∧ b' = if consume then b.drop r.size else b := by
  rw [readVarIntFromBuffer, Exec.run_bind_ok (Exec.run_get b)]
  cases scanVarInt b with
  | none => simp
  | some read =>
    cases consume with
    | false => simp [eq_comm]
    | true =>
      simp [Exec.run_bind, eq_comm]
      grind

theorem readVarIntFromBuffer_ne_undefined {consume : Bool} {b : Bytes} :
    readVarIntFromBuffer consume b ≠ .undefined := by
  rw [readVarIntFromBuffer, Exec.run_bind_ok (Exec.run_get b)]
  cases scanVarInt b with
  | none => simp
  | some read => cases consume <;> simp [Exec.run_bind]

section Read

variable {numByte : Nat} {intOut : Word} {b x : Bytes} {r : VarIntRead}

theorem readVarIntLoop_cases (h : readVarIntLoop numByte intOut b = some r) (hk : numByte ≤ 5) :
    (r.size = 0 ∧ (∀ byte ∈ b, byte &&& 128 = 128) ∧ numByte + b.length ≤ 5) ∨
      (numByte < r.size ∧ r.size ≤ 5 ∧ r.size - numByte ≤ b.length) := by
  induction b generalizing numByte intOut with
  | nil =>
    obtain rfl := Option.some.inj h
    exact Or.inl ⟨rfl, by simp, by simpa using hk⟩
  | cons byte rest ih =>
    simp only [readVarIntLoop] at h
    split at h
    · cases h
    · next hcount =>
      split at h
      · next hmore =>
        rcases ih h (by omega) with ⟨h0, hall, hlen⟩ | ⟨hlt, hle, hsz⟩
        · refine Or.inl ⟨h0, ?_, by simp only [List.length_cons]; omega⟩
          intro c hc
          rcases List.mem_cons.mp hc with rfl | hc
          · exact hmore
          · exact hall c hc
        · exact Or.inr ⟨by omega, hle, by simp only [List.length_cons]; omega⟩
      · obtain rfl := Option.some.inj h
        exact Or.inr ⟨by simp, by simp only; omega, by simp⟩

theorem readVarIntLoop_append (h : readVarIntLoop numByte intOut b = some r) (hr : 0 < r.size) (x : Bytes) :
    readVarIntLoop numByte intOut (b ++ x) = some r := by
  induction b generalizing numByte intOut with
  | nil =>
    obtain rfl := Option.some.inj h
    cases hr
  | cons byte rest ih =>
    simp only [List.cons_append, readVarIntLoop] at h ⊢
    split
    · next hc => rw [if_pos hc] at h; cases h
    · next hc =>
      rw [if_neg hc] at h
      split
      · next hm => rw [if_pos hm] at h; exact ih h
      · next hm => rw [if_neg hm] at h; exact h

/-- A truncated number followed by a last byte is complete one byte later, or too long. -/
theorem readVarIntLoop_truncated (h : readVarIntLoop numByte intOut b = some r) (h0 : r.size = 0) (last : Byte)
    (hlast : last &&& 128 ≠ 128) (x : Bytes) :
    readVarIntLoop numByte intOut (b ++ last :: x) = none ∨
      ∃ v, readVarIntLoop numByte intOut (b ++ last :: x) = some ⟨numByte + b.length + 1, v⟩ := by
  induction b generalizing numByte intOut with
  | nil =>
    simp only [List.nil_append, readVarIntLoop]
    split
    · exact Or.inl rfl
    · exact Or.inr ⟨_, rfl⟩
  | cons byte rest ih =>
    simp only [List.cons_append, readVarIntLoop] at h ⊢
    split
    · exact Or.inl rfl
    · next hc =>
      rw [if_neg hc] at h
      split
      · next hm =>
        rw [if_pos hm] at h
        have := ih h
        simpa only [List.length_cons, Nat.add_assoc, Nat.add_comm 1] using this
      · next hm =>
        rw [if_neg hm] at h
        obtain rfl := Option.some.inj h
        cases h0

theorem scanVarInt_size_le (h : scanVarInt b = some r) : r.size ≤ 5 ∧ r.size ≤ b.length := by
  rcases readVarIntLoop_cases h (by omega) with ⟨h0, -, -⟩ | ⟨-, h5, hl⟩
  · omega
  · exact ⟨h5, by omega⟩

theorem scanVarInt_append (h : scanVarInt b = some r) (hr : 0 < r.size) (x : Bytes) :
    scanVarInt (b ++ x) = some r :=
  readVarIntLoop_append h hr x

@[simp] theorem scanVarInt_nil : scanVarInt [] = some ⟨0, 0⟩ := rfl

end Read

/-! ## Writing -/

/-- The writing loop of an unsigned word; four shifts leave fewer than eight bits. -/
def writeVarIntLoop : Nat → Word → Bytes
  | 0, input => [input.setWidth 8]
  | left + 1, input =>
    if input &&& BitVec.ofInt 32 (-128) ≠ 0#32 then
      ((input &&& 127) ||| 128).setWidth 8 :: writeVarIntLoop left (input >>> 7)
    else [input.setWidth 8]

def writeVarIntToBuffer (input : Word) : Bytes := writeVarIntLoop 4 input

theorem and_highBits_eq_zero_iff {w : Nat} (x : BitVec w) (k : Nat) :
    x &&& (BitVec.allOnes w <<< k) = 0#w ↔ x.toNat < 2 ^ k := by
  have hshift : x &&& (BitVec.allOnes w <<< k) = 0#w ↔ x >>> k = 0#w := by
    constructor
    · intro h
      apply BitVec.eq_of_getLsbD_eq
      intro i hi
      rw [BitVec.getLsbD_ushiftRight, BitVec.getLsbD_zero]
      by_cases hlt : k + i < w
      · have hbit := congrArg (fun y => y.getLsbD (k + i)) h
        simpa [BitVec.getLsbD_shiftLeft, hlt, show i < w by omega, show ¬ k + i < k by omega] using hbit
      · exact BitVec.getLsbD_of_ge x _ (by omega)
    · intro h
      apply BitVec.eq_of_getLsbD_eq
      intro i hi
      rw [BitVec.getLsbD_and, BitVec.getLsbD_shiftLeft, BitVec.getLsbD_zero]
      by_cases hlt : i < k
      · simp [hlt]
      · have hbit := congrArg (fun y => y.getLsbD (i - k)) h
        rw [BitVec.getLsbD_ushiftRight, BitVec.getLsbD_zero, show k + (i - k) = i by omega] at hbit
        simp [hbit]
  rw [hshift, ← BitVec.toNat_inj, BitVec.toNat_ushiftRight, Nat.shiftRight_eq_div_pow, BitVec.toNat_zero,
    Nat.div_eq_zero_iff_lt (Nat.two_pow_pos k)]

theorem and_neg128_eq_zero_iff (v : Word) : v &&& BitVec.ofInt 32 (-128) = 0#32 ↔ v.toNat < 128 := by
  rw [show BitVec.ofInt 32 (-128) = BitVec.allOnes 32 <<< 7 by decide]
  exact and_highBits_eq_zero_iff v 7

theorem setWidth_of_lt {v : Word} (h : v.toNat < 128) :
    ((v.setWidth 8) &&& 127).setWidth 32 = v ∧ (v.setWidth 8) &&& 128 ≠ 128 := by
  have hv : v = BitVec.ofNat 32 v.toNat := by simp
  have : ∀ n : Fin 128, ((BitVec.ofNat 32 n.val).setWidth 8 &&& 127).setWidth 32 = BitVec.ofNat 32 n.val ∧
      (BitVec.ofNat 32 n.val).setWidth 8 &&& 128 ≠ 128 := by decide
  rw [hv]
  exact this ⟨v.toNat, h⟩

theorem setWidth_more (v : Word) :
    ((((v &&& 127) ||| 128).setWidth 8) &&& 127).setWidth 32 = v &&& 127 ∧
      (((v &&& 127) ||| 128).setWidth 8 : Byte) &&& 128 = 128 := by
  have hlow : v &&& 127 = BitVec.ofNat 32 (v.toNat % 128) := by
    apply BitVec.eq_of_toNat_eq
    rw [BitVec.toNat_and, show (127 : Word).toNat = 2 ^ 7 - 1 from rfl, Nat.and_two_pow_sub_one_eq_mod]
    simp
    omega
  have : ∀ n : Fin 128, (((BitVec.ofNat 32 n.val ||| 128).setWidth 8) &&& 127).setWidth 32 = BitVec.ofNat 32 n.val ∧
      ((BitVec.ofNat 32 n.val ||| 128).setWidth 8 : Byte) &&& 128 = 128 := by decide
  rw [hlow]
  exact this ⟨v.toNat % 128, Nat.mod_lt _ (by decide)⟩

theorem low_or_high (v : Word) : v &&& 127#32 ||| (v >>> 7) <<< 7 = v := by
  apply BitVec.eq_of_getLsbD_eq
  intro i hi
  have h127 : (127#32).getLsbD i = decide (i < 7) := by
    have : ∀ j : Fin 32, (127#32).getLsbD j.val = decide (j.val < 7) := by decide
    exact this ⟨i, hi⟩
  rw [BitVec.getLsbD_or, BitVec.getLsbD_and, h127, BitVec.getLsbD_shiftLeft, BitVec.getLsbD_ushiftRight]
  by_cases h : i < 7
  · simp [h]
  · simp [h, hi, show 7 + (i - 7) = i by omega]

theorem toNat_ushiftRight_lt {w n : Nat} {v : BitVec w} (h : v.toNat < 2 ^ (n + 7)) : (v >>> 7).toNat < 2 ^ n := by
  rw [BitVec.toNat_ushiftRight, Nat.shiftRight_eq_div_pow, Nat.div_lt_iff_lt_mul (by decide), ← Nat.pow_add]
  exact h

/-- Reading what the writer wrote, part way through the number. -/
theorem readVarIntLoop_write (left numByte : Nat) (v acc : Word) (r : Bytes) (hleft : numByte + left = 4)
    (hv : v.toNat < 2 ^ (4 + 7 * left)) :
    readVarIntLoop numByte acc (writeVarIntLoop left v ++ r) =
      some ⟨numByte + (writeVarIntLoop left v).length, acc ||| v <<< (numByte * 7)⟩ := by
  induction left generalizing numByte v acc with
  | zero =>
    obtain ⟨hval, hlast⟩ := setWidth_of_lt (v := v) (by omega)
    simp only [writeVarIntLoop, List.singleton_append, readVarIntLoop, hval, if_neg hlast, List.length_singleton]
    rw [if_neg (by omega)]
  | succ left ih =>
    by_cases hmore : v &&& BitVec.ofInt 32 (-128) = 0#32
    · obtain ⟨hval, hlast⟩ := setWidth_of_lt ((and_neg128_eq_zero_iff v).mp hmore)
      simp only [writeVarIntLoop, hmore, ne_eq, not_true_eq_false, if_false, List.singleton_append,
        readVarIntLoop, hval, if_neg hlast, List.length_singleton]
      rw [if_neg (by omega)]
    · obtain ⟨hval, hcont⟩ := setWidth_more v
      have hshift : (v >>> 7).toNat < 2 ^ (4 + 7 * left) := toNat_ushiftRight_lt hv
      simp only [writeVarIntLoop, ne_eq, hmore, not_false_eq_true, if_true, List.cons_append, readVarIntLoop,
        hval, hcont, List.length_cons]
      rw [if_neg (by omega), ih (numByte + 1) (v >>> 7) _ (by omega) hshift]
      congr 2
      · omega
      · rw [BitVec.or_assoc, show (numByte + 1) * 7 = 7 + numByte * 7 by omega, BitVec.shiftLeft_add,
          ← BitVec.shiftLeft_or_distrib]
        exact congrArg (fun w : Word => acc ||| w <<< (numByte * 7)) (low_or_high v)

/-- **Round trip**: whatever follows, the reader finds the number that was written and its size. -/
theorem scanVarInt_write (v : Word) (r : Bytes) :
    scanVarInt (writeVarIntToBuffer v ++ r) = some ⟨(writeVarIntToBuffer v).length, v⟩ := by
  have h := readVarIntLoop_write 4 0 v 0 r rfl v.isLt
  simpa [scanVarInt, writeVarIntToBuffer] using h

theorem writeVarIntLoop_ne_nil (left : Nat) (v : Word) : writeVarIntLoop left v ≠ [] := by
  cases left with
  | zero => simp [writeVarIntLoop]
  | succ left =>
    rw [writeVarIntLoop]
    split <;> simp

theorem length_writeVarIntToBuffer_pos (v : Word) : 0 < (writeVarIntToBuffer v).length :=
  List.length_pos_iff.mpr (writeVarIntLoop_ne_nil 4 v)

theorem length_writeVarIntToBuffer_le (v : Word) : (writeVarIntToBuffer v).length ≤ 5 := by
  have h := scanVarInt_write v []
  exact (scanVarInt_size_le h).1

/-- Room for another turn changes nothing once the bits fit. -/
theorem writeVarIntLoop_succ (left : Nat) (v : Word) (hv : v.toNat < 2 ^ (7 * (left + 1))) :
    writeVarIntLoop left v = writeVarIntLoop (left + 1) v := by
  induction left generalizing v with
  | zero =>
    have h0 : v &&& BitVec.ofInt 32 (-128) = 0#32 := (and_neg128_eq_zero_iff v).mpr (by omega)
    simp only [writeVarIntLoop, h0, ne_eq, not_true_eq_false, if_false]
  | succ left ih =>
    rw [writeVarIntLoop, writeVarIntLoop, ih]
    exact toNat_ushiftRight_lt hv

end CeriosCluster.MCPacket
