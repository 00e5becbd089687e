import CeriosCluster.Lib.Septets
import CeriosCluster.MCPacket.VarInt

/-!
# What the VarInt reader does with any buffer

The reader has three exits: a sixth byte is too many, a buffer that ends before the number does is
reported with the size `0`, and a number that is complete has its value modulo `2 ^ 32`. Each byte
is shifted into place before the bytes are counted, so a sixth byte is still shifted, by 35, before
the reader throws.
-/

namespace CeriosCluster.MCPacket

open CeriosCluster.Lib CeriosCluster.Lib.Septets

/-! ## Shifts out of range -/

/-- A left shift of a 32-bit word; one by 32 or more gives whatever `wide` says. -/
def shiftLeft (wide : Word → Nat → Word) (value : Word) (distance : Nat) : Word :=
  if distance < 32 then value <<< distance else wide value distance

/-- `readVarIntLoop` with the left shift of the language. -/
def readVarIntLoopShifting (wide : Word → Nat → Word) (numByte : Nat) (intOut : Word) : Bytes → Option VarIntRead
  | [] => some ⟨0, intOut⟩
  | byte :: rest =>
    let intOut := intOut ||| shiftLeft wide ((byte &&& 127).setWidth 32) (numByte * 7)
    if numByte + 1 > 5 then none
    else if byte &&& 128 = 128 then readVarIntLoopShifting wide (numByte + 1) intOut rest
    else some ⟨numByte + 1, intOut⟩

def readVarIntFromBufferShifting (wide : Word → Nat → Word) (consume : Bool) : BufferM VarIntRead := do
  let buffer ← Exec.get
  match readVarIntLoopShifting wide 0 0 buffer with
  | none => Exec.throw (.runtimeError "VarInt too big")
  | some read => do
    if consume then Exec.set (buffer.drop read.size)
    pure read

/-- What a shift out of range gives is thrown away. -/
theorem readVarIntLoopShifting_eq (wide : Word → Nat → Word) (numByte : Nat) (intOut : Word) (b : Bytes) :
    readVarIntLoopShifting wide numByte intOut b = readVarIntLoop numByte intOut b := by
  induction b generalizing numByte intOut with
  | nil => rfl
  | cons byte rest ih =>
    simp only [readVarIntLoopShifting, readVarIntLoop]
    by_cases hcount : numByte + 1 > 5
    · rw [if_pos hcount, if_pos hcount]
    · have hnear : numByte * 7 < 32 := by omega
      rw [if_neg hcount, if_neg hcount, ih, shiftLeft, if_pos hnear]

/-! ## The three exits -/

section Exits

variable {numByte n : Nat} {intOut value : Word} {b b' init rest : Bytes} {last : Byte} {consume : Bool}

theorem readVarIntLoop_continues (hinit : ∀ byte ∈ init, Continues byte) (hcount : numByte + init.length ≤ 5)
    (rest done : Bytes) (hdone : done.length = numByte) :
    readVarIntLoop numByte (BitVec.ofNat 32 (number done)) (init ++ rest) =
      readVarIntLoop (numByte + init.length) (BitVec.ofNat 32 (number (done ++ init))) rest := by
  induction init generalizing numByte done with
  | nil => simp
  | cons byte init ih =>
    obtain ⟨hbyte, hinit⟩ := List.forall_mem_cons.mp hinit
    have hmore : byte &&& 128 = 128 := hbyte
    rw [List.length_cons] at hcount
    have hlt := number_lt done
    rw [hdone] at hlt
    have hsnoc : number (done ++ [byte]) = number done + byte.toNat % 128 * 2 ^ (7 * numByte) := by
      rw [number_snoc, hdone]
    have hone : ¬ numByte + 1 > 5 := by omega
    rw [List.cons_append, readVarIntLoop]
    rw [if_neg hone, if_pos hmore, or_septet hlt, ← hsnoc,
      ih hinit (by omega) (done ++ [byte]) (by rw [List.length_append, hdone]; rfl), List.append_assoc,
        List.singleton_append,
      List.length_cons, Nat.add_assoc, Nat.add_comm 1]

theorem scanVarInt_continues (hinit : ∀ byte ∈ init, Continues byte) (hcount : init.length ≤ 5) (rest : Bytes) :
    scanVarInt (init ++ rest) = readVarIntLoop init.length (BitVec.ofNat 32 (number init)) rest := by
  have h := readVarIntLoop_continues hinit (by rwa [List.length_nil, Nat.zero_add]) rest [] rfl
  simpa [scanVarInt] using h

theorem scanVarInt_of_endsAt (h : EndsAt n b) (hn : n ≤ 5) :
    scanVarInt b = some ⟨n, BitVec.ofNat 32 (number (b.take n))⟩ := by
  obtain ⟨init, last, rest, rfl, rfl, hinit, hlast⟩ := h
  have hcount : ¬ init.length + 1 > 5 := by omega
  have hmore : ¬ last &&& 128 = 128 := hlast
  have htake : (init ++ last :: rest).take (init.length + 1) = init ++ [last] := by
    rw [List.take_append, List.take_of_length_le (by omega), Nat.add_sub_cancel_left, List.take_succ_cons,
      List.take_zero]
  rw [scanVarInt_continues hinit (by omega), readVarIntLoop, htake, number_snoc]
  rw [if_neg hcount, if_neg hmore, or_septet (number_lt init)]

theorem scanVarInt_of_truncated (hall : ∀ byte ∈ b, Continues byte) (hlen : b.length ≤ 5) :
    scanVarInt b = some ⟨0, BitVec.ofNat 32 (number b)⟩ := by
  have h := scanVarInt_continues hall hlen []
  rwa [List.append_nil] at h

theorem scanVarInt_of_tooMany (hall : ∀ byte ∈ b.take 5, Continues byte) (hlen : 6 ≤ b.length) :
    scanVarInt b = none := by
  have hfive : (b.take 5).length = 5 := by
    rw [List.length_take]
    omega
  obtain ⟨byte, rest, hrest⟩ : ∃ byte rest, b.drop 5 = byte :: rest := by
    cases hdrop : b.drop 5 with
    | nil =>
      have := congrArg List.length hdrop
      rw [List.length_drop, List.length_nil] at this
      omega
    | cons byte rest => exact ⟨byte, rest, rfl⟩
  have h := scanVarInt_continues hall (by omega) (byte :: rest)
  rw [← hrest, List.take_append_drop] at h
  rw [h, hrest, hfive, readVarIntLoop]
  rfl

end Exits

/-- More than five bytes, the first five of which continue. -/
def TooMany (b : Bytes) : Prop := 6 ≤ b.length ∧ ∀ byte ∈ b.take 5, Continues byte

/-- The buffer ends before the number does. -/
def Truncated (b : Bytes) : Prop := b.length ≤ 5 ∧ ∀ byte ∈ b, Continues byte

instance (b : Bytes) : Decidable (TooMany b) := inferInstanceAs (Decidable (_ ∧ _))

instance (b : Bytes) : Decidable (Truncated b) := inferInstanceAs (Decidable (_ ∧ _))

/-- Every buffer is one of the three. -/
theorem tooMany_or_truncated_or_endsAt (b : Bytes) : TooMany b ∨ Truncated b ∨ ∃ n ≤ 5, EndsAt n b := by
  rcases all_continue_or_endsAt b with hall | ⟨n, hends⟩
  · by_cases hlen : b.length ≤ 5
    · exact Or.inr (Or.inl ⟨hlen, hall⟩)
    · exact Or.inl ⟨by omega, fun byte hbyte => hall byte (List.mem_of_mem_take hbyte)⟩
  · by_cases hn : n ≤ 5
    · exact Or.inr (Or.inr ⟨n, hn, hends⟩)
    · obtain ⟨init, last, rest, rfl, rfl, hinit, -⟩ := hends
      refine Or.inl ⟨by rw [List.length_append, List.length_cons]; omega, fun byte hbyte => hinit byte ?_⟩
      rw [List.take_append_of_le_length (by omega)] at hbyte
      exact List.mem_of_mem_take hbyte

section Classes

variable {n : Nat} {b : Bytes}

theorem not_tooMany_of_endsAt (h : EndsAt n b) (hn : n ≤ 5) : ¬ TooMany b := fun ⟨_, hall⟩ => by
  have := h.lt_of_continue hall
  omega

theorem not_truncated_of_endsAt (h : EndsAt n b) : ¬ Truncated b := fun ⟨hlen, hall⟩ => by
  have hlt := h.lt_of_continue (k := b.length) (fun byte hbyte => hall byte (List.mem_of_mem_take hbyte))
  have hle := h.le_length
  omega

end Classes

/-! ## The reader -/

section Reader

variable (consume : Bool) {b : Bytes} {r : VarIntRead}

theorem readVarIntFromBuffer_of_scan (h : scanVarInt b = some r) :
    readVarIntFromBuffer consume b = .ok r (if consume then b.drop r.size else b) :=
  readVarIntFromBuffer_eq_ok.mpr ⟨h, rfl⟩

theorem readVarIntFromBuffer_of_none (h : scanVarInt b = none) :
    readVarIntFromBuffer consume b = .threw (.runtimeError "VarInt too big") b := by
  rw [readVarIntFromBuffer, Exec.run_bind_ok (Exec.run_get b), h]
  rfl

theorem readVarIntFromBuffer_truncated (h : Truncated b) :
    readVarIntFromBuffer consume b = .ok ⟨0, BitVec.ofNat 32 (number b)⟩ b := by
  have hread := readVarIntFromBuffer_of_scan consume (scanVarInt_of_truncated h.2 h.1)
  rwa [List.drop_zero, ite_self] at hread

theorem readVarIntFromBufferShifting_eq (wide : Word → Nat → Word) :
    readVarIntFromBufferShifting wide consume b = readVarIntFromBuffer consume b := by
  have hloop : readVarIntLoopShifting wide 0 0 b = scanVarInt b := readVarIntLoopShifting_eq wide 0 0 b
  cases hscan : scanVarInt b with
  | none =>
    rw [readVarIntFromBuffer_of_none consume hscan, readVarIntFromBufferShifting, Exec.run_bind_ok (Exec.run_get b),
      hloop, hscan]
    rfl
  | some read =>
    rw [readVarIntFromBuffer_of_scan consume hscan, readVarIntFromBufferShifting, Exec.run_bind_ok (Exec.run_get b),
      hloop, hscan]
    cases consume <;> rfl

end Reader

/-- **The reader on any buffer**, whatever a shift out of range gives: it throws exactly on too many bytes, it returns
`0` exactly on a truncated number, and otherwise it returns the size and the value of the number in front. Only a
number that is consumed leaves the buffer. -/
theorem readVarIntFromBuffer_classifies (wide : Word → Nat → Word) (consume : Bool) (b : Bytes) :
    ((∃ e b', readVarIntFromBufferShifting wide consume b = .threw e b') ↔ TooMany b) ∧
      ((∃ value b', readVarIntFromBufferShifting wide consume b = .ok ⟨0, value⟩ b') ↔ Truncated b) ∧
      (TooMany b → ∃ e, readVarIntFromBufferShifting wide consume b = .threw e b) ∧
      (Truncated b → ∃ value, readVarIntFromBufferShifting wide consume b = .ok ⟨0, value⟩ b) ∧
      (¬ TooMany b → ¬ Truncated b → ∃ n ≤ 5, EndsAt n b ∧
        readVarIntFromBufferShifting wide consume b =
          .ok ⟨n, BitVec.ofNat 32 (number (b.take n))⟩ (if consume then b.drop n else b)) := by
  rw [readVarIntFromBufferShifting_eq]
  rcases tooMany_or_truncated_or_endsAt b with hmany | htruncated | ⟨n, hn, hends⟩
  · have hthrew := readVarIntFromBuffer_of_none consume (scanVarInt_of_tooMany hmany.2 hmany.1)
    have hnot : ¬ Truncated b := fun h => by have := h.1; have := hmany.1; omega
    simp [hthrew, hmany, hnot]
  · have hread := readVarIntFromBuffer_truncated consume htruncated
    have hnot : ¬ TooMany b := fun h => by have := h.1; have := htruncated.1; omega
    simp [hread, htruncated, hnot]
  · have hread := readVarIntFromBuffer_of_scan consume (scanVarInt_of_endsAt hends hn)
    have hmany := not_tooMany_of_endsAt hends hn
    have htruncated := not_truncated_of_endsAt hends
    have hpos : n ≠ 0 := Nat.pos_iff_ne_zero.mp hends.pos
    rw [hread]
    refine ⟨by simp [hmany], by simp [htruncated, hpos], fun h => absurd h hmany, fun h => absurd h htruncated,
      fun _ _ => ⟨n, hn, hends, rfl⟩⟩

/-! ## What the writer wrote -/

theorem encodes_writeVarIntLoop (left : Nat) (v : Word) (hv : v.toNat < 2 ^ (7 * (left + 1))) :
    Encodes (writeVarIntLoop left v) v.toNat := by
  induction left generalizing v with
  | zero => exact .last hv
  | succ left ih =>
    rw [writeVarIntLoop]
    split
    · next hmore =>
      have hmore : 128 ≤ v.toNat := Nat.not_lt.mp (hmore ∘ (and_neg128_eq_zero_iff v).mpr)
      exact .more (by decide) hmore (ih _ (toNat_ushiftRight_lt hv))
    · next hlast => exact .last ((and_neg128_eq_zero_iff v).mp (not_not.mp hlast))

theorem encodes_writeVarIntToBuffer (v : Word) : Encodes (writeVarIntToBuffer v) v.toNat :=
  encodes_writeVarIntLoop 4 v (Nat.lt_trans v.isLt (by decide))

theorem truncated_of_cut {v : Word} {p : Bytes} (hbegins : p <+: writeVarIntToBuffer v)
    (hne : p ≠ writeVarIntToBuffer v) :
    Truncated p := by
  obtain ⟨init, last, heq, hinit, -⟩ := (encodes_writeVarIntToBuffer v).canonical.ends.eq_append
  have hlen := hbegins.length_le
  have hshort : p.length ≠ (writeVarIntToBuffer v).length := fun h => hne (hbegins.eq_of_length h)
  have hbound := length_writeVarIntToBuffer_le v
  have hp : p <+: init := by
    refine List.prefix_of_prefix_length_le hbegins ⟨[last], heq.symm⟩ ?_
    rw [heq, List.length_append, List.length_singleton] at hlen hshort
    omega
  exact ⟨by omega, fun byte hbyte => hinit byte (hp.subset hbyte)⟩

/-- **Round trip**: the reader finds the number that was written, whatever follows it, and leaves what follows it; of a
number that is cut off it takes nothing. -/
theorem readVarIntFromBuffer_write (v : Word) (r : Bytes) :
    readVarIntFromBuffer true (writeVarIntToBuffer v ++ r) = .ok ⟨(writeVarIntToBuffer v).length, v⟩ r ∧
      1 ≤ (writeVarIntToBuffer v).length ∧ (writeVarIntToBuffer v).length ≤ 5 ∧
      ∀ consume p, p <+: writeVarIntToBuffer v → p ≠ writeVarIntToBuffer v →
        ∃ value, readVarIntFromBuffer consume p = .ok ⟨0, value⟩ p := by
  refine ⟨?_, length_writeVarIntToBuffer_pos v, length_writeVarIntToBuffer_le v, fun consume p hbegins hne =>
    ⟨_, readVarIntFromBuffer_truncated consume (truncated_of_cut hbegins hne)⟩⟩
  rw [readVarIntFromBuffer_of_scan true (scanVarInt_write v r), if_pos rfl, List.drop_left]

/-! ## What is lost -/

/-- The distances of the left shifts that the reading loop evaluates. -/
def shiftDistances (numByte : Nat) : Bytes → List Nat
  | [] => []
  | byte :: rest =>
    numByte * 7 ::
      if numByte + 1 > 5 then []
      else if byte &&& 128 = 128 then shiftDistances (numByte + 1) rest
      else []

/-- `readVarIntLoopShifting` with a record of the distances it has shifted by. -/
def readVarIntLoopRecording (wide : Word → Nat → Word) (numByte : Nat) (intOut : Word) (distances : List Nat) :
    Bytes → Option VarIntRead × List Nat
  | [] => (some ⟨0, intOut⟩, distances)
  | byte :: rest =>
    let intOut := intOut ||| shiftLeft wide ((byte &&& 127).setWidth 32) (numByte * 7)
    let distances := distances ++ [numByte * 7]
    if numByte + 1 > 5 then (none, distances)
    else if byte &&& 128 = 128 then readVarIntLoopRecording wide (numByte + 1) intOut distances rest
    else (some ⟨numByte + 1, intOut⟩, distances)

/-- The reader returns what it does without the record, and the record is `shiftDistances`. -/
theorem readVarIntLoopRecording_eq (wide : Word → Nat → Word) (numByte : Nat) (intOut : Word) (distances : List Nat)
    (b : Bytes) :
    readVarIntLoopRecording wide numByte intOut distances b =
      (readVarIntLoopShifting wide numByte intOut b, distances ++ shiftDistances numByte b) := by
  induction b generalizing numByte intOut distances with
  | nil => rw [shiftDistances, List.append_nil]; rfl
  | cons byte rest ih =>
    simp only [readVarIntLoopRecording, readVarIntLoopShifting, shiftDistances]
    by_cases hcount : numByte + 1 > 5
    · rw [if_pos hcount, if_pos hcount, if_pos hcount]
    · rw [if_neg hcount, if_neg hcount, if_neg hcount]
      by_cases hmore : byte &&& 128 = 128
      · rw [if_pos hmore, if_pos hmore, if_pos hmore, ih, List.append_assoc, List.singleton_append]
      · rw [if_neg hmore, if_neg hmore, if_neg hmore]

/-- No left shift is by the width of the word or more, and a number that is returned fits the word. -/
def ReadsInRange (b : Bytes) : Prop :=
  (∀ distance ∈ shiftDistances 0 b, distance < 32) ∧
    ∀ consume n value b', readVarIntFromBuffer consume b = .ok ⟨n, value⟩ b' → 0 < n → number (b.take n) < 2 ^ 32

/-- A number of five bytes whose last has more than the four bits that are left of the word. -/
def FifthTooLarge (b : Bytes) : Prop := EndsAt 5 b ∧ ∃ fifth, b[4]? = some fifth ∧ 16 ≤ fifth.toNat % 128

section Range

variable {numByte distance n : Nat} {b init rest : Bytes}

theorem shiftDistances_continues (hinit : ∀ byte ∈ init, Continues byte) (hcount : numByte + init.length ≤ 5)
    (h : distance ∈ shiftDistances (numByte + init.length) rest) :
      distance ∈ shiftDistances numByte (init ++ rest) := by
  induction init generalizing numByte with
  | nil => exact h
  | cons byte init ih =>
    obtain ⟨hbyte, hinit⟩ := List.forall_mem_cons.mp hinit
    have hmore : byte &&& 128 = 128 := hbyte
    rw [List.length_cons] at hcount h
    have hone : ¬ numByte + 1 > 5 := by omega
    rw [List.cons_append, shiftDistances, if_neg hone, if_pos hmore]
    refine List.mem_cons_of_mem _ (ih hinit (by omega) ?_)
    rwa [Nat.add_assoc, Nat.add_comm 1]

/-- Only a sixth byte is shifted out of the word. -/
theorem tooMany_of_shiftDistances (h : distance ∈ shiftDistances numByte b) (hfar : 32 ≤ distance)
    (hcount : numByte ≤ 5) :
    6 ≤ numByte + b.length ∧ ∀ byte ∈ b.take (5 - numByte), Continues byte := by
  induction b generalizing numByte with
  | nil => cases h
  | cons byte rest ih =>
    rw [shiftDistances] at h
    rcases List.mem_cons.mp h with rfl | h
    · obtain rfl : numByte = 5 := by omega
      simp
      omega
    · split at h
      · cases h
      · next hone =>
        split at h
        · next hmore =>
          obtain ⟨hlen, hall⟩ := ih h (by omega)
          refine ⟨by rw [List.length_cons]; omega, ?_⟩
          rw [show 5 - numByte = (5 - (numByte + 1)) + 1 by omega, List.take_succ_cons]
          exact List.forall_mem_cons.mpr ⟨hmore, hall⟩
        · cases h

theorem shiftDistances_of_tooMany (h : TooMany b) : 35 ∈ shiftDistances 0 b := by
  obtain ⟨hlen, hall⟩ := h
  have hfive : (b.take 5).length = 5 := by
    rw [List.length_take]
    omega
  rw [← List.take_append_drop 5 b]
  refine shiftDistances_continues hall (by omega) ?_
  rw [hfive, List.drop_eq_getElem_cons (by omega)]
  exact List.mem_cons_self ..

theorem number_take_five (h : EndsAt 5 b) :
    ∃ fifth, b[4]? = some fifth ∧ number (b.take 5) = number (b.take 4) + fifth.toNat % 128 * 2 ^ 28 := by
  have hle := h.le_length
  have hfour : (b.take 4).length = 4 := by
    rw [List.length_take]
    omega
  refine ⟨b[4], List.getElem?_eq_getElem (by omega), ?_⟩
  rw [List.take_succ_eq_append_getElem (by omega), number_snoc, hfour]

theorem number_fits_iff (h : EndsAt n b) (hn : n ≤ 5) : number (b.take n) < 2 ^ 32 ↔ ¬ (n = 5 ∧ FifthTooLarge b) := by
  by_cases hfive : n = 5
  · subst hfive
    obtain ⟨fifth, hfifth, hvalue⟩ := number_take_five h
    have hlow := number_lt (b.take 4)
    rw [List.length_take, Nat.min_eq_left (by have := h.le_length; omega)] at hlow
    have hlarge : FifthTooLarge b ↔ 16 ≤ fifth.toNat % 128 := by
      rw [FifthTooLarge, hfifth]
      simp [h]
    rw [hvalue, hlarge]
    omega
  · have hlt := number_lt (b.take n)
    rw [List.length_take, Nat.min_eq_left h.le_length] at hlt
    have hpow : 2 ^ (7 * n) ≤ 2 ^ 28 := Nat.pow_le_pow_right (by decide) (by omega)
    simp only [hfive, false_and, not_false_eq_true, iff_true]
    omega

theorem endsAt_of_read {consume : Bool} {value : Word} {b' : Bytes}
    (h : readVarIntFromBuffer consume b = .ok ⟨n, value⟩ b') (hpos : 0 < n) : EndsAt n b ∧ n ≤ 5 := by
  rcases tooMany_or_truncated_or_endsAt b with hmany | htruncated | ⟨k, hk, hends⟩
  · rw [readVarIntFromBuffer_of_none consume (scanVarInt_of_tooMany hmany.2 hmany.1)] at h
    cases h
  · rw [readVarIntFromBuffer_truncated consume htruncated] at h
    cases h
    cases hpos
  · rw [readVarIntFromBuffer_of_scan consume (scanVarInt_of_endsAt hends hk)] at h
    cases h
    exact ⟨hends, hk⟩

end Range

/-- **When nothing is lost**: the reader stays within the word exactly when there are not too many bytes and the fifth
is not too large. -/
theorem readsInRange_iff (b : Bytes) : ReadsInRange b ↔ ¬ TooMany b ∧ ¬ FifthTooLarge b := by
  constructor
  · rintro ⟨hshifts, hfits⟩
    refine ⟨fun hmany => absurd (hshifts 35 (shiftDistances_of_tooMany hmany)) (by decide), fun hlarge => ?_⟩
    have hread := readVarIntFromBuffer_of_scan false (scanVarInt_of_endsAt hlarge.1 (Nat.le_refl 5))
    have hlt := hfits _ _ _ _ hread (by decide)
    exact (number_fits_iff hlarge.1 (Nat.le_refl 5)).mp hlt ⟨rfl, hlarge⟩
  · rintro ⟨hmany, hlarge⟩
    refine ⟨fun distance hdistance => ?_, fun consume n value b' hread hpos => ?_⟩
    · by_contra hfar
      obtain ⟨hlen, hall⟩ := tooMany_of_shiftDistances hdistance (by omega) (by decide)
      exact hmany ⟨by omega, hall⟩
    · obtain ⟨hends, hn⟩ := endsAt_of_read hread hpos
      exact (number_fits_iff hends hn).mpr fun hfive => hlarge hfive.2

/-- A number whose fifth byte gives the bit `2 ^ 32`, which is lost, and six bytes that are one too many. -/
theorem bits_out_of_range :
    ¬ ReadsInRange [0x80, 0x80, 0x80, 0x80, 0x10] ∧ ¬ ReadsInRange [0x80, 0x80, 0x80, 0x80, 0x80, 0x80] := by
  constructor
  · rintro ⟨-, hfits⟩
    exact absurd (hfits false 5 0 _ rfl (by decide)) (by decide)
  · rintro ⟨hshifts, -⟩
    exact absurd (hshifts 35 (by decide)) (by decide)

end CeriosCluster.MCPacket
