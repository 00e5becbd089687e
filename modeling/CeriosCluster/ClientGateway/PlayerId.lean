import CeriosCluster.ClientGateway.CustodyPackets

/-!
# The id of a loopback player

A loopback client's id is made of the digest of its name: the digits of its first sixteen bytes, in five groups with
dashes between them, 36 characters as the header of a message has room for.
-/

namespace CeriosCluster.ClientGateway

open CeriosCluster.Lib CeriosCluster.MCPacket

def useridOf (hashData : Block 32) : Bytes := formatUUID ((make_hex_string hashData.val).take 32)

theorem loopbackId_eq (E : Env) (playerName : Bytes) : loopbackId E playerName = useridOf (E.sha256 playerName) := rfl

def IsDash (k : Nat) : Prop := k = 8 ∨ k = 13 ∨ k = 18 ∨ k = 23

instance (k : Nat) : Decidable (IsDash k) := inferInstanceAs (Decidable (_ ∨ _))

/-- A player id: five groups of digits, which together are those of the bytes. -/
structure IsPlayerId (bytes userid : Bytes) : Prop where
  length : userid.length = 36
  dashes : ∀ k, userid[k]? = some 0x2d ↔ IsDash k
  digits : ∀ k, k < 36 → ¬ IsDash k → ∃ b, userid[k]? = some b ∧ isXDigit b = true
  undashed : userid.filter (· != 0x2d) = make_hex_string bytes

/-! ## Digits -/

def hexValue (digit : Byte) : Byte := if digit < 0x3a then digit - 0x30 else digit - 0x37

theorem hexValue_hexUpper : ∀ b :
    Byte, hexValue (hexUpper (b >>> 4)) <<< 4 ||| hexValue (hexUpper (b &&& 0x0F)) = b := by
  decide

theorem make_hex_string_cons (b : Byte) (data : Bytes) :
    make_hex_string (b :: data) = hexUpper (b >>> 4) :: hexUpper (b &&& 0x0F) :: make_hex_string data := rfl

theorem length_make_hex_string (data : Bytes) : (make_hex_string data).length = 2 * data.length := by
  induction data with
  | nil => rfl
  | cons b data ih =>
    rw [make_hex_string_cons, List.length_cons, List.length_cons, ih, List.length_cons]
    omega

theorem take_make_hex_string (n : Nat) (data : Bytes) :
    (make_hex_string data).take (2 * n) = make_hex_string (data.take n) := by
  induction n generalizing data with
  | zero => rfl
  | succ n ih =>
    cases data with
    | nil => rfl
    | cons b data =>
      rw [make_hex_string_cons, show 2 * (n + 1) = 2 * n + 1 + 1 by omega, List.take_succ_cons, List.take_succ_cons, ih,
        List.take_succ_cons, make_hex_string_cons]

theorem make_hex_string_injective {data data' : Bytes} (h : make_hex_string data = make_hex_string data') :
    data = data' := by
  induction data generalizing data' with
  | nil =>
    cases data' with
    | nil => rfl
    | cons b data' => cases h
  | cons b data ih =>
    cases data' with
    | nil => cases h
    | cons b' data' =>
      rw [make_hex_string_cons, make_hex_string_cons, List.cons.injEq, List.cons.injEq] at h
      obtain ⟨hhigh, hlow, hrest⟩ := h
      rw [← hexValue_hexUpper b, hhigh, hlow, hexValue_hexUpper, ih hrest]

/-! ## Dashes -/

theorem isXDigit_dash : isXDigit 0x2d = false := by decide

section Dashes

variable {s : Bytes}

def IsPlain (s : Bytes) : Prop := s.length = 32 ∧ s.all isXDigit = true

instance (s : Bytes) : Decidable (IsPlain s) := inferInstanceAs (Decidable (_ ∧ _))

theorem formatUUID_plain (h : IsPlain s) : formatUUID s = s.take 8 ++ 0x2d :: (s.drop 8).take 4 ++
    0x2d :: (s.drop 12).take 4 ++ 0x2d :: (s.drop 16).take 4 ++ 0x2d :: s.drop 20 := if_pos h

theorem formatUUID_other (h : ¬ IsPlain s) : formatUUID s = s := if_neg h

theorem length_formatUUID (h : IsPlain s) : (formatUUID s).length = 36 := by
  have hlength := h.1
  rw [formatUUID_plain h]
  simp only [List.length_append, List.length_cons, List.length_take, List.length_drop]
  omega

theorem formatUUID_formatUUID (s : Bytes) : formatUUID (formatUUID s) = formatUUID s := by
  by_cases h : IsPlain s
  · refine formatUUID_other fun hagain => ?_
    have hlength := length_formatUUID h
    rw [hagain.1] at hlength
    cases hlength
  · rw [formatUUID_other h, formatUUID_other h]

theorem getElem?_formatUUID (h : IsPlain s) (k : Nat) : (formatUUID s)[k]? =
    if IsDash k then some 0x2d
    else s[if k < 8 then k else if k < 13 then k - 1 else if k < 18 then k - 2 else if k <
      23 then k - 3 else k - 4]? := by
  have hlength := h.1
  rw [formatUUID_plain h]
  unfold IsDash
  simp only [List.getElem?_append, List.getElem?_cons, List.getElem?_take, List.getElem?_drop, List.length_append,
    List.length_cons, List.length_take, List.length_drop, hlength, Nat.reduceSub, Nat.reduceAdd, Nat.reduceLeDiff,
      inf_of_le_left]
  split_ifs <;> first | rfl | omega | (congr 1; omega)

theorem isXDigit_of_getElem? (h : IsPlain s) {k : Nat} {b : Byte} (hb : s[k]? = some b) : isXDigit b = true :=
  List.all_eq_true.mp h.2 b (List.mem_of_getElem? hb)

theorem filter_formatUUID (h : IsPlain s) : (formatUUID s).filter (· != 0x2d) = s := by
  have hpart {t : Bytes} (ht : ∀ b ∈ t, b ∈ s) : t.filter (· != 0x2d) = t := by
    refine List.filter_eq_self.mpr fun b hb => ?_
    have hdigit := List.all_eq_true.mp h.2 b (ht b hb)
    rw [bne_iff_ne]
    rintro rfl
    rw [isXDigit_dash] at hdigit
    cases hdigit
  have hbetween (m n : Nat) : (s.drop m).take n ++ s.drop (m + n) = s.drop m := by
    rw [← List.drop_drop, List.take_append_drop]
  rw [formatUUID_plain h]
  simp only [List.filter_append, List.filter_cons, bne_self_eq_false, Bool.false_eq_true, if_false]
  rw [hpart fun b hb => List.mem_of_mem_take hb, hpart fun b hb => List.mem_of_mem_drop (List.mem_of_mem_take hb),
    hpart fun b hb => List.mem_of_mem_drop (List.mem_of_mem_take hb),
    hpart fun b hb => List.mem_of_mem_drop (List.mem_of_mem_take hb), hpart fun b hb => List.mem_of_mem_drop hb,
    List.append_assoc, List.append_assoc, List.append_assoc, hbetween 16 4, hbetween 12 4, hbetween 8 4,
      List.take_append_drop]

end Dashes

/-! ## Ids -/

theorem isPlain_take (hashData : Block 32) : IsPlain ((make_hex_string hashData.val).take 32) := by
  refine ⟨?_, List.all_eq_true.mpr fun b hb => isXDigit_of_mem_make_hex_string (List.mem_of_mem_take hb)⟩
  rw [List.length_take, length_make_hex_string, hashData.property]
  rfl

theorem isPlayerId_useridOf (hashData : Block 32) : IsPlayerId (hashData.val.take 16) (useridOf hashData) := by
  have hplain := isPlain_take hashData
  refine ⟨length_formatUUID hplain, fun k => ?_, fun k hk hdashed => ?_, ?_⟩
  · rw [useridOf, getElem?_formatUUID hplain]
    by_cases hk : IsDash k
    · simp [hk]
    · rw [if_neg hk]
      refine ⟨fun h => ?_, fun h => absurd h hk⟩
      have hdigit := isXDigit_of_getElem? hplain h
      rw [isXDigit_dash] at hdigit
      cases hdigit
  · rw [useridOf, getElem?_formatUUID hplain, if_neg hdashed]
    have hlt : (if k < 8 then k else if k < 13 then k - 1 else if k < 18 then k - 2 else if k <
      23 then k - 3 else k - 4) <
        ((make_hex_string hashData.val).take 32).length := by
      rw [hplain.1]
      unfold IsDash at hdashed
      split_ifs <;> omega
    exact ⟨_, List.getElem?_eq_getElem hlt, isXDigit_of_getElem? hplain (List.getElem?_eq_getElem hlt)⟩
  · rw [useridOf, filter_formatUUID hplain]
    exact take_make_hex_string 16 hashData.val

theorem take_eq_of_useridOf_eq {hashData hashData' : Block 32} (h : useridOf hashData = useridOf hashData') :
    hashData.val.take 16 = hashData'.val.take 16 := by
  refine make_hex_string_injective ?_
  rw [← (isPlayerId_useridOf hashData).undashed, h, (isPlayerId_useridOf hashData').undashed]

/-- **Player ids.** The id made of a digest has its shape, digests with the same id begin with the same sixteen bytes,
and `formatUUID` changes nothing but 32 digits, and nothing the second time. -/
theorem playerId_of_digest (hashData hashData' : Block 32) (s : Bytes) :
    IsPlayerId (hashData.val.take 16) (useridOf hashData) ∧
      (useridOf hashData = useridOf hashData' → hashData.val.take 16 = hashData'.val.take 16) ∧
      formatUUID (formatUUID s) = formatUUID s ∧ (formatUUID s ≠ s → IsPlain s) :=
  ⟨isPlayerId_useridOf hashData, take_eq_of_useridOf_eq, formatUUID_formatUUID s,
    fun hchanged => by_contra fun hplain => hchanged (formatUUID_other hplain)⟩

end CeriosCluster.ClientGateway
