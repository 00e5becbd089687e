import CeriosCluster.ClientGateway.Admission
import CeriosCluster.Lib.BigEndian

/-!
# The digest as a signed number

What the session server is asked about is the digest read as a signed number, its highest byte first, in base 16: the
loop that negates a digest computes the negation, and stripping the zeros leaves the digits of the number.
-/

namespace CeriosCluster.ClientGateway

open CeriosCluster.Lib CeriosCluster.MCPacket

/-- The number that the bytes make, the highest first. -/
def byteNumber (bytes : Bytes) : Nat := bigEndian 256 (bytes.map BitVec.toNat)

def signedValue (shaDigest : Block 20) : Int := (BitVec.ofNat 160 (byteNumber shaDigest.val)).toInt

def lowerHex (digit : Nat) : Byte := BitVec.ofNat 8 (if digit < 10 then 0x30 + digit else 0x61 + (digit - 10))

/-- A number in base 16, without leading zeros and behind a dash if it is negative. -/
def signedHex (n : Int) : Bytes := (if n < 0 then [0x2d] else []) ++ (Nat.digits 16 n.natAbs).reverse.map lowerHex

/-! ## Negation -/

theorem complement_digit : ∀ b :
    Byte, (~~~b).toNat = 256 - 1 - b.toNat ∧ (~~~b + 1).toNat = (256 - 1 - b.toNat + 1) % 256 ∧
    (~~~b == 0xFF) = (b.toNat == 0) := by
  decide

/-- The loop over the bytes is the one over digits. -/
theorem twosComplement_eq_negateDigits (bytes : Bytes) :
    (twosComplement bytes).1.map BitVec.toNat = (negateDigits 256 (bytes.map BitVec.toNat)).1 ∧
      (twosComplement bytes).2 = (negateDigits 256 (bytes.map BitVec.toNat)).2 := by
  induction bytes with
  | nil => exact ⟨rfl, rfl⟩
  | cons b bytes ih =>
    obtain ⟨ihdigits, ihcarry⟩ := ih
    obtain ⟨hcomplement, hsucc, hzero⟩ := complement_digit b
    rw [List.map_cons, twosComplement]
    dsimp only
    cases hcarry : (twosComplement bytes).2 with
    | true =>
      rw [negateDigits_carry _ (ihcarry.symm.trans hcarry), if_pos rfl]
      exact ⟨by rw [List.map_cons, hsucc, ihdigits], hzero⟩
    | false =>
      rw [negateDigits_done _ (ihcarry.symm.trans hcarry), if_neg Bool.false_ne_true]
      exact ⟨by rw [List.map_cons, hcomplement, ihdigits], rfl⟩

theorem toNat_lt_of_mem (bytes : Bytes) : ∀ d ∈ bytes.map BitVec.toNat, d < 256 := by
  intro d hd
  obtain ⟨b, -, rfl⟩ := List.mem_map.mp hd
  exact b.isLt

/-- Unless all bytes are zero, the loop negates the number. -/
theorem byteNumber_twosComplement {bytes : Bytes} (h : byteNumber bytes ≠ 0) :
    byteNumber (twosComplement bytes).1 = 256 ^ bytes.length - byteNumber bytes := by
  obtain ⟨hdigits, -⟩ := twosComplement_eq_negateDigits bytes
  obtain ⟨hcarry, hdone⟩ := bigEndian_negateDigits (b := 256) (toNat_lt_of_mem bytes)
  cases hlast : (negateDigits 256 (bytes.map BitVec.toNat)).2 with
  | true => exact absurd (hcarry hlast).1 h
  | false =>
    have hsum := hdone hlast
    rw [List.length_map] at hsum
    unfold byteNumber
    rw [hdigits]
    omega

/-! ## Digits -/

theorem hex_digits : ∀ b : Byte, hexmap ((b &&& 0xF0) >>> 4) = lowerHex (b.toNat / 16) ∧
    hexmap (b &&& 0x0F) = lowerHex (b.toNat % 16) := by
  decide

theorem hexStr_eq (data : Bytes) : hexStr data = ((data.map BitVec.toNat).flatMap (splitDigit 16)).map lowerHex := by
  induction data with
  | nil => rfl
  | cons b data ih =>
    obtain ⟨hhigh, hlow⟩ := hex_digits b
    have hcons : hexStr (b :: data) = [hexmap ((b &&& 0xF0) >>> 4), hexmap (b &&& 0x0F)] ++ hexStr data := rfl
    rw [hcons, ih, hhigh, hlow, List.map_cons, List.flatMap_cons, List.map_append]
    rfl

theorem splitDigit_lt {data : Bytes} : ∀ d ∈ (data.map BitVec.toNat).flatMap (splitDigit 16), d < 16 := by
  intro d hd
  obtain ⟨n, hn, hd⟩ := List.mem_flatMap.mp hd
  have hlt := toNat_lt_of_mem _ n hn
  simp only [splitDigit, List.mem_cons, List.not_mem_nil, or_false] at hd
  omega

theorem lowerHex_zero_iff {d : Nat} (h : d < 16) : (lowerHex d == 0x30) = (d == 0) := by
  have hall : ∀ d < 16, (lowerHex d == 0x30) = (d == 0) := by decide
  exact hall d h

theorem dropWhile_map_lowerHex {ds : List Nat} (h : ∀ d ∈ ds, d < 16) :
    (ds.map lowerHex).dropWhile (· == 0x30) = (ds.dropWhile (· == 0)).map lowerHex := by
  induction ds with
  | nil => rfl
  | cons d ds ih =>
    rw [List.map_cons, List.dropWhile_cons, List.dropWhile_cons, lowerHex_zero_iff (h d (List.mem_cons_self ..))]
    split
    · exact ih fun e he => h e (List.mem_cons_of_mem d he)
    · rfl

theorem strip_hexStr (data : Bytes) :
    (hexStr data).dropWhile (· == 0x30) = (Nat.digits 16 (byteNumber data)).reverse.map lowerHex := by
  rw [hexStr_eq, dropWhile_map_lowerHex splitDigit_lt, dropWhile_eq_digits (by decide) splitDigit_lt,
    bigEndian_flatMap_splitDigit]
  rfl

/-! ## Digests -/

section Digest

variable {shaDigest : Block 20}

theorem byteNumber_lt (shaDigest : Block 20) : byteNumber shaDigest.val < 2 ^ 160 := by
  have h := bigEndian_lt (b := 256) (by decide) (toNat_lt_of_mem shaDigest.val)
  rw [List.length_map, shaDigest.property] at h
  exact h

theorem negitiveHash_iff (shaDigest : Block 20) :
    ((shaDigest.val.headD 0 &&& 0x80) == 0x80) = true ↔ 2 ^ 159 ≤ byteNumber shaDigest.val := by
  have hbit : ∀ b : Byte, ((b &&& 0x80) == 0x80) = true ↔ 128 ≤ b.toNat := by decide
  obtain ⟨bytes, hlength⟩ := shaDigest
  cases bytes with
  | nil => cases hlength
  | cons b rest =>
    have hrest := bigEndian_lt (b := 256) (by decide) (toNat_lt_of_mem rest)
    rw [List.length_cons] at hlength
    rw [List.length_map, show rest.length = 19 by omega] at hrest
    rw [List.headD_cons, hbit, byteNumber, List.map_cons, bigEndian_cons, List.length_map, show rest.length =
      19 by omega]
    omega

theorem signedValue_of_nonneg (h : ¬ 2 ^ 159 ≤ byteNumber shaDigest.val) :
    signedValue shaDigest = byteNumber shaDigest.val := by
  have hnat : (BitVec.ofNat 160 (byteNumber shaDigest.val)).toNat = byteNumber shaDigest.val :=
    Nat.mod_eq_of_lt (byteNumber_lt shaDigest)
  rw [signedValue, BitVec.toInt_eq_toNat_of_lt (by omega), hnat]

theorem signedValue_of_neg (h : 2 ^ 159 ≤ byteNumber shaDigest.val) :
    signedValue shaDigest = byteNumber shaDigest.val - 2 ^ 160 := by
  have hnat : (BitVec.ofNat 160 (byteNumber shaDigest.val)).toNat = byteNumber shaDigest.val :=
    Nat.mod_eq_of_lt (byteNumber_lt shaDigest)
  rw [signedValue, BitVec.toInt_eq_toNat_cond, if_neg (by omega), hnat]
  rfl

/-- The digest without its sign, as `hashString` formats it. -/
def magnitude (shaDigest : Bytes) : Bytes :=
  if (shaDigest.headD 0 &&& 0x80) == 0x80 then (twosComplement shaDigest).1 else shaDigest

theorem byteNumber_magnitude (shaDigest : Block 20) :
    byteNumber (magnitude shaDigest.val) = (signedValue shaDigest).natAbs := by
  have hlt := byteNumber_lt shaDigest
  unfold magnitude
  by_cases hneg : 2 ^ 159 ≤ byteNumber shaDigest.val
  · rw [if_pos ((negitiveHash_iff shaDigest).mpr hneg), byteNumber_twosComplement (by omega), shaDigest.property,
      signedValue_of_neg hneg]
    omega
  · rw [if_neg (mt (negitiveHash_iff shaDigest).mp hneg), signedValue_of_nonneg hneg]
    omega

theorem signedValue_neg_iff (shaDigest : Block 20) : signedValue shaDigest < 0 ↔
    ((shaDigest.val.headD 0 &&& 0x80) == 0x80) = true := by
  have hlt := byteNumber_lt shaDigest
  rw [negitiveHash_iff]
  by_cases hneg : 2 ^ 159 ≤ byteNumber shaDigest.val
  · rw [signedValue_of_neg hneg]
    omega
  · rw [signedValue_of_nonneg hneg]
    omega

theorem byteNumber_ne_zero (h : ∃ b ∈ shaDigest.val, b ≠ 0) : byteNumber shaDigest.val ≠ 0 := by
  rw [byteNumber, ne_eq, bigEndian_eq_zero_iff (by decide)]
  intro hall
  obtain ⟨b, hb, hne⟩ := h
  exact hne (BitVec.eq_of_toNat_eq (hall _ (List.mem_map_of_mem hb)))

theorem strip_ne_nil (h : ∃ b ∈ shaDigest.val, b ≠ 0) :
    (hexStr (magnitude shaDigest.val)).dropWhile (· == 0x30) ≠ [] := by
  have hlt := byteNumber_lt shaDigest
  have hne := byteNumber_ne_zero h
  rw [strip_hexStr, byteNumber_magnitude, ne_eq, List.map_eq_nil_iff, List.reverse_eq_nil_iff,
    Nat.digits_eq_nil_iff_eq_zero]
  by_cases hneg : 2 ^ 159 ≤ byteNumber shaDigest.val
  · rw [signedValue_of_neg hneg]
    omega
  · rw [signedValue_of_nonneg hneg]
    omega

theorem hashString_eq {σ : Type} (h : ∃ b ∈ shaDigest.val, b ≠ 0) :
    (hashString shaDigest.val : Exec Exn σ Bytes) = pure (signedHex (signedValue shaDigest)) := by
  have hstrip : (hexStr (magnitude shaDigest.val)).dropWhile (· == 0x30) =
      (Nat.digits 16 (signedValue shaDigest).natAbs).reverse.map lowerHex := by
    rw [strip_hexStr, byteNumber_magnitude]
  have hne := strip_ne_nil h
  have hsign := signedValue_neg_iff shaDigest
  unfold magnitude at hstrip hne
  unfold hashString signedHex
  dsimp only
  rw [← hstrip]
  split
  · next hnil => exact absurd hnil hne
  · next digits hdigits =>
    by_cases hneg : signedValue shaDigest < 0
    · rw [if_pos (hsign.mp hneg), if_pos hneg]
      rfl
    · rw [if_neg (mt hsign.mpr hneg), if_neg hneg]
      rfl

end Digest

/-- What `receivedMessage` does once the token matched, with this text for `authWithMojang`. -/
def asksAbout (w : World) (i : ConnId) (clearSharedSecret text : Bytes) : M Unit := do
  initCiphers i clearSharedSecret
  if !w.sha1Init then pure () else authWithMojang w i clearSharedSecret text

theorem proceed_eq_asksAbout {E : Env} {w : World} {i : ConnId} {f : EncryptionPacket} {clearSharedSecret : Bytes}
    {shaDigest : Block 20} (hdigest : E.sha1 (f.serverId ++ clearSharedSecret ++ E.publicKeyString) = shaDigest)
    (h : ∃ b ∈ shaDigest.val, b ≠ 0) :
    proceed E w i f (some clearSharedSecret) = asksAbout w i clearSharedSecret (signedHex (signedValue shaDigest)) := by
  unfold proceed asksAbout
  dsimp only
  rw [hdigest, hashString_eq h]
  rfl

/-- **The server digest.** For every digest that is not all zero `authWithMojang` gets the signed number in base 16; the
loop negates the number, and stripping the zeros stops before the text is empty. -/
theorem proceeds_with_signedHex (shaDigest : Block 20) (h : ∃ b ∈ shaDigest.val, b ≠ 0) :
    (∀ (E : Env) (w : World) (i : ConnId) (f : EncryptionPacket) (clearSharedSecret : Bytes),
      E.sha1 (f.serverId ++ clearSharedSecret ++ E.publicKeyString) = shaDigest →
        proceed E w i f (some clearSharedSecret) =
          asksAbout w i clearSharedSecret (signedHex (signedValue shaDigest))) ∧
      (signedValue shaDigest < 0 → (byteNumber (twosComplement shaDigest.val).1 : Int) = -signedValue shaDigest) ∧
      (hexStr (magnitude shaDigest.val)).dropWhile (· == 0x30) ≠ [] := by
  refine ⟨fun E w i f clearSharedSecret hdigest => proceed_eq_asksAbout hdigest h, fun hneg => ?_, strip_ne_nil h⟩
  have hmagnitude := byteNumber_magnitude shaDigest
  rw [magnitude, if_pos ((signedValue_neg_iff shaDigest).mp hneg)] at hmagnitude
  rw [hmagnitude]
  omega

def mostNegative : Block 20 := ⟨0x80 :: List.replicate 19 0, rfl⟩

theorem proceeds_with_mostNegative :
    (∀ (E : Env) (w : World) (i : ConnId) (f : EncryptionPacket) (clearSharedSecret : Bytes),
      E.sha1 (f.serverId ++ clearSharedSecret ++ E.publicKeyString) = mostNegative →
        proceed E w i f (some clearSharedSecret) =
          asksAbout w i clearSharedSecret (signedHex (signedValue mostNegative))) ∧
      (signedValue mostNegative < 0 → (byteNumber (twosComplement mostNegative.val).1 : Int) =
        -signedValue mostNegative) ∧
      (hexStr (magnitude mostNegative.val)).dropWhile (· == 0x30) ≠ [] :=
  proceeds_with_signedHex mostNegative ⟨0x80, List.mem_cons_self .., by decide⟩

end CeriosCluster.ClientGateway
