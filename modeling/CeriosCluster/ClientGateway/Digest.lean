import CeriosCluster.MCPacket.Buffer

/-!
# Digests and player ids as text

The session server is asked about the SHA-1 digest of a login read as a signed number in base 16, and
a player id is 32 hexadecimal digits, which `formatUUID` splits with dashes.
-/

namespace CeriosCluster.ClientGateway

open CeriosCluster.Lib CeriosCluster.MCPacket

def hexmap (digit : Byte) : Byte := if digit.toNat < 10 then digit + 0x30 else digit + 0x57

def hexStr (data : Bytes) : Bytes := data.flatMap fun (b : Byte) => [hexmap ((b &&& 0xF0) >>> 4), hexmap (b &&& 0x0F)]

/-- The loop that negates a digest, from its last byte, with the carry out of what it has done. -/
def twosComplement : Bytes → Bytes × Bool
  | [] => ([], true)
  | byte :: rest =>
    let (rest, carry) := twosComplement rest
    if carry then ((~~~byte + 1) :: rest, ~~~byte == 0xFF) else (~~~byte :: rest, false)

/-- The text of a digest. Stripping the zeros of a digest that is all zero reads past the end. -/
def hashString {σ : Type} (shaDigest : Bytes) : Exec Exn σ Bytes :=
  let negitiveHash := (shaDigest.headD 0 &&& 0x80) == 0x80
  let shaDigest := if negitiveHash then (twosComplement shaDigest).1 else shaDigest
  match (hexStr shaDigest).dropWhile (· == 0x30) with
  | [] => Exec.undefined
  | digits => pure (if negitiveHash then 0x2d :: digits else digits)

def hexUpper (digit : Byte) : Byte := if digit.toNat < 10 then digit + 0x30 else digit + 0x37

/-- `make_hex_string` with its default arguments. -/
def make_hex_string (data : Bytes) : Bytes := data.flatMap fun (b : Byte) => [hexUpper (b >>> 4), hexUpper (b &&& 0x0F)]

/-- `[[:xdigit:]]`. -/
def isXDigit (b : Byte) : Bool :=
  (0x30 ≤ b && b ≤ 0x39) || (0x41 ≤ b && b ≤ 0x46) || (0x61 ≤ b && b ≤ 0x66)

/-- Hexadecimal digits and dashes. -/
def Hexadecimal (text : Bytes) : Prop := ∀ b ∈ text, isXDigit b = true ∨ b = 0x2d

instance (text : Bytes) : Decidable (Hexadecimal text) := inferInstanceAs (Decidable (∀ b ∈ text, _))

def formatUUID (userid : Bytes) : Bytes :=
  if userid.length = 32 ∧ userid.all isXDigit then
    userid.take 8 ++ 0x2d :: (userid.drop 8).take 4 ++ 0x2d :: (userid.drop 12).take 4 ++
      0x2d :: (userid.drop 16).take 4 ++ 0x2d :: userid.drop 20
  else userid

/-- `formatUUID` puts in dashes at most. -/
theorem hexadecimal_formatUUID {userid : Bytes} : Hexadecimal (formatUUID userid) ↔ Hexadecimal userid := by
  unfold formatUUID
  split
  · next hdigits =>
    have hall : Hexadecimal userid := fun b hb => Or.inl (List.all_eq_true.mp hdigits.2 b hb)
    refine ⟨fun _ => hall, fun _ b hb => ?_⟩
    simp only [List.mem_append, List.mem_cons, or_assoc] at hb
    rcases hb with hb | rfl | hb | rfl | hb | rfl | hb | rfl | hb
    · exact hall b (List.mem_of_mem_take hb)
    · exact Or.inr rfl
    · exact hall b (List.mem_of_mem_drop (List.mem_of_mem_take hb))
    · exact Or.inr rfl
    · exact hall b (List.mem_of_mem_drop (List.mem_of_mem_take hb))
    · exact Or.inr rfl
    · exact hall b (List.mem_of_mem_drop (List.mem_of_mem_take hb))
    · exact Or.inr rfl
    · exact hall b (List.mem_of_mem_drop hb)
  · rfl

theorem isXDigit_of_mem_make_hex_string {data : Bytes} {b : Byte} (h : b ∈ make_hex_string data) :
    isXDigit b = true := by
  have hdigits : ∀ b : Byte, isXDigit (hexUpper (b >>> 4)) = true ∧ isXDigit (hexUpper (b &&& 0x0F)) = true := by
    decide
  obtain ⟨byte, -, hb⟩ := List.mem_flatMap.mp h
  simp only [List.mem_cons, List.not_mem_nil, or_false] at hb
  rcases hb with rfl | rfl
  · exact (hdigits byte).1
  · exact (hdigits byte).2

theorem hexadecimal_make_hex_string (data : Bytes) : Hexadecimal (make_hex_string data) :=
  fun _ hb => Or.inl (isXDigit_of_mem_make_hex_string hb)

example : formatUUID (ascii "069a79f444e94726a5befca90e38aaf5") = ascii "069a79f4-44e9-4726-a5be-fca90e38aaf5" := by
  decide +kernel

end CeriosCluster.ClientGateway
