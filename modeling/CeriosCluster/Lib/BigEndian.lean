import Mathlib.Data.Nat.Digits.Defs
import Mathlib.Tactic.Ring

/-!
# Digits, the highest first

`bigEndian b ds` is the number that the digits `ds` make in base `b`. Leading zeros stripped, they are the digits
`Nat.digits` gives; every digit split in two, they make the same number in the smaller base; and complemented from the
last one on, with a carry, they make its negation.
-/

namespace CeriosCluster.Lib

def bigEndian (b : Nat) (ds : List Nat) : Nat := Nat.ofDigits b ds.reverse

section BigEndian

variable {b : Nat}

@[simp] theorem bigEndian_nil : bigEndian b [] = 0 := rfl

theorem bigEndian_append (ds es : List Nat) :
    bigEndian b (ds ++ es) = bigEndian b ds * b ^ es.length + bigEndian b es := by
  rw [bigEndian, List.reverse_append, Nat.ofDigits_append, List.length_reverse, Nat.add_comm, Nat.mul_comm]
  rfl

theorem bigEndian_cons (d : Nat) (ds : List Nat) : bigEndian b (d :: ds) = d * b ^ ds.length + bigEndian b ds := by
  have hone : bigEndian b [d] = d := Nat.ofDigits_singleton
  rw [← List.singleton_append, bigEndian_append, hone]

theorem bigEndian_lt (hb : 1 < b) {ds : List Nat} (h : ∀ d ∈ ds, d < b) : bigEndian b ds < b ^ ds.length := by
  have hlt := Nat.ofDigits_lt_base_pow_length hb (l := ds.reverse) fun d hd => h d (List.mem_reverse.mp hd)
  rwa [List.length_reverse] at hlt

theorem bigEndian_eq_zero_iff (hb : 0 < b) {ds : List Nat} : bigEndian b ds = 0 ↔ ∀ d ∈ ds, d = 0 := by
  induction ds with
  | nil => simp
  | cons d ds ih =>
    have hpow : 0 < b ^ ds.length := Nat.pow_pos hb
    rw [bigEndian_cons, Nat.add_eq_zero_iff, Nat.mul_eq_zero, ih, List.forall_mem_cons]
    exact and_congr_left fun _ => ⟨fun h => h.resolve_right (by omega), Or.inl⟩

/-! ## Leading zeros -/

theorem bigEndian_dropWhile (ds : List Nat) : bigEndian b (ds.dropWhile (· == 0)) = bigEndian b ds := by
  induction ds with
  | nil => rfl
  | cons d ds ih =>
    rw [List.dropWhile_cons]
    split
    · next hzero =>
      rw [ih, bigEndian_cons, beq_iff_eq.mp hzero, Nat.zero_mul, Nat.zero_add]
    · rfl

theorem dropWhile_eq_digits (hb : 1 < b) {ds : List Nat} (h : ∀ d ∈ ds, d < b) :
    ds.dropWhile (· == 0) = (Nat.digits b (bigEndian b ds)).reverse := by
  rw [← bigEndian_dropWhile, bigEndian, Nat.digits_ofDigits b hb, List.reverse_reverse]
  · intro d hd
    exact h d ((List.dropWhile_sublist _).mem (List.mem_reverse.mp hd))
  · intro hne hlast
    rw [List.getLast_reverse] at hlast
    have hhead := List.head_dropWhile_not (· == 0) (l := ds) (by simpa using hne)
    simp [hlast] at hhead

/-! ## Two digits for each -/

def splitDigit (b d : Nat) : List Nat := [d / b, d % b]

theorem bigEndian_flatMap_splitDigit (ds : List Nat) :
    bigEndian b (ds.flatMap (splitDigit b)) = bigEndian (b * b) ds := by
  have hlength (ds : List Nat) : (ds.flatMap (splitDigit b)).length = 2 * ds.length := by
    induction ds with
    | nil => rfl
    | cons d ds ih =>
      rw [List.flatMap_cons, List.length_append, ih, List.length_cons, splitDigit, List.length_cons,
        List.length_singleton]
      omega
  induction ds with
  | nil => rfl
  | cons d ds ih =>
    have hpair : bigEndian b (splitDigit b d) = d := by
      rw [splitDigit, bigEndian_cons, bigEndian_cons, bigEndian_nil, List.length_singleton, List.length_nil]
      simpa [Nat.mul_comm] using Nat.div_add_mod d b
    rw [List.flatMap_cons, bigEndian_append, ih, hpair, hlength, bigEndian_cons, pow_mul, pow_two]

/-! ## Negation -/

/-- Complements the digits and adds one, from the last digit on, with the carry out of what it has done. -/
def negateDigits (b : Nat) : List Nat → List Nat × Bool
  | [] => ([], true)
  | d :: ds =>
    let (ds, carry) := negateDigits b ds
    if carry then ((b - 1 - d + 1) % b :: ds, d == 0) else ((b - 1 - d) :: ds, false)

theorem negateDigits_carry {ds : List Nat} (d : Nat) (h : (negateDigits b ds).2 = true) :
    negateDigits b (d :: ds) = ((b - 1 - d + 1) % b :: (negateDigits b ds).1, d == 0) := if_pos h

theorem negateDigits_done {ds : List Nat} (d : Nat) (h : (negateDigits b ds).2 = false) :
    negateDigits b (d :: ds) = ((b - 1 - d) :: (negateDigits b ds).1, false) := if_neg (by simp [h])

theorem length_negateDigits (ds : List Nat) : (negateDigits b ds).1.length = ds.length := by
  induction ds with
  | nil => rfl
  | cons d ds ih =>
    cases hcarry : (negateDigits b ds).2 with
    | true => simp [negateDigits_carry d hcarry, ih]
    | false => simp [negateDigits_done d hcarry, ih]

/-- While the carry lasts all digits have been zero; without it the number has been negated. -/
theorem bigEndian_negateDigits {ds : List Nat} (h : ∀ d ∈ ds, d < b) :
    ((negateDigits b ds).2 = true → bigEndian b ds = 0 ∧ bigEndian b (negateDigits b ds).1 = 0) ∧
      ((negateDigits b ds).2 = false → bigEndian b (negateDigits b ds).1 + bigEndian b ds = b ^ ds.length) := by
  induction ds with
  | nil => simp [negateDigits]
  | cons d ds ih =>
    have hd : d < b := h d (List.mem_cons_self ..)
    obtain ⟨ihcarry, ihdone⟩ := ih fun e he => h e (List.mem_cons_of_mem d he)
    have hlength := length_negateDigits (b := b) ds
    cases hcarry : (negateDigits b ds).2 with
    | true =>
      obtain ⟨hzero, hzero'⟩ := ihcarry hcarry
      rw [negateDigits_carry d hcarry]
      dsimp only
      rw [bigEndian_cons, bigEndian_cons, hzero, hzero', hlength, List.length_cons, pow_succ, beq_iff_eq,
        beq_eq_false_iff_ne]
      refine ⟨fun hd0 => ?_, fun hd0 => ?_⟩
      · rw [hd0, show b - 1 - 0 + 1 = b by omega, Nat.mod_self]
        simp
      · rw [Nat.mod_eq_of_lt (by omega), show b - 1 - d + 1 =
          b - d by omega, Nat.mul_comm (b ^ ds.length), Nat.add_zero, Nat.add_zero, ← Nat.add_mul,
            Nat.sub_add_cancel (Nat.le_of_lt hd)]
    | false =>
      rw [negateDigits_done d hcarry]
      refine ⟨fun hcarry' => absurd hcarry' Bool.false_ne_true, fun _ => ?_⟩
      rw [bigEndian_cons, bigEndian_cons, hlength, List.length_cons, pow_succ]
      have hdigit : b - 1 - d + d + 1 = b := by omega
      calc (b - 1 - d) * b ^ ds.length + bigEndian b (negateDigits b ds).1 + (d * b ^ ds.length + bigEndian b ds)
          = (b - 1 - d + d) * b ^ ds.length + (bigEndian b (negateDigits b ds).1 + bigEndian b ds) := by ring
        _ = (b - 1 - d + d + 1) * b ^ ds.length := by rw [ihdone hcarry]; ring
        _ = b ^ ds.length * b := by rw [hdigit, Nat.mul_comm]

end BigEndian

end CeriosCluster.Lib
