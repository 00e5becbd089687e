import CeriosCluster.MCPacket.VarIntReader
import CeriosCluster.MCPacket.Safety

/-!
# The name in a login request

`LoginStartPacket` reads a length and takes that many bytes as the name, if they are there. The size
that `readVarIntFromBuffer` returns is not looked at: a number that is not complete leaves its bytes in
the payload and what was read of it in the length, which then counts these same bytes.
-/

namespace CeriosCluster.MCPacket

open CeriosCluster.Lib CeriosCluster.Lib.Septets

/-- The payload starts with a complete number of at most five bytes, the size of `s`, and `s` follows it. -/
def DeclaresName (payload s : Bytes) : Prop :=
  ∃ n ≤ 5, EndsAt n payload ∧ (BitVec.ofNat 32 (number (payload.take n))).toInt = s.length ∧ s <+: payload.drop n

/-- `name` is what the payload declares, and empty if it declares nothing. -/
def Acceptable (payload name : Bytes) : Prop :=
  (∀ s, DeclaresName payload s → name = s) ∧ ((∀ s, ¬ DeclaresName payload s) → name = [])

/-- The constructor throws, or ends with the buffer reset and an acceptable name. -/
def AcceptsName (payload : Bytes) : Prop :=
  (∃ e b, LoginStartPacket.parse payload = .threw e b) ∨
    ∃ name, LoginStartPacket.parse payload = .ok ⟨name⟩ [] ∧ Acceptable payload name

/-- The payload is a number that is not complete, and what there is of it is a positive length within the payload. -/
def CountsItself (payload : Bytes) : Prop :=
  Truncated payload ∧ 0 < (BitVec.ofNat 32 (number payload)).toInt ∧
    InBounds (BitVec.ofNat 32 (number payload)) payload.length

instance (payload : Bytes) : Decidable (CountsItself payload) := inferInstanceAs (Decidable (_ ∧ _))

section Parse

variable {b : Bytes} {n : Nat} {length : Word} {size : Nat}

theorem loginStart_of_scan (h : scanVarInt b = some ⟨size, length⟩) (hsize : b.length ≤ maxSize) :
    LoginStartPacket.parse b = .ok ⟨guardedText length (b.drop size)⟩ [] := by
  have hrest : (b.drop size).length ≤ maxSize := by
    rw [List.length_drop]
    omega
  rw [LoginStartPacket.parse, Exec.run_bind_ok (readVarIntFromBuffer_of_scan true h)]
  exact Exec.run_bind_ok (copyGuarded_run hrest)

theorem loginStart_of_none (h : scanVarInt b = none) :
    LoginStartPacket.parse b = .threw (.runtimeError "VarInt too big") b := by
  rw [LoginStartPacket.parse, Exec.run_bind_threw (readVarIntFromBuffer_of_none true h)]

theorem guardedText_eq_nil_iff (hsize : b.length ≤ maxSize) :
    guardedText length b = [] ↔ ¬ (0 < length.toInt ∧ InBounds length b.length) := by
  rw [guardedText]
  by_cases hin : InBounds length b.length
  · have hnat := toNat_eq_of_nonneg hin.1
    have hle := hin.2
    rw [if_pos ((asSize_le_iff hsize).mpr hin), List.take_eq_nil_iff, ← List.length_eq_zero_iff]
    simp only [hin, and_true]
    omega
  · rw [if_neg fun h => hin ((asSize_le_iff hsize).mp h)]
    simp [hin]

theorem declaresName_iff (h : EndsAt n b) (hn : n ≤ 5) (s : Bytes) :
    DeclaresName b s ↔ (BitVec.ofNat 32 (number (b.take n))).toInt = s.length ∧ s <+: b.drop n := by
  constructor
  · rintro ⟨n', hn', h', hdeclared⟩
    have hscan := (scanVarInt_of_endsAt h hn).symm.trans (scanVarInt_of_endsAt h' hn')
    obtain rfl : n = n' := by simpa using congrArg (Option.map (·.size)) hscan
    exact hdeclared
  · exact fun hdeclared => ⟨n, hn, h, hdeclared⟩

theorem acceptable_guardedText (h : EndsAt n b) (hn : n ≤ 5) (hsize : b.length ≤ maxSize) :
    Acceptable b (guardedText (BitVec.ofNat 32 (number (b.take n))) (b.drop n)) := by
  have hdeclares := declaresName_iff h hn
  generalize BitVec.ofNat 32 (number (b.take n)) = length at hdeclares
  have hrest : (b.drop n).length ≤ maxSize := by
    rw [List.length_drop]
    omega
  constructor
  · intro s hs
    obtain ⟨hlength, hbegins⟩ := (hdeclares s).mp hs
    have hnat := toNat_eq_of_nonneg (n := length) (by omega)
    have hin : InBounds length (b.drop n).length := ⟨by omega, by have := hbegins.length_le; omega⟩
    rw [guardedText, if_pos ((asSize_le_iff hrest).mpr hin), show length.toNat = s.length by omega]
    exact (List.prefix_iff_eq_take.mp hbegins).symm
  · intro hnone
    rw [guardedText, if_neg]
    intro hle
    obtain ⟨hpos, hfits⟩ := (asSize_le_iff hrest).mp hle
    have hnat := toNat_eq_of_nonneg hpos
    refine hnone ((b.drop n).take length.toNat) ((hdeclares _).mpr ⟨?_, List.take_prefix ..⟩)
    rw [List.length_take]
    omega

end Parse

/-- **The accepted name.** The constructor takes the declared name, and none where none is declared, exactly unless the
payload is a number that is not complete and counts its own bytes. -/
theorem acceptsName_iff (payload : Payload) : AcceptsName payload.val ↔ ¬ CountsItself payload.val := by
  obtain ⟨b, hsize⟩ := payload
  show AcceptsName b ↔ ¬ CountsItself b
  rcases tooMany_or_truncated_or_endsAt b with hmany | htruncated | ⟨n, hn, hends⟩
  · have hthrew := loginStart_of_none (scanVarInt_of_tooMany hmany.2 hmany.1)
    refine iff_of_true (.inl ⟨_, _, hthrew⟩) fun hcounts => ?_
    have := hmany.1
    have := hcounts.1.1
    omega
  · have hparse := loginStart_of_scan (scanVarInt_of_truncated htruncated.2 htruncated.1) hsize
    have hnone : ∀ s, ¬ DeclaresName b s := fun s ⟨_, _, hends, _⟩ => not_truncated_of_endsAt hends htruncated
    have hempty : guardedText (BitVec.ofNat 32 (number b)) b = [] ↔
        ¬ (0 < (BitVec.ofNat 32 (number b)).toInt ∧ InBounds (BitVec.ofNat 32 (number b)) b.length) :=
      guardedText_eq_nil_iff hsize
    rw [CountsItself, and_iff_right htruncated, ← hempty, AcceptsName, hparse]
    constructor
    · rintro (⟨e, b', h⟩ | ⟨name, h, haccept⟩)
      · cases h
      · cases h
        exact haccept.2 hnone
    · intro hnil
      exact .inr ⟨_, rfl, fun s hs => absurd hs (hnone s), fun _ => hnil⟩
  · have hparse := loginStart_of_scan (scanVarInt_of_endsAt hends hn) hsize
    refine iff_of_true (.inr ⟨_, hparse, acceptable_guardedText hends hn hsize⟩) fun hcounts => ?_
    exact not_truncated_of_endsAt hends hcounts.1

/-- A lone `0x81` is a name of that byte. -/
theorem truncated_length_is_a_name : ¬ ∀ payload : Payload, AcceptsName payload.val := by
  intro h
  have hparse : LoginStartPacket.parse [0x81] = .ok ⟨[0x81]⟩ [] := by decide
  have htruncated : Truncated [0x81] := by decide
  rcases h ⟨[0x81], by decide⟩ with ⟨e, b, hthrew⟩ | ⟨name, hok, haccept⟩
  · rw [hparse] at hthrew
    cases hthrew
  · rw [hparse] at hok
    cases hok
    have hnil := haccept.2 fun s ⟨_, _, hends, _⟩ => not_truncated_of_endsAt hends htruncated
    cases hnil

end CeriosCluster.MCPacket
