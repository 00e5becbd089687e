import CeriosCluster.MCPacket.Parse

/-!
# Which payloads a parsing constructor reads out of bounds

A constructor has undefined behaviour exactly when it copies, builds a string from, or erases a range
whose length is not between `0` and the size of what is left of the payload. Most classes compare a
length with what is left first; `HandshakePacket` and the server-bound `EncryptionPacket` use theirs
as read, and `LoginSuccessPacket` compares its second one with the wrong size.
-/

namespace CeriosCluster.MCPacket

open CeriosCluster.Lib

/-- The contents of a `std::vector<std::uint8_t>`: no more bytes than one can hold. -/
abbrev Payload := { bytes : Bytes // bytes.length ≤ maxSize }

/-- The constructor of class `c` throws or stays inside the payload. -/
def StaysInBounds (c : PacketClass) (side : Side) (a : Ambient) (payload : Payload) : Prop :=
  c.parse side a payload.val ≠ .undefined

instance (c : PacketClass) (side : Side) (a : Ambient) (payload : Payload) :
    Decidable (StaysInBounds c side a payload) := inferInstanceAs (Decidable (_ ≠ _))

/-- `payload` starts with the number `n`, which may be truncated, and `rest` follows it. -/
def StartsWith (payload : Bytes) (n : Word) (rest : Bytes) : Prop :=
  ∃ size, scanVarInt payload = some ⟨size, n⟩ ∧ rest = payload.drop size

/-- The address length, after the protocol version, is within what follows it. -/
def HandshakePacket.LengthsFit (payload : Bytes) : Prop :=
  ∀ version afterVersion length rest, StartsWith payload version afterVersion →
    StartsWith afterVersion length rest → InBounds length rest.length

/-- The secret's length is within what follows it, and so is the token's after the secret. -/
def EncryptionPacket.LengthsFit (payload : Bytes) : Prop :=
  ∀ secretLength afterLength, StartsWith payload secretLength afterLength →
    InBounds secretLength afterLength.length ∧
      ∀ tokenLength rest, StartsWith (afterLength.drop secretLength.toNat) tokenLength rest →
        InBounds tokenLength rest.length

def guardedText (length : Word) (buffer : Bytes) : Bytes :=
  if asSize length ≤ buffer.length then buffer.take length.toNat else []

def afterGuarded (length : Word) (buffer : Bytes) : Bytes :=
  if asSize length ≤ buffer.length then buffer.drop length.toNat else buffer

/-- The username's length is within what follows it, where the constructor's comparison admits it. -/
def LoginSuccessPacket.LengthsFit (payload : Bytes) : Prop :=
  ∀ uuidLength afterLength usernameLength rest, StartsWith payload uuidLength afterLength →
    StartsWith (afterGuarded uuidLength afterLength) usernameLength rest →
      asSize usernameLength ≤ (rest.length + 2 ^ 64 - asSize uuidLength) % 2 ^ 64 →
        InBounds usernameLength rest.length

/-- The lengths that `payload` declares and the constructor uses as they are lie inside it. -/
def LengthsFit (side : Side) (payload : Bytes) : PacketClass → Prop
  | .handshake => HandshakePacket.LengthsFit payload
  | .encryption => side ≠ .clientBound → EncryptionPacket.LengthsFit payload
  | .loginSuccess => LoginSuccessPacket.LengthsFit payload
  | _ => True

/-! ## One operation at a time -/

section Steps

variable {α : Type} {b : Bytes} {n : Word}

theorem readVarInt_bind_undefined {consume : Bool} {f : VarIntRead → BufferM α} :
    (readVarIntFromBuffer consume >>= f) b = .undefined ↔
      ∃ size n, scanVarInt b = some ⟨size, n⟩ ∧
        f ⟨size, n⟩ (if consume then b.drop size else b) = .undefined := by
  rw [Exec.bind_eq_undefined]
  constructor
  · rintro (h | ⟨⟨size, n⟩, t, hread, hf⟩)
    · exact absurd h readVarIntFromBuffer_ne_undefined
    · obtain ⟨hscan, rfl⟩ := readVarIntFromBuffer_eq_ok.mp hread
      exact ⟨size, n, hscan, hf⟩
  · rintro ⟨size, n, hscan, hf⟩
    exact Or.inr ⟨⟨size, n⟩, _, readVarIntFromBuffer_eq_ok.mpr ⟨hscan, rfl⟩, hf⟩

theorem copyPrefix_bind_undefined {g : Bytes → BufferM α} :
    (copyPrefix n >>= g) b = .undefined ↔
      ¬ InBounds n b.length ∨ InBounds n b.length ∧ g (b.take n.toNat) b = .undefined := by
  rw [Exec.bind_eq_undefined, copyPrefix_eq_undefined]
  refine or_congr_right ⟨?_, fun ⟨hin, hg⟩ => ⟨_, _, copyPrefix_eq_ok.mpr ⟨hin, rfl, rfl⟩, hg⟩⟩
  rintro ⟨x, t, hx, hg⟩
  obtain ⟨hin, rfl, rfl⟩ := copyPrefix_eq_ok.mp hx
  exact ⟨hin, hg⟩

theorem erasePrefix_bind_undefined {k : Unit → BufferM α} :
    (erasePrefix n >>= k) b = .undefined ↔
      ¬ InBounds n b.length ∨ InBounds n b.length ∧ k () (b.drop n.toNat) = .undefined := by
  rw [Exec.bind_eq_undefined, erasePrefix_eq_undefined]
  refine or_congr_right ⟨?_, fun ⟨hin, hk⟩ => ⟨(), _, erasePrefix_eq_ok.mpr ⟨hin, rfl⟩, hk⟩⟩
  rintro ⟨u, t, hx, hk⟩
  obtain ⟨hin, rfl⟩ := erasePrefix_eq_ok.mp hx
  exact ⟨hin, hk⟩

theorem clear_bind_undefined {k : Unit → BufferM α} : (clear >>= k) b = .undefined ↔ k () [] = .undefined :=
  Iff.rfl

theorem readPOD_bind_undefined {m w : Nat} {v : BitVec w} {h : BitVec w → BufferM α} :
    (readPODFromBuffer m w v >>= h) b = .undefined ↔
      if b.length < m then h v b = .undefined else h (podOf w (b.take m)) (b.drop m) = .undefined := by
  rw [Exec.bind_eq_undefined, readPODFromBuffer, Exec.run_bind_ok (Exec.run_get b)]
  split <;> simp [Exec.run_bind]

/-- Where the comparison admits a length, the copy is in bounds. -/
theorem copyGuarded_run (hsize : b.length ≤ maxSize) : copyGuarded n b = .ok (guardedText n b) b := by
  rw [copyGuarded, Exec.run_bind_ok (Exec.run_get b), guardedText]
  split
  · next h => exact copyPrefix_eq_ok.mpr ⟨(asSize_le_iff hsize).mp h, rfl, rfl⟩
  · rfl

theorem takeGuarded_run (hsize : b.length ≤ maxSize) :
    takeGuarded n b = .ok (guardedText n b) (afterGuarded n b) := by
  rw [takeGuarded, Exec.run_bind_ok (Exec.run_get b), guardedText, afterGuarded]
  split
  · next h =>
    have hin := (asSize_le_iff hsize).mp h
    rw [Exec.run_bind_ok (copyPrefix_eq_ok.mpr ⟨hin, rfl, rfl⟩)]
    exact Exec.run_bind_ok (a := ()) (erasePrefix_eq_ok.mpr ⟨hin, rfl⟩)
  · rfl

theorem length_afterGuarded_le : (afterGuarded n b).length ≤ b.length := by
  rw [afterGuarded]
  split <;> simp

end Steps

/-! ## One class at a time -/

section Classes

variable {side : Side} {a : Ambient} {b : Bytes}

theorem HandshakePacket.parse_undefined : HandshakePacket.parse b = .undefined ↔ ¬ HandshakePacket.LengthsFit b := by
  have hfit : ¬ HandshakePacket.LengthsFit b ↔ ∃ size version, scanVarInt b = some ⟨size, version⟩ ∧
      ∃ size' length, scanVarInt (b.drop size) = some ⟨size', length⟩ ∧
        ¬ InBounds length ((b.drop size).drop size').length := by
    simp only [HandshakePacket.LengthsFit, StartsWith, not_forall]
    constructor
    · rintro ⟨version, _, length, _, ⟨size, h, rfl⟩, ⟨size', h', rfl⟩, hout⟩
      exact ⟨size, version, h, size', length, h', hout⟩
    · rintro ⟨size, version, h, size', length, h', hout⟩
      exact ⟨version, _, length, _, ⟨size, h, rfl⟩, ⟨size', h', rfl⟩, hout⟩
  rw [hfit, HandshakePacket.parse]
  simp [readVarInt_bind_undefined, copyPrefix_bind_undefined, erasePrefix_bind_undefined,
    readPOD_bind_undefined, clear_bind_undefined]

theorem EncryptionPacket.parse_undefined (hside : side ≠ .clientBound) :
    EncryptionPacket.parse side a b = .undefined ↔ ¬ EncryptionPacket.LengthsFit b := by
  have hfit : ¬ EncryptionPacket.LengthsFit b ↔ ∃ size secretLength, scanVarInt b = some ⟨size, secretLength⟩ ∧
      (InBounds secretLength (b.drop size).length →
        ∃ size' tokenLength, scanVarInt ((b.drop size).drop secretLength.toNat) = some ⟨size', tokenLength⟩ ∧
          ¬ InBounds tokenLength (((b.drop size).drop secretLength.toNat).drop size').length) := by
    simp only [EncryptionPacket.LengthsFit, StartsWith, not_forall, not_and]
    constructor
    · rintro ⟨secretLength, _, ⟨size, h, rfl⟩, hout⟩
      refine ⟨size, secretLength, h, fun hin => ?_⟩
      obtain ⟨tokenLength, _, ⟨size', h', rfl⟩, hout⟩ := hout hin
      exact ⟨size', tokenLength, h', hout⟩
    · rintro ⟨size, secretLength, h, hout⟩
      refine ⟨secretLength, _, ⟨size, h, rfl⟩, fun hin => ?_⟩
      obtain ⟨size', tokenLength, h', hout⟩ := hout hin
      exact ⟨tokenLength, _, ⟨size', h', rfl⟩, hout⟩
  rw [hfit, EncryptionPacket.parse, if_neg hside]
  simp only [readVarInt_bind_undefined, copyPrefix_bind_undefined, erasePrefix_bind_undefined, clear_bind_undefined,
    if_true, Exec.run_pure, reduceCtorEq, and_false, or_false]
  refine exists_congr fun size => exists_congr fun n => and_congr_right fun _ => ?_
  tauto

theorem LoginSuccessPacket.parse_undefined (hsize : b.length ≤ maxSize) :
    LoginSuccessPacket.parse b = .undefined ↔ ¬ LoginSuccessPacket.LengthsFit b := by
  have hfit : ¬ LoginSuccessPacket.LengthsFit b ↔ ∃ size uuidLength, scanVarInt b = some ⟨size, uuidLength⟩ ∧
      ∃ size' usernameLength,
        scanVarInt (afterGuarded uuidLength (b.drop size)) = some ⟨size', usernameLength⟩ ∧
          (asSize usernameLength ≤
              (((afterGuarded uuidLength (b.drop size)).drop size').length + 2 ^ 64 - asSize uuidLength) % 2 ^ 64 ∧
            ¬ InBounds usernameLength ((afterGuarded uuidLength (b.drop size)).drop size').length) := by
    simp only [LoginSuccessPacket.LengthsFit, StartsWith, not_forall]
    constructor
    · rintro ⟨uuidLength, _, usernameLength, _, ⟨size, h, rfl⟩, ⟨size', h', rfl⟩, hle, hout⟩
      exact ⟨size, uuidLength, h, size', usernameLength, h', hle, hout⟩
    · rintro ⟨size, uuidLength, h, size', usernameLength, h', hle, hout⟩
      exact ⟨uuidLength, _, usernameLength, _, ⟨size, h, rfl⟩, ⟨size', h', rfl⟩, hle, hout⟩
  have htake : ∀ size uuidLength, takeGuarded uuidLength (b.drop size) =
      .ok (guardedText uuidLength (b.drop size)) (afterGuarded uuidLength (b.drop size)) :=
    fun size uuidLength => takeGuarded_run (by rw [List.length_drop]; omega)
  rw [hfit, LoginSuccessPacket.parse]
  simp only [readVarInt_bind_undefined, if_true, Exec.run_bind_ok (htake _ _), Exec.run_bind_ok (Exec.run_get _)]
  refine exists_congr fun size => exists_congr fun uuidLength => and_congr_right fun _ => exists_congr fun size' =>
    exists_congr fun usernameLength => and_congr_right fun _ => ?_
  generalize (afterGuarded uuidLength (b.drop size)).drop size' = rest
  split
  · next hle =>
    rw [copyPrefix_bind_undefined]
    refine ⟨fun h => ⟨hle, ?_⟩, fun h => Or.inl h.2⟩
    rcases h with hout | ⟨-, hclear⟩
    · exact hout
    · cases clear_bind_undefined.mp hclear
  · next hle => exact ⟨fun h => by simp [Exec.run_bind, clear] at h, fun h => absurd h.1 hle⟩

/-! ## The classes that compare first -/

/-- On a buffer that fits in memory, `m` does not go wrong and does not make the buffer longer. -/
def Guarded {α : Type} (m : BufferM α) : Prop :=
  ∀ b, b.length ≤ maxSize → m b ≠ .undefined ∧ ∀ x b', m b = .ok x b' → b'.length ≤ b.length

namespace Guarded

variable {α β : Type}

theorem pure (x : α) : Guarded (Pure.pure x) := by
  intro b _
  refine ⟨by simp, fun y b' h => ?_⟩
  obtain ⟨-, rfl⟩ : x = y ∧ b = b' := by simpa using h
  exact Nat.le_refl _

theorem bind {m : BufferM α} {f : α → BufferM β} (hm : Guarded m) (hf : ∀ x, Guarded (f x)) : Guarded (m >>= f) := by
  intro b hb
  obtain ⟨hdef, hlen⟩ := hm b hb
  constructor
  · rw [ne_eq, Exec.bind_eq_undefined, not_or]
    refine ⟨hdef, ?_⟩
    rintro ⟨x, t, hx, hfx⟩
    exact (hf x t (Nat.le_trans (hlen x t hx) hb)).1 hfx
  · intro y b' h
    obtain ⟨x, t, hx, hy⟩ := Exec.bind_eq_ok.mp h
    have ht := hlen x t hx
    exact Nat.le_trans ((hf x t (Nat.le_trans ht hb)).2 y b' hy) ht

theorem clear : Guarded clear := by
  intro b _
  refine ⟨clear_ne_undefined, fun _ b' h => ?_⟩
  obtain rfl : [] = b' := by simpa [MCPacket.clear] using h
  exact Nat.zero_le _

theorem readVarInt {consume : Bool} : Guarded (readVarIntFromBuffer consume) := by
  intro b _
  refine ⟨readVarIntFromBuffer_ne_undefined, fun r b' h => ?_⟩
  obtain ⟨-, rfl⟩ := readVarIntFromBuffer_eq_ok.mp h
  split <;> simp

theorem readPOD {n w : Nat} {v : BitVec w} : Guarded (readPODFromBuffer n w v) := by
  intro b _
  refine ⟨readPODFromBuffer_ne_undefined, fun x b' h => ?_⟩
  rw [readPODFromBuffer, Exec.run_bind_ok (Exec.run_get b)] at h
  split at h
  · obtain ⟨-, rfl⟩ : v = x ∧ b = b' := by simpa using h
    exact Nat.le_refl _
  · obtain ⟨-, rfl⟩ : _ ∧ b.drop n = b' := by simpa [Exec.run_bind] using h
    simp

theorem copyGuarded {n : Word} : Guarded (copyGuarded n) := by
  intro b hb
  rw [copyGuarded_run hb]
  refine ⟨by simp, fun x b' h => ?_⟩
  obtain ⟨-, rfl⟩ : _ ∧ b = b' := by simpa using h
  exact Nat.le_refl _

theorem takeGuarded {n : Word} : Guarded (takeGuarded n) := by
  intro b hb
  rw [takeGuarded_run hb]
  refine ⟨by simp, fun x b' h => ?_⟩
  obtain ⟨-, rfl⟩ : _ ∧ afterGuarded n b = b' := by simpa using h
  exact length_afterGuarded_le

end Guarded

theorem guarded_chatMessage : Guarded (ChatMessagePacket.parse side a) := by
  refine .bind .readVarInt fun _ => .bind .takeGuarded fun _ => ?_
  split
  · exact .bind .readPOD fun _ => .bind .clear fun _ => .pure _
  · exact .bind .clear fun _ => .pure _

theorem guarded_joinGame : Guarded JoinGamePacket.parse :=
  .bind .readPOD fun _ => .bind .readPOD fun _ => .bind .readPOD fun _ => .bind .readPOD fun _ =>
    .bind .readPOD fun _ => .bind .readVarInt fun _ => .bind .takeGuarded fun _ => .bind .readPOD fun _ =>
      .bind .clear fun _ => .pure _

theorem guarded_playerPositionAndLook : Guarded (PlayerPositionAndLookPacket.parse a) :=
  .bind .readPOD fun _ => .bind .readPOD fun _ => .bind .readPOD fun _ => .bind .readPOD fun _ =>
    .bind .readPOD fun _ => .bind .readPOD fun _ => .bind .clear fun _ => .pure _

theorem guarded_playerAbilities : Guarded (PlayerAbilitiesPacket.parse a) :=
  .bind .readPOD fun _ => .bind .readPOD fun _ => .bind .readPOD fun _ => .bind .clear fun _ => .pure _

theorem guarded_encryption : Guarded (EncryptionPacket.parse .clientBound a) :=
  .bind .readVarInt fun _ => .bind .copyGuarded fun _ => .bind .clear fun _ => .pure _

theorem parse_map_undefined {α β : Type} {m : BufferM α} {f : α → β} :
    (m >>= fun x => pure (f x)) b = .undefined ↔ m b = .undefined := by
  rw [Exec.bind_eq_undefined]
  simp

/-- **Out-of-bounds reads.** The constructor of any class goes wrong on exactly the payloads whose
lengths do not fit. -/
theorem parse_undefined (c : PacketClass) (hsize : b.length ≤ maxSize) :
    c.parse side a b = .undefined ↔ ¬ LengthsFit side b c := by
  have guarded {α : Type} {f : α → Fields} {m : BufferM α} (hm : Guarded m) :
      (m >>= fun x => pure (f x)) b = .undefined ↔ ¬ True := by
    rw [parse_map_undefined]
    simpa using (hm b hsize).1
  cases c with
  | handshake => exact parse_map_undefined.trans HandshakePacket.parse_undefined
  | serverStatus => exact guarded (.bind .clear fun _ => .pure _)
  | ping => exact guarded (.bind .readPOD fun _ => .bind .clear fun _ => .pure _)
  | loginStart => exact guarded (.bind .readVarInt fun _ => .bind .copyGuarded fun _ => .bind .clear fun _ => .pure _)
  | encryption =>
    by_cases hside : side = .clientBound
    · subst hside
      rw [show LengthsFit .clientBound b .encryption ↔ True by simp [LengthsFit]]
      exact guarded guarded_encryption
    · rw [show LengthsFit side b .encryption ↔ EncryptionPacket.LengthsFit b by simp [LengthsFit, hside]]
      exact parse_map_undefined.trans (EncryptionPacket.parse_undefined hside)
  | loginSuccess => exact parse_map_undefined.trans (LoginSuccessPacket.parse_undefined hsize)
  | setCompression => exact guarded (.bind .readVarInt fun _ => .bind .clear fun _ => .pure _)
  | keepAlive => exact guarded (.bind .readVarInt fun _ => .bind .clear fun _ => .pure _)
  | joinGame => exact guarded guarded_joinGame
  | chatMessage => exact guarded guarded_chatMessage
  | spawnPosition => exact guarded (.bind .readPOD fun _ => .bind .clear fun _ => .pure _)
  | playerPositionAndLook => exact guarded guarded_playerPositionAndLook
  | playerAbilities => exact guarded guarded_playerAbilities

end Classes

/-- **Parsing stays inside the payload** exactly when the lengths fit. -/
theorem staysInBounds_iff (c : PacketClass) (side : Side) (a : Ambient) (payload : Payload) :
    StaysInBounds c side a payload ↔ LengthsFit side payload.val c := by
  rw [StaysInBounds, ne_eq, parse_undefined c payload.property, not_not]

/-- A handshake of two bytes, protocol 47 and an address of five bytes that are not there. -/
theorem handshake_reads_past_its_payload :
    ¬ ∀ (c : PacketClass) (a : Ambient) (payload : Payload),
      (∃ state id, lookupClass .serverBound state id = some c) → StaysInBounds c .serverBound a payload := by
  intro h
  have hin := h .handshake Ambient.zero ⟨[0x2f, 0x05], by decide⟩ ⟨.HANDSHAKE, 0, by decide⟩
  revert hin
  decide

end CeriosCluster.MCPacket
