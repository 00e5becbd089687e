import CeriosCluster.MCPacket.Isolation

/-!
# The coherence of the registry

The id of a packet lives in the registry's key, in the literal of its class's constructor and in the
bytes it is serialized to. For every class but one they agree: a packet made for a key carries the id of
the key, and its bytes are parsed back as a packet of the class and the id. `SetCompressionPacket` is
registered under two ids and constructed with a third.
-/

namespace CeriosCluster.MCPacket

open CeriosCluster.Lib

/-- The packet has the id, and parsing what it is serialized to gives a packet of its class with the id. -/
def Coherent (z : Zlib) (fuel : Nat) (a : Ambient) (side : Side) (state : ClientState) (id : Word) (p : Packet) :
    Prop :=
  p.packetId = id ∧
    ∃ p' b, parsePacket z fuel side (p.serialized side).length state a false true (p.serialized side) =
      .ok (some p') b ∧
      p'.packetId = id ∧ p'.fields.packetClass = p.fields.packetClass

/-- The number behind the uuid of a serialized packet can be read, and the username it declares is there. -/
def LoginSuccessPacket.ComesBack (p : LoginSuccessPacket) : Prop :=
  scanVarInt (afterGuarded (BitVec.ofNat 32 p.uuid.length) (p.uuid ++ writeString p.username)) ≠ none ∧
    LoginSuccessPacket.LengthsFit p.payload

/-! ## Reading back what was written -/

section Steps

variable {b r : Bytes} {consume : Bool} {n w : Nat} {v : BitVec w}

theorem readVarInt_write (m : Word) :
    readVarIntFromBuffer true (writeVarIntToBuffer m ++ r) = .ok ⟨(writeVarIntToBuffer m).length, m⟩ r :=
  readVarIntFromBuffer_eq_ok.mpr ⟨scanVarInt_write m r, by simp⟩

theorem readPOD_podBytes {w' : Nat} (x : BitVec w') :
    readPODFromBuffer n w v (podBytes n x ++ r) = .ok (podOf w (podBytes n x)) r := by
  have hlen : (podBytes n x).length = n := by simp [podBytes]
  rw [readPODFromBuffer, Exec.run_bind_ok (Exec.run_get _), if_neg (by simp [hlen]), List.take_left' hlen,
    List.drop_left' hlen]
  rfl

end Steps

/-- `m` runs to its end on `b`. -/
def Returns {α : Type} (m : BufferM α) (b : Bytes) : Prop := ∃ x b', m b = .ok x b'

section Returns

variable {α β : Type} {b b' : Bytes}

theorem Returns.pure (x : α) : Returns (Pure.pure x) b := ⟨x, b, rfl⟩

theorem Returns.bind {m : BufferM α} {f : α → BufferM β} {x : α} (h : m b = .ok x b') (hf : Returns (f x) b') :
    Returns (m >>= f) b := by
  obtain ⟨y, b'', hy⟩ := hf
  exact ⟨y, b'', by rw [Exec.run_bind_ok h, hy]⟩

theorem Returns.map {m : BufferM α} {f : α → β} (h : Returns m b) : Returns (m >>= fun x => Pure.pure (f x)) b := by
  obtain ⟨x, b', hx⟩ := h
  exact .bind hx (.pure _)

theorem Returns.clear_bind {f : Unit → BufferM β} (h : Returns (f ()) []) : Returns (clear >>= f) b := .bind rfl h

theorem Returns.readPOD_bind {n w : Nat} {v : BitVec w} {f : BitVec w → BufferM β} (h : ∀ x b', Returns (f x) b') :
    Returns (readPODFromBuffer n w v >>= f) b := by
  by_cases hlen : b.length < n
  · have hread : readPODFromBuffer n w v b = .ok v b := by
      rw [readPODFromBuffer, Exec.run_bind_ok (Exec.run_get b), if_pos hlen]
      rfl
    exact .bind hread (h _ _)
  · have hread : readPODFromBuffer n w v b = .ok (podOf w (b.take n)) (b.drop n) := by
      rw [readPODFromBuffer, Exec.run_bind_ok (Exec.run_get b), if_neg hlen]
      rfl
    exact .bind hread (h _ _)

end Returns

/-! ## One class at a time -/

section Classes

variable {side : Side} {a : Ambient} {f : Fields} {b : Bytes}

theorem parse_packetClass {c : PacketClass} {b' : Bytes} (h : c.parse side a b = .ok f b') : f.packetClass = c := by
  cases c <;>
    · obtain ⟨x, t, -, hx⟩ := Exec.bind_eq_ok.mp h
      obtain ⟨rfl, -⟩ : _ = f ∧ t = b' := by simpa using hx
      rfl

theorem loginStart_returns (p : LoginStartPacket) (h : p.payload.length ≤ maxSize) :
    Returns LoginStartPacket.parse p.payload := by
  have hlen : p.playerName.length ≤ maxSize := by
    simp only [LoginStartPacket.payload, writeString, List.length_append] at h
    omega
  exact .bind (readVarInt_write _) (.bind (copyGuarded_run hlen) (.clear_bind (.pure _)))

theorem joinGame_returns (p : JoinGamePacket) (h : p.payload.length ≤ maxSize) :
    Returns JoinGamePacket.parse p.payload := by
  have hlen : (p.levelType ++ podBytes 1 p.reducedDebugInfo).length ≤ maxSize := by
    simp only [JoinGamePacket.payload, writeString, List.length_append] at h ⊢
    omega
  rw [JoinGamePacket.payload, writeString]
  simp only [List.append_assoc]
  refine .bind (readPOD_podBytes _) (.bind (readPOD_podBytes _) (.bind (readPOD_podBytes _) (.bind (readPOD_podBytes _)
    (.bind (readPOD_podBytes _) (.bind (readVarInt_write _) (.bind (takeGuarded_run hlen) ?_))))))
  exact .readPOD_bind fun _ _ => .clear_bind (.pure _)

theorem chatMessage_returns (p : ChatMessagePacket) (h : (p.payload side).length ≤ maxSize) :
    Returns (ChatMessagePacket.parse side a) (p.payload side) := by
  have hlen : (p.jsonChatData ++ if side = .clientBound then podBytes 1 p.chatPosition else []).length ≤ maxSize := by
    simp only [ChatMessagePacket.payload, writeString, List.length_append] at h ⊢
    omega
  rw [ChatMessagePacket.payload, writeString, List.append_assoc]
  refine .bind (readVarInt_write _) (.bind (takeGuarded_run hlen) ?_)
  split
  · exact .readPOD_bind fun _ _ => .clear_bind (.pure _)
  · exact .clear_bind (.pure _)

theorem encryption_returns (p : EncryptionPacket) (h : (p.payload side).length ≤ maxSize) :
    Returns (EncryptionPacket.parse side a) (p.payload side) := by
  by_cases hside : side = .clientBound
  · subst hside
    have hlen : (p.serverId ++ (writeString p.publickKey ++ writeString p.clearVerifyToken.val)).length ≤ maxSize := by
      simp only [EncryptionPacket.payload, if_true, writeString, List.length_append] at h ⊢
      omega
    have hpayload : p.payload .clientBound = writeVarIntToBuffer (BitVec.ofNat 32 p.serverId.length) ++
        (p.serverId ++ (writeString p.publickKey ++ writeString p.clearVerifyToken.val)) := by
      simp [EncryptionPacket.payload, writeString]
    rw [hpayload]
    exact .bind (readVarInt_write _) (.bind (copyGuarded_run hlen) (.clear_bind (.pure _)))
  · rw [EncryptionPacket.payload, if_neg hside, EncryptionPacket.parse, if_neg hside]
    exact ⟨_, _, rfl⟩

/-- The username is copied, or left out, where the comparison does not admit more than there is. -/
theorem loginSuccess_returns_iff (p : LoginSuccessPacket) (h : p.payload.length ≤ maxSize) :
    Returns LoginSuccessPacket.parse p.payload ↔ p.ComesBack := by
  have hpayload : p.payload = writeVarIntToBuffer (BitVec.ofNat 32 p.uuid.length) ++
    (p.uuid ++ writeString p.username) := by
    simp [LoginSuccessPacket.payload, writeString]
  have hlen : (p.uuid ++ writeString p.username).length ≤ maxSize := by
    rw [hpayload, List.length_append] at h
    omega
  have htake := takeGuarded_run (n := BitVec.ofNat 32 p.uuid.length) hlen
  constructor
  · rintro ⟨x, b, hok⟩
    refine ⟨fun hnone => ?_, ?_⟩
    · have hthrew {rest : Bytes} (h : scanVarInt rest = none) :
          readVarIntFromBuffer true rest = .threw (.runtimeError "VarInt too big") rest := by
        rw [readVarIntFromBuffer, Exec.run_bind_ok (Exec.run_get rest), h]
        rfl
      rw [hpayload, LoginSuccessPacket.parse, Exec.run_bind_ok (readVarInt_write _), Exec.run_bind_ok htake,
        Exec.run_bind_threw (hthrew hnone)] at hok
      cases hok
    · by_contra hfit
      rw [(LoginSuccessPacket.parse_undefined h).mpr hfit] at hok
      cases hok
  · rintro ⟨hscan, hfit⟩
    obtain ⟨r, hscan⟩ := Option.ne_none_iff_exists'.mp hscan
    rw [hpayload]
    refine .bind (readVarInt_write _)
      (.bind htake (.bind (readVarIntFromBuffer_eq_ok.mpr ⟨hscan, rfl⟩) (.bind (Exec.run_get _) ?_)))
    simp only [if_true]
    split
    · next hle =>
      have hin := hfit (BitVec.ofNat 32 p.uuid.length) (p.uuid ++ writeString p.username) r.value _
        ⟨_, by rw [hpayload, scanVarInt_write], by rw [hpayload, List.drop_left]⟩ ⟨r.size, hscan, rfl⟩ hle
      exact .bind (copyPrefix_eq_ok.mpr ⟨hin, rfl, rfl⟩) (.clear_bind (.pure _))
    · exact .bind rfl (.clear_bind (.pure _))

/-- The constructor of the class runs to its end on what the class writes. -/
theorem parse_returns_iff (h : (f.payload side).length ≤ maxSize) :
    Returns (f.packetClass.parse side a) (f.payload side) ↔ ∀ p, f = .loginSuccess p → p.ComesBack := by
  have other {p : Prop} (hp : p) (hf : ∀ q, f ≠ .loginSuccess q) : p ↔ ∀ q, f = .loginSuccess q → q.ComesBack :=
    ⟨fun _ q hq => absurd hq (hf q), fun _ => hp⟩
  cases f with
  | handshake p => exact other (.map ⟨_, _, rfl⟩) (by simp)
  | serverStatus p => exact other (.map ⟨_, _, rfl⟩) (by simp)
  | ping p => exact other (.map (.readPOD_bind fun _ _ => .clear_bind (.pure _))) (by simp)
  | loginStart p => exact other (.map (loginStart_returns p h)) (by simp)
  | encryption p => exact other (.map (encryption_returns p h)) (by simp)
  | loginSuccess p =>
    have hmap : Returns (PacketClass.loginSuccess.parse side a) (p.payload) ↔
      Returns LoginSuccessPacket.parse p.payload := by
      refine ⟨?_, .map⟩
      rintro ⟨x, b, hx⟩
      obtain ⟨y, b', hy, -⟩ := Exec.bind_eq_ok.mp hx
      exact ⟨y, b', hy⟩
    exact (hmap.trans (loginSuccess_returns_iff p h)).trans ⟨fun hp q hq => by cases hq; exact hp, fun hp => hp p rfl⟩
  | setCompression p =>
    have hread := readVarInt_write (r := []) p.compressionThreshold
    rw [List.append_nil] at hread
    exact other (.map (.bind hread (.clear_bind (.pure _)))) (by simp)
  | keepAlive p =>
    have hscan := scanVarInt_write p.keepAliveId []
    rw [List.append_nil] at hscan
    exact other (.map (.bind (readVarIntFromBuffer_eq_ok.mpr ⟨hscan, rfl⟩) (.clear_bind (.pure _)))) (by simp)
  | joinGame p => exact other (.map (joinGame_returns p h)) (by simp)
  | chatMessage p => exact other (.map (chatMessage_returns p h)) (by simp)
  | spawnPosition p => exact other (.map (.readPOD_bind fun _ _ => .clear_bind (.pure _))) (by simp)
  | playerPositionAndLook p =>
    refine other (.map (.readPOD_bind fun _ _ => .readPOD_bind fun _ _ => .readPOD_bind fun _ _ =>
      .readPOD_bind fun _ _ =>
      .readPOD_bind fun _ _ => .readPOD_bind fun _ _ => .clear_bind (.pure _))) (by simp)
  | playerAbilities p =>
    refine other (.map (.readPOD_bind fun _ _ => .readPOD_bind fun _ _ => .readPOD_bind fun _ _ =>
      .clear_bind (.pure _))) (by simp)

end Classes

/-! ## The registry -/

section Registry

variable {z : Zlib} {fuel : Nat} {a a' : Ambient} {side : Side} {state : ClientState} {id : Word} {p : Packet}
  {f : Fields}

/-- Whatever id a packet carries, its bytes are handed to the class registered for that id with what the
packet's class wrote. -/
theorem parsePacket_serialized :
    parsePacket z fuel side (p.serialized side).length state a false true (p.serialized side) =
    instantiateFromData side state a ⟨p.packetId, p.fields.payload side⟩ [] := by
  have hscan := scanVarInt_write p.packetId (p.fields.payload side)
  have hread : readPacket z fuel _ false true (_ ++ []) = _ :=
    readPacket_of_complete hscan (length_writeVarIntToBuffer_pos _)
  rw [List.append_nil, List.drop_left] at hread
  rw [serialized_eq, parsePacket_of_ok hread]

/-- The key a class is registered under is the id its constructor sets, but for `SetCompressionPacket`. -/
theorem registered_id {c : PacketClass} (h : lookupClass side state id = some c) :
    (c.newPacket side a).packetId = id ↔ c ≠ .setCompression := by
  have hfound {side' : Side} (h : findClass side' state id = some c) :
      ∃ r ∈ registry, r.side = side' ∧ r.packetId = id ∧ r.packetClass = c := by
    obtain ⟨r, hr, rfl⟩ := Option.map_eq_some_iff.mp h
    have hkey := List.find?_some hr
    simp only [decide_eq_true_eq] at hkey
    exact ⟨r, List.mem_of_find?_eq_some hr, hkey.1, hkey.2.2, rfl⟩
  obtain ⟨r, hmem, hside, rfl, rfl⟩ : ∃ r ∈ registry, (r.side = side ∨ r.side = .biDirectional) ∧ r.packetId = id ∧
      r.packetClass = c := by
    rw [lookupClass] at h
    split at h
    · next hc =>
      cases h
      obtain ⟨r, hmem, hside, hrest⟩ := hfound hc
      exact ⟨r, hmem, Or.inl hside, hrest⟩
    · obtain ⟨r, hmem, hside, hrest⟩ := hfound h
      exact ⟨r, hmem, Or.inr hside, hrest⟩
  simp only [registry, List.mem_cons, List.not_mem_nil, or_false] at hmem
  rcases hmem with rfl | rfl | rfl | rfl | rfl | rfl | rfl | rfl | rfl | rfl | rfl | rfl | rfl | rfl | rfl <;>
    simp only [reduceCtorEq, or_false, or_true] at hside <;>
    (try subst hside) <;> simp [PacketClass.newPacket]

/-- The bytes of a packet that carries a registered id come back as the class registered for it. -/
theorem instantiate_own_iff (b : Bytes) (hc : lookupClass side state id = some f.packetClass)
    (hlen : (f.payload side).length ≤ maxSize) :
    (∃ p' b', instantiateFromData side state a ⟨id, f.payload side⟩ b = .ok (some p') b' ∧ p'.packetId = id ∧
      p'.fields.packetClass = f.packetClass) ↔ ∀ q, f = .loginSuccess q → q.ComesBack := by
  rw [← parse_returns_iff (a := a) hlen, instantiateFromData, hc]
  simp only [PacketClass.parsePacket, Exec.run_bind, Exec.onLocal]
  constructor
  · rintro ⟨p', b', hrun, -, -⟩
    cases hparse : f.packetClass.parse side a (f.payload side) with
    | ok g t => exact ⟨g, t, hparse⟩
    | threw e t => simp [hparse] at hrun
    | undefined => simp [hparse] at hrun
    | diverged => simp [hparse] at hrun
  · rintro ⟨g, t, hparse⟩
    exact ⟨⟨id, t, false, g⟩, b, by simp [hparse], rfl, parse_packetClass hparse⟩

end Registry

/-- **Registry coherence.** A packet made for a registered key is coherent, whatever its fields, unless it is
a `SetCompressionPacket` or a `LoginSuccessPacket` whose username cannot be read back. -/
theorem coherent_iff (z : Zlib) (fuel : Nat) (a a' : Ambient) (side : Side) (state : ClientState) (id : Word)
    (p : Packet) (f : Fields) (hnew : newPacket side state id a = some p) (hf : f.packetClass = p.fields.packetClass)
    (hlen : (f.payload side).length ≤ maxSize) :
    Coherent z fuel a' side state id { p with fields := f } ↔
      p.fields.packetClass ≠ .setCompression ∧ ∀ q, f = .loginSuccess q → q.ComesBack := by
  obtain ⟨c, hc, rfl⟩ := Option.map_eq_some_iff.mp hnew
  have hclass : (c.newPacket side a).fields.packetClass = c := by cases c <;> rfl
  rw [hclass] at hf ⊢
  subst hf
  rw [Coherent, parsePacket_serialized, ← registered_id (a := a) hc]
  refine and_congr_right fun hid => ?_
  simp only at hid ⊢
  rw [hid]
  exact instantiate_own_iff [] hc hlen

/-- A `LoginSuccessPacket` that does not come back has an id of `2 ^ 31` bytes or more. -/
theorem LoginSuccessPacket.comesBack_of_lt {p : LoginSuccessPacket} (h : p.uuid.length < 2 ^ 31)
    (hlen : p.payload.length ≤ maxSize) : p.ComesBack := by
  have hnat : (BitVec.ofNat 32 p.uuid.length).toNat = p.uuid.length := by
    rw [BitVec.toNat_ofNat]
    omega
  have hnn : 0 ≤ (BitVec.ofNat 32 p.uuid.length).toInt := by
    rw [BitVec.toInt_eq_toNat_of_lt] <;> omega
  have hsize : asSize (BitVec.ofNat 32 p.uuid.length) = p.uuid.length := (asSize_of_nonneg hnn).trans hnat
  have hafter : afterGuarded (BitVec.ofNat 32 p.uuid.length) (p.uuid ++ writeString p.username) =
    writeString p.username := by
    rw [afterGuarded, if_pos (by simp [hsize]), hnat, List.drop_left]
  refine ⟨by rw [hafter, writeString, scanVarInt_write]; simp, ?_⟩
  have hpayload : p.payload = writeVarIntToBuffer (BitVec.ofNat 32 p.uuid.length) ++
    (p.uuid ++ writeString p.username) := by
    simp [LoginSuccessPacket.payload, writeString]
  have hname : p.username.length ≤ maxSize := by
    simp only [hpayload, writeString, List.length_append] at hlen
    omega
  rintro uuidLength afterLength usernameLength rest ⟨size, hscan, rfl⟩ ⟨size', hscan', rfl⟩ hle
  rw [hpayload, scanVarInt_write] at hscan
  cases hscan
  rw [hpayload, List.drop_left, hafter] at hscan' hle ⊢
  rw [writeString, scanVarInt_write] at hscan'
  cases hscan'
  rw [writeString, List.drop_left] at hle ⊢
  rw [hsize] at hle
  unfold maxSize at hname
  have hmod : (BitVec.ofNat 32 p.username.length).toNat ≤ p.username.length := by
    rw [BitVec.toNat_ofNat]
    exact Nat.mod_le _ _
  by_cases hnonneg : 0 ≤ (BitVec.ofNat 32 p.username.length).toInt
  · have := toNat_eq_of_nonneg hnonneg
    exact ⟨hnonneg, by omega⟩
  · -- a username of `2 ^ 31` bytes or more, which the comparison does not admit
    have hlow := BitVec.le_toInt (BitVec.ofNat 32 p.username.length)
    simp only [Nat.add_one_sub_one] at hlow
    have hlarge : 2 ^ 31 ≤ p.username.length := by
      by_contra hsmall
      refine hnonneg ?_
      rw [BitVec.toInt_eq_toNat_of_lt] <;> omega
    rw [asSize_of_neg (by omega)] at hle
    omega

/-- A `SetCompressionPacket` made for `LOGIN` carries `1` where the key says `3`. -/
theorem setCompression_carries_another_id :
    ¬ ∀ (z : Zlib) (fuel : Nat) (a a' : Ambient) (side : Side) (state : ClientState) (id : Word) (p : Packet)
      (f : Fields), newPacket side state id a = some p → f.packetClass = p.fields.packetClass →
        (f.payload side).length ≤ maxSize →
        Coherent z fuel a' side state id { p with fields := f } := by
  intro h
  have hid := (h .unusable 0 .zero .zero .clientBound .LOGIN 3 _ _ rfl rfl (by decide)).1
  exact absurd hid (by decide)

/-- A `KeepAlivePacket` comes back. -/
theorem coherent_keepAlive :
    Coherent .unusable 0 .zero .serverBound .PLAY 0 (PacketClass.keepAlive.newPacket .serverBound .zero) ↔
      PacketClass.keepAlive ≠ .setCompression ∧
        ∀ q, Fields.keepAlive (KeepAlivePacket.new .zero) = .loginSuccess q → q.ComesBack :=
  coherent_iff .unusable 0 .zero .zero .serverBound .PLAY 0 _ (.keepAlive (KeepAlivePacket.new .zero)) rfl rfl
    (by decide)

end CeriosCluster.MCPacket
