import CeriosCluster.MCPacket.ServerBound

/-!
# Reading client-bound packets back

What the client-bound classes write, parsed again. `JoinGamePacket` comes back whole. Four classes read a fixed
layout and do not store what they read, so a field comes back when the memory of the new object already held it.
`LoginSuccessPacket` compares the length of the username with what is left less the length of the uuid, which has
been erased by then.
-/

namespace CeriosCluster.MCPacket

open CeriosCluster.Lib

def Fields.packet (a : Ambient) (f : Fields) : Packet := { f.packetClass.newPacket .clientBound a with fields := f }

/-- `parsePacket` of what the packet is serialized to, with `rest` behind it, gives a packet with its id and fields,
and leaves `rest`. -/
def ReadBack (z : Zlib) (fuel : Nat) (a : Ambient) (state : ClientState) (p : Packet) (rest : Bytes) : Prop :=
  ∃ q, parsePacket z fuel .clientBound (p.serialized .clientBound).length state a false true
      (p.serialized .clientBound ++ rest) = .ok (some q) rest ∧
    q.packetId = p.packetId ∧ q.fields = p.fields

section ReadBack

variable {z : Zlib} {fuel : Nat} {a a' : Ambient} {state : ClientState} {p : Packet} {f g : Fields} {b rest : Bytes}

/-- The class registered for the packet's id gets what the packet's class wrote. -/
theorem parsePacket_serialized_append :
    parsePacket z fuel .clientBound (p.serialized .clientBound).length state a false true (p.serialized .clientBound ++
      rest) =
      instantiateFromData .clientBound state a ⟨p.packetId, p.fields.payload .clientBound⟩ rest := by
  have hscan := scanVarInt_write p.packetId (p.fields.payload .clientBound)
  rw [serialized_eq, parsePacket_of_ok (readPacket_of_complete hscan (length_writeVarIntToBuffer_pos _)),
    List.drop_left]

theorem readBack_iff (hclass : lookupClass .clientBound state (f.packet a).packetId = some f.packetClass)
    (hparse : f.packetClass.parse .clientBound a' (f.payload .clientBound) = .ok g b) :
    ReadBack z fuel a' state (f.packet a) rest ↔ g = f := by
  have hrun : instantiateFromData .clientBound state a' ⟨(f.packet a).packetId, f.payload .clientBound⟩ rest =
      .ok (some ⟨(f.packet a).packetId, b, false, g⟩) rest := run_instantiate_ok hclass hparse rest
  rw [ReadBack, parsePacket_serialized_append, show (f.packet a).fields = f from rfl, hrun]
  constructor
  · rintro ⟨q, hq, -, hfields⟩
    obtain rfl : _ = q := by simpa using hq
    exact hfields
  · rintro rfl
    exact ⟨_, rfl, rfl, rfl⟩

end ReadBack

/-! ## `JoinGamePacket` -/

theorem JoinGamePacket.parse_payload (playerEntityId : Word)
    (gamemode dimensionId difficulty maxPlayersOnPlayerList : Byte) (levelType : ShortBytes) (reducedDebugInfo : Byte) :
    JoinGamePacket.parse (JoinGamePacket.payload
        ⟨playerEntityId, gamemode, dimensionId, difficulty, maxPlayersOnPlayerList, levelType.val, reducedDebugInfo⟩) =
      .ok ⟨playerEntityId, gamemode, dimensionId, difficulty, maxPlayersOnPlayerList, levelType.val, reducedDebugInfo⟩
        [] := by
  have hlast := readPOD_podBytes (r := []) (n := 1) (v := (0 : Byte)) reducedDebugInfo
  rw [List.append_nil] at hlast
  simp only [JoinGamePacket.payload, writeString, List.append_assoc]
  rw [JoinGamePacket.parse, Exec.run_bind_ok (readPOD_podBytes playerEntityId),
    Exec.run_bind_ok (readPOD_podBytes gamemode), Exec.run_bind_ok (readPOD_podBytes dimensionId),
      Exec.run_bind_ok (readPOD_podBytes difficulty),
    Exec.run_bind_ok (readPOD_podBytes maxPlayersOnPlayerList), Exec.run_bind_ok (readVarInt_write _),
    Exec.run_bind_ok (takeGuarded_string levelType _), Exec.run_bind_ok hlast]
  simp only [podOf_podBytes (show 32 = 8 * 4 from rfl), podOf_podBytes (show 8 = 8 * 1 from rfl)]
  rfl

/-- **`JoinGamePacket` comes back**, whatever its fields are and whatever follows it. -/
theorem joinGame_readBack (z : Zlib) (fuel : Nat) (a a' : Ambient) (playerEntityId : Word)
    (gamemode dimensionId difficulty maxPlayersOnPlayerList : Byte) (levelType : ShortBytes) (reducedDebugInfo : Byte)
    (rest : Bytes) :
    ReadBack z fuel a' .PLAY (Fields.packet a (.joinGame
      ⟨playerEntityId, gamemode, dimensionId, difficulty, maxPlayersOnPlayerList, levelType.val, reducedDebugInfo⟩))
        rest :=
  (readBack_iff rfl (Exec.run_bind_ok (JoinGamePacket.parse_payload playerEntityId gamemode dimensionId difficulty
    maxPlayersOnPlayerList levelType reducedDebugInfo))).mpr rfl

/-! ## Fixed layouts -/

/-- The fields of the four classes that do not store what they read. -/
inductive FixedLayout
  | spawnPosition (rawPosition : BitVec 64)
  | playerPositionAndLook (x y z : BitVec 64) (yaw pitch : BitVec 32) (flags : Byte)
  | playerAbilities (flags : Byte) (flyingSpeed walkingSpeed : BitVec 32)
  | chatMessage (jsonChatData : ShortBytes) (chatPosition : Byte)

namespace FixedLayout

def fields : FixedLayout → Fields
  | .spawnPosition rawPosition => .spawnPosition ⟨rawPosition⟩
  | .playerPositionAndLook x y z yaw pitch flags => .playerPositionAndLook ⟨x, y, z, yaw, pitch, flags⟩
  | .playerAbilities flags flyingSpeed walkingSpeed => .playerAbilities ⟨flags, flyingSpeed, walkingSpeed⟩
  | .chatMessage jsonChatData chatPosition => .chatMessage ⟨jsonChatData.val, chatPosition⟩

/-- What the parsing constructor makes of them: of what was written it keeps a chat message's text. -/
def left (a : Ambient) : FixedLayout → Fields
  | .spawnPosition _ => .spawnPosition ⟨Position.default a.wideShift a.rawPosition⟩
  | .playerPositionAndLook .. =>
    .playerPositionAndLook ⟨a.coordinates.1, a.coordinates.2.1, a.coordinates.2.2, a.angles.1, a.angles.2,
      a.relativeFlags⟩
  | .playerAbilities .. => .playerAbilities ⟨a.abilities, a.speeds.1, a.speeds.2⟩
  | .chatMessage jsonChatData _ => .chatMessage ⟨jsonChatData.val, a.chatPosition⟩

/-- The memory of the new object holds the fields, or for a `SpawnPositionPacket` the default position is the one. -/
def HeldBy (a : Ambient) : FixedLayout → Prop
  | .spawnPosition rawPosition => Position.default a.wideShift a.rawPosition = rawPosition
  | .playerPositionAndLook x y z yaw pitch flags =>
    a.coordinates = (x, y, z) ∧ a.angles = (yaw, pitch) ∧ a.relativeFlags = flags
  | .playerAbilities flags flyingSpeed walkingSpeed => a.abilities = flags ∧ a.speeds = (flyingSpeed, walkingSpeed)
  | .chatMessage _ chatPosition => a.chatPosition = chatPosition

theorem left_eq_fields_iff {a : Ambient} (said : FixedLayout) : said.left a = said.fields ↔ said.HeldBy a := by
  cases said <;> simp [left, fields, HeldBy, Prod.ext_iff, and_assoc]

end FixedLayout

section Parse

variable {a : Ambient}

theorem SpawnPositionPacket.parse_payload (rawPosition : BitVec 64) :
    SpawnPositionPacket.parse a (SpawnPositionPacket.payload ⟨rawPosition⟩) =
      .ok ⟨Position.default a.wideShift a.rawPosition⟩ [] := by
  have hlast := readPOD_podBytes (r := []) (n := 8) (v := Position.default a.wideShift a.rawPosition) rawPosition
  rw [List.append_nil] at hlast
  rw [SpawnPositionPacket.parse, SpawnPositionPacket.payload]
  dsimp only
  rw [Exec.run_bind_ok hlast]
  rfl

theorem PlayerPositionAndLookPacket.parse_payload (p : PlayerPositionAndLookPacket) :
    PlayerPositionAndLookPacket.parse a p.payload =
      .ok ⟨a.coordinates.1, a.coordinates.2.1, a.coordinates.2.2, a.angles.1, a.angles.2, a.relativeFlags⟩ [] := by
  have hlast := readPOD_podBytes (r := []) (n := 1) (v := a.relativeFlags) p.flags
  rw [List.append_nil] at hlast
  rw [PlayerPositionAndLookPacket.parse, PlayerPositionAndLookPacket.payload]
  simp only [List.append_assoc]
  rw [Exec.run_bind_ok (readPOD_podBytes p.x), Exec.run_bind_ok (readPOD_podBytes p.y),
    Exec.run_bind_ok (readPOD_podBytes p.z), Exec.run_bind_ok (readPOD_podBytes p.yaw),
    Exec.run_bind_ok (readPOD_podBytes p.pitch), Exec.run_bind_ok hlast]
  rfl

theorem PlayerAbilitiesPacket.parse_payload (p : PlayerAbilitiesPacket) :
    PlayerAbilitiesPacket.parse a p.payload = .ok ⟨a.abilities, a.speeds.1, a.speeds.2⟩ [] := by
  have hlast := readPOD_podBytes (r := []) (n := 4) (v := a.speeds.2) p.walkingSpeed
  rw [List.append_nil] at hlast
  rw [PlayerAbilitiesPacket.parse, PlayerAbilitiesPacket.payload]
  simp only [List.append_assoc]
  rw [Exec.run_bind_ok (readPOD_podBytes p.abilities), Exec.run_bind_ok (readPOD_podBytes p.flyingSpeed),
    Exec.run_bind_ok hlast]
  rfl

theorem ChatMessagePacket.parse_clientBound (jsonChatData : ShortBytes) (chatPosition : Byte) :
    ChatMessagePacket.parse .clientBound a (ChatMessagePacket.payload .clientBound ⟨jsonChatData.val, chatPosition⟩) =
      .ok ⟨jsonChatData.val, a.chatPosition⟩ [] := by
  have hlast := readPOD_podBytes (r := []) (n := 1) (v := a.chatPosition) chatPosition
  rw [List.append_nil] at hlast
  simp only [ChatMessagePacket.payload, writeString, List.append_assoc, if_true]
  rw [ChatMessagePacket.parse, Exec.run_bind_ok (readVarInt_write _),
    Exec.run_bind_ok (takeGuarded_string jsonChatData _), if_pos rfl, Exec.run_bind_ok hlast]
  rfl

theorem FixedLayout.parse_payload (said : FixedLayout) :
    said.fields.packetClass.parse .clientBound a (said.fields.payload .clientBound) = .ok (said.left a) [] := by
  cases said with
  | spawnPosition rawPosition => exact Exec.run_bind_ok (SpawnPositionPacket.parse_payload rawPosition)
  | playerPositionAndLook x y z yaw pitch flags =>
    exact Exec.run_bind_ok (PlayerPositionAndLookPacket.parse_payload ⟨x, y, z, yaw, pitch, flags⟩)
  | playerAbilities flags flyingSpeed walkingSpeed =>
    exact Exec.run_bind_ok (PlayerAbilitiesPacket.parse_payload ⟨flags, flyingSpeed, walkingSpeed⟩)
  | chatMessage jsonChatData chatPosition =>
    exact Exec.run_bind_ok (ChatMessagePacket.parse_clientBound jsonChatData chatPosition)

theorem FixedLayout.registered (said : FixedLayout) :
    lookupClass .clientBound .PLAY (said.fields.packet a).packetId = some said.fields.packetClass := by
  cases said <;> rfl

end Parse

/-- **A fixed layout comes back** exactly when the memory of the new object held it. -/
theorem fixedLayout_readBack_iff (z : Zlib) (fuel : Nat) (a a' : Ambient) (said : FixedLayout) (rest : Bytes) :
    ReadBack z fuel a' .PLAY (said.fields.packet a) rest ↔ said.HeldBy a' :=
  (readBack_iff said.registered said.parse_payload).trans said.left_eq_fields_iff

/-- A message above the hotbar becomes an ordinary one in zeroed memory. -/
theorem chatPosition_not_readBack :
    ¬ ∀ (z : Zlib) (fuel : Nat) (a a' : Ambient) (said : FixedLayout) (rest : Bytes),
      ReadBack z fuel a' .PLAY (said.fields.packet a) rest := by
  intro h
  let said : FixedLayout := .chatMessage ⟨ascii "\x7b\x7d", by decide⟩ 2
  have hleft := (readBack_iff said.registered said.parse_payload).mp (h .unusable 0 .zero .zero said [])
  have hheld : (0 : Byte) = 2 := said.left_eq_fields_iff.mp hleft
  exact absurd hheld (by decide)

/-! ## `LoginSuccessPacket` -/

namespace LoginSuccessPacket

/-- The constructor makes the packet of what it is serialized to after the id. -/
def ComesBackWhole (p : LoginSuccessPacket) : Prop := ∃ b, LoginSuccessPacket.parse p.payload = .ok p b

/-- With `left` bytes behind both numbers, the uuid erased if it was there, the comparison admits no username that is
longer than that. -/
def Admissible (uuidLength usernameLength left : Int) : Prop :=
  (uuidLength < 0 → usernameLength ≤ left ∨ left - uuidLength < usernameLength) ∧
    (left < uuidLength → left - uuidLength < usernameLength ∧ usernameLength ≤ left)

/-- The lengths that a payload declares are admissible. -/
def DeclaresAdmissible (payload : Bytes) : Prop :=
  ∀ uuidLength afterLength usernameLength rest, StartsWith payload uuidLength afterLength →
    StartsWith (afterGuarded uuidLength afterLength) usernameLength rest →
      Admissible uuidLength.toInt usernameLength.toInt rest.length

theorem inBounds_of_admitted_iff {uuidLength usernameLength : Word} {left : Nat} (hleft : left ≤ maxSize) :
    (asSize usernameLength ≤ (left + 2 ^ 64 - asSize uuidLength) % 2 ^ 64 → InBounds usernameLength left) ↔
      Admissible uuidLength.toInt usernameLength.toInt left := by
  unfold maxSize at hleft
  have hlow := BitVec.le_toInt uuidLength
  have hhigh := BitVec.toInt_lt (x := uuidLength)
  have hlow' := BitVec.le_toInt usernameLength
  have hhigh' := BitVec.toInt_lt (x := usernameLength)
  simp only [Nat.add_one_sub_one] at hlow hhigh hlow' hhigh'
  unfold InBounds Admissible
  by_cases huuid : 0 ≤ uuidLength.toInt
  · have huuid' := toNat_eq_of_nonneg huuid
    rw [asSize_of_nonneg huuid]
    by_cases hname : 0 ≤ usernameLength.toInt
    · have hname' := toNat_eq_of_nonneg hname
      rw [asSize_of_nonneg hname]
      omega
    · rw [asSize_of_neg (n := usernameLength) (by omega)]
      omega
  · rw [asSize_of_neg (n := uuidLength) (by omega)]
    by_cases hname : 0 ≤ usernameLength.toInt
    · have hname' := toNat_eq_of_nonneg hname
      rw [asSize_of_nonneg hname]
      omega
    · rw [asSize_of_neg (n := usernameLength) (by omega)]
      omega

theorem lengthsFit_iff {payload : Bytes} (hlen : payload.length ≤ maxSize) :
    LengthsFit payload ↔ DeclaresAdmissible payload := by
  refine forall_congr' fun uuidLength => forall_congr' fun afterLength => forall_congr' fun usernameLength =>
    forall_congr' fun rest => forall_congr' fun hstart => forall_congr' fun hstart' => ?_
  obtain ⟨size, -, rfl⟩ := hstart
  obtain ⟨size', -, rfl⟩ := hstart'
  have hguarded := length_afterGuarded_le (n := uuidLength) (b := payload.drop size)
  rw [List.length_drop] at hguarded
  exact inBounds_of_admitted_iff (by rw [List.length_drop]; omega)

/-- The uuid is read back, and the username unless it is at least as long. -/
theorem parse_payload (uuid username : ShortBytes) :
    LoginSuccessPacket.parse (LoginSuccessPacket.payload ⟨uuid.val, username.val⟩) =
      .ok ⟨uuid.val, if uuid.val = [] ∨ username.val.length < uuid.val.length then username.val else []⟩ [] := by
  have hname := readVarInt_write (r := username.val) (BitVec.ofNat 32 username.val.length)
  have hcopy := copyPrefix_string username []
  rw [List.append_nil] at hcopy
  have hsize (s : ShortBytes) : asSize (BitVec.ofNat 32 s.val.length) = s.val.length := by
    rw [asSize_of_nonneg (by rw [toInt_length]; omega), toNat_length]
  simp only [LoginSuccessPacket.payload, writeString, List.append_assoc]
  rw [LoginSuccessPacket.parse, Exec.run_bind_ok (readVarInt_write _), Exec.run_bind_ok (takeGuarded_string uuid _),
    Exec.run_bind_ok hname, Exec.run_bind_ok (Exec.run_get _)]
  dsimp only
  rw [hsize, hsize]
  have huuid := uuid.property
  have husername := username.property
  have hadmitted : username.val.length ≤ (username.val.length + 2 ^ 64 - uuid.val.length) % 2 ^ 64 ↔
      uuid.val = [] ∨ username.val.length < uuid.val.length := by
    rw [← List.length_eq_zero_iff]
    omega
  by_cases h : uuid.val = [] ∨ username.val.length < uuid.val.length
  · rw [if_pos (hadmitted.mpr h), if_pos h, Exec.run_bind_ok hcopy]
    rfl
  · rw [if_neg (mt hadmitted.mp h), if_neg h]
    rfl

theorem comesBackWhole_iff {uuid username : ShortBytes} :
    ComesBackWhole ⟨uuid.val, username.val⟩ ↔ uuid.val = [] ∨ username.val.length < uuid.val.length := by
  rw [ComesBackWhole, parse_payload]
  constructor
  · rintro ⟨b, hb⟩
    by_contra h
    obtain ⟨hempty, -⟩ : username.val = [] ∧ b = [] := by simpa [if_neg h] using hb
    rw [not_or, hempty] at h
    exact h.2 (List.length_pos_iff.mpr h.1)
  · intro h
    rw [if_pos h]
    exact ⟨[], rfl⟩

/-- **A login's uuid and name** come back when the uuid is empty or longer than the name, and the constructor stays
inside a payload when the lengths it declares are admissible. -/
theorem comesBackWhole_and_inside_iff (uuid username : ShortBytes) (payload : Payload) :
    (ComesBackWhole ⟨uuid.val, username.val⟩ ↔ uuid.val = [] ∨ username.val.length < uuid.val.length) ∧
      (LoginSuccessPacket.parse payload.val ≠ .undefined ↔ DeclaresAdmissible payload.val) := by
  refine ⟨comesBackWhole_iff, ?_⟩
  rw [ne_eq, parse_undefined payload.property, not_not, lengthsFit_iff payload.property]

/-- A name as long as its uuid is lost; behind a uuid that is not there, a name is read that is not there either. -/
theorem name_lost_and_read_outside :
    (¬ ∀ uuid username : ShortBytes, ComesBackWhole ⟨uuid.val, username.val⟩) ∧
      ¬ ∀ payload : Payload, LoginSuccessPacket.parse payload.val ≠ .undefined := by
  constructor
  · intro h
    exact absurd (comesBackWhole_iff.mp (h ⟨[0x41], by decide⟩ ⟨[0x42], by decide⟩)) (by decide)
  · intro h
    exact h ⟨[0x05, 0x01], by decide⟩ (by decide)

end LoginSuccessPacket

end CeriosCluster.MCPacket
