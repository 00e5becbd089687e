import CeriosCluster.ClientGateway.Chat
import CeriosCluster.ClientGateway.ClientBoundForm
import CeriosCluster.ClientGateway.Shutdown
import CeriosCluster.MCPacket.RegistryCoherence

/-!
# The text of a chat message

`onPacketReceived` of `ClientServer` is to put the name of the player before what the player says. It calls `insert`
with `stringValue.front()` for a position, so the name goes in as far into the text as the first byte of the text says,
and where the text is shorter than that `insert` throws.
-/

namespace CeriosCluster.ClientGateway

open CeriosCluster.Lib CeriosCluster.MCPacket

/-! ## The handler -/

/-- rapidjson: `Document::Parse`, and `Document::Accept` with a `Writer`. -/
structure RapidJson where
  Parse : Bytes → Option Json
  write : Json → Bytes

def setMember (name : Bytes) (value : Json) : List (Bytes × Json) → List (Bytes × Json)
  | [] => []
  | m :: members => if m.1 == name then (m.1, value) :: members else m :: setMember name value members

def Json.setText (text : Bytes) : Json → Json
  | .object members => .object (setMember (ascii "text") (.string text) members)
  | json => json

/-- Strings are stored and written faithfully: a parsed document with another text is written so that it is parsed to
one with that text. -/
def RapidJson.Faithful (J : RapidJson) : Prop :=
  ∀ document json text, J.Parse document = some json →
    ∃ json', J.Parse (J.write (json.setText text)) = some json' ∧ json'.text = (json.setText text).text

/-- A `char` converted to `std::size_t`. -/
def charAsSize (c : Byte) : Nat := (c.signExtend 64).toNat

/-- `std::string::insert` at a position. -/
def insertAt {σ : Type} (position : Nat) (inserted s : Bytes) : Exec Exn σ Bytes :=
  if s.length < position then Exec.throw .outOfRange else pure (s.take position ++ inserted ++ s.drop position)

def Client.getClientUsername (c : Client) : Bytes := c.requestedUsername

/-- What is put before a message of the player. -/
def nameMark (username : Bytes) : Bytes := ascii "<" ++ username ++ ascii "> "

/-- What `SetString` copies of a text whose length is cast to `std::uint32_t`. -/
def copied (s : Bytes) : Bytes := s.take (s.length % 2 ^ 32)

/-- The packet with another text; the constructor of `std::string` throws if the document is too long for one. -/
def retext {σ : Type} (J : RapidJson) (packet : Packet) (chatJson : Json) (stringValue : Bytes) : Exec Exn σ Packet :=
  let jsonChatData := J.write (chatJson.setText (copied stringValue))
  if maxSize < jsonChatData.length then Exec.throw .lengthError
  else pure { packet with fields := .chatMessage ⟨jsonChatData, chatTypeNormal⟩ }

variable (E : Env)

/-- The loop over `clients`, in the order in which the map holds its keys. -/
def ClientServer.broadcast (chatPacket : Packet) : List Bytes → M Unit
  | [] => pure ()
  | userid :: order => do
    let g ← Exec.get
    match g.entry userid with
    | none => Exec.undefined
    | some i => do
      -- the clients share the packet, which each send serializes anew
      sendPacket E i chatPacket
      ClientServer.broadcast chatPacket order

/-- `ClientServer::onPacketReceived`, with the order in which `clients` holds its keys. `Parse` reads up to a null
character. -/
def ClientServer.onPacketReceived (J : RapidJson) (order : List Bytes) (i : ConnId) (packet : Packet) : M Bool :=
  match packet.fields with
  | .chatMessage chatPacket =>
    match J.Parse (chatPacket.jsonChatData.takeWhile (· != 0)) with
    | none => pure true
    | some chatJson =>
      match chatJson.text with
      -- `operator[]` asks for the member, and `GetString` for a string
      | none => Exec.undefined
      | some [] => pure true
      | some (front :: rest) =>
        if MC_CHAT_MAX_TEXT_LENGTH < (front :: rest).length then pure true
        else if front = 0x2f then pure true
        else do
          let c ← client i
          let stringValue ← insertAt (charAsSize front) (nameMark c.getClientUsername) (front :: rest)
          let chatPacket ← retext J packet chatJson stringValue
          ClientServer.broadcast E chatPacket order
          pure true
  | _ => pure true

/-! ## What it is for -/

/-- The packet is a message with a text that is not a command. -/
structure Says (J : RapidJson) (packet : Packet) (json : Json) (text : Bytes) : Prop where
  parsed : ∃ f, packet.fields = .chatMessage f ∧ J.Parse (f.jsonChatData.takeWhile (· != 0)) = some json
  hasText : json.text = some text
  nonempty : 1 ≤ text.length
  short : text.length ≤ MC_CHAT_MAX_TEXT_LENGTH
  plain : text.head? ≠ some (0x2f : Byte)

def CarriesText (J : RapidJson) (text data : Bytes) : Prop :=
  ∃ (p : Packet) (f : ChatMessagePacket) (json : Json), p.fields = .chatMessage f ∧
    frame (p.serialized getSide) = some data ∧
    J.Parse f.jsonChatData = some json ∧ json.text = some text

/-- Between the two states every client in `clients` has been sent one message, which has this text. -/
def BroadcastsText (J : RapidJson) (text : Bytes) (g g' : Gateway) : Prop :=
  ∀ userid i c, g.clients.lookup userid = some (some i) → g.objects[i]? = some c →
    ∃ c' data, g'.objects[i]? = some c' ∧ c'.sent = c.sent ++ [data] ∧ CarriesText J text data

/-- The handler returns, and has sent everyone the message with the name of the player before it. -/
def NamesSender (J : RapidJson) (order : List Bytes) (g : Gateway) (i : ConnId) (username : Bytes) (packet : Packet)
    (text : Bytes) : Prop :=
  ∃ g', ClientServer.onPacketReceived E J order i packet g = .ok true g' ∧
    BroadcastsText J (nameMark username ++ text) g g'

/-- The first byte says that the name goes in front; or it is `<` and says that the name goes in after sixty bytes, and
these can be exchanged with the name. -/
def GoesInFront (username text : Bytes) : Prop :=
  text.head? = some 0 ∨ text.head? = some (0x3c : Byte) ∧ 60 ≤ text.length ∧
    text.take 60 ++ nameMark username = nameMark username ++ text.take 60

instance (username text : Bytes) : Decidable (GoesInFront username text) := inferInstanceAs (Decidable (_ ∨ _))

def withText (J : RapidJson) (packet : Packet) (json : Json) (text : Bytes) : Packet :=
  { packet with fields := .chatMessage ⟨J.write (json.setText text), chatTypeNormal⟩ }

/-- The length of the text is a 32-bit number, and the packet with the text fits a frame. -/
def CanBeSent (J : RapidJson) (packet : Packet) (json : Json) (text : Bytes) : Prop :=
  text.length < 2 ^ 32 ∧ ((withText J packet json text).serialized getSide).length < 2 ^ 21

/-! ## One client after the other -/

section Loop

variable {E : Env} {g g' : Gateway} {i j : ConnId} {c : Client} {p : Packet} {data : Bytes} {order : List Bytes}

theorem sendPacket_returns (hl : Live g i c) (hthreshold : c.compressionThreshold = noCompression)
    (hciphered : Ciphered c) (hframe : frame (p.serialized getSide) = some data) (hlength : data.length < 2 ^ 31) :
    ∃ f, sendPacket E i p g = .ok () (g.modify i f) ∧ ∀ c, (f c).sent = c.sent ++ [data] := by
  have hrecord (c : Client) : (c.logged (.sendPacket p)).sent = c.sent := sent_logged.trans (List.append_nil _)
  have hl₁ := hl.modify (f := fun c => c.logged (.sendPacket p)) rfl
  obtain ⟨f, hsend, hf⟩ := sendData_returns (E := E) hl₁ (fun hencrypted => hciphered (Or.inl hencrypted)) hlength
  refine ⟨fun c => f (c.logged (.sendPacket p)), ?_, fun c => by rw [hf, hrecord]⟩
  rw [sendPacket_hands hl hthreshold, handedToSendData_eq, hframe]
  dsimp only
  rw [hsend, Gateway.modify_modify]
  rfl

theorem Ready.inert (h : Ready g j) (hinert : Inert g g') : Ready g' j := by
  obtain ⟨c, ⟨hc, hfreed⟩, hthreshold, hciphered⟩ := h
  obtain ⟨c', hc', hquiet⟩ := hinert.allQuiet.2 j c hc
  have hholder : c'.holder = c.holder := by
    have hj := holder_of_object hc'
    rw [hinert.custody, holder_of_object hc] at hj
    exact (Option.some.inj hj).symm
  exact ⟨c', ⟨hc', (congrArg Holder.freed hholder).trans hfreed⟩, hquiet.compressionThreshold.trans hthreshold,
    hciphered.quiet hquiet⟩

theorem entry_inert (hinert : Inert g g') : g'.entry = g.entry := by
  funext userid
  rw [Gateway.entry, Gateway.entry, hinert.clients]

theorem entry_eq_some {userid : Bytes} : g.entry userid = some i ↔ g.clients.lookup userid = some (some i) :=
  held_client_iff

theorem broadcast_returns (hclass : p.fields.packetClass ≠ .loginSuccess)
    (hframe : frame (p.serialized getSide) = some data) (hlength : data.length < 2 ^ 31)
    (hready : ∀ userid i, g.entry userid = some i → Ready g i) (hentries : ∀ userid ∈ order, g.entry userid ≠ none) :
    ∃ g', ClientServer.broadcast E p order g = .ok () g' ∧
      EveryClient (fun j c c' => c'.sent =
        c.sent ++ List.replicate ((order.map g.entry).count (some j)) data) g g' := by
  induction order generalizing g with
  | nil => exact ⟨g, rfl, rfl, fun j c hc => ⟨c, hc, (List.append_nil _).symm⟩⟩
  | cons userid order ih =>
    obtain ⟨i, hi⟩ := Option.ne_none_iff_exists'.mp (hentries userid (List.mem_cons_self ..))
    obtain ⟨c, hl, hthreshold, hciphered⟩ := hready userid i hi
    obtain ⟨f, hsend, hf⟩ := sendPacket_returns (E := E) hl hthreshold hciphered hframe hlength
    have hinert : Inert g (g.modify i f) := (inert_sendPacket hclass g).of_ok hsend
    obtain ⟨g', hrest, hsent⟩ := ih (g := g.modify i f)
      (fun key j hj => (hready key j (by rwa [entry_inert hinert] at hj)).inert hinert)
      (fun key hkey => by rw [entry_inert hinert]; exact hentries key (List.mem_cons_of_mem _ hkey))
    refine ⟨g', ?_, (sendsOnce_modify hf).trans hsent fun j c₁ c₂ c₃ hfirst hthen => ?_⟩
    · rw [ClientServer.broadcast, Exec.run_bind_ok (Exec.run_get g), hi]
      exact (Exec.run_bind_ok hsend).trans hrest
    · rw [hthen, hfirst, entry_inert hinert, List.map_cons, List.count_cons, hi, List.append_assoc]
      by_cases hij : j = i
      · subst hij
        simp [List.replicate_succ]
      · simp [hij, Ne.symm hij]

theorem entries_of_broadcast (hclass : p.fields.packetClass ≠ .loginSuccess)
    (hrun : ClientServer.broadcast E p order g = .ok () g') : ∀ userid ∈ order, g.entry userid ≠ none := by
  induction order generalizing g with
  | nil => exact fun _ h => absurd h (List.not_mem_nil)
  | cons userid order ih =>
    rw [ClientServer.broadcast, Exec.run_bind_ok (Exec.run_get g)] at hrun
    cases hi : g.entry userid with
    | none =>
      rw [hi] at hrun
      cases hrun
    | some i =>
      rw [hi] at hrun
      obtain ⟨⟨⟩, g₁, hsend, hrest⟩ := Exec.bind_eq_ok.mp hrun
      have hinert : Inert g g₁ := (inert_sendPacket hclass g).of_ok hsend
      intro key hkey
      rcases List.mem_cons.mp hkey with rfl | hkey
      · rw [hi]
        exact Option.some_ne_none i
      · rw [← entry_inert hinert]
        exact ih hrest key hkey

theorem frame_of_broadcast {userid : Bytes} (hready : ∀ userid i, g.entry userid = some i → Ready g i)
    (hmem : userid ∈ order) (hrun : ClientServer.broadcast E p order g = .ok () g') :
    ∃ data, frame (p.serialized getSide) = some data := by
  cases order with
  | nil => cases hmem
  | cons key order =>
    rw [ClientServer.broadcast, Exec.run_bind_ok (Exec.run_get g)] at hrun
    cases hi : g.entry key with
    | none =>
      rw [hi] at hrun
      cases hrun
    | some i =>
      rw [hi] at hrun
      obtain ⟨⟨⟩, g₁, hsend, -⟩ := Exec.bind_eq_ok.mp hrun
      obtain ⟨c, hl, hthreshold, -⟩ := hready key i hi
      rw [sendPacket_hands hl hthreshold, handedToSendData_eq] at hsend
      cases hframe : frame (p.serialized getSide) with
      | none =>
        rw [hframe] at hsend
        cases hsend
      | some data => exact ⟨data, rfl⟩

end Loop

/-! ## Where the name goes -/

section Text

variable {σ : Type} {s s' : σ} {J : RapidJson} {json : Json} {packet p : Packet}
  {username text inserted written : Bytes} {position : Nat}

theorem setMember_find (name : Bytes) (value : Json) (members : List (Bytes × Json)) {m : Bytes × Json}
    (h : members.find? (fun m => m.1 == name) = some m) :
    (setMember name value members).find? (fun m => m.1 == name) = some (m.1, value) := by
  induction members with
  | nil => cases h
  | cons first members ih =>
    rw [setMember]
    by_cases hfirst : (first.1 == name) = true
    · rw [List.find?_cons_of_pos (p := fun m : Bytes × Json => m.1 == name) hfirst] at h
      obtain rfl := Option.some.inj h
      rw [if_pos hfirst]
      exact List.find?_cons_of_pos hfirst
    · rw [List.find?_cons_of_neg (p := fun m : Bytes × Json => m.1 == name) hfirst] at h
      rw [if_neg hfirst]
      exact (List.find?_cons_of_neg (p := fun m : Bytes × Json => m.1 == name) hfirst).trans (ih h)

theorem text_setText (h : json.text = some text) (text' : Bytes) : (json.setText text').text = some text' := by
  cases json with
  | object members =>
    cases hfind : members.find? fun m => m.1 == ascii "text" with
    | none =>
      rw [Json.text, hfind] at h
      cases h
    | some m => rw [Json.setText, Json.text, setMember_find _ _ _ hfind]
  | _ => cases h

theorem insertAt_eq_ok :
    (insertAt position inserted text : Exec Exn σ Bytes) s = .ok written s' ↔
      position ≤ text.length ∧ text.take position ++ inserted ++ text.drop position = written ∧ s = s' := by
  rw [insertAt]
  split
  · next hlt => simp [hlt]
  · next hle => simp [Nat.not_lt.mp hle]

theorem retext_eq_ok :
    (retext J packet json text : Exec Exn σ Packet) s = .ok p s' ↔
      (J.write (json.setText (copied text))).length ≤ maxSize ∧ withText J packet json (copied text) = p ∧ s = s' := by
  rw [retext]
  split
  · next hlt => simp [Nat.not_le.mpr hlt]
  · next hle => simp [Nat.not_lt.mp hle, withText]

theorem copied_eq_iff (h : text.length = written.length) : copied text = written ↔
    text = written ∧ written.length < 2 ^ 32 := by
  rw [copied, ← h]
  constructor
  · intro hcopied
    have hlength := congrArg List.length hcopied
    rw [List.length_take, ← h] at hlength
    have hlt : text.length < 2 ^ 32 := by
      have := Nat.mod_lt text.length (show 0 < 2 ^ 32 by decide)
      omega
    rw [Nat.mod_eq_of_lt hlt, List.take_length] at hcopied
    exact ⟨hcopied, hlt⟩
  · rintro ⟨rfl, hlt⟩
    rw [Nat.mod_eq_of_lt hlt, List.take_length]

/-- The name stands in front exactly if what it is put after can be exchanged with it. -/
theorem inserted_in_front_iff :
    text.take position ++ inserted ++ text.drop position = inserted ++ text ↔
      text.take position ++ inserted = inserted ++ text.take position := by
  have hsplit : inserted ++ text = inserted ++ text.take position ++ text.drop position := by
    rw [List.append_assoc, List.take_append_drop]
  rw [hsplit, List.append_left_inj]

theorem charAsSize_eq_zero : ∀ c : Byte, charAsSize c = 0 → c = 0 := by decide

/-- Where the name can go in at the position the first byte says, and stand in front. -/
theorem goesInFront_iff {front : Byte} {rest : Bytes} :
    GoesInFront username (front :: rest) ↔ charAsSize front ≤ (front :: rest).length ∧
      (front :: rest).take (charAsSize front) ++ nameMark username =
        nameMark username ++ (front :: rest).take (charAsSize front) := by
  constructor
  · rintro (hzero | ⟨hmark, hlength, hswap⟩)
    · obtain rfl := Option.some.inj hzero
      exact ⟨Nat.zero_le _, by simp [charAsSize]⟩
    · obtain rfl := Option.some.inj hmark
      exact ⟨hlength, hswap⟩
  · rintro ⟨hlength, hswap⟩
    cases hposition : charAsSize front with
    | zero => exact Or.inl (congrArg some (charAsSize_eq_zero front hposition))
    | succ n =>
      rw [hposition] at hswap
      -- both sides begin with a byte, the text's and the mark's
      obtain rfl : front = 0x3c := (List.cons.inj hswap).1
      rw [← hposition] at hswap
      exact Or.inr ⟨rfl, hlength, hswap⟩

end Text

/-! ## What is on the wire -/

theorem writeVarInt_append_inj {m m' : Word} {r r' : Bytes}
    (h : writeVarIntToBuffer m ++ r = writeVarIntToBuffer m' ++ r') :
    m = m' ∧ r = r' := by
  have hread := (readVarInt_write (r := r) m).symm.trans ((congrArg (readVarIntFromBuffer true) h).trans
    (readVarInt_write m'))
  obtain ⟨hvalue, hrest⟩ := Res.ok.inj hread
  exact ⟨congrArg VarIntRead.value hvalue, hrest⟩

theorem jsonChatData_inj {p p' : Packet} {f f' : ChatMessagePacket} {data : Bytes} (hp : p.fields = .chatMessage f)
    (hp' : p'.fields = .chatMessage f') (h : frame (p.serialized getSide) = some data)
    (h' : frame (p'.serialized getSide) = some data) : f.jsonChatData = f'.jsonChatData := by
  have hserialized := frame_injective h h'
  rw [serialized_eq, serialized_eq, hp, hp'] at hserialized
  have hpayload : writeString f.jsonChatData ++ [] = writeString f'.jsonChatData ++ [] :=
    (writeVarInt_append_inj hserialized).2
  rw [List.append_nil, List.append_nil, writeString, writeString] at hpayload
  exact (writeVarInt_append_inj hpayload).2

theorem class_withText {J : RapidJson} {packet : Packet} {json : Json} {text : Bytes} :
    (withText J packet json text).fields.packetClass ≠ .loginSuccess := by
  simp [withText, Fields.packetClass]

theorem frame_of_lt {b : Bytes} (h : b.length < 2 ^ 21) : ∃ data, frame b = some data ∧ data.length < 2 ^ 31 := by
  refine ⟨_, frame_fits ((fitsFrame_iff (by omega)).mpr h), ?_⟩
  have := length_writeVarIntToBuffer_le (BitVec.ofNat 32 b.length)
  rw [List.length_append]
  omega

theorem length_serialized_withText (J : RapidJson) (packet : Packet) (json : Json) (text : Bytes) :
    ∃ k, k ≤ 10 ∧ ((withText J packet json text).serialized getSide).length =
      k + (J.write (json.setText text)).length := by
  have hid := length_writeVarIntToBuffer_le packet.packetId
  have hcount := length_writeVarIntToBuffer_le (BitVec.ofNat 32 (J.write (json.setText text)).length)
  have hpayload : (withText J packet json text).serialized getSide =
      writeVarIntToBuffer packet.packetId ++ (writeString (J.write (json.setText text)) ++ []) := rfl
  refine ⟨_, Nat.add_le_add hid hcount, ?_⟩
  rw [hpayload, writeString, List.append_nil, List.length_append, List.length_append, Nat.add_assoc]

/-! ## A message -/

section Message

variable {E : Env} {run : List (World × Event)} {J : RapidJson} {g g' : Gateway} {i : ConnId} {c : Client}
  {packet p : Packet}
  {json : Json} {order : List Bytes} {userid text data : Bytes} {front : Byte} {rest : Bytes}

/-- What it takes for the handler to return. -/
theorem onPacketReceived_eq_ok (hl : Live g i c) (hmessage : Says J packet json (front :: rest)) :
    ClientServer.onPacketReceived E J order i packet g = .ok true g' ↔
      charAsSize front ≤ (front :: rest).length ∧
        ∃ written, (front :: rest).take (charAsSize front) ++ nameMark c.getClientUsername ++
            (front :: rest).drop (charAsSize front) = written ∧
          (J.write (json.setText (copied written))).length ≤ maxSize ∧
          ClientServer.broadcast E (withText J packet json (copied written)) order g = .ok () g' := by
  obtain ⟨⟨f, hf, hparse⟩, htext, -, hshort, hplain⟩ := hmessage
  have hcommand : front ≠ 0x2f := fun h => hplain (congrArg some h)
  unfold ClientServer.onPacketReceived
  rw [hf]
  dsimp only
  rw [hparse]
  dsimp only
  rw [htext]
  dsimp only
  rw [if_neg (Nat.not_lt.mpr hshort), if_neg hcommand, Exec.run_bind_ok (run_client hl)]
  constructor
  · intro hrun
    obtain ⟨written, g₁, hinsert, hrun⟩ := Exec.bind_eq_ok.mp hrun
    obtain ⟨hposition, hwritten, rfl⟩ := insertAt_eq_ok.mp hinsert
    obtain ⟨p, g₂, hretext, hrun⟩ := Exec.bind_eq_ok.mp hrun
    obtain ⟨hsize, rfl, rfl⟩ := retext_eq_ok.mp hretext
    obtain ⟨⟨⟩, g₃, hloop, hreturn⟩ := Exec.bind_eq_ok.mp hrun
    obtain ⟨-, rfl⟩ := Res.ok.inj hreturn
    exact ⟨hposition, written, hwritten, hsize, hloop⟩
  · rintro ⟨hposition, written, hwritten, hsize, hloop⟩
    rw [Exec.run_bind_ok (insertAt_eq_ok.mpr ⟨hposition, hwritten, rfl⟩),
      Exec.run_bind_ok (retext_eq_ok.mpr ⟨hsize, rfl, rfl⟩), Exec.run_bind_ok hloop]
    rfl

theorem noNull_iff_entries (horder : order.Perm g.clients.keys) :
    NoNull g ↔ ∀ userid ∈ order, g.entry userid ≠ none := by
  have hkey (userid : Bytes) : userid ∈ order ↔ g.clients.lookup userid ≠ none := by
    rw [horder.mem_iff, ← AList.mem_keys, ← AList.lookup_isSome, Option.isSome_iff_ne_none]
  unfold NoNull Gateway.entry
  refine forall_congr' fun userid => ?_
  rw [hkey]
  rcases g.clients.lookup userid with _ | _ | i <;> simp

theorem mem_order (horder : order.Perm g.clients.keys) (hentry : g.clients.lookup userid = some (some i)) :
    userid ∈ order := by
  rw [horder.mem_iff, ← AList.mem_keys, ← AList.lookup_isSome, hentry]
  rfl

theorem count_entries (h : Entries g) (horder : order.Perm g.clients.keys)
    (hentries : ∀ userid ∈ order, g.entry userid ≠ none) (hentry : g.clients.lookup userid = some (some i)) :
      (order.map g.entry).count (some i) = 1 := by
  have hnodup : (order.map g.entry).Nodup := by
    refine List.Nodup.map_on (fun key hkey key' _ heq => ?_) (horder.nodup_iff.mpr g.clients.nodupKeys)
    obtain ⟨j, hj⟩ := Option.ne_none_iff_exists'.mp (hentries key hkey)
    exact h.exclusive key key' j (entry_eq_some.mp hj) (entry_eq_some.mp (heq.symm.trans hj))
  exact List.count_eq_one_of_mem hnodup (List.mem_map.mpr ⟨userid, mem_order horder hentry, entry_eq_some.mpr hentry⟩)

theorem ready_of_run (hrun : runFrom (step E) Gateway.init run = some g) :
    ∀ userid i, g.entry userid = some i → Ready g i := fun _ _ hentry => ready_of_entry hrun (entry_eq_some.mp hentry)

theorem broadcast_sends (hreached : runFrom (step E) Gateway.init run = some g) (horder : order.Perm g.clients.keys)
    (hnull : NoNull g) (hclass : p.fields.packetClass ≠ .loginSuccess)
    (hframe : frame (p.serialized getSide) = some data) (hlength : data.length < 2 ^ 31) :
    ∃ g', ClientServer.broadcast E p order g = .ok () g' ∧
      ∀ userid i c, g.clients.lookup userid = some (some i) → g.objects[i]? = some c →
        ∃ c', g'.objects[i]? = some c' ∧ c'.sent = c.sent ++ [data] := by
  have hentries := (noNull_iff_entries horder).mp hnull
  have hexclusive : Entries g := .of_sound ((allStates_sound E run).last hreached)
  obtain ⟨g', hrun, -, hsent⟩ := broadcast_returns hclass hframe hlength (ready_of_run hreached) hentries
  refine ⟨g', hrun, fun userid i c hentry hc => ?_⟩
  obtain ⟨c', hc', heq⟩ := hsent i c hc
  rw [count_entries hexclusive horder hentries hentry] at heq
  exact ⟨c', hc', heq⟩

theorem fits_of_broadcast (hreached : runFrom (step E) Gateway.init run = some g) (horder : order.Perm g.clients.keys)
    (hentry : g.clients.lookup userid = some (some i)) (hsize : (J.write (json.setText text)).length ≤ maxSize)
    (hloop : ClientServer.broadcast E (withText J packet json text) order g = .ok () g') :
    ((withText J packet json text).serialized getSide).length < 2 ^ 21 := by
  obtain ⟨data, hframe⟩ := frame_of_broadcast (ready_of_run hreached) (mem_order horder hentry) hloop
  obtain ⟨k, hk, hlength⟩ := length_serialized_withText J packet json text
  unfold maxSize at hsize
  by_contra hlarge
  rw [frame_large (fun hfits => hlarge ((fitsFrame_iff (by omega)).mp hfits))] at hframe
  cases hframe

theorem Says.reads (hmessage : Says J packet json text) (hfaithful : J.Faithful) (text' : Bytes) :
    ∃ json', J.Parse (J.write (json.setText text')) = some json' ∧ json'.text = some text' := by
  obtain ⟨f, -, hparse⟩ := hmessage.parsed
  rw [← text_setText hmessage.hasText text']
  exact hfaithful _ json text' hparse

theorem Says.text_of_carried {written named : Bytes} (hmessage : Says J packet json text) (hfaithful : J.Faithful)
    (hframe : frame ((withText J packet json written).serialized getSide) = some data)
    (hcarries : CarriesText J named data) :
    written = named := by
  obtain ⟨p, f, json', hp, hframe', hparse, hnamed⟩ := hcarries
  have hjson : J.write (json.setText written) = f.jsonChatData := jsonChatData_inj rfl hp hframe hframe'
  obtain ⟨json₁, hparse₁, hwritten⟩ := hmessage.reads hfaithful written
  rw [hjson] at hparse₁
  obtain rfl := Option.some.inj (hparse.symm.trans hparse₁)
  exact Option.some.inj (hwritten.symm.trans hnamed)

/-- Where the name goes in front, nothing is null and the message can be sent, everyone is sent it. -/
theorem namesSender_of (hreached : runFrom (step E) Gateway.init run = some g) (horder : order.Perm g.clients.keys)
    (hl : Live g i c) (hmessage : Says J packet json text) (hfaithful : J.Faithful)
    (hfront : GoesInFront c.getClientUsername text) (hnull : NoNull g)
    (hsent : CanBeSent J packet json (nameMark c.getClientUsername ++ text)) :
    NamesSender E J order g i c.getClientUsername packet text := by
  obtain ⟨hshort, hfits⟩ := hsent
  obtain ⟨k, -, hlength⟩ := length_serialized_withText J packet json (nameMark c.getClientUsername ++ text)
  obtain ⟨data, hframe, hdata⟩ := frame_of_lt hfits
  obtain ⟨g', hloop, hall⟩ := broadcast_sends hreached horder hnull class_withText hframe hdata
  cases text with
  | nil => exact absurd hmessage.nonempty (Nat.lt_irrefl 0)
  | cons front rest =>
    obtain ⟨hposition, hswap⟩ := goesInFront_iff.mp hfront
    have hcopied : copied (nameMark c.getClientUsername ++ front :: rest) =
      nameMark c.getClientUsername ++ front :: rest :=
      (copied_eq_iff rfl).mpr ⟨rfl, hshort⟩
    refine ⟨g', (onPacketReceived_eq_ok hl hmessage).mpr
      ⟨hposition, _, inserted_in_front_iff.mpr hswap, ?_, ?_⟩, fun userid j d hentry hd => ?_⟩
    · rw [hcopied]
      unfold maxSize
      omega
    · rw [hcopied]
      exact hloop
    · obtain ⟨d', hd', hsent⟩ := hall userid j d hentry hd
      obtain ⟨json', hparse, htext⟩ := hmessage.reads hfaithful (nameMark c.getClientUsername ++ front :: rest)
      exact ⟨d', _, hd', hsent, withText J packet json _, _, json', rfl, hframe, hparse, htext⟩

/-- When the handler returns everyone has been sent the text the name was put into; if that is the name and then the
text, the name went in front. -/
theorem conditions_of_namesSender (hreached : runFrom (step E) Gateway.init run = some g)
    (horder : order.Perm g.clients.keys) (hl : Live g i c) (hentry : g.clients.lookup userid = some (some i))
    (hmessage : Says J packet json text) (hfaithful : J.Faithful)
    (hnames : NamesSender E J order g i c.getClientUsername packet text) :
    GoesInFront c.getClientUsername text ∧ NoNull g ∧
      CanBeSent J packet json (nameMark c.getClientUsername ++ text) := by
  obtain ⟨g', hrun, hbroadcasts⟩ := hnames
  cases text with
  | nil => exact absurd hmessage.nonempty (Nat.lt_irrefl 0)
  | cons front rest =>
    obtain ⟨hposition, written, hwritten, hsize, hloop⟩ := (onPacketReceived_eq_ok hl hmessage).mp hrun
    have hnull : NoNull g := (noNull_iff_entries horder).mpr (entries_of_broadcast class_withText hloop)
    have hfits := fits_of_broadcast hreached horder hentry hsize hloop
    obtain ⟨data, hframe, hdata⟩ := frame_of_lt hfits
    -- the sender has been sent the packet of the loop, and a packet with its name before the text
    obtain ⟨g₁, hloop₁, hall⟩ := broadcast_sends hreached horder hnull class_withText hframe hdata
    obtain ⟨-, rfl⟩ := Res.ok.inj (hloop.symm.trans hloop₁)
    obtain ⟨c', hc', hsent⟩ := hall userid i c hentry hl.1
    obtain ⟨c₁, data', hc₁, hsent', hcarries⟩ := hbroadcasts userid i c hentry hl.1
    obtain rfl := Option.some.inj (hc'.symm.trans hc₁)
    obtain rfl : data = data' := List.singleton_inj.mp (List.append_cancel_left (hsent.symm.trans hsent'))
    have hcopied := hmessage.text_of_carried hfaithful hframe hcarries
    have hlengths : written.length = (nameMark c.getClientUsername ++ front :: rest).length := by
      rw [← hwritten, List.length_append, List.length_append, List.length_append, List.length_take, List.length_drop]
      omega
    obtain ⟨hfront, hshort⟩ := (copied_eq_iff hlengths).mp hcopied
    rw [hcopied] at hfits
    exact ⟨goesInFront_iff.mpr ⟨hposition, inserted_in_front_iff.mp (hwritten.trans hfront)⟩, hnull, hshort, hfits⟩

end Message

theorem live_of_entry {E : Env} {run : List (World × Event)} {g : Gateway} {userid : Bytes} {i : ConnId} {c : Client}
    (hrun : runFrom (step E) Gateway.init run = some g) (hentry : g.clients.lookup userid = some (some i))
    (hc : g.objects[i]? = some c) : Live g i c := by
  obtain ⟨d, hl, -⟩ := ready_of_entry hrun hentry
  obtain rfl := Option.some.inj (hl.1.symm.trans hc)
  exact hl

/-- **The name before the text.** In every reachable state, the handler returns and sends everyone the message of a
client with its name before it exactly if the first byte of the text makes the name go in front, no key of `clients` has
a null pointer, and the message with the name can be sent. -/
theorem namesSender_iff (E : Env) (run : List (World × Event)) (g : Gateway)
    (hrun : runFrom (step E) Gateway.init run = some g)
    (userid : Bytes) (i : ConnId) (c : Client) (hentry : g.clients.lookup userid = some (some i))
    (hc : g.objects[i]? = some c) (J : RapidJson) (hfaithful : J.Faithful) (order : List Bytes)
    (horder : order.Perm g.clients.keys) (packet : Packet) (json : Json) (text : Bytes)
    (hmessage : Says J packet json text) :
    NamesSender E J order g i c.getClientUsername packet text ↔
      GoesInFront c.getClientUsername text ∧ NoNull g ∧
        CanBeSent J packet json (nameMark c.getClientUsername ++ text) := by
  have hl := live_of_entry hrun hentry hc
  constructor
  · exact conditions_of_namesSender hrun horder hl hentry hmessage hfaithful
  · rintro ⟨hfront, hnull, hsent⟩
    exact namesSender_of hrun horder hl hmessage hfaithful hfront hnull hsent

/-- An object with a text that needs no escapes. -/
def textObject (text : Bytes) : Bytes := ascii "\x7b\"text\":\"" ++ text ++ ascii "\"\x7d"

def plainJson : RapidJson where
  Parse document :=
    let text := (document.drop 9).take (document.length - 11)
    if document = textObject text then some (.object [(ascii "text", .string text)]) else none
  write json := textObject (json.text.getD [])

theorem plainJson_parse (text : Bytes) :
    plainJson.Parse (textObject text) = some (.object [(ascii "text", .string text)]) := by
  have hbefore : (ascii "\x7b\"text\":\"").length = 9 := by decide
  have hafter : (ascii "\"\x7d").length = 2 := by decide
  have hlength : (textObject text).length - 11 = text.length := by
    rw [textObject, List.length_append, List.length_append, hbefore, hafter]
    omega
  have hmiddle : ((textObject text).drop 9).take ((textObject text).length - 11) = text := by
    rw [hlength, textObject, List.append_assoc, List.drop_left' hbefore, List.take_left]
  show (if textObject text = textObject _ then some _ else none) = _
  rw [hmiddle, if_pos rfl]

theorem plainJson_faithful : plainJson.Faithful := by
  intro document json text hparse
  have hjson : ∃ t, json = .object [(ascii "text", .string t)] := by
    change (if document = textObject _ then some _ else none) = some json at hparse
    split at hparse
    · exact ⟨_, (Option.some.inj hparse).symm⟩
    · cases hparse
  obtain ⟨t, rfl⟩ := hjson
  exact ⟨_, plainJson_parse text, rfl⟩

/-- Sixty bytes that can be exchanged with the name of `PlayerOne`, and a greeting. -/
def marked : Bytes := (List.replicate 5 (ascii "<PlayerOne> ")).flatten ++ ascii "Hello"

def markedPacket : Packet := ⟨0x01, [], false, .chatMessage ⟨textObject marked, 0⟩⟩

theorem says_marked : Says plainJson markedPacket (.object [(ascii "text", .string marked)]) marked where
  parsed := by
    refine ⟨⟨textObject marked, 0⟩, rfl, ?_⟩
    rw [show (textObject marked).takeWhile (· != 0) = textObject marked by decide +kernel]
    exact plainJson_parse _
  hasText := rfl
  nonempty := by decide
  short := by decide
  plain := by decide

def playerOneLogin : List (World × Event) :=
  plainRun [.acceptConstruct 7 true zeroToken, .acceptInsert, .onLengthReceive 0 false [6, 0, 47, 0, 0, 0, 2],
    .onLengthReceive 0 false (11 :: 0 :: 9 :: ascii "PlayerOne")]

theorem namesSender_marked :
    ∃ g c, runFrom (step .player) Gateway.init playerOneLogin = some g ∧ g.objects[0]? = some c ∧
      c.getClientUsername = ascii "PlayerOne" ∧
        NamesSender .player plainJson g.clients.keys g 0 c.getClientUsername markedPacket marked := by
  have hafter : (runFrom (step .player) Gateway.init playerOneLogin).map (fun g =>
      (g.clients.keys, g.clients.lookup playerUserid.val, g.objects[0]?.map Client.getClientUsername)) =
        some ([playerUserid.val], some (some 0), some (ascii "PlayerOne")) := by
    decide +kernel
  obtain ⟨g, hg, hstate⟩ := Option.map_eq_some_iff.mp hafter
  obtain ⟨hkeys, hentry, hclient⟩ : _ ∧ _ ∧ _ := by simpa only [Prod.mk.injEq] using hstate
  obtain ⟨c, hc, hname⟩ := Option.map_eq_some_iff.mp hclient
  have hfront : GoesInFront (ascii "PlayerOne") marked := by decide +kernel
  have hsent : CanBeSent plainJson markedPacket (.object [(ascii "text", .string marked)])
    (nameMark (ascii "PlayerOne") ++ marked) := by
    refine ⟨by decide, ?_⟩
    decide +kernel
  have hnull : NoNull g := by
    refine (noNull_iff_entries (List.Perm.refl _)).mpr fun userid huserid => ?_
    rw [hkeys] at huserid
    obtain rfl := List.mem_singleton.mp huserid
    rw [entry_eq_some.mpr hentry]
    exact Option.some_ne_none 0
  refine ⟨g, c, hg, hc, hname, (namesSender_iff .player playerOneLogin g hg playerUserid.val 0 c hentry hc plainJson
    plainJson_faithful g.clients.keys (.refl _) markedPacket _ marked says_marked).mpr ?_⟩
  rw [hname]
  exact ⟨hfront, hnull, hsent⟩

theorem says_hello :
    Says plainJson greetingPacket (.object [(ascii "text", .string (ascii "Hello"))]) (ascii "Hello") where
  parsed := by
    refine ⟨⟨greeting, 0⟩, rfl, ?_⟩
    rw [show greeting.takeWhile (· != 0) = textObject (ascii "Hello") by decide]
    exact plainJson_parse _
  hasText := rfl
  nonempty := by decide
  short := by decide
  plain := by decide

/-- The name would go in after 72 of the five bytes of `Hello`. -/
theorem hello_not_named :
    ¬ ∀ (E : Env) (run : List (World × Event)) (g : Gateway) (userid : Bytes) (i : ConnId) (c : Client) (J : RapidJson)
      (order : List Bytes) (packet : Packet) (json : Json) (text : Bytes), runFrom (step E) Gateway.init run = some g →
      g.clients.lookup userid = some (some i) → g.objects[i]? = some c → J.Faithful → order.Perm g.clients.keys →
      Says J packet json text → NamesSender E J order g i c.getClientUsername packet text := by
  intro h
  obtain ⟨g, c, hg, hentry, hc, -⟩ := player_in_clients
  obtain ⟨hfront, -⟩ := conditions_of_namesSender hg (.refl _)
    (live_of_entry hg hentry hc) hentry says_hello plainJson_faithful
    (h .player loginAfterInsert g playerUserid.val 0 c plainJson g.clients.keys greetingPacket _ _ hg hentry hc
      plainJson_faithful (.refl _) says_hello)
  rcases hfront with hzero | ⟨hmark, -⟩
  · exact absurd hzero (by decide)
  · exact absurd hmark (by decide)

end CeriosCluster.ClientGateway
