import CeriosCluster.ClientGateway.Relay

/-!
# Chat messages

`ClientServer` has an `onPacketReceived` that broadcasts chat messages. It takes a client and a packet, where the
virtual function of `ClientOwner` takes a side as well, so it overrides nothing: `receivedMessage` calls the function
of the base class, and goes on to branches none of which takes a `ChatMessagePacket`.
-/

namespace CeriosCluster.ClientGateway

open CeriosCluster.Lib CeriosCluster.MCPacket

/-! ## What a message is -/

/-- A JSON document; a number is its literal. -/
inductive Json
  | null
  | bool (b : Bool)
  | number (literal : Bytes)
  | string (s : Bytes)
  | array (elements : List Json)
  | object (members : List (Bytes × Json))

/-- The member `text` of an object, the first of that name, if it is a string. -/
def Json.text : Json → Option Bytes
  | .object members =>
    match members.find? fun m => m.1 == ascii "text" with
    | some (_, .string text) => some text
    | _ => none
  | _ => none

def MC_CHAT_MAX_TEXT_LENGTH : Nat := 100

def chatTypeNormal : Byte := 0

/-- The packet is a `ChatMessagePacket` with a text that is not a command. `Parse` reads up to a null character. -/
def IsMessage (parse : Bytes → Option Json) (packet : Packet) : Prop :=
  ∃ f json text, packet.fields = .chatMessage f ∧ parse (f.jsonChatData.takeWhile (· != 0)) = some json ∧
    json.text = some text ∧
    1 ≤ text.length ∧ text.length ≤ MC_CHAT_MAX_TEXT_LENGTH ∧ text.head? ≠ some (0x2f : Byte)

/-- The frame is a `ChatMessagePacket` in `NORMAL` position, as a player is sent one. -/
def IsNormalChat (data : Bytes) : Prop :=
  ∃ (p : Packet) (f : ChatMessagePacket), lookupClass .clientBound .PLAY p.packetId = some .chatMessage ∧
    p.fields = .chatMessage f ∧ f.chatPosition = chatTypeNormal ∧ frame (p.serialized .clientBound) = some data

/-- Between the two states every live client in `clients` has been sent one frame, a `ChatMessagePacket`. -/
def Broadcasts (g g' : Gateway) : Prop :=
  ∀ userid i c, g.clients.lookup userid = some (some i) → g.objects[i]? = some c → c.alive = true →
    ∃ c' data, g'.objects[i]? = some c' ∧ c'.sent = c.sent ++ [data] ∧ IsNormalChat data

def SendsNothing : Gateway → Gateway → Prop := EveryClient fun _ c c' => c'.sent = c.sent

/-! ## What becomes of it -/

section Received

variable {E : Env} {w : World} {g g' : Gateway} {i : ConnId} {c : Client} {packet : Packet} {f : ChatMessagePacket}

/-- A `ChatMessagePacket` is put on record and dropped, whoever owns the client. -/
theorem run_receivedMessage_chat (hl : Live g i c) (hf : packet.fields = .chatMessage f) :
    receivedMessage E w i packet g = .ok () (g.modify i (·.logged (.receivedMessage packet))) := by
  have hl' : Live (g.modify i (·.logged (.receivedMessage packet))) i (c.logged (.receivedMessage packet)) :=
    hl.modify rfl
  unfold receivedMessage record
  rw [Exec.run_bind_ok (run_modifyClient hl), hf]
  dsimp only
  rw [Exec.run_bind_ok (run_client hl')]
  rfl

theorem sendsNothing_logged : SendsNothing g (g.modify i (·.logged (.receivedMessage packet))) :=
  everyClient_modify (fun _ _ => sent_logged.trans (List.append_nil _)) fun _ _ _ => rfl

/-- Where nothing is sent nothing is broadcast, as long as someone is there to hear it. -/
theorem SendsNothing.not_broadcasts {userid : Bytes} (h : SendsNothing g g')
    (hentry : g.clients.lookup userid = some (some i)) (hc : g.objects[i]? = some c) (halive : c.alive = true) :
      ¬ Broadcasts g g' := by
  intro hbroadcasts
  obtain ⟨c', data, hc', hsent, -⟩ := hbroadcasts userid i c hentry hc halive
  obtain ⟨c'', hc'', hsame⟩ := h.2 i c hc
  obtain rfl := Option.some.inj (hc'.symm.trans hc'')
  have hlength := congrArg List.length (hsame.symm.trans hsent)
  rw [List.length_append, List.length_singleton] at hlength
  omega

end Received

/-- **No message is broadcast.** In every reachable state, whatever message a live client of `ClientServer` sends,
`receivedMessage` returns and has sent nothing to anyone. -/
theorem never_broadcasts (E : Env) (run : List (World × Event)) (g : Gateway)
    (hrun : runFrom (step E) Gateway.init run = some g) (w : World) (userid : Bytes) (i : ConnId) (c : Client)
    (hentry : g.clients.lookup userid = some (some i)) (hc : g.objects[i]? = some c) (halive : c.alive = true)
    (parse : Bytes → Option Json) (packet : Packet) (hmessage : IsMessage parse packet) :
    ∃ g', receivedMessage E w i packet g = .ok () g' ∧ SendsNothing g g' ∧ ¬ Broadcasts g g' := by
  obtain ⟨f, -, -, hf, -⟩ := hmessage
  obtain ⟨d, hl, -⟩ := ready_of_entry hrun hentry
  exact ⟨_, run_receivedMessage_chat hl hf, sendsNothing_logged, sendsNothing_logged.not_broadcasts hentry hc halive⟩

def greeting : Bytes := ascii "\x7b\"text\":\"Hello\"\x7d"

def parseGreeting (text : Bytes) : Option Json :=
  if text = greeting then some (.object [(ascii "text", .string (ascii "Hello"))]) else none

def greetingPacket : Packet := ⟨0x01, [], false, .chatMessage ⟨greeting, 0⟩⟩

theorem isMessage_greeting : IsMessage parseGreeting greetingPacket := by
  refine ⟨⟨greeting, 0⟩, .object [(ascii "text", .string (ascii "Hello"))], ascii "Hello", rfl, ?_, ?_, ?_, ?_, ?_⟩
  · rw [show greeting.takeWhile (· != 0) = greeting by decide]
    exact if_pos rfl
  · rfl
  · decide
  · decide
  · decide

theorem player_in_clients : ∃ g c, runFrom (step .player) Gateway.init loginAfterInsert = some g ∧
    g.clients.lookup playerUserid.val = some (some 0) ∧ g.objects[0]? = some c ∧ c.alive = true := by
  have hstate : (runFrom (step .player) Gateway.init loginAfterInsert).map (fun g =>
      (g.clients.lookup playerUserid.val, g.objects[0]?.map (·.alive))) = some (some (some 0), some true) := by
    decide +kernel
  obtain ⟨g, hg, hstate⟩ := Option.map_eq_some_iff.mp hstate
  obtain ⟨hentry, hclient⟩ := Prod.mk.inj hstate
  obtain ⟨c, hc, halive⟩ := Option.map_eq_some_iff.mp hclient
  exact ⟨g, c, hg, hentry, hc, halive⟩

theorem never_broadcasts_greeting :
    ∃ g, runFrom (step .player) Gateway.init loginAfterInsert = some g ∧
      ∃ g', receivedMessage .player .plain 0 greetingPacket g = .ok () g' ∧ SendsNothing g g' ∧ ¬ Broadcasts g g' := by
  obtain ⟨g, c, hg, hentry, hc, halive⟩ := player_in_clients
  exact ⟨g, hg, never_broadcasts .player loginAfterInsert g hg .plain playerUserid.val 0 c hentry hc halive
    parseGreeting
    greetingPacket isMessage_greeting⟩

/-- The player's greeting is heard by nobody. -/
theorem greeting_unheard :
    ¬ ∀ (E : Env) (run : List (World × Event)) (g : Gateway) (w : World) (userid : Bytes) (i : ConnId) (c : Client)
      (parse : Bytes → Option Json) (packet : Packet), runFrom (step E) Gateway.init run = some g →
      g.clients.lookup userid = some (some i) → g.objects[i]? = some c → c.alive = true → IsMessage parse packet →
      ∃ g', receivedMessage E w i packet g = .ok () g' ∧ Broadcasts g g' := by
  intro h
  obtain ⟨g, c, hg, hentry, hc, halive⟩ := player_in_clients
  obtain ⟨d, hl, -⟩ := ready_of_entry hg hentry
  obtain ⟨g', hreturn, hbroadcasts⟩ :=
    h .player loginAfterInsert g .plain playerUserid.val 0 c parseGreeting greetingPacket hg
    hentry hc halive isMessage_greeting
  obtain ⟨-, rfl⟩ := Res.ok.inj ((run_receivedMessage_chat hl rfl).symm.trans hreturn)
  exact sendsNothing_logged.not_broadcasts hentry hc halive hbroadcasts

end CeriosCluster.ClientGateway
