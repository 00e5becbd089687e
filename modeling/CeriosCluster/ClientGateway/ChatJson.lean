import CeriosCluster.ClientGateway.ChatText

/-!
# Any document for a chat message

`onPacketReceived` of `ClientServer` checks that the document of a chat message can be parsed, and then uses it as an
object whose member `text` is a string. rapidjson asserts that it is one. Here the handler is taken with every use it
makes of the document, and a use that rapidjson does not allow ends it.
-/

namespace CeriosCluster.ClientGateway

open CeriosCluster.Lib CeriosCluster.MCPacket

/-! ## The preconditions of rapidjson -/

/-- A precondition of rapidjson that is not met. -/
inductive Misuse
  | notAnObject
  | noMember
  | notAString
  deriving DecidableEq

def Json.member (name : Bytes) : Json → Except Misuse Json
  | .object members =>
    match members.find? fun m => m.1 == name with
    | some m => .ok m.2
    | none => .error .noMember
  | _ => .error .notAnObject

def Json.GetString : Json → Except Misuse Bytes
  | .string s => .ok s
  | _ => .error .notAString

def Json.GetStringLength : Json → Except Misuse Nat
  | .string s => .ok s.length
  | _ => .error .notAString

/-! ## The handler -/

/-- What ends a handler that is checked. -/
inductive Fault
  | misuse (m : Misuse)
  | exception (e : Exn)

def uses {σ α : Type} : Except Misuse α → Exec Fault σ α
  | .ok a => pure a
  | .error m => Exec.throw (.misuse m)

def unchecked {σ α : Type} (m : Exec Exn σ α) : Exec Fault σ α := fun s =>
  match m s with
  | .ok a s' => .ok a s'
  | .threw e s' => .threw (.exception e) s'
  | .undefined => .undefined
  | .diverged => .diverged

def forget {σ α : Type} : Res Fault σ α → Res Exn σ α
  | .ok a s => .ok a s
  | .threw (.exception e) s => .threw e s
  | .threw (.misuse _) _ => .undefined
  | .undefined => .undefined
  | .diverged => .diverged

variable (E : Env)

/-- `ClientServer::onPacketReceived` once more, with each use of the document. -/
def ClientServer.onPacketReceivedChecked (J : RapidJson) (order : List Bytes) (i : ConnId) (packet : Packet) :
    Exec Fault Gateway Bool :=
  match packet.fields with
  | .chatMessage chatPacket =>
    match J.Parse (chatPacket.jsonChatData.takeWhile (· != 0)) with
    | none => pure true
    | some chatJson => do
      let member ← uses (chatJson.member (ascii "text"))
      let length ← uses member.GetStringLength
      if length ≤ 0 then pure true
      else do
        let member ← uses (chatJson.member (ascii "text"))
        let stringValue ← uses member.GetString
        if MC_CHAT_MAX_TEXT_LENGTH < stringValue.length then pure true
        else if stringValue.head? = some 0x2f then pure true
        else do
          let c ← unchecked (client i)
          let stringValue ← unchecked (insertAt (charAsSize (stringValue.headD 0))
            (nameMark c.getClientUsername) stringValue)
          let _ ← uses (chatJson.member (ascii "text"))
          let chatPacket ← unchecked (retext J packet chatJson stringValue)
          unchecked (ClientServer.broadcast E chatPacket order)
          pure true
  | _ => pure true

/-- The document cannot be parsed, or is an object whose member `text`, the first of that name, is a string. -/
def KeepsPreconditions (J : RapidJson) (jsonChatData : Bytes) : Prop :=
  ∀ json, J.Parse (jsonChatData.takeWhile (· != 0)) = some json →
    ∃ members m s, json = .object members ∧ members.find? (fun m => m.1 == ascii "text") = some m ∧ m.2 = .string s

def NoMisuse (J : RapidJson) (order : List Bytes) (i : ConnId) (packet : Packet) (g : Gateway) : Prop :=
  ∀ m g', ClientServer.onPacketReceivedChecked E J order i packet g ≠ .threw (.misuse m) g'

/-- The text is of no interest: there is none, it is too long, or it is a command. -/
def IgnoredText (text : Bytes) : Prop :=
  text = [] ∨ MC_CHAT_MAX_TEXT_LENGTH < text.length ∨ text.head? = some (0x2f : Byte)

instance (text : Bytes) : Decidable (IgnoredText text) := inferInstanceAs (Decidable (_ ∨ _))

/-- The text with the name put in where its first byte says. -/
def named (username text : Bytes) : Bytes :=
  text.take (charAsSize (text.headD 0)) ++ nameMark username ++ text.drop (charAsSize (text.headD 0))

/-- The name can be put in, every key has a client, and the message fits a frame. -/
def CanBroadcast (J : RapidJson) (packet : Packet) (json : Json) (username text : Bytes) (g : Gateway) : Prop :=
  charAsSize (text.headD 0) ≤ text.length ∧ NoNull g ∧
    ((withText J packet json (copied (named username text))).serialized getSide).length < 2 ^ 21

/-- Between the two states every client in `clients` has been sent the same. -/
def TellsEveryone (g g' : Gateway) : Prop :=
  ∃ data, ∀ userid i c, g.clients.lookup userid = some (some i) → g.objects[i]? = some c →
    ∃ c', g'.objects[i]? = some c' ∧ c'.sent = c.sent ++ [data]

/-- The checked handler returns, and has changed nothing or sent everyone a message. -/
def IgnoresOrBroadcasts (J : RapidJson) (order : List Bytes) (i : ConnId) (packet : Packet) (g : Gateway) : Prop :=
  ∃ g', ClientServer.onPacketReceivedChecked E J order i packet g = .ok true g' ∧ (g' = g ∨ TellsEveryone g g')

section Checks

variable {E : Env} {σ α β : Type} {J : RapidJson} {order : List Bytes} {i : ConnId} {packet : Packet} {g g' : Gateway}
  {json : Json} {text : Bytes} {f : ChatMessagePacket}

/-! ## Documents -/

theorem text_iff : json.text = some text ↔
    ∃ members m, json = .object members ∧ members.find? (fun m => m.1 == ascii "text") = some m ∧
      m.2 = .string text := by
  cases json with
  | object members =>
    cases hfind : members.find? fun m => m.1 == ascii "text" with
    | none => simp [Json.text, hfind]
    | some m =>
      obtain ⟨name, value⟩ := m
      cases value <;> simp [Json.text, hfind]
  | _ => simp [Json.text]

theorem member_of_text (h : json.text = some text) : json.member (ascii "text") = .ok (.string text) := by
  obtain ⟨members, m, rfl, hfind, hvalue⟩ := text_iff.mp h
  rw [Json.member, hfind]
  exact congrArg Except.ok hvalue

/-- Without a text one of the first two uses fails. -/
theorem misuse_of_no_text (h : json.text = none) :
    ∃ m, (json.member (ascii "text") >>= Json.GetStringLength) = .error m := by
  cases json with
  | object members =>
    rw [Json.member]
    cases hfind : members.find? fun m => m.1 == ascii "text" with
    | none => exact ⟨_, rfl⟩
    | some m =>
      obtain ⟨name, value⟩ := m
      cases value with
      | string s => simp [Json.text, hfind] at h
      | _ => exact ⟨_, rfl⟩
  | _ => exact ⟨_, rfl⟩

/-! ## The checked handler -/

theorem uses_ok (a : α) : (uses (.ok a) : Exec Fault σ α) = pure a := rfl

theorem pure_then (a : α) (k : α → Exec Fault σ β) : (pure a >>= k) = k a := rfl

theorem unchecked_bind (m : Exec Exn σ α) (k : α → Exec Exn σ β) :
    unchecked (m >>= k) = unchecked m >>= fun a => unchecked (k a) := by
  funext s
  rw [Exec.run_bind]
  unfold unchecked
  rw [Exec.run_bind]
  cases m s <;> rfl

theorem unchecked_pure (a : α) : unchecked (pure a : Exec Exn σ α) = pure a := rfl

theorem forget_unchecked (m : Exec Exn σ α) (s : σ) : forget (unchecked m s) = m s := by
  unfold unchecked
  cases m s <;> rfl

theorem unchecked_ne_misuse {m : Exec Exn σ α} {s s' : σ} {misuse : Misuse} :
    unchecked m s ≠ .threw (.misuse misuse) s' := by
  unfold unchecked
  cases m s <;> simp

theorem checked_of_malformed (hf : packet.fields = .chatMessage f)
    (hparse : J.Parse (f.jsonChatData.takeWhile (· != 0)) = none) :
    ClientServer.onPacketReceivedChecked E J order i packet = pure true := by
  unfold ClientServer.onPacketReceivedChecked
  rw [hf]
  dsimp only
  rw [hparse]

theorem checked_of_text (hf : packet.fields = .chatMessage f)
    (hparse : J.Parse (f.jsonChatData.takeWhile (· != 0)) = some json) (htext : json.text = some text) :
    ClientServer.onPacketReceivedChecked E J order i packet =
      unchecked (ClientServer.onPacketReceived E J order i packet) := by
  unfold ClientServer.onPacketReceivedChecked ClientServer.onPacketReceived
  rw [hf]
  dsimp only
  rw [hparse]
  dsimp only
  rw [htext]
  simp only [member_of_text htext, uses_ok, pure_then, Json.GetStringLength, Json.GetString]
  cases text with
  | nil => rfl
  | cons front rest =>
    rw [if_neg (by simp)]
    dsimp only [List.head?_cons, List.headD_cons]
    simp only [Option.some.injEq]
    split
    · rfl
    · split
      · rfl
      · simp only [unchecked_bind, unchecked_pure]

theorem checked_of_no_text (E : Env) (order : List Bytes) (i : ConnId) (hf : packet.fields = .chatMessage f)
    (hparse : J.Parse (f.jsonChatData.takeWhile (· != 0)) = some json) (htext : json.text = none) (g : Gateway) :
    ∃ m, ClientServer.onPacketReceivedChecked E J order i packet g = .threw (.misuse m) g := by
  obtain ⟨m, hm⟩ := misuse_of_no_text htext
  refine ⟨m, ?_⟩
  unfold ClientServer.onPacketReceivedChecked
  rw [hf]
  dsimp only
  rw [hparse]
  dsimp only
  cases hmember : json.member (ascii "text") with
  | error m' =>
    rw [hmember] at hm
    obtain rfl := Except.error.inj hm
    rfl
  | ok member =>
    rw [hmember] at hm
    have hm : member.GetStringLength = .error m := hm
    rw [uses_ok, pure_then, hm]
    rfl

/-- **The checks add nothing** but a name for what is undefined. -/
theorem forget_checked (g : Gateway) :
    forget (ClientServer.onPacketReceivedChecked E J order i packet g) =
      ClientServer.onPacketReceived E J order i packet g := by
  cases hf : packet.fields with
  | chatMessage f =>
    cases hparse : J.Parse (f.jsonChatData.takeWhile (· != 0)) with
    | none =>
      rw [checked_of_malformed hf hparse, ClientServer.onPacketReceived, hf]
      dsimp only
      rw [hparse]
      rfl
    | some json =>
      cases htext : json.text with
      | none =>
        obtain ⟨m, hm⟩ := checked_of_no_text E order i hf hparse htext g
        rw [hm, ClientServer.onPacketReceived, hf]
        dsimp only
        rw [hparse]
        dsimp only
        rw [htext]
        rfl
      | some text => rw [checked_of_text hf hparse htext, forget_unchecked]
  | _ =>
    rw [ClientServer.onPacketReceivedChecked, ClientServer.onPacketReceived, hf]
    rfl

/-- **The preconditions** are kept exactly if the document cannot be parsed or has a text. -/
theorem noMisuse_iff (hf : packet.fields = .chatMessage f) (g : Gateway) :
    NoMisuse E J order i packet g ↔ KeepsPreconditions J f.jsonChatData := by
  cases hparse : J.Parse (f.jsonChatData.takeWhile (· != 0)) with
  | none =>
    refine iff_of_true (fun m g' h => ?_) fun json hjson => ?_
    · rw [checked_of_malformed hf hparse] at h
      cases h
    · rw [hparse] at hjson
      cases hjson
  | some json =>
    cases htext : json.text with
    | none =>
      obtain ⟨m, hm⟩ := checked_of_no_text E order i hf hparse htext g
      refine iff_of_false (fun h => h m g hm) fun h => ?_
      obtain ⟨members, m, s, hjson, hfind, hvalue⟩ := h json hparse
      exact absurd (htext.symm.trans (text_iff.mpr ⟨members, m, hjson, hfind, hvalue⟩)) (by simp)
    | some text =>
      refine iff_of_true (fun m g' h => ?_) fun json' hjson => ?_
      · rw [checked_of_text hf hparse htext] at h
        exact unchecked_ne_misuse h
      · obtain rfl := Option.some.inj (hparse.symm.trans hjson)
        obtain ⟨members, m, hobject, hfind, hvalue⟩ := text_iff.mp htext
        exact ⟨members, m, text, hobject, hfind, hvalue⟩

/-! ## Ignored or broadcast -/

theorem onPacketReceived_ignored (hf : packet.fields = .chatMessage f)
    (hparse : J.Parse (f.jsonChatData.takeWhile (· != 0)) = some json) (htext : json.text = some text)
    (h : IgnoredText text) (g : Gateway) :
    ClientServer.onPacketReceived E J order i packet g = .ok true g := by
  unfold ClientServer.onPacketReceived
  rw [hf]
  dsimp only
  rw [hparse]
  dsimp only
  rw [htext]
  cases text with
  | nil => rfl
  | cons front rest =>
    dsimp only
    split
    · rfl
    · next hshort =>
      rw [if_pos]
      · rfl
      · rcases h with hnil | hlong | hcommand
        · cases hnil
        · exact absurd hlong hshort
        · exact Option.some.inj hcommand

theorem says_of_not_ignored (hf : packet.fields = .chatMessage f)
    (hparse : J.Parse (f.jsonChatData.takeWhile (· != 0)) = some json) (htext : json.text = some text)
    (h : ¬ IgnoredText text) :
    Says J packet json text where
  parsed := ⟨f, hf, hparse⟩
  hasText := htext
  nonempty := List.length_pos_iff.mpr fun hnil => h (Or.inl hnil)
  short := Nat.not_lt.mp fun hlong => h (Or.inr (Or.inl hlong))
  plain := fun hcommand => h (Or.inr (Or.inr hcommand))

theorem unchecked_eq_ok {m : Exec Exn σ α} {s s' : σ} {a : α} : unchecked m s = .ok a s' ↔ m s = .ok a s' := by
  unfold unchecked
  cases m s <;> simp

section Reached

variable {run : List (World × Event)} {c : Client} {userid : Bytes}

theorem broadcasts_iff (hreached : runFrom (step E) Gateway.init run = some g) (horder : order.Perm g.clients.keys)
    (hentry : g.clients.lookup userid = some (some i)) (hl : Live g i c) (hmessage : Says J packet json text) :
    (∃ g', ClientServer.onPacketReceived E J order i packet g = .ok true g' ∧ (g' = g ∨ TellsEveryone g g')) ↔
      CanBroadcast J packet json c.getClientUsername text g := by
  cases text with
  | nil => exact absurd hmessage.nonempty (Nat.lt_irrefl 0)
  | cons front rest =>
    constructor
    · rintro ⟨g', hrun, -⟩
      obtain ⟨hposition, written, rfl, hsize, hloop⟩ := (onPacketReceived_eq_ok hl hmessage).mp hrun
      exact ⟨hposition, (noNull_iff_entries horder).mpr (entries_of_broadcast class_withText hloop),
        fits_of_broadcast hreached horder hentry hsize hloop⟩
    · rintro ⟨hposition, hnull, hfits⟩
      obtain ⟨data, hframe, hdata⟩ := frame_of_lt hfits
      obtain ⟨g', hloop, hall⟩ := broadcast_sends hreached horder hnull class_withText hframe hdata
      obtain ⟨k, -, hlength⟩ := length_serialized_withText J packet json
        (copied (named c.getClientUsername (front :: rest)))
      refine ⟨g', (onPacketReceived_eq_ok hl hmessage).mpr ⟨hposition, _, rfl, ?_, hloop⟩, Or.inr ⟨data, hall⟩⟩
      show (J.write (json.setText (copied (named c.getClientUsername (front :: rest))))).length ≤ maxSize
      unfold maxSize
      omega

end Reached

end Checks

/-- **Any document.** In every reachable state and for every client in `clients`, no precondition of rapidjson is
violated exactly if what was received cannot be parsed or is an object with a string for its first member `text`; and
the handler ignores it or sends it to everyone exactly if it cannot be parsed, or has a text that is ignored or can be
broadcast. -/
theorem chat_document_iff (E : Env) (run : List (World × Event)) (g : Gateway)
    (hrun : runFrom (step E) Gateway.init run = some g)
    (userid : Bytes) (i : ConnId) (c : Client) (hentry : g.clients.lookup userid = some (some i))
    (hc : g.objects[i]? = some c) (J : RapidJson) (order : List Bytes) (horder : order.Perm g.clients.keys)
    (packet : Packet) (f : ChatMessagePacket) (hf : packet.fields = .chatMessage f) :
    (NoMisuse E J order i packet g ↔ KeepsPreconditions J f.jsonChatData) ∧
      (IgnoresOrBroadcasts E J order i packet g ↔
        ∀ json, J.Parse (f.jsonChatData.takeWhile (· != 0)) = some json →
          ∃ text, json.text = some text ∧
            (IgnoredText text ∨ CanBroadcast J packet json c.getClientUsername text g)) := by
  refine ⟨noMisuse_iff hf g, ?_⟩
  cases hparse : J.Parse (f.jsonChatData.takeWhile (· != 0)) with
  | none =>
    refine iff_of_true ⟨g, ?_, Or.inl rfl⟩ fun _ h => nomatch h
    rw [checked_of_malformed hf hparse]
    rfl
  | some json =>
    have hone {P : Json → Prop} : (∀ json', some json = some json' → P json') ↔ P json :=
      ⟨fun h => h json rfl, fun h _ heq => Option.some.inj heq ▸ h⟩
    rw [hone]
    cases htext : json.text with
    | none =>
      refine iff_of_false ?_ (by simp)
      rintro ⟨g', hok, -⟩
      obtain ⟨m, hm⟩ := checked_of_no_text E order i hf hparse htext g
      rw [hm] at hok
      cases hok
    | some text =>
      unfold IgnoresOrBroadcasts
      simp only [checked_of_text hf hparse htext, unchecked_eq_ok, Option.some.injEq, exists_eq_left']
      by_cases hignored : IgnoredText text
      · exact iff_of_true ⟨g, onPacketReceived_ignored hf hparse htext hignored g, Or.inl rfl⟩ (Or.inl hignored)
      · have hmessage := says_of_not_ignored hf hparse htext hignored
        rw [broadcasts_iff hrun horder hentry (live_of_entry hrun hentry hc) hmessage, or_iff_right hignored]

/-! ## Two documents of a player -/

def chatOf (jsonChatData : Bytes) : Packet := ⟨0x01, [], false, .chatMessage ⟨jsonChatData, 0⟩⟩

/-- A command is ignored. -/
theorem chat_document_command :
    ∃ g, runFrom (step .player) Gateway.init loginAfterInsert = some g ∧
      NoMisuse .player plainJson g.clients.keys 0 (chatOf (textObject (ascii "/help"))) g ∧
      IgnoresOrBroadcasts .player plainJson g.clients.keys 0 (chatOf (textObject (ascii "/help"))) g := by
  obtain ⟨g, c, hg, hentry, hc, -⟩ := player_in_clients
  obtain ⟨hmisuse, hhandled⟩ := chat_document_iff .player loginAfterInsert g hg playerUserid.val 0 c hentry hc plainJson
    g.clients.keys
    (.refl _) (chatOf (textObject (ascii "/help"))) ⟨textObject (ascii "/help"), 0⟩ rfl
  have hparse : plainJson.Parse ((textObject (ascii "/help")).takeWhile (· != 0)) =
      some (.object [(ascii "text", .string (ascii "/help"))]) := by
    rw [show (textObject (ascii "/help")).takeWhile (· != 0) = textObject (ascii "/help") by decide]
    exact plainJson_parse _
  refine ⟨g, hg, hmisuse.mpr fun json hjson => ?_, hhandled.mpr fun json hjson => ?_⟩
  · obtain rfl := Option.some.inj (hparse.symm.trans hjson)
    exact ⟨_, _, _, rfl, rfl, rfl⟩
  · obtain rfl := Option.some.inj (hparse.symm.trans hjson)
    exact ⟨ascii "/help", rfl, Or.inl (by decide)⟩

def bareJson : RapidJson where
  Parse document := if document = ascii "\x7b\x7d" then some (.object []) else none
  write _ := ascii "\x7b\x7d"

/-- The object without members is asked for its member `text`. -/
theorem bare_object_is_misused :
    ¬ ∀ (E : Env) (run : List (World × Event)) (g : Gateway) (userid : Bytes) (i : ConnId) (c : Client) (J : RapidJson)
      (order : List Bytes) (packet : Packet) (f : ChatMessagePacket), runFrom (step E) Gateway.init run = some g →
      g.clients.lookup userid = some (some i) → g.objects[i]? = some c → order.Perm g.clients.keys →
      packet.fields = .chatMessage f → NoMisuse E J order i packet g ∧ IgnoresOrBroadcasts E J order i packet g := by
  intro h
  obtain ⟨g, c, hg, hentry, hc, -⟩ := player_in_clients
  have hnone := (h .player loginAfterInsert g playerUserid.val 0 c bareJson g.clients.keys (chatOf (ascii "\x7b\x7d"))
    ⟨ascii "\x7b\x7d", 0⟩ hg hentry hc (.refl _) rfl).1
  have hparse : bareJson.Parse ((ascii "\x7b\x7d").takeWhile (· != 0)) = some (.object []) := by
    rw [show (ascii "\x7b\x7d").takeWhile (· != 0) = ascii "\x7b\x7d" by decide]
    simp [bareJson]
  have hf : (chatOf (ascii "\x7b\x7d")).fields = .chatMessage ⟨ascii "\x7b\x7d", 0⟩ := rfl
  obtain ⟨m, hm⟩ := checked_of_no_text .player g.clients.keys 0 hf hparse rfl g
  exact hnone m g hm

end CeriosCluster.ClientGateway
