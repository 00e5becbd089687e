import CeriosCluster.ClientGateway.HandOff
import CeriosCluster.ClientGateway.NullEntries
import CeriosCluster.InternalComms.Stream

/-!
# Relaying to a player

`handleMessage` frames the payload of a message and gives it to `sendData` of the client its player id leads
to. That client is there, has no compression threshold, and if its encryption is on its ciphers have been
initialised, in every state that a run reaches.
-/

namespace CeriosCluster.ClientGateway

open CeriosCluster.Lib CeriosCluster.MCPacket CeriosCluster.InternalComms

/-! ## The ciphers -/

/-- A client with its encryption on, or with a request, has had its ciphers initialised. -/
def Ciphered (c : Client) : Prop := c.encrypted = true ∨ c.requests ≠ [] → ∃ key, encryptKey c = some key

section Ciphers

variable {E : Env} {c c' : Client} {l : Label}

theorem Ciphered.quiet (h : Ciphered c) (hq : Quiet c c') : Ciphered c' := by
  unfold Ciphered
  rw [hq.encrypted, hq.requests, hq.encryptKey]
  exact h

/-- No step switches the encryption on but the completion of a request, and a request is made with the ciphers
initialised. -/
theorem Ciphered.did (h : Ciphered c) (hdid : Did E c c' l) : Ciphered c' := by
  cases l with
  | quiet => exact h.quiet hdid
  | handshake n => exact Ciphered.quiet (c := { c with state := n }) h hdid.2
  | loginStart name token =>
    exact Ciphered.quiet (c := { c with requestedUsername := name, verifyToken := token }) h hdid.2
  | loopbackLogin name userid =>
    exact Ciphered.quiet (c := { c with requestedUsername := name, userid := userid }.login.play) h hdid.2.2
  | loopbackLoginFailed name userid =>
    exact Ciphered.quiet (c := { c with requestedUsername := name, userid := userid }.login) h hdid.2.2
  | accepted token sharedSecret =>
    obtain ⟨-, -, key, -, hq⟩ := hdid
    exact Ciphered.quiet (c := c.accept token key) (fun _ => ⟨key, rfl⟩) hq
  | requested token sharedSecret text =>
    obtain ⟨-, -, key, -, hq⟩ := hdid
    exact Ciphered.quiet (c := (c.accept token key).request sharedSecret text) (fun _ => ⟨key, rfl⟩) hq
  | staged k stage =>
    obtain ⟨⟨r, hr, -⟩, hq⟩ := hdid
    exact Ciphered.quiet (c := c.stage k stage) (fun _ => h (Or.inr (List.ne_nil_of_mem (List.mem_of_getElem? hr)))) hq
  | authenticated k id name =>
    obtain ⟨r, hr, -, hq⟩ := hdid
    exact Ciphered.quiet (c := ((c.stage k .finished).join r.sharedSecret id name).login.play)
      (fun _ => h (Or.inr (List.ne_nil_of_mem (List.mem_of_getElem? hr)))) hq
  | authenticatedFailed k id name =>
    obtain ⟨r, hr, -, -, hq⟩ := hdid
    exact Ciphered.quiet (c := ((c.stage k .finished).join r.sharedSecret id name).login)
      (fun _ => h (Or.inr (List.ne_nil_of_mem (List.mem_of_getElem? hr)))) hq

theorem ciphered_new (handle : Word) (loopback : Bool) (verifyToken : Block 4) :
    Ciphered (Client.new .login ⟨handle, loopback, .connected⟩ verifyToken) := by
  rintro (hencrypted | hrequests)
  · cases hencrypted
  · exact absurd rfl hrequests

theorem allStates_ciphered (E : Env) (run : List (World × Event)) :
    AllStates (step E) (AllClients Ciphered) Gateway.init run := by
  refine allStates_of_inv (C := fun _ _ => True) (fun g e g' hI _ hstep => ?_) allClients_init
    (allSteps_of_forall fun _ _ => trivial)
  refine hI.of_step ciphered_new (fun j c c' l _ hc hconn _ => ?_) hstep
  obtain ⟨c₀, hq, hdid⟩ := hconn
  exact (hc.quiet hq).did hdid

end Ciphers

/-! ## Sends -/

def Action.dataSent : Action → Option Bytes
  | .sendData data _ => some data
  | _ => none

def Client.sent (c : Client) : List Bytes := c.log.filterMap Action.dataSent

/-- Between the two states `sendData` has been called once, for the client `i` and with this data. -/
def SendsOnce (i : ConnId) (data : Bytes) : Gateway → Gateway → Prop :=
  EveryClient fun j c c' => c'.sent = c.sent ++ if j = i then [data] else []

section Sends

variable {E : Env} {g : Gateway} {i : ConnId} {c : Client} {f f' : Client → Client}

theorem sent_logged {a : Action} : (c.logged a).sent = c.sent ++ a.dataSent.toList := by
  unfold Client.sent Client.logged
  rw [List.filterMap_append]
  cases h : a.dataSent <;> simp [h]

/-- A change of one client that calls `sendData` for nobody. -/
structure Silent (f : Client → Client) : Prop where
  sent : ∀ c, (f c).sent = c.sent
  freed : ∀ c, (f c).freed = c.freed

theorem Silent.comp (hf : Silent f) (hf' : Silent f') : Silent (f' ∘ f) :=
  ⟨fun c => (hf'.sent (f c)).trans (hf.sent c), fun c => (hf'.freed (f c)).trans (hf.freed c)⟩

theorem asyncWrite_returns (vector : SendVector) (bytes : Bytes) (hl : Live g i c) :
    ∃ f, asyncWrite i vector bytes g = .ok () (g.modify i f) ∧ Silent f := by
  have hsent (c : Client) : (c.wrote vector bytes).sent = c.sent := sent_logged.trans (List.append_nil _)
  exact ⟨_, run_asyncWrite vector bytes hl, hsent, fun _ => rfl⟩

theorem encrypt_returns (plaintext : Bytes) (hl : Live g i c) (hkey : ∃ key, encryptKey c = some key)
    (hlength : plaintext.length < 2 ^ 31) :
    ∃ r f, encrypt E i plaintext g = .ok r (g.modify i f) ∧ Silent f := by
  obtain ⟨key, hkey⟩ := hkey
  obtain ⟨context, hcontext, -⟩ := Option.map_eq_some_iff.mp hkey
  unfold encrypt
  rw [Exec.run_bind_ok (run_client hl), hcontext]
  dsimp only
  rw [if_neg (Nat.not_le.mpr hlength)]
  cases E.cipher.encryptUpdate context plaintext with
  | none => exact ⟨none, id, by rw [Gateway.modify_id]; rfl, fun _ => rfl, fun _ => rfl⟩
  | some ciphertext =>
    dsimp only
    rw [Exec.run_bind_ok (run_modifyClient hl)]
    exact ⟨some ciphertext.val, _, rfl, fun _ => rfl, fun _ => rfl⟩

/-- `sendData` on a client whose ciphers are initialised if it needs them. -/
theorem sendData_returns {data : Bytes} (hl : Live g i c) (hkey : c.encrypted = true → ∃ key, encryptKey c = some key)
    (hlength : data.length < 2 ^ 31) :
    ∃ f, sendData E i data g = .ok () (g.modify i f) ∧ ∀ c, (f c).sent = c.sent ++ [data] := by
  have hsent : ∀ c₀ : Client, (c₀.logged (.sendData data c.encrypted)).sent = c₀.sent ++ [data] := fun _ => sent_logged
  have hl₁ := hl.modify (f := fun c₀ => c₀.logged (.sendData data c.encrypted)) rfl
  have hthen {f : Client → Client} (hf : Silent f) (c₀ : Client) :
      (f (c₀.logged (.sendData data c.encrypted))).sent = c₀.sent ++ [data] := (hf.sent _).trans (hsent c₀)
  unfold sendData record
  rw [Exec.run_bind_ok (run_client hl), Exec.run_bind_ok (run_modifyClient hl)]
  split
  · exact ⟨_, rfl, hsent⟩
  · split
    · next hencrypted =>
      obtain ⟨r, f, hrun, hf⟩ := encrypt_returns (E := E) data hl₁ (hkey hencrypted) hlength
      rw [Exec.run_bind_ok hrun]
      have hwrites (bytes : Bytes) : ∃ f', asyncWrite i .encryptedData bytes
          ((g.modify i fun c₀ => c₀.logged (.sendData data c.encrypted)).modify i f) = .ok () (g.modify i f') ∧
            ∀ c, (f' c).sent = c.sent ++ [data] := by
        obtain ⟨f', hrun', hf'⟩ := asyncWrite_returns .encryptedData bytes (hl₁.modify (hf.freed _))
        exact ⟨_, by rw [hrun', Gateway.modify_modify, Gateway.modify_modify]; rfl, hthen (hf.comp hf')⟩
      cases r <;> exact hwrites _
    · obtain ⟨f, hrun, hf⟩ := asyncWrite_returns .data data hl₁
      rw [Gateway.modify_modify] at hrun
      exact ⟨_, hrun, hthen hf⟩

theorem sendsOnce_modify {data : Bytes} (hf : ∀ c, (f c).sent = c.sent ++ [data]) :
    SendsOnce i data g (g.modify i f) := by
  refine everyClient_modify (fun c _ => ?_) fun j c hj => ?_
  · rw [if_pos rfl]
    exact hf c
  · rw [if_neg hj, List.append_nil]

end Sends

/-! ## Messages -/

section Messages

variable {E : Env} {run : List (World × Event)} {g : Gateway} {i : ConnId} {packet : Message}

/-- The message is for a client: it is about a player whose entry is not null, and not another kind of message. -/
def IsFor (g : Gateway) (packet : Message) (i : ConnId) : Prop :=
  g.clients.lookup packet.getPlayerID = some (some i) ∧ packet.getMessageID = .MC_PACKET

/-- The client is there, has no compression threshold and has the ciphers it needs. -/
def Ready (g : Gateway) (i : ConnId) : Prop := ∃ c, Live g i c ∧ c.compressionThreshold = noCompression ∧ Ciphered c

theorem ready_of_entry {userid : Bytes} (hrun : runFrom (step E) Gateway.init run = some g)
    (hentry : g.clients.lookup userid = some (some i)) : Ready g i := by
  have hsound := (allStates_sound E run).last hrun
  obtain ⟨h, hh, hfreed, -⟩ := hsound.owned.fits _ _ (held_client_iff.mpr hentry)
  obtain ⟨c, hc, rfl⟩ := objects_of_custody hh
  exact ⟨c, ⟨hc, hfreed⟩, hsound.uncompressed i c.holder hh, (allStates_ciphered E run).last hrun i c hc⟩

theorem clientAt_entry {userid : Bytes} {p : Option ConnId} (hentry : g.clients.lookup userid = some p) :
    clientAt userid g = .ok p g := by
  unfold clientAt
  rw [Exec.run_bind_ok (Exec.run_get g), hentry]
  rfl

theorem asSize_noCompression : asSize noCompression = 2 ^ 64 - 1 := by decide

theorem handleMessage_framed (hready : Ready g i) (hfor : IsFor g packet i)
    (hsize : packet.payload.length < 2 ^ 21) :
    ∃ g', ClientServer.handleMessage E packet g = .ok () g' ∧ g'.clients = g.clients ∧
      SendsOnce i (writeVarIntToBuffer (BitVec.ofNat 32 packet.payload.length) ++ packet.payload) g g' := by
  obtain ⟨c, hl, hthreshold, hciphered⟩ := hready
  have hlength : (writeVarIntToBuffer (BitVec.ofNat 32 packet.payload.length) ++ packet.payload).length < 2 ^ 31 := by
    have := length_writeVarIntToBuffer_le (BitVec.ofNat 32 packet.payload.length)
    rw [List.length_append]
    omega
  obtain ⟨f, hsend, hf⟩ := sendData_returns (E := E) hl (fun hencrypted => hciphered (Or.inl hencrypted)) hlength
  refine ⟨g.modify i f, ?_, rfl, sendsOnce_modify hf⟩
  unfold ClientServer.handleMessage
  rw [Exec.run_bind_ok (clientAt_entry hfor.1)]
  dsimp only
  rw [if_pos hfor.2, Exec.run_bind_ok (run_client hl)]
  refine Eq.trans (Exec.run_bind_ok (a := _ ++ _) ?_) hsend
  unfold Exec.onLocal
  rw [Exec.run_bind_ok (Exec.run_get _), hthreshold, asSize_noCompression,
    if_neg (by simp only [Message.getPayload]; omega)]
  dsimp only [Message.getPayload]
  rw [Exec.run_bind_ok (writeBufferLengthToFront_fits hsize)]
  rfl

end Messages

/-- The id under which `Env.player` logs in a loopback client. -/
def playerUserid : Block 36 := ⟨ascii "01010101-0101-0101-0101-010101010101", by decide⟩

def zeroHeader : Block 46 := ⟨List.replicate 46 0, rfl⟩

/-- **Relay.** A datagram built for a player is given to `sendData` of the player's client, once and framed, and
`clients` stays as it is. -/
theorem relays (E : Env) (run : List (World × Event)) (g : Gateway) (hrun : runFrom (step E) Gateway.init run = some g)
    (userid : Block 36) (i : ConnId) (hentry : g.clients.lookup userid.val = some (some i)) (memory : Block 46)
    (payload : Bytes) (hsize : payload.length < 2 ^ 21) :
    ∃ raw packet rest g', serializeData (newPacket memory .MC_PACKET userid.val payload) [] = .ok () raw ∧
      fromData false raw = .ok (some packet) rest ∧ ClientServer.handleMessage E packet g = .ok () g' ∧
      SendsOnce i (writeVarIntToBuffer (BitVec.ofNat 32 payload.length) ++ payload) g g' ∧ g'.clients = g.clients := by
  have hfits : payload.length ≤ maxSize := by
    unfold maxSize
    omega
  let out : Outgoing := ⟨memory, .MC_PACKET, userid, (newPacket memory .MC_PACKET userid.val payload).getPacketNumber,
    payload, hfits⟩
  have hwell : (newPacket memory .MC_PACKET userid.val payload).WellFormed := out.wellFormed
  have hfor : IsFor g (newPacket memory .MC_PACKET userid.val payload) i :=
    ⟨by rw [newPacket_getPlayerID, hentry], rfl⟩
  obtain ⟨g', hhandle, hclients, hsends⟩ := handleMessage_framed (E := E) (ready_of_entry hrun hentry) hfor hsize
  have hserialize := serializeData_run hwell []
  have hparse := fromData_serialized hwell false []
  rw [List.append_nil] at hparse
  exact ⟨_, _, _, g', hserialize, hparse, hhandle, hsends, hclients⟩

/-- The id that the session server gives the player of `oneSecret`. -/
def secretUserid : Block 36 := ⟨ascii "01234567-89ab-cdef-0123-456789abcdef", by decide⟩

/-- After this player a second one logs in, from the loopback address. -/
def twoLogins : List (World × Event) :=
  oneSecret ++ plainRun [.acceptConstruct 8 true zeroToken, .acceptInsert,
    .onLengthReceive 1 false [6, 0, 47, 0, 0, 0, 2], .onLengthReceive 1 false (8 :: 0 :: 6 :: ascii "Player")]

/-- Two hundred bytes for the first player, whose encryption is on. -/
theorem relays_twoLogins :
    ∃ g, runFrom (step .player) Gateway.init twoLogins = some g ∧ g.clients.lookup playerUserid.val = some (some 1) ∧
      ∃ raw packet rest g',
        serializeData (newPacket zeroHeader .MC_PACKET secretUserid.val (List.replicate 200 0x2a)) [] = .ok () raw ∧
          fromData false raw = .ok (some packet) rest ∧ ClientServer.handleMessage .player packet g = .ok () g' ∧
          SendsOnce 0 ([0xc8, 0x01] ++ List.replicate 200 0x2a) g g' ∧ g'.clients = g.clients := by
  have hlookup : (runFrom (step .player) Gateway.init twoLogins).map (fun g =>
      (g.clients.lookup secretUserid.val, g.clients.lookup playerUserid.val)) =
        some (some (some 0), some (some 1)) := by
    decide +kernel
  obtain ⟨g, hg, hentries⟩ := Option.map_eq_some_iff.mp hlookup
  obtain ⟨hentry, hother⟩ := Prod.mk.inj hentries
  have hlength : (List.replicate 200 (0x2a : Byte)).length = 200 := List.length_replicate
  have hprefix : writeVarIntToBuffer (BitVec.ofNat 32 200) = [0xc8, 0x01] := by decide
  have hrelays := relays .player twoLogins g hg secretUserid 0 hentry zeroHeader (List.replicate 200 0x2a)
    (by rw [hlength]; decide)
  rw [hlength, hprefix] at hrelays
  exact ⟨g, hg, hother, hrelays⟩

/-- A message of one byte for the player of `loginAfterInsert`. -/
def playerMessage (b : Byte) : Bytes := 3 :: 0 :: playerUserid.val ++ [1, 0, 0, 0, 0, 0, 0, 0, b]

end CeriosCluster.ClientGateway
