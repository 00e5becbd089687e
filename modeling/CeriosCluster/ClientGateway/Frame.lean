import CeriosCluster.ClientGateway.Custody

/-!
# What most handlers leave alone

`Quiet` relates a client to what it is after a piece of a handler that does not take part in its login:
the state, the keys, the names, the requests and the encryption flag are the same, `alive` has at most
gone down, and the log has grown by sends under the present flag. Everything but the branches of
`receivedMessage` and of `onHasJoinedPostComplete` that log a client in is quiet for every client. What
the owners do not notice either, the sends and the receive buffer, is `Inert`.
-/

namespace CeriosCluster.ClientGateway

open CeriosCluster.Lib CeriosCluster.MCPacket

/-- What a quiet piece of a handler may log, while the encryption flag is `encrypted`. -/
def QuietAction (encrypted : Bool) : Action → Prop
  | .appended _ => True
  | .receivedMessage _ => True
  | .sendPacket p => p.fields.packetClass ≠ .loginSuccess
  | .sendData _ flag => flag = encrypted
  | .write _ _ => True
  | .tokenMatched _ _ => False
  | .hasJoined _ _ _ => False
  | .onPlayerLogin => False

def IsLoginSuccess : Action → Prop
  | .sendPacket p => p.fields.packetClass = .loginSuccess
  | _ => False

instance : DecidablePred IsLoginSuccess
  | .sendPacket p => inferInstanceAs (Decidable (p.fields.packetClass = .loginSuccess))
  | .appended _ => isFalse id
  | .receivedMessage _ => isFalse id
  | .sendData _ _ => isFalse id
  | .write _ _ => isFalse id
  | .tokenMatched _ _ => isFalse id
  | .hasJoined _ _ _ => isFalse id
  | .onPlayerLogin => isFalse id

theorem QuietAction.not_isLoginSuccess {encrypted : Bool} {a : Action} (h : QuietAction encrypted a) :
    ¬ IsLoginSuccess a := by
  cases a with
  | sendPacket p => exact h
  | _ => exact fun h => h

def encryptKey (c : Client) : Option (Block 16) := c.encryptCipherContext.map (·.key)

def decryptKey (c : Client) : Option (Block 16) := c.decryptCipherContext.map (·.key)

structure Quiet (c c' : Client) : Prop where
  loopback : c'.socket.loopback = c.socket.loopback
  state : c'.state = c.state
  compressionThreshold : c'.compressionThreshold = c.compressionThreshold
  encryptKey : encryptKey c' = encryptKey c
  decryptKey : decryptKey c' = decryptKey c
  encrypted : c'.encrypted = c.encrypted
  requestedUsername : c'.requestedUsername = c.requestedUsername
  userid : c'.userid = c.userid
  verifyToken : c'.verifyToken = c.verifyToken
  requests : c'.requests = c.requests
  alive : c'.alive = true → c.alive = true
  log : ∃ added, c'.log = c.log ++ added ∧ ∀ a ∈ added, QuietAction c.encrypted a

theorem Quiet.refl (c : Client) : Quiet c c where
  loopback := rfl
  state := rfl
  compressionThreshold := rfl
  encryptKey := rfl
  decryptKey := rfl
  encrypted := rfl
  requestedUsername := rfl
  userid := rfl
  verifyToken := rfl
  requests := rfl
  alive := id
  log := ⟨[], by simp, by simp⟩

theorem Quiet.of_eq {c c' : Client} (h : c' = c) : Quiet c c' := by
  subst h
  exact Quiet.refl c'

theorem Quiet.trans {c₁ c₂ c₃ : Client} (h : Quiet c₁ c₂) (h' : Quiet c₂ c₃) : Quiet c₁ c₃ where
  loopback := h'.loopback.trans h.loopback
  state := h'.state.trans h.state
  compressionThreshold := h'.compressionThreshold.trans h.compressionThreshold
  encryptKey := h'.encryptKey.trans h.encryptKey
  decryptKey := h'.decryptKey.trans h.decryptKey
  encrypted := h'.encrypted.trans h.encrypted
  requestedUsername := h'.requestedUsername.trans h.requestedUsername
  userid := h'.userid.trans h.userid
  verifyToken := h'.verifyToken.trans h.verifyToken
  requests := h'.requests.trans h.requests
  alive := fun ha => h.alive (h'.alive ha)
  log := by
    obtain ⟨added, hlog, hquiet⟩ := h.log
    obtain ⟨added', hlog', hquiet'⟩ := h'.log
    refine ⟨added ++ added', by rw [hlog', hlog, List.append_assoc], fun a ha => ?_⟩
    rcases List.mem_append.mp ha with ha | ha
    · exact hquiet a ha
    · rw [← h.encrypted]
      exact hquiet' a ha

theorem Quiet.append {c : Client} {a : Action} (ha : QuietAction c.encrypted a) :
    Quiet c (c.logged a) :=
  { Quiet.refl c with log := ⟨[a], rfl, by simpa using ha⟩ }

theorem Quiet.mem_log {c c' : Client} {a : Action} (h : Quiet c c') (ha : ∀ encrypted, ¬ QuietAction encrypted a) :
    a ∈ c'.log ↔ a ∈ c.log := by
  obtain ⟨added, hlog, hquiet⟩ := h.log
  rw [hlog, List.mem_append]
  exact or_iff_left fun hmem => ha _ (hquiet a hmem)

theorem Quiet.onPlayerLogin_mem {c c' : Client} (h : Quiet c c') : .onPlayerLogin ∈ c'.log ↔ .onPlayerLogin ∈ c.log :=
  h.mem_log fun _ h => h

/-! ## All clients -/

/-- `Q` relates every client of `g` to the client of that number in `g'`, and there are as many. -/
def EveryClient (Q : ConnId → Client → Client → Prop) (g g' : Gateway) : Prop :=
  g'.objects.length = g.objects.length ∧
    ∀ j c, g.objects[j]? = some c → ∃ c', g'.objects[j]? = some c' ∧ Q j c c'

abbrev AllQuiet : Gateway → Gateway → Prop := EveryClient fun _ => Quiet

theorem EveryClient.mono {Q Q' : ConnId → Client → Client → Prop} {g g' : Gateway} (h : EveryClient Q g g')
    (hQ : ∀ j c c', Q j c c' → Q' j c c') : EveryClient Q' g g' := by
  refine ⟨h.1, fun j c hc => ?_⟩
  obtain ⟨c', hc', hq⟩ := h.2 j c hc
  exact ⟨c', hc', hQ j c c' hq⟩

theorem EveryClient.trans {Q Q' Q'' : ConnId → Client → Client → Prop} {g₁ g₂ g₃ : Gateway}
    (h : EveryClient Q g₁ g₂) (h' : EveryClient Q' g₂ g₃)
    (hQ : ∀ j c₁ c₂ c₃, Q j c₁ c₂ → Q' j c₂ c₃ → Q'' j c₁ c₃) : EveryClient Q'' g₁ g₃ := by
  refine ⟨h'.1.trans h.1, fun j c hc => ?_⟩
  obtain ⟨c', hc', hq⟩ := h.2 j c hc
  obtain ⟨c'', hc'', hq'⟩ := h'.2 j c' hc'
  exact ⟨c'', hc'', hQ j c c' c'' hq hq'⟩

theorem allQuiet_of_objects {g g' : Gateway} (h : g'.objects = g.objects) : AllQuiet g g' := by
  refine ⟨congrArg List.length h, fun j c hc => ⟨c, ?_, Quiet.refl c⟩⟩
  rw [h]
  exact hc

instance : Std.Refl AllQuiet := ⟨fun _ => allQuiet_of_objects rfl⟩

instance : IsTrans Gateway AllQuiet := ⟨fun _ _ _ h h' => h.trans h' fun _ _ _ _ => Quiet.trans⟩

def Gateway.modify (g : Gateway) (i : ConnId) (f : Client → Client) : Gateway :=
  { g with objects := g.objects.modify i f }

theorem Gateway.getElem?_modify (g : Gateway) (i j : ConnId) (f : Client → Client) :
    (g.modify i f).objects[j]? = (fun c => if i = j then f c else c) <$> g.objects[j]? :=
  List.getElem?_modify f i g.objects j

theorem Gateway.modify_congr {g : Gateway} {i : ConnId} {c : Client} {f : Client → Client} (f' : Client → Client)
    (hc : g.objects[i]? = some c) (hf : f c = f' c) : g.modify i f = g.modify i f' := by
  refine congrArg (fun objects => { g with objects := objects }) (List.ext_getElem? fun j => ?_)
  rw [List.getElem?_modify, List.getElem?_modify]
  by_cases hij : i = j
  · subst hij
    simp [hc, hf]
  · simp [hij]

theorem Gateway.modify_id (g : Gateway) (i : ConnId) : g.modify i id = g := by
  rw [Gateway.modify, List.modify_id]

theorem Gateway.modify_modify (g : Gateway) (i : ConnId) (f f' : Client → Client) :
    (g.modify i f).modify i f' = g.modify i (f' ∘ f) :=
  congrArg (fun objects => { g with objects := objects }) (List.modify_modify_eq f f' i g.objects)

theorem everyClient_modify {Q : ConnId → Client → Client → Prop} {g : Gateway} {i : ConnId} {f : Client → Client}
    (hi : ∀ c, g.objects[i]? = some c → Q i c (f c)) (hj : ∀ j c, j ≠ i → Q j c c) :
    EveryClient Q g (g.modify i f) := by
  refine ⟨by simp [Gateway.modify], fun j c hc => ?_⟩
  rw [g.getElem?_modify, hc]
  by_cases hij : i = j
  · subst hij
    exact ⟨f c, by simp, hi c hc⟩
  · exact ⟨c, by simp [hij], hj j c (Ne.symm hij)⟩

theorem allQuiet_modify {g : Gateway} {i : ConnId} {f : Client → Client}
    (h : ∀ c, g.objects[i]? = some c → Quiet c (f c)) : AllQuiet g (g.modify i f) :=
  everyClient_modify h fun _ c _ => Quiet.refl c

/-! ## What the owners see -/

/-- The owners see no difference. -/
abbrev Unmoved (g g' : Gateway) : Prop := g'.custody = g.custody

instance : Std.Refl Unmoved := ⟨fun _ => rfl⟩

instance : IsTrans Gateway Unmoved := ⟨fun _ _ _ h h' => h'.trans h⟩

/-- Quiet for every client, the owners see no difference, and the keys of `clients` are the same. -/
structure Inert (g g' : Gateway) : Prop where
  allQuiet : AllQuiet g g'
  custody : Unmoved g g'
  clients : g'.clients = g.clients

instance : Std.Refl Inert := ⟨fun g => ⟨refl_of AllQuiet g, rfl, rfl⟩⟩

instance : IsTrans Gateway Inert := ⟨fun _ _ _ h h' =>
  ⟨trans_of AllQuiet h.allQuiet h'.allQuiet, h'.custody.trans h.custody, h'.clients.trans h.clients⟩⟩

theorem Inert.quiet {α : Type} {m : M α} (h : Exec.Keeps Inert m) : Exec.Keeps AllQuiet m :=
  h.mono fun _ _ => Inert.allQuiet

theorem Inert.unmoved {α : Type} {m : M α} (h : Exec.Keeps Inert m) : Exec.Keeps Unmoved m :=
  h.mono fun _ _ => Inert.custody

theorem custody_modify {g : Gateway} {i : ConnId} {f : Client → Client} {k : Holder → Holder}
    (h : ∀ c, g.objects[i]? = some c → (f c).holder = k c.holder) : (g.modify i f).custody = g.custody.modify i k := by
  have hholders : (g.modify i f).objects.map Client.holder = (g.objects.map Client.holder).modify i k := by
    refine List.ext_getElem? fun j => ?_
    rw [List.getElem?_map, g.getElem?_modify, List.getElem?_modify, List.getElem?_map]
    cases hc : g.objects[j]? with
    | none => rfl
    | some c =>
      by_cases hij : i = j
      · subst hij
        simp [h c hc]
      · simp [hij]
  exact congrArg (Custody.mk · g.held) hholders

theorem unmoved_modify {g : Gateway} {i : ConnId} {f : Client → Client}
    (h : ∀ c, g.objects[i]? = some c → (f c).holder = c.holder) : Unmoved g (g.modify i f) := by
  refine (custody_modify (k := id) h).trans ?_
  rw [Custody.modify, List.modify_id]

theorem Unmoved.modify {g g' : Gateway} {i : ConnId} {f : Client → Client} (h : Unmoved g g')
    (hf : ∀ c, (f c).holder = c.holder) : Unmoved g (g'.modify i f) :=
  (unmoved_modify fun c _ => hf c).trans h

theorem holder_logged {c : Client} {a : Action} (h : a ≠ .onPlayerLogin) : (c.logged a).holder = c.holder := by
  simp [Client.holder, Client.logged, List.count_append, h]

/-! ## Reading and changing one client -/

/-- `i` is the number of the client `c`, which has not been freed. -/
def Live (g : Gateway) (i : ConnId) (c : Client) : Prop := g.objects[i]? = some c ∧ c.freed = false

section Primitives

variable {α : Type} {i : ConnId} {f : Client → Client} {g : Gateway}

theorem wp_client {Q : Client → Gateway → Prop} {E : Exn → Gateway → Prop} :
    Exec.wp (client i) Q E g ↔ ∀ c, Live g i c → Q c g := by
  unfold Exec.wp client
  rw [Exec.run_bind_ok (Exec.run_get g)]
  cases hc : g.objects[i]? with
  | none => simp [Live, hc, Exec.Sat]
  | some c => cases hf : c.freed <;> simp [Live, hc, hf, Exec.Sat]

theorem wp_modifyClient {Q : Unit → Gateway → Prop} {E : Exn → Gateway → Prop} :
    Exec.wp (modifyClient i f) Q E g ↔ ∀ c, Live g i c → Q () (g.modify i f) := by
  rw [modifyClient, Exec.wp_bind, wp_client]
  exact Iff.rfl

theorem run_client {c : Client} (h : Live g i c) : client i g = .ok c g := by
  unfold client
  rw [Exec.run_bind_ok (Exec.run_get g), h.1]
  show (if c.freed = true then Exec.undefined else pure c : M Client) g = .ok c g
  rw [h.2]
  rfl

theorem run_modifyClient {c : Client} (h : Live g i c) : modifyClient i f g = .ok () (g.modify i f) := by
  unfold modifyClient
  rw [Exec.run_bind_ok (run_client h)]
  rfl

theorem Live.modify {c : Client} (h : Live g i c) (hfreed : (f c).freed = c.freed) : Live (g.modify i f) i (f c) := by
  refine ⟨?_, hfreed.trans h.2⟩
  rw [g.getElem?_modify, h.1]
  simp

theorem inert_client : Exec.Keeps Inert (client i) := fun _ => wp_client.mpr fun _ _ => refl_of Inert _

theorem keeps_client : Exec.Keeps AllQuiet (client i) := Inert.quiet inert_client

theorem keeps_modifyClient (h : ∀ c, Quiet c (f c)) : Exec.Keeps AllQuiet (modifyClient i f) :=
  fun _ => wp_modifyClient.mpr fun _ _ => allQuiet_modify fun c _ => h c

theorem keeps_client_bind {R : Gateway → Gateway → Prop} {m : Client → M α}
    (h : ∀ g c, Live g i c → Exec.wp (m c) (fun _ g' => R g g') (fun _ g' => R g g') g) :
    Exec.Keeps R (client i >>= m) := by
  intro g
  rw [Exec.wp_bind, wp_client]
  exact h g

/-- Reading the maps and writing others back, with whatever follows. -/
theorem keeps_get_set {h : Gateway → Gateway} {m : Gateway → M α} (hobjects : ∀ g, (h g).objects = g.objects)
    (hm : ∀ g, Exec.Keeps AllQuiet (m g)) :
    Exec.Keeps AllQuiet (Exec.get >>= fun g => Exec.set (h g) >>= fun _ => m g) := by
  intro g
  rw [Exec.wp_bind, Exec.wp_get, Exec.wp_bind, Exec.wp_set]
  have hset : AllQuiet g (h g) := allQuiet_of_objects (hobjects g)
  exact Exec.wp_mono (hm g (h g)) (fun _ _ => trans_of AllQuiet hset) (fun _ _ => trans_of AllQuiet hset)

/-- A change that neither the login nor the owners notice. -/
theorem inert_modifyClient (h : ∀ c, Quiet c (f c)) (hholder : ∀ c, (f c).holder = c.holder) :
    Exec.Keeps Inert (modifyClient i f) :=
  fun _ => wp_modifyClient.mpr fun _ _ => ⟨allQuiet_modify fun c _ => h c, unmoved_modify fun c _ => hholder c, rfl⟩

theorem inert_record {a : Action} (ha : ∀ encrypted, QuietAction encrypted a) : Exec.Keeps Inert (record i a) :=
  inert_modifyClient (fun c => Quiet.append (ha c.encrypted)) fun c => holder_logged (by rintro rfl; exact ha false)

theorem keeps_free (p : Option ConnId) : Exec.Keeps AllQuiet (free p) := by
  cases p with
  | none => exact .pure _
  | some i => exact keeps_modifyClient fun c => { Quiet.refl c with }

end Primitives

/-! ## Sending -/

section Functions

variable {E : Env} {w : World} {i : ConnId}

theorem inert_encrypt (plaintext : Bytes) : Exec.Keeps Inert (encrypt E i plaintext) := by
  refine keeps_client_bind fun g c hc => ?_
  cases hctx : c.encryptCipherContext with
  | none => trivial
  | some context =>
    dsimp only
    split
    · trivial
    · split
      · exact refl_of Inert g
      · rw [Exec.wp_bind, wp_modifyClient]
        intro _ _
        refine ⟨allQuiet_modify fun c' hc' => ?_, unmoved_modify fun _ _ => rfl, rfl⟩
        obtain rfl : c = c' := Option.some.inj (hc.1.symm.trans hc')
        exact { Quiet.refl c with encryptKey := by simp [encryptKey, hctx] }

theorem inert_decrypt (ciphertext : Bytes) : Exec.Keeps Inert (decrypt E i ciphertext) := by
  refine keeps_client_bind fun g c hc => ?_
  cases hctx : c.decryptCipherContext with
  | none => trivial
  | some context =>
    dsimp only
    split
    · trivial
    · split
      · exact refl_of Inert g
      · rw [Exec.wp_bind, wp_modifyClient]
        intro _ _
        refine ⟨allQuiet_modify fun c' hc' => ?_, unmoved_modify fun _ _ => rfl, rfl⟩
        obtain rfl : c = c' := Option.some.inj (hc.1.symm.trans hc')
        exact { Quiet.refl c with decryptKey := by simp [decryptKey, hctx] }

theorem inert_asyncWrite (vector : SendVector) (bytes : Bytes) : Exec.Keeps Inert (asyncWrite i vector bytes) :=
  .bind (inert_record fun _ => trivial) fun _ => inert_modifyClient (fun c => { Quiet.refl c with }) fun _ => rfl

def Client.wrote (vector : SendVector) (bytes : Bytes) (c : Client) : Client :=
  { c.logged (.write vector bytes) with writesPending := c.writesPending + 1 }

theorem run_asyncWrite {g : Gateway} {c : Client} (vector : SendVector) (bytes : Bytes) (hl : Live g i c) :
    asyncWrite i vector bytes g = .ok () (g.modify i (·.wrote vector bytes)) := by
  have hwrite := hl.modify (f := fun c => c.logged (.write vector bytes)) rfl
  unfold asyncWrite record
  rw [Exec.run_bind_ok (run_modifyClient hl), run_modifyClient hwrite, Gateway.modify_modify]
  rfl

theorem inert_sendData (data : Bytes) : Exec.Keeps Inert (sendData E i data) := by
  refine keeps_client_bind fun g c hc => ?_
  rw [Exec.wp_bind, record, wp_modifyClient]
  intro _ _
  have hrecord : Inert g (g.modify i fun c₀ => c₀.logged (.sendData data c.encrypted)) := by
    refine ⟨allQuiet_modify fun c₀ hc₀ => ?_, unmoved_modify fun _ _ => holder_logged (by simp), rfl⟩
    obtain rfl : c = c₀ := Option.some.inj (hc.1.symm.trans hc₀)
    exact Quiet.append rfl
  refine Exec.Keeps.wp_after hrecord (.ite (fun _ => .pure _) fun _ => .ite (fun _ => ?_) fun _ =>
    inert_asyncWrite _ data)
  refine .bind (inert_encrypt data) fun r => ?_
  cases r <;> exact inert_asyncWrite _ _

theorem inert_packetData (compressionThreshold : Word) (packet : Packet) :
    Exec.Keeps Inert (packetData E compressionThreshold packet) := .onLocal _ _

theorem inert_sendPacket {packet : Packet} (h : packet.fields.packetClass ≠ .loginSuccess) :
    Exec.Keeps Inert (sendPacket E i packet) :=
  .bind inert_client fun _ => .bind (inert_record fun _ => h) fun _ =>
    .bind (inert_packetData _ _) fun _ => inert_sendData _

theorem newPacket_packetClass {side : Side} {state : ClientState} {id : Word} {a : Ambient} {p : Packet}
    (h : newPacket side state id a = some p) : lookupClass side state id = some p.fields.packetClass := by
  obtain ⟨c, hc, rfl⟩ := Option.map_eq_some_iff.mp h
  rw [hc]
  cases c <;> rfl

theorem inert_sendNewPacket {side : Side} {state : ClientState} {id : Word} {a : Ambient}
    (h : lookupClass side state id ≠ some .loginSuccess) :
    Exec.Keeps Inert (sendNewPacket E i (newPacket side state id a)) := by
  cases hp : newPacket side state id a with
  | none => exact .undefined
  | some p =>
    refine inert_sendPacket fun hclass => h ?_
    rw [newPacket_packetClass hp, hclass]

/-! ## The socket and the owners -/

theorem inert_socketCancel : Exec.Keeps Inert (socketCancel i) :=
  .bind inert_client fun _ => .ite (fun _ => .throw _) fun _ => .pure _

theorem inert_remoteEndpoint : Exec.Keeps Inert (remoteEndpoint i) :=
  .bind inert_client fun _ => .ite (fun _ => .pure _) fun _ => .throw _

theorem inert_socketShutdown : Exec.Keeps Inert (socketShutdown i) :=
  .bind inert_client fun _ => .ite (fun _ => .pure _) fun _ => .throw _

theorem keeps_socketClose : Exec.Keeps AllQuiet (socketClose i) :=
  keeps_modifyClient fun c => { Quiet.refl c with }

theorem inert_startAsyncRead : Exec.Keeps Inert (startAsyncRead i) :=
  inert_modifyClient (fun c => { Quiet.refl c with }) fun _ => rfl

theorem keeps_erasePendingClient (handle : Word) : Exec.Keeps AllQuiet (erasePendingClient handle) :=
  keeps_get_set (fun _ => rfl) fun _ => keeps_free _

theorem keeps_loginClientDisconnected : Exec.Keeps AllQuiet (Login.clientDisconnected i) :=
  .bind (Inert.quiet inert_remoteEndpoint) fun _ => .bind keeps_client fun _ => keeps_erasePendingClient _

theorem keeps_setClient (userid : Bytes) : Exec.Keeps AllQuiet (setClient userid i) :=
  keeps_get_set (fun _ => rfl) fun _ => keeps_free _

theorem keeps_addClient : Exec.Keeps AllQuiet (ClientServer.addClient E w i) :=
  .bind (Inert.quiet (inert_sendNewPacket (by decide))) fun _ =>
    .bind (Inert.quiet (inert_sendNewPacket (by decide))) fun _ =>
    .bind (Inert.quiet (inert_sendNewPacket (by decide))) fun _ =>
      .bind (Inert.quiet (inert_sendNewPacket (by decide))) fun _ =>
      .bind keeps_client fun _ => keeps_setClient _

theorem keeps_clientServerClientDisconnected : Exec.Keeps AllQuiet (ClientServer.clientDisconnected w i) :=
  .bind keeps_client fun _ => keeps_get_set (fun _ => rfl) fun _ =>
    .bind (keeps_free _) fun _ => .ite (fun _ => .pure _) fun _ => .tryCatch (Inert.quiet inert_remoteEndpoint) fun _ =>
      .pure _

theorem keeps_clientAt (playerId : Bytes) : Exec.Keeps AllQuiet (clientAt playerId) := by
  intro g
  rw [clientAt, Exec.wp_bind, Exec.wp_get]
  cases g.clients.lookup playerId with
  | some p => exact refl_of AllQuiet g
  | none => exact allQuiet_of_objects rfl

theorem keeps_handleMessage (packet : InternalComms.Message) :
    Exec.Keeps AllQuiet (ClientServer.handleMessage E packet) := by
  refine .bind (keeps_clientAt _) fun p => ?_
  cases p with
  | none => exact .pure _
  | some i =>
    exact .ite (fun _ => .bind keeps_client fun c => .bind (.onLocal _ _) fun _ =>
      Inert.quiet (inert_sendData _)) fun _ => .pure _

theorem keeps_onDataReceived (datagram : Option Bytes) :
    Exec.Keeps AllQuiet (ClientServer.onDataReceived E datagram) := by
  refine .bind (.modify fun g => allQuiet_of_objects rfl) fun _ => ?_
  cases datagram with
  | none => exact .pure _
  | some data =>
    refine .bind (.onLocal _ _) fun packet => ?_
    cases packet with
    | none => exact .bind .undefined fun _ => .modify fun g => allQuiet_of_objects rfl
    | some packet => exact .bind (keeps_handleMessage packet) fun _ => .modify fun g => allQuiet_of_objects rfl

theorem keeps_loginHandoffClient : Exec.Keeps AllQuiet (Login.handoffClient E w i) := by
  refine .bind keeps_client fun c => keeps_get_set (fun _ => rfl) fun g => ?_
  cases (g.pendingClients.lookup c.socket.native_handle).getD none with
  | none => exact .pure _
  | some j =>
    exact .bind keeps_client fun _ => .bind (keeps_erasePendingClient _) fun _ =>
      .bind (keeps_modifyClient fun c => { Quiet.refl c with }) fun _ =>
        .tryCatch keeps_addClient fun _ => .bind (keeps_free _) fun _ => .throw _

theorem keeps_handoffClient (owner : OwnerRef) : Exec.Keeps AllQuiet (handoffClient E w owner i) := by
  cases owner with
  | login => exact keeps_loginHandoffClient
  | clientServer => exact .pure _

theorem keeps_clientDisconnected (owner : OwnerRef) : Exec.Keeps AllQuiet (clientDisconnected w owner i) := by
  cases owner with
  | login => exact keeps_loginClientDisconnected
  | clientServer => exact keeps_clientServerClientDisconnected

/-- `disconnect` once the client is dead. -/
theorem keeps_afterDeath : Exec.Keeps AllQuiet (do
    Exec.tryCatch (do
      socketCancel i
      socketShutdown i
      socketClose i) fun _ => pure ()
    let c ← client i
    clientDisconnected w c.owner i) :=
  .bind (.tryCatch (.bind (Inert.quiet inert_socketCancel) fun _ => .bind (Inert.quiet inert_socketShutdown) fun _ =>
    keeps_socketClose)
    fun _ => .pure _) fun _ => .bind keeps_client fun _ => keeps_clientDisconnected _

theorem keeps_disconnect : Exec.Keeps AllQuiet (disconnect w i) := by
  refine .bind keeps_client fun c => .ite (fun _ => .pure _) fun _ => ?_
  exact .bind (keeps_modifyClient fun c => { Quiet.refl c with alive := fun h => by cases h }) fun _ => keeps_afterDeath

/-! ## Receiving -/

theorem inert_shrinkBuffer (size : Nat) : Exec.Keeps Inert (shrinkBuffer i size) :=
  .ite (fun _ => .throw _) fun _ => inert_modifyClient (fun c => { Quiet.refl c with }) fun _ => rfl

theorem inert_appendDecrypted (data : Bytes) : Exec.Keeps Inert (appendDecrypted E i data) := by
  refine .bind (inert_modifyClient (fun c => { Quiet.refl c with }) fun _ => rfl) fun _ =>
    .bind inert_client fun c => ?_
  refine .bind (inert_decrypt _) fun r => ?_
  cases r with
  | some cleartext =>
    exact .bind (inert_modifyClient (fun c => { Quiet.refl c with }) fun _ => rfl) fun _ => inert_record fun _ =>
      trivial
  | none => exact .bind (inert_modifyClient (fun c => { Quiet.refl c with }) fun _ => rfl) fun _ => inert_shrinkBuffer _

theorem inert_appendReceived (data : Bytes) : Exec.Keeps Inert (appendReceived E i data) :=
  .bind inert_client fun _ => .ite (fun _ => inert_appendDecrypted data) fun _ =>
    .bind (inert_modifyClient (fun c => { Quiet.refl c with }) fun _ => rfl) fun _ => inert_record fun _ => trivial

theorem inert_onBuffer {α : Type} (m : BufferM α) : Exec.Keeps Inert (onBuffer i m) := by
  refine .bind inert_client fun _ => .zoom (fun g b => ?_) m
  exact ⟨allQuiet_modify (f := fun c => { c with buffer := b }) fun c _ => { Quiet.refl c with },
    unmoved_modify fun _ _ => rfl, rfl⟩

theorem keeps_onWriteComplete (error : Bool) : Exec.Keeps AllQuiet (onWriteComplete w i error) :=
  .ite (fun _ => keeps_disconnect) fun _ => .pure _

theorem keeps_keepAlive (error expired : Bool) : Exec.Keeps AllQuiet (keepAlive E w i error expired) := by
  refine .bind keeps_client fun c => .ite (fun _ => .pure _) fun _ => .ite (fun _ => keeps_disconnect) fun _ =>
    .ite (fun _ => Inert.quiet inert_socketCancel) fun _ => ?_
  split
  · refine .bind (Inert.quiet (inert_sendPacket (by simp [Fields.packetClass]))) fun _ => ?_
    exact keeps_modifyClient fun c => { Quiet.refl c with }
  · exact Inert.quiet inert_socketCancel

theorem keeps_acceptInsert : Exec.Keeps AllQuiet (acceptInsert i) :=
  .bind keeps_client fun _ => keeps_get_set (fun _ => rfl) fun _ => keeps_free _

end Functions

end CeriosCluster.ClientGateway
