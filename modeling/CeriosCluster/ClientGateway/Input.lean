import CeriosCluster.ClientGateway.Simulation

/-!
# The input of a connection

What has arrived on a connection is looked at by `onLengthReceive` alone. Every other piece of a handler leaves
the two receive buffers and the history of what was taken from them as they are, and touches the decryption only
to initialise it. Such pieces are `Routine`: any relation between gateways that allows their changes of one
client and of the owners' maps is kept by all of them.
-/

namespace CeriosCluster.ClientGateway

open CeriosCluster.Lib CeriosCluster.MCPacket

def Client.received (c : Client) : List Packet :=
  c.log.filterMap fun
    | .receivedMessage packet => some packet
    | _ => none

def Client.cleartext (c : Client) : Bytes :=
  c.log.flatMap fun
    | .appended bytes => bytes
    | _ => []

/-- Nothing has been decrypted, and the decryption has at most been initialised again. -/
structure SameCiphertext (c c' : Client) : Prop where
  encrypted : c'.encrypted = c.encrypted
  encryptedBuffer : c'.encryptedBuffer = c.encryptedBuffer
  cleartext : c'.cleartext = c.cleartext
  context : c'.decryptCipherContext = c.decryptCipherContext ∨ ∃ key, c'.decryptCipherContext = some ⟨key, []⟩

/-- Nothing has been taken from the buffer either, and what arrives is parsed in the same mode. -/
structure SameInput (c c' : Client) : Prop extends SameCiphertext c c' where
  loopback : c'.socket.loopback = c.socket.loopback
  compressionThreshold : c'.compressionThreshold = c.compressionThreshold
  buffer : c'.buffer = c.buffer
  received : c'.received = c.received

section Relations

variable {c c' c'' : Client}

theorem SameCiphertext.refl (c : Client) : SameCiphertext c c := ⟨rfl, rfl, rfl, Or.inl rfl⟩

theorem SameCiphertext.trans (h : SameCiphertext c c') (h' : SameCiphertext c' c'') : SameCiphertext c c'' where
  encrypted := h'.encrypted.trans h.encrypted
  encryptedBuffer := h'.encryptedBuffer.trans h.encryptedBuffer
  cleartext := h'.cleartext.trans h.cleartext
  context := by
    rcases h'.context with hsame | hkeyed
    · rw [hsame]
      exact h.context
    · exact Or.inr hkeyed

theorem SameInput.refl (c : Client) : SameInput c c := ⟨.refl c, rfl, rfl, rfl, rfl⟩

theorem SameInput.trans (h : SameInput c c') (h' : SameInput c' c'') : SameInput c c'' where
  toSameCiphertext := h.toSameCiphertext.trans h'.toSameCiphertext
  loopback := h'.loopback.trans h.loopback
  compressionThreshold := h'.compressionThreshold.trans h.compressionThreshold
  buffer := h'.buffer.trans h.buffer
  received := h'.received.trans h.received

/-- What a handler may log without having taken any input. -/
def NoInput : Action → Prop
  | .appended _ => False
  | .receivedMessage _ => False
  | _ => True

theorem SameInput.logged {a : Action} (ha : NoInput a) : SameInput c (c.logged a) := by
  have hcleartext : (c.logged a).cleartext = c.cleartext := by
    unfold Client.cleartext Client.logged
    rw [List.flatMap_append]
    cases a with
    | appended bytes => exact ha.elim
    | _ => simp
  have hreceived : (c.logged a).received = c.received := by
    unfold Client.received Client.logged
    rw [List.filterMap_append]
    cases a with
    | receivedMessage packet => exact ha.elim
    | _ => simp
  exact { SameInput.refl c with cleartext := hcleartext, received := hreceived }

theorem received_logged (packet : Packet) : (c.logged (.receivedMessage packet)).received = c.received ++ [packet] := by
  unfold Client.received Client.logged
  rw [List.filterMap_append]
  rfl

theorem received_appended (bytes : Bytes) : (c.logged (.appended bytes)).received = c.received := by
  unfold Client.received Client.logged
  rw [List.filterMap_append]
  simp

theorem cleartext_logged (bytes : Bytes) : (c.logged (.appended bytes)).cleartext = c.cleartext ++ bytes := by
  unfold Client.cleartext Client.logged
  rw [List.flatMap_append]
  simp

theorem SameCiphertext.received (packet : Packet) : SameCiphertext c (c.logged (.receivedMessage packet)) := by
  have hcleartext : (c.logged (.receivedMessage packet)).cleartext = c.cleartext := by
    unfold Client.cleartext Client.logged
    rw [List.flatMap_append]
    simp
  exact { SameCiphertext.refl c with cleartext := hcleartext }

end Relations

/-- The changes that are no input: of one client, and of the owners' maps. -/
structure Routine (R : Gateway → Gateway → Prop) : Prop where
  modify : ∀ {f : Client → Client}, (∀ c, SameInput c (f c)) → ∀ g i, R g (g.modify i f)
  pendingClients : ∀ g (pending : ClientMap Word), R g { g with pendingClients := pending }
  insert : ∀ g userid (i : ConnId), R g { g with clients := g.clients.insert userid (some i) }
  erase : ∀ g userid, R g { g with clients := g.clients.erase userid }

namespace Routine

variable {R : Gateway → Gateway → Prop} {E : Env} {w : World} {i : ConnId} {α : Type} {f : Client → Client}

theorem client [Std.Refl R] : Exec.Keeps R (client i) := fun g => wp_client.mpr fun _ _ => refl_of R g

theorem modifyClient (hR : Routine R) (hf : ∀ c, SameInput c (f c)) : Exec.Keeps R (modifyClient i f) :=
  fun g => wp_modifyClient.mpr fun _ _ => hR.modify hf g i

theorem record (hR : Routine R) {a : Action} (ha : NoInput a) : Exec.Keeps R (record i a) :=
  hR.modifyClient fun _ => .logged ha

theorem free [Std.Refl R] (hR : Routine R) (p : Option ConnId) : Exec.Keeps R (free p) := by
  cases p with
  | none => exact .pure _
  | some i => exact hR.modifyClient fun c => { SameInput.refl c with }

theorem startAsyncRead (hR : Routine R) : Exec.Keeps R (startAsyncRead i) :=
  hR.modifyClient fun c => { SameInput.refl c with }

theorem initCiphers (hR : Routine R) (clearSharedSecret : Bytes) : Exec.Keeps R (initCiphers i clearSharedSecret) := by
  unfold ClientGateway.initCiphers
  split
  · next hkey =>
    exact hR.modifyClient fun c => { SameInput.refl c with context := Or.inr ⟨⟨clearSharedSecret.take 16, hkey⟩, rfl⟩ }
  · exact .undefined

theorem asyncWrite [IsTrans Gateway R] (hR : Routine R) (vector : SendVector) (bytes : Bytes) :
    Exec.Keeps R (asyncWrite i vector bytes) :=
  .bind (hR.record trivial) fun _ => hR.modifyClient fun c => { SameInput.refl c with }

theorem get_set [IsTrans Gateway R] {h : Gateway → Gateway} {m : Gateway → M α} (hset : ∀ g, R g (h g))
    (hm : ∀ g, Exec.Keeps R (m g)) : Exec.Keeps R (Exec.get >>= fun g => Exec.set (h g) >>= fun _ => m g) := by
  intro g
  rw [Exec.wp_bind, Exec.wp_get, Exec.wp_bind, Exec.wp_set]
  exact Exec.wp_mono (hm g (h g)) (fun _ _ => trans_of R (hset g)) fun _ _ => trans_of R (hset g)

variable [Std.Refl R] [IsTrans Gateway R]

/-! ## Sending -/

theorem encrypt (hR : Routine R) (plaintext : Bytes) : Exec.Keeps R (encrypt E i plaintext) := by
  refine .bind client fun c => ?_
  split
  · exact .undefined
  · refine .ite (fun _ => .undefined) fun _ => ?_
    split
    · exact .pure _
    · exact .bind (hR.modifyClient fun c => { SameInput.refl c with }) fun _ => .pure _

theorem sendData (hR : Routine R) (data : Bytes) : Exec.Keeps R (sendData E i data) := by
  refine .bind client fun c => .bind (hR.record trivial) fun _ => .ite (fun _ => .pure _) fun _ =>
    .ite (fun _ => ?_) fun _ => ?_
  · refine .bind (hR.encrypt data) fun r => ?_
    cases r <;> exact hR.asyncWrite _ _
  · exact hR.asyncWrite _ data

theorem sendPacket (hR : Routine R) (packet : Packet) : Exec.Keeps R (sendPacket E i packet) :=
  .bind client fun _ => .bind (hR.record trivial) fun _ => .bind (.onLocal _ _) fun _ => hR.sendData _

theorem sendNewPacket (hR : Routine R) (packet : Option Packet) : Exec.Keeps R (sendNewPacket E i packet) := by
  cases packet with
  | none => exact .undefined
  | some packet => exact hR.sendPacket packet

/-! ## The socket and the owners -/

theorem socketCancel : Exec.Keeps R (socketCancel i) :=
  .bind client fun _ => .ite (fun _ => .throw _) fun _ => .pure _

theorem remoteEndpoint : Exec.Keeps R (remoteEndpoint i) :=
  .bind client fun _ => .ite (fun _ => .pure _) fun _ => .throw _

theorem socketShutdown : Exec.Keeps R (socketShutdown i) :=
  .bind client fun _ => .ite (fun _ => .pure _) fun _ => .throw _

theorem erasePendingClient (hR : Routine R) (handle : Word) : Exec.Keeps R (erasePendingClient handle) :=
  get_set (fun g => hR.pendingClients g _) fun _ => hR.free _

theorem addClient (hR : Routine R) : Exec.Keeps R (ClientServer.addClient E w i) :=
  .bind (hR.sendNewPacket _) fun _ => .bind (hR.sendNewPacket _) fun _ => .bind (hR.sendNewPacket _) fun _ =>
    .bind (hR.sendNewPacket _) fun _ => .bind client fun c => get_set (fun g => hR.insert g c.userid i) fun _ =>
      hR.free _

theorem clientDisconnected (hR : Routine R) (owner : OwnerRef) : Exec.Keeps R (clientDisconnected w owner i) := by
  cases owner with
  | login => exact .bind remoteEndpoint fun _ => .bind client fun _ => hR.erasePendingClient _
  | clientServer =>
    exact .bind client fun c => get_set (fun g => hR.erase g c.userid) fun _ => .bind (hR.free _) fun _ =>
      .ite (fun _ => .pure _) fun _ => .tryCatch remoteEndpoint fun _ => .pure _

theorem handoffClient (hR : Routine R) (owner : OwnerRef) : Exec.Keeps R (handoffClient E w owner i) := by
  cases owner with
  | clientServer => exact .pure _
  | login =>
    refine .bind client fun c => get_set (fun g => hR.pendingClients g _) fun g => ?_
    cases (g.pendingClients.lookup c.socket.native_handle).getD none with
    | none => exact .pure _
    | some j =>
      exact .bind client fun _ => .bind (hR.erasePendingClient _) fun _ =>
        .bind (hR.modifyClient fun c => { SameInput.refl c with }) fun _ =>
          .tryCatch hR.addClient fun _ => .bind (hR.free _) fun _ => .throw _

theorem disconnect (hR : Routine R) : Exec.Keeps R (disconnect w i) := by
  have hclose : Exec.Keeps R (socketClose i) := hR.modifyClient fun c => { SameInput.refl c with }
  have hshut : Exec.Keeps R (Exec.tryCatch (do
      ClientGateway.socketCancel i
      ClientGateway.socketShutdown i
      socketClose i) fun _ => pure ()) :=
    .tryCatch (.bind socketCancel fun _ => .bind socketShutdown fun _ => hclose) fun _ => .pure _
  refine .bind client fun _ => .ite (fun _ => .pure _) fun _ => ?_
  exact .bind (hR.modifyClient fun c => { SameInput.refl c with }) fun _ => .bind hshut fun _ =>
    .bind client fun _ => hR.clientDisconnected _

/-! ## Logging in -/

theorem onPlayerLogin (hR : Routine R) : Exec.Keeps R (onPlayerLogin E w i) := by
  refine .bind (hR.record trivial) fun _ => .bind client fun c => ?_
  rw [newPacket_loginSuccess]
  exact .bind (hR.sendPacket _) fun _ => .bind (hR.modifyClient fun c => { SameInput.refl c with }) fun _ =>
    .bind (hR.modifyClient fun c => { SameInput.refl c with }) fun _ => .bind client fun _ => hR.handoffClient _

theorem receivedLoginStart (hR : Routine R) (f : LoginStartPacket) : Exec.Keeps R (receivedLoginStart E w i f) := by
  refine .bind (hR.modifyClient fun c => { SameInput.refl c with }) fun _ => .bind remoteEndpoint fun _ => ?_
  refine .bind client fun _ => .ite (fun _ => ?_) fun _ => ?_
  · exact .bind (hR.modifyClient fun c => { SameInput.refl c with }) fun _ =>
      .bind (hR.modifyClient fun c => { SameInput.refl c with }) fun _ => hR.onPlayerLogin
  · rw [newPacket_encryption]
    exact .bind (hR.modifyClient fun c => { SameInput.refl c with }) fun _ => hR.sendPacket _

theorem receivedEncryption (hR : Routine R) (f : EncryptionPacket) : Exec.Keeps R (receivedEncryption E w i f) := by
  refine .bind client fun c => .ite (fun _ => .pure _) fun _ => ?_
  split
  · refine .bind (.ite (fun _ => .undefined) fun _ => .pure _) fun _ => .ite (fun _ => .pure _) fun _ => ?_
    refine .bind (hR.record trivial) fun _ => .bind (hR.initCiphers _) fun _ => .ite (fun _ => .pure _) fun _ => ?_
    refine .bind (fun g => wp_hashString fun _ => refl_of R g) fun text => ?_
    exact .bind client fun _ => .ite (fun _ => .throw _) fun _ => hR.modifyClient fun c => { SameInput.refl c with }
  · exact .pure _

/-- `receivedMessage` notes the packet, and the rest of it is routine. -/
theorem receivedMessage (hR : Routine R) (packet : Packet) :
    ∃ rest, receivedMessage E w i packet = (ClientGateway.record i (.receivedMessage packet) >>= fun _ => rest) ∧
      Exec.Keeps R rest := by
  have owned {m : Client → M Unit} (hm : ∀ c, Exec.Keeps R (m c)) : Exec.Keeps R (do
      let c ← ClientGateway.client i
      if ← onPacketReceived c.owner i packet then pure () else m c) :=
    .bind client fun c => .bind (.pure _) fun _ => .ite (fun _ => .pure _) fun _ => hm c
  refine ⟨_, rfl, ?_⟩
  cases packet.fields with
  | ping f =>
    exact .bind (hR.sendPacket _) fun _ => .bind client fun _ => .ite (fun _ => socketCancel) fun _ => .pure _
  | keepAlive f => exact .pure _
  | handshake f =>
    exact owned fun _ => .ite (fun _ => hR.modifyClient fun c => { SameInput.refl c with }) fun _ => .pure _
  | serverStatus f => exact owned fun _ => .ite (fun _ => hR.sendPacket _) fun _ => .pure _
  | loginStart f => exact owned fun _ => .ite (fun _ => hR.receivedLoginStart f) fun _ => .pure _
  | encryption f => exact owned fun _ => .ite (fun _ => hR.receivedEncryption f) fun _ => .pure _
  | _ => exact owned fun _ => .pure _

end Routine

/-! ## The input of every client -/

/-- No client has taken any input. -/
abbrev InputKept : Gateway → Gateway → Prop := EveryClient fun _ => SameInput

instance : Std.Refl InputKept := ⟨fun _ => ⟨rfl, fun _ c hc => ⟨c, hc, .refl c⟩⟩⟩

instance : IsTrans Gateway InputKept := ⟨fun _ _ _ h h' => h.trans h' fun _ _ _ _ => SameInput.trans⟩

theorem routine_inputKept : Routine InputKept where
  modify := fun hf _ _ => everyClient_modify (fun c _ => hf c) fun _ c _ => .refl c
  pendingClients := fun _ _ => ⟨rfl, fun _ c hc => ⟨c, hc, .refl c⟩⟩
  insert := fun _ _ _ => ⟨rfl, fun _ c hc => ⟨c, hc, .refl c⟩⟩
  erase := fun _ _ => ⟨rfl, fun _ c hc => ⟨c, hc, .refl c⟩⟩

/-- `receivedMessage` hands the packet over and takes no other input. -/
theorem wp_receivedMessage_input {E : Env} {w : World} {i : ConnId} {g : Gateway} (packet : Packet) :
    Exec.wp (receivedMessage E w i packet)
      (fun _ => InputKept (g.modify i fun c => c.logged (.receivedMessage packet)))
      (fun _ => InputKept (g.modify i fun c => c.logged (.receivedMessage packet))) g := by
  obtain ⟨rest, heq, hrest⟩ := routine_inputKept.receivedMessage (E := E) (w := w) (i := i) packet
  rw [heq, Exec.wp_bind, record, wp_modifyClient]
  exact fun _ _ => hrest _

end CeriosCluster.ClientGateway
