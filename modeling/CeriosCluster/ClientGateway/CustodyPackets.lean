import CeriosCluster.ClientGateway.CustodySimulation

/-!
# One packet, as the owners see it

`receivedMessage` changes the state of its client, logs it in or leaves the custody alone. It throws only
for a client in `LOGIN`: the handlers' other packets are small enough to be sent, and the socket of a live
client can be cancelled.
-/

namespace CeriosCluster.ClientGateway

open CeriosCluster.Lib CeriosCluster.MCPacket

def loopbackId (E : Env) (playerName : Bytes) : Bytes :=
  formatUUID ((make_hex_string (E.sha256 playerName).val).take 32)

def StartsLoopback (c : Holder) (p : Packet) (playerName : Bytes) : Prop :=
  p.fields = .loginStart ⟨playerName⟩ ∧ c.state = .LOGIN ∧ c.socket.state = .connected ∧ c.socket.loopback = true

/-- What `receivedMessage` does to the custody of its client's, and whether it throws then. -/
inductive PacketAsks (E : Env) (i : ConnId) (c : Holder) (p : Packet) : Bool → List CustodyOp → Prop
  | handshake {f : HandshakePacket} (hp : p.fields = .handshake f) (hstate : c.state = .HANDSHAKE) :
      PacketAsks E i c p false [.handshake i f.requestedNextState]
  | login {playerName : Bytes} (hstart : StartsLoopback c p playerName)
    (hfits : LoginFits (loopbackId E playerName) playerName) :
      PacketAsks E i c p false [.rename i (loopbackId E playerName), .login i]
  | failLogin {playerName : Bytes} (hstart : StartsLoopback c p playerName)
      (hfits : ¬ LoginFits (loopbackId E playerName) playerName) :
      PacketAsks E i c p true [.rename i (loopbackId E playerName), .failLogin i]
  | throws (hstate : c.state = .LOGIN) (hlogin : ∀ playerName, ¬ StartsLoopback c p playerName) :
    PacketAsks E i c p true []
  | nothing (hlogin : ∀ playerName, ¬ StartsLoopback c p playerName) : PacketAsks E i c p false []

section Packets

variable {E : Env} {w : World} {g : Gateway} {i : ConnId} {c d : Client} {p : Packet} {o : Custody}

theorem wp_client_at {Q : Client → Gateway → Prop} {F : Exn → Gateway → Prop} (hd : g.objects[i]? = some d)
    (hQ : Live g i d → Q d g) : Exec.wp (client i) Q F g := by
  refine wp_client.mpr fun c hl => ?_
  obtain rfl : d = c := Option.some.inj (hd.symm.trans hl.1)
  exact hQ hl

theorem wp_modify_at {f : Client → Client} {Q : Unit → Gateway → Prop} {F : Exn → Gateway → Prop}
    (hd : g.objects[i]? = some d) (hQ : (g.modify i f).objects[i]? = some (f d) → Q () (g.modify i f)) :
    Exec.wp (modifyClient i f) Q F g := by
  refine wp_modifyClient.mpr fun _ _ => hQ ?_
  rw [g.getElem?_modify, hd]
  simp

/-- The custody after a piece of `receivedMessage`, which started from `o` on the client that was `c` then. -/
def Handled (E : Env) (i : ConnId) (c : Holder) (p : Packet) (o : Custody) (threw : Bool) (g' : Gateway) : Prop :=
  ∃ ops, PacketAsks E i c p threw ops ∧ g'.custody = o.run ops

theorem Custody.rename_eq (f : Bytes → Bytes) {userid : Bytes} :
    ((o.modify i fun c => { c with userid := userid }).modify i fun c => { c with userid := f c.userid }) =
      o.apply (.rename i (f userid)) := Custody.modify_modify

theorem custody_renamed (name userid : Bytes) (f : Bytes → Bytes) :
    (((g.modify i fun c => { c with requestedUsername := name }).modify i fun c => { c with userid := userid }).modify i
      fun c => { c with userid := f c.userid }).custody = g.custody.apply (.rename i (f userid)) := by
  have hnamed : Unmoved g (g.modify i fun c => { c with requestedUsername := name }) := unmoved_modify fun _ _ => rfl
  rw [custody_modify (k := fun c => { c with userid := f c.userid }) fun _ _ => rfl,
    custody_modify (k := fun c => { c with userid := userid }) fun _ _ => rfl, hnamed, Custody.rename_eq]

theorem pong_fits {f : PingPacket} {side : Side} (hp : p.fields = .ping f) : FitsFrame (p.serialized side).length := by
  have hid := length_writeVarIntToBuffer_le p.packetId
  refine (fitsFrame_iff ?_).mpr ?_
  all_goals
    rw [serialized_eq, hp, List.length_append, Fields.payload, PingPacket.payload, podBytes, List.length_map,
      List.length_range]
    omega

theorem serverStatus_fits (f : ServerStatusPacket) {side : Side} :
    FitsFrame (({ p with fields := .serverStatus { f with jsonEncodedServerStatus := serverStatusJson } } :
      Packet).serialized side).length := by
  have hid := length_writeVarIntToBuffer_le p.packetId
  have hlength := length_writeVarIntToBuffer_le (BitVec.ofNat 32 serverStatusJson.length)
  have hbytes : serverStatusJson.length < 1000 := by decide +kernel
  refine (fitsFrame_iff ?_).mpr ?_
  all_goals
    rw [serialized_eq, List.length_append, Fields.payload, ServerStatusPacket.payload, writeString, List.length_append]
    dsimp only
    omega

theorem encryption_fits {f : EncryptionPacket} (hp : p.fields = .encryption f) :
    FitsFrame (p.serialized getSide).length := by
  have hshort : (p.serialized .serverBound).length ≤ 5 := (encryption_lengths (by rw [hp]; rfl)).1
  exact (fitsFrame_iff (Nat.lt_of_le_of_lt hshort (by decide))).mpr (Nat.lt_of_le_of_lt hshort (by decide))

/-- A packet that can be framed is sent, and the owners see nothing of it. -/
theorem wp_sendPacket_fits (h : g.custody.Uncompressed) (hfits : FitsFrame (p.serialized getSide).length) :
    Exec.wp (sendPacket E i p) (fun _ g' => g'.custody = g.custody) (fun _ _ => False) g :=
  Exec.wp_mono (wp_sendPacket h) (fun _ _ h' => h'.2) fun _ _ h' => h'.1 hfits

theorem wp_receivedLoginStart_custody {f : LoginStartPacket} (hp : p.fields = .loginStart f) (hstate : d.state = .LOGIN)
    (h : g.custody.Sound) (hd : g.objects[i]? = some d) :
    Exec.wp (receivedLoginStart E w i f) (fun _ => Handled E i d.holder p g.custody false)
      (fun _ => Handled E i d.holder p g.custody true) g := by
  have hother : (¬ (d.socket.state = .connected ∧ d.socket.loopback = true)) →
      ∀ playerName, ¬ StartsLoopback d.holder p playerName := fun hn _ hstart => hn hstart.2.2
  rw [receivedLoginStart, Exec.wp_bind]
  refine wp_modify_at hd fun hd₁ => ?_
  have hnamed : Unmoved g (g.modify i fun c => { c with requestedUsername := f.playerName }) :=
    unmoved_modify fun _ _ => rfl
  rw [Exec.wp_bind, remoteEndpoint, Exec.wp_bind]
  refine wp_client_at hd₁ fun _ => ?_
  rw [Exec.wp_ite]
  refine ⟨fun hconnected => ?_, fun hreset => ?_⟩
  · rw [Exec.wp_pure, Exec.wp_bind]
    refine wp_client_at hd₁ fun _ => ?_
    rw [Exec.wp_ite]
    refine ⟨fun hloopback => ?_, fun hremote => ?_⟩
    · have hstart : StartsLoopback d.holder p f.playerName := ⟨hp, hstate, hconnected, hloopback⟩
      rw [Exec.wp_bind]
      refine wp_modify_at hd₁ fun hd₂ => ?_
      rw [Exec.wp_bind]
      refine wp_modify_at hd₂ fun hd₃ => ?_
      have hrenamed := custody_renamed (g := g) (i := i) f.playerName
        ((make_hex_string (E.sha256 f.playerName).val).take 32) formatUUID
      have huncompressed := (h.apply (.rename i (loopbackId E f.playerName)) trivial).uncompressed
      rw [loopbackId, ← hrenamed] at huncompressed
      refine Exec.wp_mono (wp_onPlayerLogin_custody huncompressed hd₃) (fun _ g' hdone => ?_) fun _ g' hthrew => ?_
      · obtain ⟨hfits, h'⟩ := hdone
        exact ⟨_, .login hstart hfits, by rw [h', hrenamed]; rfl⟩
      · obtain ⟨hfits, h'⟩ := hthrew
        exact ⟨_, .failLogin hstart hfits, by rw [h', hrenamed]; rfl⟩
    · rw [newPacket_encryption, Exec.wp_bind]
      refine wp_modify_at hd₁ fun _ => ?_
      have hsent := hnamed.symm.trans (unmoved_modify (i := i) (f := fun c => { c with verifyToken := w.verifyToken })
        fun _ _ => rfl).symm
      replace hsent := hsent.symm
      refine Exec.wp_mono (wp_sendPacket_fits (hsent ▸ h.uncompressed) (encryption_fits rfl)) (fun _ g' h' => ?_)
        fun _ _ h' => h'.elim
      exact ⟨[], .nothing (hother fun hc => hremote hc.2), h'.trans hsent⟩
  · exact ⟨[], .throws hstate (hother fun hc => hreset hc.1), hnamed⟩

theorem unmoved_receivedEncryption (f : EncryptionPacket) : Exec.Keeps Unmoved (receivedEncryption E w i f) := by
  have unmoved {f : Client → Client} (hf : ∀ c, (f c).holder = c.holder) : Exec.Keeps Unmoved (modifyClient i f) :=
    fun _ => wp_modifyClient.mpr fun _ _ => unmoved_modify fun c _ => hf c
  have hclient : Exec.Keeps Unmoved (client i) := Inert.unmoved inert_client
  refine .bind hclient fun c => .ite (fun _ => .pure _) fun _ => ?_
  split
  · refine .bind (.ite (fun _ => .undefined) fun _ => .pure _) fun _ => .ite (fun _ => .pure _) fun _ => ?_
    refine .bind (unmoved fun c => holder_logged (by simp)) fun _ => .bind ?_ fun _ =>
      .ite (fun _ => .pure _) fun _ => ?_
    · rw [initCiphers]
      split
      · exact unmoved fun _ => rfl
      · exact .undefined
    · refine .bind (fun g => wp_hashString fun _ => rfl) fun text => ?_
      exact .bind hclient fun c => .ite (fun _ => .throw _) fun _ => unmoved fun _ => rfl
  · exact .pure _

/-- **One packet** does to the custody what it asks for. -/
theorem wp_receivedMessage_custody (h : g.custody.Sound) (hd : g.objects[i]? = some d) (halive : d.alive = true) :
    Exec.wp (receivedMessage E w i p) (fun _ => Handled E i d.holder p g.custody false)
      (fun _ => Handled E i d.holder p g.custody true) g := by
  rw [receivedMessage, Exec.wp_bind, record]
  refine wp_modify_at hd fun hd₁ => ?_
  have hrecorded : Unmoved g (g.modify i fun c => c.logged (.receivedMessage p)) :=
    unmoved_modify fun _ _ => holder_logged (by simp)
  have hholder : (d.logged (.receivedMessage p)).holder = d.holder := holder_logged (by simp)
  have hsound := h
  rw [← hrecorded] at hsound ⊢
  rw [← hholder]
  have halive₁ : (d.logged (.receivedMessage p)).alive = true := halive
  revert hd₁ hsound halive₁
  generalize d.logged (.receivedMessage p) = d₁
  generalize (g.modify i fun c => c.logged (.receivedMessage p)) = g₁
  intro hd₁ hsound halive₁
  have nothing {g' : Gateway} (hp : ∀ f, p.fields ≠ .loginStart f) (h' : Unmoved g₁ g') :
      Handled E i d₁.holder p g₁.custody false g' := ⟨[], .nothing fun _ hstart => hp _ hstart.1, h'⟩
  cases hp : p.fields with
  | ping f =>
    rw [Exec.wp_bind]
    refine Exec.wp_mono (wp_sendPacket_fits hsound.uncompressed (pong_fits hp)) (fun _ g₂ h₂ => ?_) fun _ _ h' =>
      h'.elim
    rw [Exec.wp_bind, wp_client]
    intro c hl
    have hc : g₁.custody.holders[i]? = some c.holder := h₂ ▸ custody_of_live hl
    have hcholder : c.holder = d₁.holder := Option.some.inj (hc.symm.trans (by simp [Gateway.custody, hd₁]))
    have hopen : c.socket.state ≠ .closed :=
      hsound.sockets.open_of_alive i _ hc ((congrArg Holder.alive hcholder).trans halive₁)
    rw [Exec.wp_ite]
    refine ⟨fun _ => ?_, fun _ => nothing (by simp [hp]) h₂⟩
    -- the client is alive, so its socket can be cancelled
    rw [socketCancel, Exec.wp_bind]
    refine wp_client_at hl.1 fun _ => ?_
    rw [if_neg hopen]
    exact nothing (by simp [hp]) h₂
  | keepAlive f => exact nothing (by simp [hp]) rfl
  | handshake f =>
    rw [Exec.wp_bind]
    refine wp_client_at hd₁ fun _ => ?_
    rw [onPacketReceived_then, Exec.wp_ite]
    refine ⟨fun hstate => ?_, fun hstate => nothing (by simp [hp]) rfl⟩
    exact wp_modify_at hd₁ fun _ => ⟨_, .handshake hp hstate, custody_modify fun _ _ => rfl⟩
  | serverStatus f =>
    rw [Exec.wp_bind]
    refine wp_client_at hd₁ fun _ => ?_
    rw [onPacketReceived_then, Exec.wp_ite]
    refine ⟨fun hstate => ?_, fun hstate => nothing (by simp [hp]) rfl⟩
    refine Exec.wp_mono (wp_sendPacket_fits hsound.uncompressed (serverStatus_fits f)) (fun _ g₂ h₂ => ?_) fun _ _ h' =>
      h'.elim
    exact nothing (by simp [hp]) h₂
  | loginStart f =>
    rw [Exec.wp_bind]
    refine wp_client_at hd₁ fun _ => ?_
    rw [onPacketReceived_then, Exec.wp_ite]
    refine ⟨fun hstate => wp_receivedLoginStart_custody hp hstate hsound hd₁, fun hstate => ?_⟩
    exact ⟨[], .nothing fun _ hstart => hstate hstart.2.1, rfl⟩
  | encryption f =>
    rw [Exec.wp_bind]
    refine wp_client_at hd₁ fun _ => ?_
    rw [onPacketReceived_then, Exec.wp_ite]
    refine ⟨fun hstate => ?_, fun hstate => nothing (by simp [hp]) rfl⟩
    refine Exec.wp_mono (unmoved_receivedEncryption f g₁) (fun _ g₂ h₂ => nothing (by simp [hp]) h₂) fun _ g₂ h₂ => ?_
    have hother : ∀ playerName, ¬ StartsLoopback d₁.holder p playerName := fun _ hstart => by
      simp [StartsLoopback, hp] at hstart
    exact ⟨[], .throws hstate.1 hother, h₂⟩
  | _ =>
    rw [Exec.wp_bind]
    refine wp_client_at hd₁ fun _ => ?_
    rw [onPacketReceived_then]
    exact nothing (by simp [hp]) rfl

end Packets

end CeriosCluster.ClientGateway
