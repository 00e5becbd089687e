import CeriosCluster.ClientGateway.Automaton

/-!
# The handlers follow the automaton

Every handler does to every client one step of the login automaton: to the client it is for, the step
its event asks for, and to all others a quiet one. The proofs follow the handlers statement by
statement; whatever is quiet is passed over by its frame.
-/

namespace CeriosCluster.ClientGateway

open CeriosCluster.Lib CeriosCluster.MCPacket

section Send

variable {E : Env} {w : World} {i : ConnId} {g g₁ : Gateway} {d : Client}

theorem wp_packetData {threshold : Word} {p : Packet} {Q : Bytes → Gateway → Prop} {F : Exn → Gateway → Prop}
    (hQ : ∀ data, Q data g)
    (hF : ∀ e q, Packet.toWire E.zlib E.fuel getSide threshold p = .threw e q → F e g) :
    Exec.wp (packetData E threshold p) Q F g := by
  rw [packetData, Exec.wp_onLocal, Exec.wp_bind]
  unfold Exec.wp
  cases h : Packet.toWire E.zlib E.fuel getSide threshold p with
  | ok u q => exact hQ _
  | threw e q => exact hF e q h
  | undefined => trivial
  | diverged => trivial

theorem wp_sendData_returns (data : Bytes) : Exec.wp (sendData E i data) (fun _ _ => True) (fun _ _ => False) g := by
  have hwrite : ∀ vector bytes g, Exec.wp (asyncWrite i vector bytes) (fun _ _ => True) (fun _ _ => False) g := by
    intro vector bytes g
    rw [asyncWrite, Exec.wp_bind, record, wp_modifyClient]
    intro _ _
    rw [wp_modifyClient]
    intro _ _
    trivial
  have hencrypt : ∀ g, Exec.wp (encrypt E i data) (fun _ _ => True) (fun _ _ => False) g := by
    intro g
    rw [encrypt, Exec.wp_bind, wp_client]
    intro c _
    cases c.encryptCipherContext with
    | none => trivial
    | some context =>
      dsimp only
      split
      · trivial
      · split
        · trivial
        · rw [Exec.wp_bind, wp_modifyClient]
          intro _ _
          trivial
  rw [sendData, Exec.wp_bind, wp_client]
  intro c _
  rw [Exec.wp_bind, record, wp_modifyClient]
  intro _ _
  split
  · trivial
  · split
    · rw [Exec.wp_bind]
      refine Exec.wp_mono (hencrypt _) (fun r g₂ _ => ?_) (fun _ _ h => h)
      cases r <;> exact hwrite _ _ g₂
    · exact hwrite _ _ _

/-- Sending the `LoginSuccessPacket`: if it throws, the packet cannot be framed. -/
theorem wp_sendLoginSuccess (h : Turned g i (· = d.logged .onPlayerLogin) g₁) :
    Exec.wp (sendPacket E i (loginSuccessPacket d)) (fun _ => Turned g i (Quiet d.login))
      (fun _ g₂ => Unframable E d ∧ Turned g i (Quiet d.login) g₂) g₁ := by
  rw [sendPacket, Exec.wp_bind]
  refine h.wp_client_eq ?_
  rw [Exec.wp_bind]
  refine h.wp_modify_eq fun g₂ (h₂ : Turned g i (· = d.login) g₂) => ?_
  have hquiet : Turned g i (Quiet d.login) g₂ := h₂.mono fun c hc => by subst hc; exact Quiet.refl _
  rw [Exec.wp_bind]
  refine wp_packetData (fun data => ?_) fun e q hthrew => ⟨⟨e, q, hthrew⟩, hquiet⟩
  refine Exec.wp_mono (Exec.wp_and (Inert.quiet (inert_sendData data) g₂) (wp_sendData_returns data)) ?_ ?_
  · exact fun _ g₃ hg₃ => hquiet.quiet hg₃.1 fun _ _ => Quiet.trans
  · exact fun _ _ hg₃ => hg₃.2.elim

theorem newPacket_loginSuccess (a : Ambient) :
    newPacket .clientBound .LOGIN 0x02 a = some ⟨0x02, [], false, .loginSuccess ⟨[], []⟩⟩ := rfl

theorem newPacket_encryption (a : Ambient) :
    newPacket .clientBound .LOGIN 0x01 a =
      some ⟨0x01, [], false, .encryption ⟨[], [], a.clearVerifyToken, [], [], []⟩⟩ := rfl

/-- `onPlayerLogin` on a client that is exactly `d`. -/
theorem wp_onPlayerLogin (h : Turned g i (· = d) g₁) :
    Exec.wp (onPlayerLogin E w i) (fun _ => Turned g i (Quiet d.login.play))
      (fun _ => Turned g i fun c => Quiet d.login.play c ∨ Unframable E d ∧ Quiet d.login c) g₁ := by
  rw [onPlayerLogin, Exec.wp_bind]
  refine h.wp_modify_eq fun g₂ h₂ => ?_
  rw [Exec.wp_bind]
  refine h₂.wp_client_eq ?_
  rw [newPacket_loginSuccess, Exec.wp_bind]
  refine Exec.wp_mono (wp_sendLoginSuccess (d := d) h₂) (fun _ g₃ h₃ => ?_) fun _ g₃ h₃ =>
    h₃.2.mono fun c hc => Or.inr ⟨h₃.1, hc⟩
  rw [Exec.wp_bind]
  refine h₃.wp_modify (R := Quiet d.login.play) (fun c hc => ?_) fun g₄ h₄ => ?_
  · exact { hc with state := rfl }
  · have hrest : Exec.Keeps AllQuiet (do
        modifyClient i fun c => { c with waitsPending := c.waitsPending + 1 }
        let c ← client i
        handoffClient E w c.owner i) :=
      .bind (keeps_modifyClient fun c => { Quiet.refl c with }) fun _ => .bind keeps_client fun _ =>
        keeps_handoffClient _
    exact h₄.wp_keeps hrest (fun _ _ => Quiet.trans) (fun _ _ h₅ => h₅) (fun _ _ h₅ => h₅.mono fun _ => Or.inl)

end Send

/-! ## One packet -/

/-- The client accepts an `EncryptionPacket` that gives this secret: it is logging in, and what OpenSSL makes of the
token, over what lay in `clearVerifyToken`, is the token it was sent. -/
def Accepts (w : World) (c : Client) (f : EncryptionPacket) (sharedSecret : Bytes) : Prop :=
  c.state = .LOGIN ∧ c.requestedUsername ≠ [] ∧ (w.pkeyContext ∧ w.pkeyDecryptInit ∧ w.pkeyPadding) ∧
    (∃ token, w.pkeyDecrypt f.sealedVerifyToken = some token ∧
      token ++ f.clearVerifyToken.val.drop token.length = c.verifyToken.val) ∧
    w.pkeyDecrypt f.sealedSharedSecret = some sharedSecret

/-- The steps a packet can ask for. A handshake in `HANDSHAKE` asks for one and no other. -/
def FromPacket (w : World) (c : Client) (p : Packet) : Label → Prop
  | .quiet => ∀ f, p.fields = .handshake f → c.state ≠ .HANDSHAKE
  | .handshake n => ∃ f, p.fields = .handshake f ∧ f.requestedNextState = n
  | .loginStart name _ => p.fields = .loginStart ⟨name⟩
  | .loopbackLogin name _ => p.fields = .loginStart ⟨name⟩
  | .loopbackLoginFailed name _ => p.fields = .loginStart ⟨name⟩
  | .accepted token sharedSecret =>
    ∃ f, p.fields = .encryption f ∧ w.pkeyDecrypt f.sealedVerifyToken = some token ∧ Accepts w c f sharedSecret
  | .requested token sharedSecret _ =>
    ∃ f, p.fields = .encryption f ∧ w.pkeyDecrypt f.sealedVerifyToken = some token ∧ Accepts w c f sharedSecret
  | .staged _ _ => False
  | .authenticated _ _ _ => False
  | .authenticatedFailed _ _ _ => False

/-- The steps that `receivedMessage` takes only on its way to an exception. -/
def OnlyThrows (c : Client) : Label → Prop
  | .loginStart _ _ => c.socket.loopback = true
  | .loopbackLoginFailed _ _ => True
  | _ => False

section Packets

variable {E : Env} {w : World} {i : ConnId} {g g₁ : Gateway} {c d : Client} {p : Packet}

/-- The client has taken a step that `p` asks for. -/
def Takes (E : Env) (w : World) (p : Packet) (d c' : Client) : Prop := ∃ l, Did E d c' l ∧ FromPacket w d p l

/-- The same, and the step is not one on the way to an exception. -/
def TakesToTheEnd (E : Env) (w : World) (p : Packet) (d c' : Client) : Prop :=
  ∃ l, Did E d c' l ∧ FromPacket w d p l ∧ ¬ OnlyThrows d l

theorem TakesToTheEnd.takes {c' : Client} (h : TakesToTheEnd E w p d c') : Takes E w p d c' := by
  obtain ⟨l, hdid, hfrom, -⟩ := h
  exact ⟨l, hdid, hfrom⟩

theorem wp_receivedLoginStart {f : LoginStartPacket} (hp : p.fields = .loginStart f) (hstate : d.state = .LOGIN)
    (h : Turned g i (· = d) g₁) :
    Exec.wp (receivedLoginStart E w i f) (fun _ => Turned g i (TakesToTheEnd E w p d))
      (fun _ => Turned g i (Takes E w p d)) g₁ := by
  rw [receivedLoginStart, Exec.wp_bind]
  refine h.wp_modify_eq fun g₂ h₂ => ?_
  rw [Exec.wp_bind, remoteEndpoint, Exec.wp_bind]
  refine h₂.wp_client_eq ?_
  rw [Exec.wp_ite]
  refine ⟨fun _ => ?_, fun _ => ?_⟩
  · rw [Exec.wp_pure, Exec.wp_bind]
    refine h₂.wp_client_eq ?_
    rw [Exec.wp_ite]
    refine ⟨fun hloopback => ?_, fun hremote => ?_⟩
    · -- a loopback client is logged in at once
      rw [Exec.wp_bind]
      refine h₂.wp_modify_eq fun g₃ h₃ => ?_
      rw [Exec.wp_bind]
      refine h₃.wp_modify_eq fun g₄ h₄ => ?_
      refine Exec.wp_mono (wp_onPlayerLogin h₄) (fun _ g₅ h₅ => h₅.mono fun c hc => ?_) fun _ g₅ h₅ =>
        h₅.mono fun c hc => ?_
      · exact ⟨.loopbackLogin f.playerName _, ⟨hstate, hloopback, hc⟩, hp, fun hf => hf⟩
      · rcases hc with hc | ⟨-, hc⟩
        · exact ⟨.loopbackLogin f.playerName _, ⟨hstate, hloopback, hc⟩, hp⟩
        · exact ⟨.loopbackLoginFailed f.playerName _, ⟨hstate, hloopback, hc⟩, hp⟩
    · -- any other is asked for its secret and the token
      rw [newPacket_encryption, Exec.wp_bind]
      refine h₂.wp_modify_eq fun g₃ h₃ => ?_
      have hstarted : ∀ c, Quiet { d with requestedUsername := f.playerName, verifyToken := w.verifyToken } c →
          TakesToTheEnd E w p d c := fun c hc => ⟨.loginStart f.playerName w.verifyToken, ⟨hstate, hc⟩, hp, hremote⟩
      exact (h₃.mono fun _ => Quiet.of_eq).wp_keeps (Inert.quiet (inert_sendPacket (by simp [Fields.packetClass])))
        (fun _ _ => Quiet.trans) (fun _ _ h₄ => h₄.mono hstarted)
        (fun _ _ h₄ => h₄.mono fun c hc => (hstarted c hc).takes)
  · rw [Exec.wp_throw]
    exact h₂.mono fun c hc => ⟨.loginStart f.playerName d.verifyToken, ⟨hstate, Quiet.of_eq hc⟩, hp⟩

theorem wp_hashString {digest : Bytes} {Q : Bytes → Gateway → Prop} {F : Exn → Gateway → Prop}
    (hQ : ∀ text, Q text g) : Exec.wp (hashString digest) Q F g := by
  unfold hashString
  dsimp only
  split
  · trivial
  · exact hQ _

theorem wp_receivedEncryption {f : EncryptionPacket} (hp : p.fields = .encryption f) (hstate : d.state = .LOGIN)
    (hname : d.requestedUsername ≠ []) (h : Turned g i (· = d) g₁) :
    Exec.wp (receivedEncryption E w i f) (fun _ => Turned g i (TakesToTheEnd E w p d))
      (fun _ => Turned g i (Takes E w p d)) g₁ := by
  have hignored : Turned g i (TakesToTheEnd E w p d) g₁ := h.mono fun c hc =>
    ⟨.quiet, Quiet.of_eq hc, fun f' hf' => (by rw [hp] at hf'; cases hf'), fun hf => hf⟩
  rw [receivedEncryption, Exec.wp_bind]
  refine h.wp_client_eq ?_
  rw [Exec.wp_ite]
  refine ⟨fun _ => hignored, fun hpkey => ?_⟩
  split
  · next token secret htoken hsecret =>
    rw [Exec.wp_bind, copyVerifyToken, Exec.wp_ite]
    refine ⟨fun _ => trivial, fun _ => ?_⟩
    rw [Exec.wp_pure, Exec.wp_ite]
    refine ⟨fun _ => hignored, fun hmatch => ?_⟩
    have haccepts : Accepts w d f secret := by
      refine ⟨hstate, hname, ?_, ⟨token, htoken, (not_not.mp hmatch).symm⟩, hsecret⟩
      simpa [not_or, Bool.not_eq_true, and_assoc] using hpkey
    rw [Exec.wp_bind]
    refine h.wp_modify_eq fun g₂ h₂ => ?_
    rw [Exec.wp_bind, initCiphers]
    split
    · next hkey =>
      refine h₂.wp_modify_eq fun g₃ (h₃ : Turned g i (· = d.accept token ⟨secret.take 16, hkey⟩) g₃) => ?_
      have haccepted : Turned g i (TakesToTheEnd E w p d) g₃ := h₃.mono fun c hc =>
        ⟨.accepted token secret, ⟨hstate, hname, ⟨_, hkey⟩, rfl, Quiet.of_eq hc⟩, ⟨f, hp, htoken, haccepts⟩,
          fun hf => hf⟩
      rw [Exec.wp_ite]
      refine ⟨fun _ => haccepted, fun _ => ?_⟩
      rw [Exec.wp_bind]
      refine wp_hashString fun text => ?_
      rw [authWithMojang, Exec.wp_bind]
      refine h₃.wp_client_eq ?_
      rw [Exec.wp_ite]
      refine ⟨fun _ => haccepted.mono fun _ => TakesToTheEnd.takes, fun _ => ?_⟩
      refine h₃.wp_modify_eq fun g₄ h₄ => h₄.mono fun c hc => ?_
      exact ⟨.requested token secret _, ⟨hstate, hname, ⟨_, hkey⟩, rfl, Quiet.of_eq hc⟩, ⟨f, hp, htoken, haccepts⟩,
        fun hf => hf⟩
    · trivial
  · exact hignored

theorem FromPacket.of_quiet {l : Label} (hq : Quiet c d) (h : FromPacket w d p l) : FromPacket w c p l := by
  have haccepts : ∀ f secret, Accepts w d f secret → Accepts w c f secret := by
    intro f secret ha
    rw [Accepts, hq.state, hq.requestedUsername, hq.verifyToken] at ha
    exact ha
  cases l with
  | quiet => exact fun f hf => hq.state ▸ h f hf
  | accepted token secret =>
    obtain ⟨f, hf, htoken, ha⟩ := h
    exact ⟨f, hf, htoken, haccepts f secret ha⟩
  | requested token secret text =>
    obtain ⟨f, hf, htoken, ha⟩ := h
    exact ⟨f, hf, htoken, haccepts f secret ha⟩
  | _ => exact h

theorem OnlyThrows.of_quiet {l : Label} (hq : Quiet c d) (h : OnlyThrows c l) : OnlyThrows d l := by
  cases l with
  | loginStart name token => exact hq.loopback.trans h
  | loopbackLoginFailed name userid => trivial
  | _ => exact h.elim

/-- `receivedMessage` on a client that is `c` up to a quiet piece. -/
theorem wp_receivedMessage (h : Turned g i (Quiet c) g₁) :
    Exec.wp (receivedMessage E w i p)
      (fun _ => Turned g i fun c' => ∃ l, ConnStep E l c c' ∧ FromPacket w c p l ∧ ¬ OnlyThrows c l)
      (fun _ => Turned g i fun c' => ∃ l, ConnStep E l c c' ∧ FromPacket w c p l) g₁ := by
  rw [receivedMessage, Exec.wp_bind, record, wp_modifyClient]
  intro c₁ hl₁
  have hd : Quiet c (c₁.logged (.receivedMessage p)) := (h.live hl₁).trans (Quiet.append trivial)
  have h₂ : Turned g i (· = c₁.logged (.receivedMessage p)) (g₁.modify i fun c => c.logged (.receivedMessage p)) :=
    (h.exact hl₁).modify fun c hc => congrArg (Client.logged · _) hc
  revert h₂ hd
  generalize c₁.logged (.receivedMessage p) = d
  generalize (g₁.modify i fun c => c.logged (.receivedMessage p)) = g₂
  intro hd h₂
  refine Exec.wp_mono (Q := fun _ => Turned g i (TakesToTheEnd E w p d)) (E := fun _ => Turned g i (Takes E w p d)) ?_
    (fun _ g₃ h₃ => h₃.mono ?_) (fun _ g₃ h₃ => h₃.mono ?_)
  · have quiet {m : M Unit} (hm : Exec.Keeps AllQuiet m)
        (hp : ∀ f, p.fields = .handshake f → d.state ≠ .HANDSHAKE) :
        Exec.wp m (fun _ => Turned g i (TakesToTheEnd E w p d)) (fun _ => Turned g i (Takes E w p d)) g₂ := by
      refine (h₂.mono fun _ => Quiet.of_eq).wp_keeps hm (fun _ _ => Quiet.trans) (fun _ _ h₃ => h₃.mono fun c hc => ?_)
        fun _ _ h₃ => h₃.mono fun c hc => ?_
      · exact ⟨.quiet, hc, hp, fun hf => hf⟩
      · exact ⟨.quiet, hc, hp⟩
    -- the branches for the owners' packets read the client and are told that it does not forward them
    have ignored : Exec.Keeps AllQuiet (do
        let c ← client i
        if ← onPacketReceived c.owner i p then pure () else pure ()) :=
      .bind keeps_client fun _ => .bind (.pure _) fun _ => .ite (fun _ => .pure _) fun _ => .pure _
    cases hp : p.fields with
    | ping f =>
      refine quiet ?_ (by simp [hp])
      exact .bind (Inert.quiet (inert_sendPacket (by simp [hp, Fields.packetClass]))) fun _ =>
        .bind keeps_client fun _ =>
        .ite (fun _ => Inert.quiet inert_socketCancel) fun _ => .pure _
    | keepAlive f => exact quiet (.pure _) (by simp [hp])
    | handshake f =>
      rw [Exec.wp_bind]
      refine h₂.wp_client_eq ?_
      rw [onPacketReceived_then, Exec.wp_ite]
      refine ⟨fun hstate => ?_, fun hstate => quiet (.pure _) fun _ _ => hstate⟩
      refine h₂.wp_modify_eq fun g₃ h₃ => h₃.mono fun c hc => ?_
      exact ⟨.handshake f.requestedNextState, ⟨hstate, Quiet.of_eq hc⟩, ⟨f, hp, rfl⟩, fun hf => hf⟩
    | serverStatus f =>
      refine quiet ?_ (by simp [hp])
      exact .bind keeps_client fun _ => .bind (.pure _) fun _ => .ite (fun _ => .pure _) fun _ =>
        .ite (fun _ => Inert.quiet (inert_sendPacket (by simp [Fields.packetClass]))) fun _ => .pure _
    | loginStart f =>
      rw [Exec.wp_bind]
      refine h₂.wp_client_eq ?_
      rw [onPacketReceived_then, Exec.wp_ite]
      exact ⟨fun hstate => wp_receivedLoginStart hp hstate h₂, fun _ => quiet (.pure _) (by simp [hp])⟩
    | encryption f =>
      rw [Exec.wp_bind]
      refine h₂.wp_client_eq ?_
      rw [onPacketReceived_then, Exec.wp_ite]
      exact ⟨fun hlogin => wp_receivedEncryption hp hlogin.1 hlogin.2 h₂, fun _ => quiet (.pure _) (by simp [hp])⟩
    | loginSuccess f => exact quiet ignored (by simp [hp])
    | setCompression f => exact quiet ignored (by simp [hp])
    | joinGame f => exact quiet ignored (by simp [hp])
    | chatMessage f => exact quiet ignored (by simp [hp])
    | spawnPosition f => exact quiet ignored (by simp [hp])
    | playerPositionAndLook f => exact quiet ignored (by simp [hp])
    | playerAbilities f => exact quiet ignored (by simp [hp])
  · rintro c' ⟨l, hdid, hfrom, hthrows⟩
    exact ⟨l, ⟨d, hd, hdid⟩, hfrom.of_quiet hd, fun ho => hthrows (ho.of_quiet hd)⟩
  · rintro c' ⟨l, hdid, hfrom⟩
    exact ⟨l, ⟨d, hd, hdid⟩, hfrom.of_quiet hd⟩

end Packets

end CeriosCluster.ClientGateway
