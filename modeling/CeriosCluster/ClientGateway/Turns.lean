import CeriosCluster.ClientGateway.Speaking
import CeriosCluster.ClientGateway.CustodyPackets

/-!
# The handlers as turns

Each handler on one connection, statement by statement: what it leaves the client in, and that what has been logged on
the way is turns of the line. Logging in, and the end of a connection that `ClientServer` owns, reach for other
connections and are left out here.
-/

namespace CeriosCluster.ClientGateway

open CeriosCluster.Lib CeriosCluster.MCPacket

abbrev Followed (E : Env) (i : ConnId) (m : M Unit) (c : Client) : Prop :=
  (connection i).Acts m (fun _ c' => c.Follows E c') (fun _ c' => c.Follows E c') c

section Handlers

variable {E : Env} {w : World} {i : ConnId} {c d : Client} {p : Packet} {m : M Unit}

theorem Followed.after (hm : Followed E i m d) (h : c.Follows E d) :
    (connection i).Acts m (fun _ c' => c.Follows E c') (fun _ c' => c.Follows E c') d :=
  hm.mono (fun _ _ h' => h.trans h') fun _ _ h' => h.trans h'

/-! ## The socket -/

section Socket

variable {Q : Unit → Client → Prop} {F : Exn → Client → Prop}

theorem acts_socketCancel (h : c.socket.state ≠ .closed → Q () c) (h' : c.socket.state = .closed → F .systemError c) :
    (connection i).Acts (socketCancel i) Q F c :=
  acts_client_bind fun _ => acts_ite (fun hclosed => .throw (h' hclosed)) fun hopen => .pure (h hopen)

theorem acts_remoteEndpoint (h : c.socket.state = .connected → Q () c)
    (h' : c.socket.state ≠ .connected → F .systemError c) :
    (connection i).Acts (remoteEndpoint i) Q F c :=
  acts_client_bind fun _ => acts_ite (fun hconnected => .pure (h hconnected)) fun hreset => .throw (h' hreset)

/-- `cancel`, `shutdown` and `close` shut the socket, as far as it was not shut before. -/
theorem acts_shut (h : Q () { c with socket := c.socket.shut }) :
    (connection i).Acts (Exec.tryCatch (do
      socketCancel i
      socketShutdown i
      socketClose i) fun _ => pure ()) Q F c := by
  have hsame : c.socket.state ≠ .connected → { c with socket := c.socket.shut } = c := fun hstate => by
    rw [Socket.shut, if_neg hstate]
  have hcaught : c.socket.state ≠ .connected → (connection i).Acts (pure () : M Unit) Q F c := fun hstate =>
    .pure (by rwa [hsame hstate] at h)
  refine .tryCatch (.bind (acts_socketCancel (fun _ => .bind ?_) fun hclosed => hcaught (by simp [hclosed])))
  refine acts_client_bind fun _ => acts_ite (fun hconnected => .pure ?_) fun hreset => .throw (hcaught hreset)
  refine acts_modify fun _ => ?_
  rwa [Socket.shut, if_pos hconnected] at h

theorem acts_disconnect (howner : c.alive = true → c.owner = .login)
    (h : ∀ c', c'.freed = c.freed → c'.owner = c.owner → c'.alive = false → Q () c')
    (h' : ∀ c', c'.freed = c.freed → c'.owner = c.owner → c'.alive = false → F .systemError c') :
    (connection i).Acts (disconnect w i) Q F c := by
  refine acts_client_bind fun _ => acts_ite (fun hdead => .pure (h c rfl rfl (by simpa using hdead))) fun halive => ?_
  have hlogin : c.owner = .login := howner (by simpa using halive)
  refine acts_modify_bind fun _ => .bind (acts_shut (acts_client_bind fun _ => ?_))
  rw [show ({ c with alive := false, socket := c.socket.shut } : Client).owner = .login from hlogin]
  refine .bind (acts_remoteEndpoint (fun hconnected => ?_) fun _ => h' _ rfl hlogin.symm rfl)
  exact absurd hconnected (Socket.shut_ne_connected _)

end Socket

theorem followed_disconnect (howner : c.alive = true → c.owner = .login) : Followed E i (disconnect w i) c :=
  acts_disconnect howner (fun _ => .of_dead) fun _ => .of_dead

/-! ## Receiving -/

theorem acts_decrypt {ciphertext : Bytes} {Q : Option Bytes → Client → Prop} {F : Exn → Client → Prop}
    (h : ∀ context, Q (cleartextOf E c ciphertext) { c with decryptCipherContext := context }) :
    (connection i).Acts (decrypt E i ciphertext) Q F c := by
  refine acts_client_bind fun _ => ?_
  unfold cleartextOf at h
  cases hcontext : c.decryptCipherContext with
  | none => exact .undefined
  | some context =>
    rw [hcontext, Option.bind_some] at h
    refine acts_ite (fun _ => .undefined) fun _ => ?_
    split
    · next hfailed =>
      have hsame := h c.decryptCipherContext
      rw [hfailed] at hsame
      exact .pure hsame
    · next cleartext hcleartext =>
      rw [hcleartext] at h
      exact acts_modify_bind fun _ => .pure (h _)

theorem acts_shrinkBuffer {size : Nat} {Q : Unit → Client → Prop} {F : Exn → Client → Prop}
    (h : ∀ buffer, shrunkBuffer c.buffer size = some buffer → Q () { c with buffer := buffer })
    (h' : shrunkBuffer c.buffer size = none → F .lengthError c) : (connection i).Acts (shrinkBuffer i size) Q F c :=
  acts_ite (fun hlarge => .throw (h' (if_pos hlarge))) fun hsmall => acts_modify fun _ => h _ (if_neg hsmall)

/-- The client has taken in what arrived: its receive buffer is the one it should be, and the rest of it is as it
was. -/
def Client.TakesIn (E : Env) (c : Client) (data : Bytes) (c' : Client) : Prop :=
  c.Follows E c' ∧ ∃ buffer encryptedBuffer context log, receivedBuffer E c data = some buffer ∧
    c' = { c with buffer := buffer, encryptedBuffer := encryptedBuffer, decryptCipherContext := context, log := log }

theorem acts_appendReceived (data : Bytes) :
    (connection i).Acts (appendReceived E i data) (fun _ c' => c.TakesIn E data c')
      (fun _ c' => c.Follows E c' ∧ receivedBuffer E c data = none) c := by
  refine acts_client_bind fun _ => acts_ite (fun hencrypted => ?_) fun hclear => ?_
  · refine acts_modify_bind fun _ => acts_client_bind fun _ => .bind (acts_decrypt fun context => ?_)
    have hcleartext : cleartextOf E { c with encryptedBuffer := c.encryptedBuffer ++ data }
        ((c.encryptedBuffer ++ data).take (((c.encryptedBuffer ++ data).length >>> 4) <<< 4)) =
          cleartextOf E c (ciphertextOf c data) := rfl
    unfold Client.TakesIn receivedBuffer
    rw [if_pos hencrypted]
    dsimp only
    rw [hcleartext]
    cases cleartextOf E c (ciphertextOf c data) with
    | some cleartext =>
      refine acts_modify_bind fun _ => acts_modify fun _ => ⟨?_, _, _, _, _, rfl, rfl⟩
      exact .turn rfl rfl id rfl fun _ => .hears c.line cleartext
    | none =>
      have hroom := shrunkBuffer_room c.buffer (roomFor c data)
      refine acts_modify_bind fun _ =>
        acts_shrinkBuffer (fun buffer hbuffer => ⟨.silent rfl rfl id rfl rfl, buffer, _, _, _, ?_, rfl⟩)
        fun hnone => ⟨.silent rfl rfl id rfl rfl, ?_⟩
      · exact hroom.symm.trans hbuffer
      · exact hroom.symm.trans hnone
  · unfold Client.TakesIn receivedBuffer
    rw [if_neg hclear]
    refine acts_modify_bind fun _ => acts_modify fun _ => ⟨?_, _, _, _, _, rfl, rfl⟩
    exact .turn rfl rfl id rfl fun _ => .hears c.line data

theorem acts_onBuffer {α : Type} {m : BufferM α} {Q : α → Client → Prop} {F : Exn → Client → Prop}
    (hends : m c.buffer ≠ .diverged) (h : ∀ a b, m c.buffer = .ok a b → Q a { c with buffer := b })
    (h' : ∀ e b, m c.buffer = .threw e b → F e { c with buffer := b }) : (connection i).Acts (onBuffer i m) Q F c := by
  refine acts_client_bind fun hfreed => ?_
  cases hm : m c.buffer with
  | ok a b =>
    refine .of_ok_write (u := { c with buffer := b }) (fun g hc => ?_) (h a b hm)
    rw [← modify_eq_write (f := fun c => { c with buffer := b }) hc]
    simp only [Exec.zoom, hm]
    rfl
  | threw e b =>
    refine .of_threw_write (u := { c with buffer := b }) (fun g hc => ?_) (h' e b hm)
    rw [← modify_eq_write (f := fun c => { c with buffer := b }) hc]
    simp only [Exec.zoom, hm]
    rfl
  | undefined => exact .of_undefined fun g _ => by simp only [Exec.zoom, hm]
  | diverged => exact absurd hm hends

/-! ## One packet -/

/-- A client that is not a loopback is asked for its secret; one whose socket is reset is not. -/
theorem followed_receivedLoginStart {f : LoginStartPacket} (hthreshold : c.compressionThreshold = noCompression)
    (hstate : c.state = .LOGIN) (hremote : c.socket.state = .connected → c.socket.loopback = false) :
    Followed E i (receivedLoginStart E w i f) c := by
  have hnamed : c.Follows E { c with requestedUsername := f.playerName } := .silent rfl rfl id rfl rfl
  refine acts_modify_bind fun _ => .bind (acts_remoteEndpoint (fun hconnected => acts_client_bind fun _ => ?_) fun _ =>
    hnamed)
  refine acts_ite (fun hloopback => ?_) fun _ => ?_
  · exact absurd hloopback (by simp [hremote hconnected])
  · rw [newPacket_encryption]
    let asked : Client := { c with requestedUsername := f.playerName, verifyToken := w.verifyToken }
    have hasked : c.Follows E asked := .silent rfl rfl id rfl rfl
    refine acts_modify_bind fun _ => ?_
    refine (acts_sendPacket_fits (c := asked) hthreshold ?_).mono (fun _ c' hspeaks => ?_) fun _ _ h => h
    · exact encryption_fits rfl
    · exact hasked.trans (.of_speaking hspeaks fun as l' hsends => .asks hstate rfl hsends)

theorem acts_hashString {digest : Bytes} {Q : Bytes → Client → Prop} {F : Exn → Client → Prop} (h : ∀ text, Q text c) :
    (connection i).Acts (hashString digest) Q F c := by
  unfold hashString
  dsimp only
  split
  · exact .undefined
  · exact .pure (h _)

/-- An accepted secret is agreed on, whatever becomes of the request that follows. -/
theorem followed_receivedEncryption {f : EncryptionPacket} (hstate : c.state = .LOGIN) :
    Followed E i (receivedEncryption E w i f) c := by
  have hignored : c.Follows E c := .refl c
  refine acts_client_bind fun _ => acts_ite (fun _ => .pure hignored) fun _ => ?_
  split
  · next token secret _ _ =>
    refine .bind (acts_ite (fun _ => .undefined) fun _ => .pure (acts_ite (fun _ => .pure hignored) fun hmatch => ?_))
    refine acts_modify_bind fun _ => .bind ?_
    unfold initCiphers
    split
    · next hkey =>
      refine acts_modify fun _ => ?_
      have hagreed : c.Follows E (c.accept token ⟨secret.take 16, hkey⟩) :=
        .turn rfl rfl id rfl fun _ => .agrees _ hstate ⟨_, (not_not.mp hmatch).symm⟩
      refine acts_ite (fun _ => .pure hagreed) fun _ => .bind (acts_hashString fun text => ?_)
      refine acts_client_bind fun _ => acts_ite (fun _ => .throw hagreed) fun _ => acts_modify fun _ => ?_
      exact hagreed.trans (.silent rfl rfl id rfl rfl)
    · exact .undefined
  · exact .pure hignored

/-- **One packet** of a client that it does not log in. Only for a client in `LOGIN` does it throw. -/
theorem acts_receivedMessage (hthreshold : c.compressionThreshold = noCompression) (hopen : c.socket.state ≠ .closed)
    (hping : p.fields.packetClass = .ping → c.state = .STATUS)
    (hlogin : ∀ playerName, ¬ StartsLoopback c.holder p playerName) :
    (connection i).Acts (receivedMessage E w i p) (fun _ c' => c.Follows E c')
      (fun _ c' => c.Follows E c' ∧ c.state = .LOGIN) c := by
  have hnoted (hother : ∀ f, p.fields = .handshake f → c.state ≠ .HANDSHAKE) :
    c.Follows E (c.logged (.receivedMessage p)) :=
    .turn rfl rfl id rfl fun _ => .ignores hother
  have hanswered {p' : Packet} {c' : Client} (hp : ∀ f, p.fields ≠ .handshake f) (hstate : c.state = .STATUS)
      (hp' : p'.fields.packetClass = .serverStatus ∨ p'.fields.packetClass = .ping)
      (hspeaks : (c.logged (.receivedMessage p)).Says (Line.Sends E p') c') : c.Follows E c' :=
    (hnoted fun f hf => absurd hf (hp f)).trans (.of_speaking hspeaks fun as l' hsends => .answers hstate hp' hsends)
  refine acts_modify_bind fun _ => ?_
  cases hp : p.fields with
  | ping f =>
    have hstate : c.state = .STATUS := hping (by rw [hp]; rfl)
    refine .bind_of (acts_sendPacket_fits (c := c.logged _) hthreshold (pong_fits hp)) fun _ c' hspeaks => ?_
    have hfollows : c.Follows E c' := hanswered (by simp [hp]) hstate (by simp [hp, Fields.packetClass]) hspeaks
    obtain ⟨as, context, writes, rfl, -⟩ := hspeaks
    refine acts_client_bind fun _ => acts_ite (fun _ => acts_socketCancel (fun _ => hfollows) fun hclosed =>
      ?_) fun _ => .pure hfollows
    exact absurd hclosed hopen
  | keepAlive f => exact .pure (hnoted (by simp [hp]))
  | handshake f =>
    refine acts_client_bind fun _ => ?_
    rw [onPacketReceived_then]
    refine acts_ite (fun hstate => acts_modify fun _ => ?_) fun hstate => .pure (hnoted fun _ _ => hstate)
    exact .turn rfl rfl id rfl fun _ => .handshake hp hstate
  | serverStatus f =>
    refine acts_client_bind fun _ => ?_
    rw [onPacketReceived_then]
    refine acts_ite (fun hstate => ?_) fun _ => .pure (hnoted (by simp [hp]))
    refine (acts_sendPacket_fits (c := c.logged _) hthreshold (serverStatus_fits f)).mono (fun _ c' hspeaks =>
      ?_) fun _ _ h => h
    exact hanswered (by simp [hp]) hstate (Or.inl rfl) hspeaks
  | loginStart f =>
    refine acts_client_bind fun _ => ?_
    rw [onPacketReceived_then]
    refine acts_ite (fun hstate => ?_) fun _ => .pure (hnoted (by simp [hp]))
    have hremote : c.socket.state = .connected → c.socket.loopback = false := fun hconnected =>
      eq_false_of_ne_true fun hloopback => hlogin f.playerName ⟨hp, hstate, hconnected, hloopback⟩
    have hstart := followed_receivedLoginStart (E := E) (w := w) (i := i) (f := f)
      (c := c.logged (.receivedMessage p)) hthreshold
      hstate hremote
    exact (hstart.after (hnoted (by simp [hp]))).mono (fun _ _ h => h) fun _ _ h => ⟨h, hstate⟩
  | encryption f =>
    refine acts_client_bind fun _ => ?_
    rw [onPacketReceived_then]
    refine acts_ite (fun hstate => ?_) fun _ => .pure (hnoted (by simp [hp]))
    have hsecret := followed_receivedEncryption (E := E) (w := w) (i := i) (f := f)
      (c := c.logged (.receivedMessage p)) hstate.1
    exact (hsecret.after (hnoted (by simp [hp]))).mono (fun _ _ h => h) fun _ _ h => ⟨h, hstate.1⟩
  | _ => exact acts_client_bind fun _ => .pure (hnoted (by simp [hp]))

/-! ## A completed read -/

/-- The client can deal with what has arrived without its owner: none of it logs the client in, and `Login` owns it if
it comes to be disconnected. -/
structure Client.ReadsAlone (E : Env) (w : World) (error : Bool) (data : Bytes) (c : Client) : Prop where
  login : error = false → ∀ p playerName, nextPacket E w c data = some p → ¬ StartsLoopback c.holder p playerName
  owner : error = true ∨ c.state = .LOGIN → c.owner = .login

theorem followed_startAsyncRead : Followed E i (startAsyncRead i) c := acts_modify fun _ => .silent rfl rfl id rfl rfl

/-- **A completed read** that a client deals with alone. -/
theorem followed_onLengthReceive {error : Bool} {data : Bytes} (hthreshold : c.compressionThreshold = noCompression)
    (hopen : c.alive = true → c.socket.state ≠ .closed) (halone : c.alive = true → c.ReadsAlone E w error data) :
    Followed E i (onLengthReceive E w i error data) c := by
  refine acts_client_bind fun _ => acts_ite (fun _ => .pure (.refl c)) fun halive => ?_
  have halive : c.alive = true := by simpa using halive
  have halone := halone halive
  refine acts_ite (fun herror => followed_disconnect fun _ => halone.owner (Or.inl herror)) fun herror => ?_
  refine .bind ((acts_appendReceived data).mono (fun _ c₁ htaken => ?_) fun _ _ hthrew => hthrew.1)
  obtain ⟨hfollows, buffer, encryptedBuffer, context, log, hbuffer, rfl⟩ := htaken
  have hclear : decide (0 ≤ c.compressionThreshold.toInt) = false := by
    rw [hthreshold]
    decide
  have hends : parseReceived E w c.state (0 ≤ c.compressionThreshold.toInt) buffer ≠ .diverged := by
    rw [hclear]
    exact parseReceived_halts E w c.state buffer
  refine acts_client_bind fun _ => .bind (acts_onBuffer hends (fun r b hparsed => ?_) fun e b _ => ?_)
  · have hfollows₂ : c.Follows E { c with buffer := b, encryptedBuffer, decryptCipherContext := context, log } :=
      hfollows.trans (.silent rfl rfl id rfl rfl)
    have hnext : nextPacket E w c data = r := by
      rw [nextPacket_of_received hbuffer]
      simp only [show parseReceived E w c.state (0 ≤ c.compressionThreshold.toInt) buffer = .ok r b from hparsed]
    cases r with
    | none => exact followed_startAsyncRead.after hfollows₂
    | some p =>
      obtain ⟨id, hclass⟩ := registered_of_parse hparsed
      have hhandled := acts_receivedMessage (E := E) (w := w) (i := i) (p := p)
        (c := { c with buffer := b, encryptedBuffer, decryptCipherContext := context, log }) hthreshold (hopen halive)
        (fun hping => state_of_ping (hping ▸ hclass)) fun playerName =>
          halone.login (by simpa using herror) p playerName hnext
      refine .bind (.tryCatch (.bind (hhandled.mono (fun _ c₃ h₃ => ?_) fun _ c₃ h₃ => ?_)))
      · refine .pure ?_
        rw [if_pos rfl]
        exact followed_startAsyncRead.after (hfollows₂.trans h₃)
      · have hlogin : c₃.owner = .login := h₃.1.owner.trans (halone.owner (Or.inr h₃.2))
        refine .bind ((followed_disconnect (E := E) fun _ => hlogin).mono (fun _ c₄ h₄ => .pure ?_) fun _ c₄ h₄ => ?_)
        · rw [if_neg (by simp)]
          exact .pure ((hfollows₂.trans h₃.1).trans h₄)
        · exact (hfollows₂.trans h₃.1).trans h₄
  · exact hfollows.trans (.silent rfl rfl id rfl rfl)

/-! ## Writes and waits -/

theorem followed_onWriteComplete {error : Bool} (howner : c.alive = true → error = true → c.owner = .login) :
    Followed E i (onWriteComplete w i error) c :=
  acts_ite (fun herror => followed_disconnect fun halive => howner halive herror) fun _ => .pure (.refl c)

/-- **A keep-alive wait** that has ended, of a client that is not disconnected over it. -/
theorem followed_keepAlive {error expired : Bool} (hthreshold : c.compressionThreshold = noCompression)
    (hwaits : 0 < c.waitsPending) (howner : c.alive = true → error = true → c.owner = .login) :
    Followed E i (do
      modifyClient i fun c => { c with waitsPending := c.waitsPending - 1 }
      keepAlive E w i error expired) c := by
  let waited : Client := { c with waitsPending := c.waitsPending - 1 }
  have hwaited : c.Follows E waited := .turn rfl rfl id (List.append_nil _).symm fun _ => .expires hwaits
  have hcancelled : (connection i).Acts (socketCancel i) (fun _ c' => c.Follows E c')
    (fun _ c' => c.Follows E c') waited :=
    acts_socketCancel (fun _ => hwaited) fun _ => hwaited
  refine acts_modify_bind fun _ => acts_client_bind fun _ => acts_ite (fun _ => .pure hwaited) fun halive => ?_
  have halive : c.alive = true := by simpa using halive
  refine acts_ite (fun herror => ?_) fun _ => acts_ite (fun _ => hcancelled) fun _ => ?_
  · have hended : Followed E i (disconnect w i) waited := followed_disconnect fun _ => howner halive herror
    exact hended.after hwaited
  split
  · next hp =>
    have hstate : c.state = .PLAY := state_of_keepAlive (newPacket_packetClass hp)
    refine .bind_of (acts_sendPacket_fits (c := waited) hthreshold (fits_of_newPacket hp)) fun _ c₁ hspeaks =>
      acts_modify fun _ => ?_
    obtain ⟨as, context, writes, rfl, hsends⟩ := hspeaks
    have hline : Client.line { waited.said as context writes with waitsPending := waited.waitsPending + 1 } =
        { c.line with context := context } :=
      congrArg (fun n => { c.line with timers := n, context := context }) (Nat.sub_add_cancel hwaits)
    refine .turn rfl rfl id rfl fun _ => ?_
    refine Eq.subst (motive := Line.Turn E c.line as) hline.symm ?_
    exact .keepsAlive hstate hwaits rfl ((hsends halive).timers c.waitsPending)
  · exact hcancelled

/-! ## The session-server request -/

theorem followed_setStage {k : Nat} {stage : Stage} : Followed E i (setStage i k stage) c :=
  acts_modify fun _ => .silent rfl rfl id rfl rfl

theorem Client.Follows.staged {k : Nat} {stage : Stage} : c.Follows E (c.stage k stage) := .silent rfl rfl id rfl rfl

theorem followed_connectedToMojang {k : Nat} {isOpen : Bool} : Followed E i (connectedToMojang i k isOpen) c :=
  acts_modify_bind fun _ => acts_ite (fun _ => followed_setStage.after .staged) fun _ => .throw .staged

theorem followed_sslHandshakeComplete {k : Nat} {error : Bool} : Followed E i (sslHandshakeComplete i k error) c :=
  acts_modify_bind fun _ => acts_ite (fun _ => .pure .staged) fun _ => followed_setStage.after .staged

theorem followed_sendHTTPRequestDone {k : Nat} {error : Bool} : Followed E i (sendHTTPRequestDone i k error) c :=
  acts_modify_bind fun _ => acts_ite (fun _ => .pure .staged) fun _ => followed_setStage.after .staged

theorem followed_readHTTPHeader {k : Nat} {error : Bool} {data : Bytes} :
    Followed E i (readHTTPHeader i k error data) c := by
  refine acts_modify_bind fun _ => acts_client_bind fun _ => acts_ite (fun _ => .pure .staged) fun _ => ?_
  split
  · exact .throw .staged
  · refine .bind (acts_remoteEndpoint (fun _ => ?_) fun _ => .staged)
    exact acts_socketCancel (fun _ => .staged) fun _ => .staged
  · split
    · exact .pure .staged
    · exact followed_setStage.after .staged

/-- A reply that does not name a player ends the request and nothing more. -/
theorem followed_onHasJoinedPostComplete {k length : Nat} {sharedSecret data : Bytes} {error : ReadError}
    (hno : ¬ (error = .other ∨ error = .eof ∧ data.length < length) → replyOf E data length = none) :
    Followed E i (onHasJoinedPostComplete E w i k sharedSecret error data length) c := by
  refine acts_modify_bind fun _ => acts_ite (fun _ => .pure .staged) fun hcomplete =>
    acts_ite (fun _ => .undefined) fun _ => ?_
  have hnone := hno hcomplete
  unfold replyOf at hnone
  rw [hnone]
  exact .undefined

end Handlers

end CeriosCluster.ClientGateway
