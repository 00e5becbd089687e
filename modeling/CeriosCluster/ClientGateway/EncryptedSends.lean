import CeriosCluster.ClientGateway.SessionKey
import CeriosCluster.Lib.Trace

/-!
# What is sent after a login is encrypted

A connection that is not a loopback gets its `LoginSuccessPacket` only from `onHasJoinedPostComplete`,
which switches encryption on first, and only for a request that an accepted `EncryptionPacket` has started.
Nothing switches encryption off again. The bytes that are accepted for the verify token are the token only
if there are four of them: fewer are completed by what the packet's memory held behind them.
-/

namespace CeriosCluster.ClientGateway

open CeriosCluster.Lib CeriosCluster.MCPacket

/-- If it is a `sendData`, then one with `encrypted = true`. -/
def IsEncrypted : Action → Prop
  | .sendData _ encrypted => encrypted = true
  | _ => True

/-- A decrypted token has been found equal to `verifyToken`. -/
def TokenFound (log : List Action) : Prop := ∃ verifyToken : Block 4, .tokenMatched verifyToken.val verifyToken ∈ log

/-- Every `LoginSuccessPacket` is sent after the decrypted token was found equal to the client's, and it and all
that follows it go through `sendData` with `encrypted = true`. The packet's own `sendData` follows it in the log. -/
def SendsSafely (c : Client) : Prop := c.socket.loopback = false → Marked IsLoginSuccess TokenFound IsEncrypted c.log

/-- The token of every `EncryptionPacket` that is accepted decrypts to four bytes. -/
def TokensWhole (E : Env) (g : Gateway) (e : World × Event) : Prop :=
  ∀ i data c p f token sharedSecret, e.2 = .onLengthReceive i false data → g.objects[i]? = some c → c.alive = true →
    nextPacket E e.1 c data = some p → p.fields = .encryption f → Accepts e.1 c f sharedSecret →
    e.1.pkeyDecrypt f.sealedVerifyToken = some token → token.length = 4

/-- What keeps it: requests in flight and encryption come from a token that was found. -/
structure SendInv (c : Client) : Prop where
  remote : c.socket.loopback = false
  marked : Marked IsLoginSuccess TokenFound IsEncrypted c.log
  requests : c.requests ≠ [] → TokenFound c.log
  encrypted : (∃ a ∈ c.log, IsLoginSuccess a) → c.encrypted = true

section Steps

variable {E : Env} {w : World} {e : Event} {g : Gateway} {c c' : Client} {l : Label} {log added : List Action}

theorem TokenFound.append (h : TokenFound log) : TokenFound (log ++ added) := by
  obtain ⟨verifyToken, hmem⟩ := h
  exact ⟨verifyToken, List.mem_append_left _ hmem⟩

theorem QuietAction.isEncrypted {encrypted : Bool} {a : Action} (h : QuietAction encrypted a) (he : encrypted = true) :
    IsEncrypted a := by
  cases a with
  | sendData data flag => exact h.trans he
  | _ => trivial

theorem SendInv.quiet (h : SendInv c) (hq : Quiet c c') : SendInv c' := by
  obtain ⟨added, hlog, hquiet⟩ := hq.log
  have hadded : ∀ a ∈ added, ¬ IsLoginSuccess a := fun a ha => (hquiet a ha).not_isLoginSuccess
  refine ⟨hq.loopback.trans h.remote, ?_, ?_, ?_⟩
  · rw [hlog]
    exact h.marked.append hadded fun hm a ha => (hquiet a ha).isEncrypted (h.encrypted hm)
  · rw [hq.requests, hlog]
    exact fun hr => (h.requests hr).append
  · rw [hlog, hq.encrypted]
    rintro ⟨a, ha, hm⟩
    rcases List.mem_append.mp ha with ha | ha
    · exact h.encrypted ⟨a, ha, hm⟩
    · exact absurd hm (hadded a ha)

/-- An entry of another kind, logged by a step that keeps the requests and does not switch encryption off. -/
theorem SendInv.logged {a : Action} (h : SendInv c) (hlogin : ¬ IsLoginSuccess a) (hencrypted : IsEncrypted a) :
    SendInv (c.logged a) where
  remote := h.remote
  marked := h.marked.snoc (fun ha => absurd ha hlogin) fun _ => hencrypted
  requests := fun hr => (h.requests hr).append
  encrypted := by
    rintro ⟨b, hb, hm⟩
    rcases List.mem_append.mp hb with hb | hb
    · exact h.encrypted ⟨b, hb, hm⟩
    · rw [List.mem_singleton.mp hb] at hm
      exact absurd hm hlogin

theorem SendInv.login (h : SendInv c) (htoken : TokenFound c.log) (hencrypted : c.encrypted = true) :
    SendInv c.login where
  remote := h.remote
  marked := (h.logged (a := .onPlayerLogin) id trivial).marked.snoc (fun _ => htoken.append) fun _ => trivial
  requests := fun _ => htoken.append.append
  encrypted := fun _ => hencrypted

theorem SendInv.did (h : SendInv c) (hdid : Did E c c' l)
    (hwhole : ∀ token sharedSecret, l.Accepting token sharedSecret → token = c.verifyToken.val) : SendInv c' := by
  have haccept (token : Bytes) (key : Block 16) : SendInv (c.accept token key) :=
    { h.logged (a := .tokenMatched token c.verifyToken) id trivial with }
  have hrestage (k : Nat) (stage : Stage) : SendInv (c.stage k stage) :=
    { h with requests := fun hr => h.requests fun hnil => hr (by simp [Client.stage, hnil]) }
  have hjoin {k : Nat} {r : Request} (hr : c.requests[k]? = some r) (secret id name : Bytes) :
      SendInv ((c.stage k .finished).join secret id name).login := by
    have htoken : TokenFound c.log := h.requests fun hnil => by rw [hnil] at hr; cases hr
    have hjoined : SendInv ((c.stage k .finished).join secret id name) :=
      { (hrestage k .finished).logged (a := .hasJoined secret c.encryptCipherContext c.decryptCipherContext)
          (fun h => h) trivial with encrypted := fun _ => rfl }
    exact hjoined.login htoken.append rfl
  cases l with
  | quiet => exact h.quiet hdid
  | handshake n =>
    refine SendInv.quiet ?_ hdid.2
    exact { h with }
  | loginStart name token =>
    refine SendInv.quiet ?_ hdid.2
    exact { h with }
  | loopbackLogin name userid => exact absurd hdid.2.1 (by simp [h.remote])
  | loopbackLoginFailed name userid => exact absurd hdid.2.1 (by simp [h.remote])
  | accepted token sharedSecret =>
    obtain ⟨-, -, key, -, hq⟩ := hdid
    exact (haccept token key).quiet hq
  | requested token sharedSecret text =>
    obtain ⟨-, -, key, -, hq⟩ := hdid
    refine SendInv.quiet ?_ hq
    have hfound : TokenFound (c.accept token key).log := by
      obtain rfl := hwhole token sharedSecret (Or.inr ⟨text, rfl⟩)
      exact ⟨c.verifyToken, List.mem_append_right _ (List.mem_singleton_self _)⟩
    exact { haccept token key with requests := fun _ => hfound }
  | staged k stage => exact (hrestage k stage).quiet hdid.2
  | authenticated k id name =>
    obtain ⟨r, hr, -, hq⟩ := hdid
    refine SendInv.quiet ?_ hq
    exact { hjoin hr r.sharedSecret id name with }
  | authenticatedFailed k id name =>
    obtain ⟨r, hr, -, -, hq⟩ := hdid
    exact (hjoin hr r.sharedSecret id name).quiet hq

theorem Did.loopback (h : Did E c c' l) : c'.socket.loopback = c.socket.loopback := by
  cases l with
  | quiet => exact Quiet.loopback h
  | handshake n => exact h.2.loopback
  | loginStart name token => exact h.2.loopback
  | loopbackLogin name userid => exact h.2.2.loopback
  | loopbackLoginFailed name userid => exact h.2.2.loopback
  | accepted token sharedSecret =>
    obtain ⟨-, -, key, -, hq⟩ := h
    exact hq.loopback
  | requested token sharedSecret text =>
    obtain ⟨-, -, key, -, hq⟩ := h
    exact hq.loopback
  | staged k stage => exact h.2.loopback
  | authenticated k id name =>
    obtain ⟨r, -, -, hq⟩ := h
    exact hq.loopback
  | authenticatedFailed k id name =>
    obtain ⟨r, -, -, -, hq⟩ := h
    exact hq.loopback

/-- Four bytes that are accepted are the token. -/
theorem Accepts.token_eq {f : EncryptionPacket} {token sharedSecret : Bytes} (h : Accepts w c f sharedSecret)
    (htoken : w.pkeyDecrypt f.sealedVerifyToken = some token) (hlength : token.length = 4) :
      token = c.verifyToken.val := by
  obtain ⟨-, -, -, ⟨token', htoken', hmatch⟩, -⟩ := h
  obtain rfl := Option.some.inj (htoken.symm.trans htoken')
  rwa [hlength, List.drop_of_length_le (le_of_eq f.clearVerifyToken.property), List.append_nil] at hmatch

/-- An event that accepts whole tokens only keeps the invariant. -/
theorem SendInv.fromEvent {j : ConnId} (hc : c.socket.loopback = false → SendInv c) (hj : g.objects[j]? = some c)
    (hconn : ConnStep E l c c') (hfrom : FromEvent E w j c c' l e) (hwhole : TokensWhole E g (w, e))
    (hremote : c'.socket.loopback = false) : SendInv c' := by
  obtain ⟨c₀, hq, hdid⟩ := hconn
  refine SendInv.did (SendInv.quiet (hc ?_) hq) hdid fun token sharedSecret hl => ?_
  · rw [← hq.loopback, ← hdid.loopback, hremote]
  · obtain ⟨data, p, f, rfl, halive, hp, hf, htoken, haccepts⟩ := hfrom.ofAccepting hl
    rw [hq.verifyToken]
    exact haccepts.token_eq htoken (hwhole j data c p f token sharedSecret rfl hj halive hp hf haccepts htoken)

theorem sendInv_new (handle : Word) (loopback : Bool) (verifyToken : Block 4) (hremote : loopback = false) :
    SendInv (Client.new .login ⟨handle, loopback, .connected⟩ verifyToken) where
  remote := hremote
  marked := Marked.nil
  requests := fun h => absurd rfl h
  encrypted := by rintro ⟨_, hmem, -⟩; cases hmem

end Steps

/-- **Encrypted sends.** Along every run in which every accepted token decrypts to four bytes, a connection that is not
a loopback gets its `LoginSuccessPacket`s, and whatever is sent to it after one, encrypted and after its token was
found. -/
theorem sendsSafely_of_tokensWhole (E : Env) (run : List (World × Event))
    (h : AllSteps (step E) (TokensWhole E) Gateway.init run) :
    AllStates (step E) (AllClients SendsSafely) Gateway.init run := by
  have hinv : AllStates (step E) (AllClients fun c => c.socket.loopback = false → SendInv c) Gateway.init run :=
    allStates_of_inv (fun _ _ _ hI hwhole hstep => hI.of_step sendInv_new
      (fun _ _ _ _ hj hc hconn hfrom => SendInv.fromEvent hc hj hconn hfrom hwhole) hstep) allClients_init h
  exact hinv.mono fun g hI j c hc hremote => (hI j c hc hremote).marked

/-! ## Runs -/

/-- A read brings no `EncryptionPacket` but one whose token decrypts to four bytes. -/
def readsWhole (E : Env) (g : Gateway) (e : World × Event) : Bool :=
  match e.2 with
  | .onLengthReceive i _ data =>
    match (g.objects[i]?).bind fun c => nextPacket E e.1 c data with
    | some ⟨_, _, _, .encryption f⟩ => (e.1.pkeyDecrypt f.sealedVerifyToken).map List.length == some 4
    | _ => true
  | _ => true

theorem tokensWhole_of_readsWhole {E : Env} {g : Gateway} {e : World × Event} (h : readsWhole E g e = true) :
    TokensWhole E g e := by
  rintro i data c ⟨id, raw, compressed, fields⟩ f token sharedSecret he hc - hp hf - htoken
  obtain rfl : fields = .encryption f := hf
  have hnext : ((g.objects[i]?).bind fun c => nextPacket E e.1 c data) = some ⟨id, raw, compressed, .encryption f⟩ := by
    rw [hc]
    exact hp
  unfold readsWhole at h
  rw [he] at h
  dsimp only at h
  rw [hnext] at h
  simpa [htoken] using h

/-- A whole token is accepted, and the player is logged in. -/
theorem sendsSafely_oneSecret : AllStates (step .player) (AllClients SendsSafely) Gateway.init oneSecret := by
  have hwhole : AllSteps (step .player) (fun g e => readsWhole .player g e = true) Gateway.init oneSecret := by
    decide +kernel
  exact sendsSafely_of_tokensWhole .player oneSecret (hwhole.mono fun _ _ => tokensWhole_of_readsWhole)

/-- A world in which a new packet's `clearVerifyToken` still holds the token that was sent last. -/
def World.stale : World :=
  { World.plain with ambient := { World.plain.ambient with clearVerifyToken := World.plain.verifyToken } }

/-- The response has sixteen bytes for a secret and none for a token. -/
def emptyToken : List (World × Event) :=
  plainRun loginStarts ++ [(.stale, .onLengthReceive 0 false ([19, 1, 16] ++ List.replicate 16 5 ++ [0]))] ++
    plainRun (requestCompletes 0)

/-- The bytes that were accepted are the token. -/
def Action.findsToken : Action → Bool
  | .tokenMatched verifyTokenBuffer verifyToken => verifyTokenBuffer == verifyToken.val
  | _ => false

/-- What the packet's memory held completes the empty token, and the client is logged in. -/
theorem empty_token_logs_in :
    ¬ ∀ (E : Env) (run : List (World × Event)), AllStates (step E) (AllClients SendsSafely) Gateway.init run := by
  intro h
  have hlogged : (clientAfter .player emptyToken 0).map (fun c =>
      (c.socket.loopback, c.log.any fun a => decide (IsLoginSuccess a), c.log.any Action.findsToken)) =
        some (false, true, false) := by
    decide +kernel
  obtain ⟨c, hc, hfields⟩ := Option.map_eq_some_iff.mp hlogged
  obtain ⟨hremote, hsuccess, hnever⟩ : _ ∧ _ ∧ _ := by simpa only [Prod.mk.injEq] using hfields
  obtain ⟨a, ha, hmark⟩ := List.any_eq_true.mp hsuccess
  obtain ⟨before, after, hlog⟩ := List.append_of_mem ha
  obtain ⟨⟨verifyToken, hfound⟩, -⟩ := AllClients.after (h _ _) hc hremote before a after hlog (of_decide_eq_true hmark)
  have hmatches : Action.findsToken (.tokenMatched verifyToken.val verifyToken) = true :=
    beq_self_eq_true verifyToken.val
  have hfinds : c.log.any Action.findsToken = true :=
    List.any_eq_true.mpr ⟨_, hlog ▸ List.mem_append_left _ hfound, hmatches⟩
  rw [hnever] at hfinds
  cases hfinds

end CeriosCluster.ClientGateway
