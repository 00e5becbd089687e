import CeriosCluster.ClientGateway.StateSafety

/-!
# The session key

A session-server request carries the digest of one shared secret, and the ciphers hold the first sixteen
bytes of the secret that was accepted last. The two agree when the request completes as long as no
`EncryptionPacket` with another secret is accepted while one is in flight.
-/

namespace CeriosCluster.ClientGateway

open CeriosCluster.Lib CeriosCluster.MCPacket

/-- The context is the one initialised with this shared secret: AES-128 takes sixteen bytes of it. -/
def KeyedWith (sharedSecret : Bytes) (key : Option (Block 16)) : Prop :=
  ∃ k : Block 16, key = some k ∧ k.val = sharedSecret.take 16

/-- A completed request finds the ciphers with the secret its digest was computed over. -/
def KeyBound : Action → Prop
  | .hasJoined sharedSecret encryptContext decryptContext =>
    KeyedWith sharedSecret (encryptContext.map (·.key)) ∧ KeyedWith sharedSecret (decryptContext.map (·.key))
  | _ => True

def KeysBound (c : Client) : Prop := ∀ a ∈ c.log, KeyBound a

/-- The secret agrees with those of the requests in flight in what the ciphers take of it. -/
def SameSecret (c : Client) (sharedSecret : Bytes) : Prop :=
  ∀ r ∈ c.requests, r.InFlight → r.sharedSecret.take 16 = sharedSecret.take 16

/-- No `EncryptionPacket` that gives another secret is accepted while a request is in flight. -/
def SecretKept (E : Env) (g : Gateway) (e : World × Event) : Prop :=
  ∀ i data c p f sharedSecret, e.2 = .onLengthReceive i false data → g.objects[i]? = some c → c.alive = true →
    nextPacket E e.1 c data = some p → p.fields = .encryption f → Accepts e.1 c f sharedSecret →
    SameSecret c sharedSecret

/-- What keeps it: the ciphers have the secret of every request in flight. -/
structure KeyInv (c : Client) : Prop where
  bound : KeysBound c
  inFlight : ∀ r ∈ c.requests, r.InFlight →
    KeyedWith r.sharedSecret (encryptKey c) ∧ KeyedWith r.sharedSecret (decryptKey c)

section Steps

variable {E : Env} {w : World} {e : Event} {g : Gateway} {c c' : Client} {l : Label}

theorem QuietAction.keyBound {encrypted : Bool} {a : Action} (h : QuietAction encrypted a) : KeyBound a := by
  cases a with
  | hasJoined _ _ _ => exact h.elim
  | _ => trivial

theorem KeysBound.logged {a : Action} (h : KeysBound c) (ha : KeyBound a) : KeysBound (c.logged a) := by
  intro b hb
  rcases List.mem_append.mp hb with hb | hb
  · exact h b hb
  · exact List.mem_singleton.mp hb ▸ ha

theorem KeyInv.quiet (h : KeyInv c) (hq : Quiet c c') : KeyInv c' where
  bound := by
    obtain ⟨added, hlog, hquiet⟩ := hq.log
    intro a ha
    rw [hlog] at ha
    rcases List.mem_append.mp ha with ha | ha
    · exact h.bound a ha
    · exact (hquiet a ha).keyBound
  inFlight := by
    rw [hq.requests, hq.encryptKey, hq.decryptKey]
    exact h.inFlight

theorem getElem?_stage (c : Client) (k j : Nat) (stage : Stage) :
    (c.stage k stage).requests[j]? = (fun r => if k = j then { r with stage := stage } else r) <$> c.requests[j]? :=
  List.getElem?_modify _ _ _ j

theorem getElem?_stage_self {k : Nat} {r : Request} (hr : c.requests[k]? = some r) (stage : Stage) :
    (c.stage k stage).requests[k]? = some { r with stage := stage } := by
  rw [getElem?_stage, hr]
  exact congrArg some (if_pos rfl)

theorem inFlight_of_stage {k j : Nat} {stage : Stage} {r₀ r : Request} (hr₀ : c.requests[k]? = some r₀)
    (hflight₀ : r₀.InFlight) (hr : (c.stage k stage).requests[j]? = some r) (hflight : r.InFlight) :
    ∃ r', c.requests[j]? = some r' ∧ r'.InFlight ∧ r'.sharedSecret = r.sharedSecret := by
  rw [getElem?_stage] at hr
  obtain ⟨r', hr', rfl⟩ := Option.map_eq_some_iff.mp hr
  by_cases hkj : k = j
  · subst hkj
    obtain rfl : r₀ = r' := Option.some.inj (hr₀.symm.trans hr')
    exact ⟨r₀, hr₀, hflight₀, by simp⟩
  · simp only [if_neg hkj] at hflight ⊢
    exact ⟨r', hr', hflight, rfl⟩

theorem KeyInv.stage {k : Nat} {stage : Stage} {r : Request} (h : KeyInv c) (hr : c.requests[k]? = some r)
    (hflight : r.InFlight) : KeyInv (c.stage k stage) where
  bound := h.bound
  inFlight := fun r' hr' hflight' => by
    obtain ⟨j, hj⟩ := List.mem_iff_getElem?.mp hr'
    obtain ⟨r₁, hr₁, hflight₁, hsecret⟩ := inFlight_of_stage hr hflight hj hflight'
    rw [← hsecret]
    exact h.inFlight r₁ (List.mem_of_getElem? hr₁) hflight₁

/-- The ciphers are initialised again, with the same sixteen bytes if a request is in flight. -/
theorem KeyInv.accept {key : Block 16} {sharedSecret : Bytes} (h : KeyInv c) (token : Bytes)
    (hkey : key.val = sharedSecret.take 16) (hsame : SameSecret c sharedSecret) : KeyInv (c.accept token key) where
  bound := KeysBound.logged (a := .tokenMatched token c.verifyToken) h.bound trivial
  inFlight := fun r hr hflight => by
    have hkeyed : KeyedWith r.sharedSecret (some key) := ⟨key, rfl, hkey.trans (hsame r hr hflight).symm⟩
    exact ⟨hkeyed, hkeyed⟩

/-- The request that completes was in flight, so the ciphers have its secret. -/
theorem KeyInv.join {k : Nat} {r : Request} (h : KeyInv c) (hr : c.requests[k]? = some r) (hflight : r.InFlight)
    (id name : Bytes) : KeyInv ((c.stage k .finished).join r.sharedSecret id name).login where
  bound := by
    have hkeys := h.inFlight r (List.mem_of_getElem? hr) hflight
    have hjoined : KeysBound (c.logged (.hasJoined r.sharedSecret c.encryptCipherContext c.decryptCipherContext)) :=
      KeysBound.logged h.bound hkeys
    exact (hjoined.logged (a := .onPlayerLogin) trivial).logged trivial
  inFlight := (h.stage hr hflight).inFlight

theorem KeyInv.did (h : KeyInv c) (hdid : Did E c c' l)
    (hsame : ∀ token sharedSecret, l.Accepting token sharedSecret → SameSecret c sharedSecret) : KeyInv c' := by
  have hlogin {d : Client} (hd : KeyInv d) : KeyInv d.login :=
    { hd with bound := (hd.bound.logged (a := .onPlayerLogin) trivial).logged trivial }
  cases l with
  | quiet => exact h.quiet hdid
  | handshake n =>
    refine KeyInv.quiet ?_ hdid.2
    exact { h with }
  | loginStart name token =>
    refine KeyInv.quiet ?_ hdid.2
    exact { h with }
  | loopbackLogin name userid =>
    refine KeyInv.quiet ?_ hdid.2.2
    exact { hlogin (d := { c with requestedUsername := name, userid := userid }) { h with } with }
  | loopbackLoginFailed name userid =>
    exact KeyInv.quiet (hlogin (d := { c with requestedUsername := name, userid := userid }) { h with }) hdid.2.2
  | accepted token sharedSecret =>
    obtain ⟨-, -, key, hkey, hq⟩ := hdid
    exact (h.accept token hkey (hsame token sharedSecret (Or.inl rfl))).quiet hq
  | requested token sharedSecret text =>
    obtain ⟨-, -, key, hkey, hq⟩ := hdid
    have haccepted := h.accept token hkey (hsame token sharedSecret (Or.inr ⟨text, rfl⟩))
    refine KeyInv.quiet ?_ hq
    refine ⟨haccepted.bound, fun r hr hflight => ?_⟩
    rcases List.mem_append.mp hr with hr | hr
    · exact haccepted.inFlight r hr hflight
    · rw [List.mem_singleton.mp hr]
      exact ⟨⟨key, rfl, hkey⟩, ⟨key, rfl, hkey⟩⟩
  | staged k stage =>
    obtain ⟨⟨r, hr, hflight⟩, hq⟩ := hdid
    exact (h.stage hr hflight).quiet hq
  | authenticated k id name =>
    obtain ⟨r, hr, hflight, hq⟩ := hdid
    refine KeyInv.quiet ?_ hq
    exact { h.join hr hflight id name with }
  | authenticatedFailed k id name =>
    obtain ⟨r, hr, hflight, -, hq⟩ := hdid
    exact (h.join hr hflight id name).quiet hq

theorem keyInv_new (handle : Word) (loopback : Bool) (verifyToken : Block 4) :
    KeyInv (Client.new .login ⟨handle, loopback, .connected⟩ verifyToken) :=
  ⟨fun _ h => (nomatch h), fun _ h => (nomatch h)⟩

/-- An event that keeps the secret keeps the invariant. -/
theorem KeyInv.fromEvent {j : ConnId} (h : KeyInv c) (hj : g.objects[j]? = some c) (hconn : ConnStep E l c c')
    (hfrom : FromEvent E w j c c' l e) (hkept : SecretKept E g (w, e)) : KeyInv c' := by
  obtain ⟨c₀, hq, hdid⟩ := hconn
  refine (h.quiet hq).did hdid fun token sharedSecret hl => ?_
  obtain ⟨data, p, f, rfl, halive, hp, hf, -, haccepts⟩ := hfrom.ofAccepting hl
  unfold SameSecret
  rw [hq.requests]
  exact hkept j data c p f sharedSecret rfl hj halive hp hf haccepts

end Steps

/-- **Session keys.** In a run in which no other secret is accepted while a request is in flight, every
completed request finds the ciphers with its own. -/
theorem keysBound_of_secretKept (E : Env) (run : List (World × Event))
    (h : AllSteps (step E) (SecretKept E) Gateway.init run) :
    AllStates (step E) (AllClients KeysBound) Gateway.init run := by
  have hinv : AllStates (step E) (AllClients KeyInv) Gateway.init run :=
    allStates_of_inv (fun _ _ _ hI hkept hstep => hI.of_step keyInv_new
      (fun _ _ _ _ hj hc hconn hfrom => hc.fromEvent hj hconn hfrom hkept) hstep) allClients_init h
  exact hinv.mono fun g hI j c hc => (hI j c hc).bound

/-! ## Runs -/

def playerInfo : Bytes := ascii "\x7b\"id\":\"0123456789abcdef0123456789abcdef\",\"name\":\"Player\"\x7d"

def Env.player : Env := .plain playerInfo (ascii "0123456789abcdef0123456789abcdef") (ascii "Player")

/-- A client connects, shakes hands and asks to log in. -/
def loginStarts : List Event :=
  [.acceptConstruct 7 false zeroToken, .acceptInsert, .onLengthReceive 0 false [6, 0, 47, 0, 0, 0, 2],
    .onLengthReceive 0 false (8 :: 0 :: 6 :: ascii "Player")]

/-- The client gives the token back, with sixteen bytes `b` for a secret. -/
def secretArrives (b : Byte) : Event :=
  .onLengthReceive 0 false ([23, 1, 16] ++ List.replicate 16 b ++ [4, 1, 2, 3, 4])

/-- The session server answers its request `k`. -/
def requestCompletes (k : Nat) : List Event :=
  [.connectedToMojang 0 k true, .sslHandshakeComplete 0 k false, .sendHTTPRequestDone 0 k false,
    .readHTTPHeader 0 k false (ascii "HTTP/1.1 200 OK\r\nContent-Length: 57\r\n\r\n"),
    .onHasJoinedPostComplete 0 k .none playerInfo]

def plainRun (events : List Event) : List (World × Event) := events.map fun e => (.plain, e)

def oneSecret : List (World × Event) := plainRun (loginStarts ++ [secretArrives 5] ++ requestCompletes 0)

/-- A second secret arrives before the first request completes. -/
def twoSecrets : List (World × Event) :=
  plainRun (loginStarts ++ [secretArrives 5, secretArrives 6] ++ requestCompletes 0)

/-- A read comes only while encryption is off and no request is in flight. -/
def ReadsIdle (g : Gateway) (e : World × Event) : Prop :=
  (∃ i error data, e.2 = .onLengthReceive i error data) →
    ∀ c ∈ g.objects, c.encrypted = false ∧ ∀ r ∈ c.requests, ¬ r.InFlight

instance (g : Gateway) (e : World × Event) : Decidable (ReadsIdle g e) :=
  match he : e.2 with
  | .onLengthReceive i error data =>
    decidable_of_iff (∀ c ∈ g.objects, c.encrypted = false ∧ ∀ r ∈ c.requests, ¬ r.InFlight)
      ⟨fun h _ => h, fun h => h ⟨i, error, data, he⟩⟩
  | .acceptConstruct _ _ _ | .acceptInsert | .onWriteComplete _ _ | .keepAlive _ _ _ | .connectedToMojang _ _ _
  | .sslHandshakeComplete _ _ _ | .sendHTTPRequestDone _ _ _ | .readHTTPHeader _ _ _ _
  | .onHasJoinedPostComplete _ _ _ _ | .onDataReceived _ | .peerReset _ =>
    isTrue (by rintro ⟨_, _, _, h⟩; rw [he] at h; cases h)

theorem ReadsIdle.secretKept {E : Env} {g : Gateway} {e : World × Event} (h : ReadsIdle g e) : SecretKept E g e :=
  fun i data c _ _ _ he hc _ _ _ _ r hr hflight =>
    absurd hflight ((h ⟨i, false, data, he⟩ c (List.mem_of_getElem? hc)).2 r hr)

theorem readsIdle_oneSecret : AllSteps (step .player) ReadsIdle Gateway.init oneSecret := by
  decide +kernel

/-- One secret and one request meet the condition. -/
theorem keysBound_oneSecret : AllStates (step .player) (AllClients KeysBound) Gateway.init oneSecret :=
  keysBound_of_secretKept .player oneSecret (readsIdle_oneSecret.mono fun _ _ => ReadsIdle.secretKept)

/-- A request completed with ciphers of another secret than its own. -/
def Action.mixesSecrets : Action → Bool
  | .hasJoined sharedSecret (some context) _ => sharedSecret.take 16 != context.key.val
  | _ => false

/-- The request of the first secret completes with the ciphers of the second. -/
theorem second_secret_replaces_key :
    ¬ ∀ (E : Env) (run : List (World × Event)), AllStates (step E) (AllClients KeysBound) Gateway.init run := by
  intro h
  have hlogged : (clientAfter .player twoSecrets 0).map (·.log.any Action.mixesSecrets) = some true := by
    decide +kernel
  obtain ⟨c, hc, hany⟩ := Option.map_eq_some_iff.mp hlogged
  obtain ⟨a, ha, hmatch⟩ := List.any_eq_true.mp hany
  unfold Action.mixesSecrets at hmatch
  split at hmatch
  · next sharedSecret context _ =>
    obtain ⟨⟨key, hkey, hval⟩, -⟩ := AllClients.after (h _ _) hc _ ha
    obtain rfl : context.key = key := by simpa using hkey
    simp [hval] at hmatch
  · cases hmatch

end CeriosCluster.ClientGateway
