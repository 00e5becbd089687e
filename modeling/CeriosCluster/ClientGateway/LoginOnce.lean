import CeriosCluster.ClientGateway.SessionKey

/-!
# One login for each connection

`onPlayerLogin` runs for a loopback client inside its `LoginStartPacket` and for any other when a
session-server request completes. It runs once as long as no `EncryptionPacket` is accepted while a
request is in flight or once encryption is on; nothing in the code rejects those.
-/

namespace CeriosCluster.ClientGateway

open CeriosCluster.Lib CeriosCluster.MCPacket

/-- `onPlayerLogin` has run `n` times, and sent as many `LoginSuccessPacket`s. -/
structure LoggedIn (n : Nat) (log : List Action) : Prop where
  logins : log.count .onPlayerLogin = n
  successes : log.countP (fun a => IsLoginSuccess a) = n

def LoggedInOnce (c : Client) : Prop :=
  c.log.count .onPlayerLogin ≤ 1 ∧ c.log.countP (fun a => IsLoginSuccess a) ≤ 1

/-- `onPlayerLogin` has come to where it hands the client to `ClientServer`. -/
def HandedOff (c : Client) : Prop := c.state = .PLAY ∧ .onPlayerLogin ∈ c.log

/-- The event leaves the id and the name of every client that has been handed off. -/
def KeepsNames (E : Env) (g : Gateway) (e : World × Event) : Prop :=
  ∀ (g' : Gateway) (i : ConnId) (c : Client), step E g e = some g' → g.objects[i]? = some c → HandedOff c →
    ∃ c', g'.objects[i]? = some c' ∧ c'.userid = c.userid ∧ c'.requestedUsername = c.requestedUsername

def Idle (requests : List Request) : Prop := ∀ r ∈ requests, ¬ r.InFlight

def OneInFlight (requests : List Request) : Prop :=
  ∀ (k k' : Nat) (r r' : Request), requests[k]? = some r → r.InFlight → requests[k']? = some r' → r'.InFlight → k = k'

/-- No `EncryptionPacket` is accepted while a request is in flight or once encryption is on. -/
def AcceptsOnce (E : Env) (g : Gateway) (e : World × Event) : Prop :=
  ∀ i data c p f sharedSecret, e.2 = .onLengthReceive i false data → g.objects[i]? = some c → c.alive = true →
    nextPacket E e.1 c data = some p → p.fields = .encryption f → Accepts e.1 c f sharedSecret →
    c.encrypted = false ∧ Idle c.requests

/-- A client that is logged in and cannot begin another login. -/
structure LoginDone (c : Client) : Prop where
  once : LoggedIn 1 c.log
  idle : Idle c.requests
  closed : c.alive = true → c.state = .PLAY ∨ c.encrypted = true ∧ c.socket.loopback = false

structure LoginInv (c : Client) : Prop where
  /-- A loopback client that is still logging in has not given its name. -/
  loopback : c.socket.loopback = true →
    c.requests = [] ∧ (c.alive = true → .onPlayerLogin ∉ c.log → c.requestedUsername = [])
  inFlight : OneInFlight c.requests
  phase : LoggedIn 0 c.log ∨ LoginDone c

section Phases

variable {c c' d : Client} {n k : Nat} {s : Stage} {r : Request} {log added : List Action}

theorem LoggedIn.append (h : LoggedIn n log) (hlogin : .onPlayerLogin ∉ added)
    (hsuccess : ∀ a ∈ added, ¬ IsLoginSuccess a) :
    LoggedIn n (log ++ added) where
  logins := by rw [List.count_append, h.logins, List.count_eq_zero_of_not_mem hlogin, Nat.add_zero]
  successes := by
    have hnone : added.countP (fun a => IsLoginSuccess a) = 0 :=
      List.countP_eq_zero.mpr fun a ha => by simpa using hsuccess a ha
    rw [List.countP_append, h.successes, hnone, Nat.add_zero]

theorem LoggedIn.quiet (h : LoggedIn n c.log) (hq : Quiet c c') : LoggedIn n c'.log := by
  obtain ⟨added, hlog, hquiet⟩ := hq.log
  rw [hlog]
  exact h.append (fun hmem => hquiet .onPlayerLogin hmem) fun a ha => (hquiet a ha).not_isLoginSuccess

theorem LoggedIn.login (h : LoggedIn n c.log) : LoggedIn (n + 1) c.login.log where
  logins := by simp [Client.login, Client.logged, List.count_append, h.logins]
  successes := by
    have hsuccess : IsLoginSuccess (.sendPacket (loginSuccessPacket c)) := rfl
    have hlogin : ¬ IsLoginSuccess .onPlayerLogin := id
    simp [Client.login, Client.logged, List.countP_append, h.successes, hsuccess, hlogin]

theorem LoggedIn.not_mem (h : LoggedIn 0 log) : .onPlayerLogin ∉ log := List.count_eq_zero.mp h.logins

theorem LoggedIn.mem (h : LoggedIn (n + 1) log) : .onPlayerLogin ∈ log := by
  refine List.count_pos_iff.mp ?_
  rw [h.logins]
  exact n.succ_pos

theorem LoginDone.quiet (h : LoginDone c) (hq : Quiet c c') : LoginDone c' where
  once := h.once.quiet hq
  idle := hq.requests ▸ h.idle
  closed := by
    rw [hq.state, hq.encrypted, hq.loopback]
    exact fun halive => h.closed (hq.alive halive)

theorem LoginInv.quiet (h : LoginInv c) (hq : Quiet c c') : LoginInv c' where
  loopback := by
    rw [hq.loopback, hq.requests, hq.onPlayerLogin_mem, hq.requestedUsername]
    exact fun hl => ⟨(h.loopback hl).1, fun halive => (h.loopback hl).2 (hq.alive halive)⟩
  inFlight := hq.requests ▸ h.inFlight
  phase := h.phase.imp (·.quiet hq) (·.quiet hq)

theorem LoginInv.once (h : LoginInv c) : LoggedInOnce c := by
  rcases h.phase with h | h
  · exact ⟨by rw [h.logins]; decide, by rw [h.successes]; decide⟩
  · exact ⟨by rw [h.once.logins], by rw [h.once.successes]⟩

theorem LoginInv.done (h : LoginInv c) (hmem : .onPlayerLogin ∈ c.log) : LoginDone c :=
  h.phase.resolve_left fun h₀ => h₀.not_mem hmem

/-- A client with a request in flight has not been logged in, and is no loopback. -/
theorem LoginInv.of_inFlight (h : LoginInv c) (hr : c.requests[k]? = some r) (hflight : r.InFlight) :
    LoggedIn 0 c.log ∧ c.socket.loopback = false := by
  refine ⟨h.phase.resolve_right fun hdone => hdone.idle r (List.mem_of_getElem? hr) hflight, ?_⟩
  refine Bool.eq_false_iff.mpr fun hl => ?_
  rw [(h.loopback hl).1] at hr
  cases hr

theorem OneInFlight.stage (h : OneInFlight c.requests) (hr : c.requests[k]? = some r) (hflight : r.InFlight) :
    OneInFlight (c.stage k s).requests := by
  intro j j' r₁ r₂ hr₁ hflight₁ hr₂ hflight₂
  obtain ⟨r₁', hr₁', hflight₁', -⟩ := inFlight_of_stage hr hflight hr₁ hflight₁
  obtain ⟨r₂', hr₂', hflight₂', -⟩ := inFlight_of_stage hr hflight hr₂ hflight₂
  exact h j j' r₁' r₂' hr₁' hflight₁' hr₂' hflight₂'

theorem OneInFlight.finished (h : OneInFlight c.requests) (hr : c.requests[k]? = some r) (hflight : r.InFlight) :
    Idle (c.stage k .finished).requests := by
  intro r' hr' hflight'
  obtain ⟨j, hj⟩ := List.mem_iff_getElem?.mp hr'
  obtain ⟨r'', hr'', hflight'', -⟩ := inFlight_of_stage hr hflight hj hflight'
  obtain rfl := h k j r r'' hr hflight hr'' hflight''
  rw [getElem?_stage, hr''] at hj
  obtain rfl : { r'' with stage := .finished } = r' := by simpa using hj
  exact hflight' rfl

theorem idle_of_eq_nil {requests : List Request} (h : requests = []) : Idle requests := by
  rw [h]
  exact fun _ hr => (nomatch hr)

theorem Idle.oneInFlight {requests : List Request} (h : Idle requests) : OneInFlight requests :=
  fun _ _ r _ hr hflight => absurd hflight (h r (List.mem_of_getElem? hr))

theorem Idle.oneInFlight_snoc {requests : List Request} (h : Idle requests) (r₀ : Request) :
    OneInFlight (requests ++ [r₀]) := by
  have hlast : ∀ k r, (requests ++ [r₀])[k]? = some r → r.InFlight → k = requests.length := by
    intro k r hr hflight
    by_contra hk
    rw [List.getElem?_append] at hr
    split at hr
    · exact h r (List.mem_of_getElem? hr) hflight
    · rw [List.getElem?_singleton, if_neg (by omega)] at hr
      cases hr
  intro k k' r r' hr hflight hr' hflight'
  rw [hlast k r hr hflight, hlast k' r' hr' hflight']

theorem LoginDone.inv (h : LoginDone c) (hloopback : c.socket.loopback = true → c.requests = []) : LoginInv c where
  loopback := fun hl => ⟨hloopback hl, fun _ hmem => absurd h.once.mem hmem⟩
  inFlight := h.idle.oneInFlight
  phase := Or.inr h

/-- A quiet piece after which the client is dead may as well have found it dead. -/
theorem Quiet.of_dead (h : Quiet c c') (hdead : c'.alive = false) : Quiet { c with alive := false } c' :=
  { h with alive := fun halive => absurd halive (by simp [hdead]) }

end Phases

section Steps

variable {E : Env} {w : World} {e : Event} {g : Gateway} {c c₀ c' : Client} {l : Label}

/-- What an event brings with a step: a packet finds its client alive, an accepted secret finds it idle and
in clear, and a step on the way to an exception ends with it dead. -/
structure Brings (c c' : Client) (l : Label) : Prop where
  alive : l.OfPacket → c.alive = true
  idle : ∀ token sharedSecret, l.Accepting token sharedSecret → c.encrypted = false ∧ Idle c.requests
  dies : OnlyThrows c l → c'.alive = false

theorem LoginInv.fresh (h : LoginInv c) (halive : c.alive = true) (hstate : c.state = .LOGIN)
    (hc : c.socket.loopback = true ∨ c.encrypted = false) : LoggedIn 0 c.log := by
  refine h.phase.resolve_right fun hdone => ?_
  rcases hdone.closed halive with hplay | ⟨hencrypted, hremote⟩
  · exact absurd (hstate.symm.trans hplay) (by decide)
  · rcases hc with hl | hclear
    · exact absurd hl (by simp [hremote])
    · exact absurd hencrypted (by simp [hclear])

/-- A client that accepts a secret is no loopback, and has not been logged in. -/
theorem LoginInv.accepting (h : LoginInv c) (hq : Quiet c c₀) (hstate : c₀.state = .LOGIN)
    (hname : c₀.requestedUsername ≠ []) (halive : c.alive = true) (hidle : c.encrypted = false ∧ Idle c.requests) :
    LoggedIn 0 c₀.log ∧ c₀.socket.loopback = false ∧ Idle c₀.requests := by
  have hfresh := h.fresh halive (hq.state.symm.trans hstate) (Or.inr hidle.1)
  refine ⟨hfresh.quiet hq, ?_, hq.requests ▸ hidle.2⟩
  rw [hq.loopback]
  refine Bool.eq_false_iff.mpr fun hl => hname ?_
  rw [hq.requestedUsername]
  exact (h.loopback hl).2 halive hfresh.not_mem

theorem LoginInv.did (h : LoginInv c) (hq : Quiet c c₀) (hdid : Did E c₀ c' l) (hb : Brings c c' l) : LoginInv c' := by
  have h₀ := h.quiet hq
  cases l with
  | quiet => exact h₀.quiet hdid
  | handshake n =>
    obtain ⟨hstate, hq'⟩ := hdid
    refine LoginInv.quiet ?_ hq'
    refine ⟨h₀.loopback, h₀.inFlight, h₀.phase.imp id fun hdone => ⟨hdone.once, hdone.idle, fun halive => ?_⟩⟩
    exact (hdone.closed halive).imp (fun hplay => absurd (hstate.symm.trans hplay) (by decide)) id
  | loginStart name token =>
    obtain ⟨hstate, hq'⟩ := hdid
    cases hl : c₀.socket.loopback with
    | true =>
      refine LoginInv.quiet ?_ (hq'.of_dead (hb.dies (hq.loopback.symm.trans hl)))
      refine ⟨fun _ => ⟨(h₀.loopback hl).1, fun halive => (nomatch halive)⟩, h₀.inFlight,
        h₀.phase.imp id fun hdone => ?_⟩
      exact ⟨hdone.once, hdone.idle, fun halive => (nomatch halive)⟩
    | false =>
      refine LoginInv.quiet ?_ hq'
      refine ⟨fun hl' => absurd (hl'.symm.trans hl) (by decide), h₀.inFlight, h₀.phase.imp id fun hdone => ?_⟩
      exact ⟨hdone.once, hdone.idle, hdone.closed⟩
  | loopbackLogin name userid =>
    obtain ⟨hstate, hl, hq'⟩ := hdid
    have hfresh := (h.fresh (hb.alive trivial) (hq.state.symm.trans hstate)
      (Or.inl (hq.loopback.symm.trans hl))).quiet hq
    have hrequests := (h₀.loopback hl).1
    refine LoginInv.quiet ?_ hq'
    refine LoginDone.inv ⟨?_, ?_, fun _ => Or.inl rfl⟩ fun _ => hrequests
    · exact LoggedIn.login (c := { c₀ with requestedUsername := name, userid := userid }) hfresh
    · exact idle_of_eq_nil hrequests
  | loopbackLoginFailed name userid =>
    obtain ⟨hstate, hl, hq'⟩ := hdid
    have hfresh := (h.fresh (hb.alive trivial) (hq.state.symm.trans hstate)
      (Or.inl (hq.loopback.symm.trans hl))).quiet hq
    have hrequests := (h₀.loopback hl).1
    refine LoginInv.quiet ?_ (hq'.of_dead (hb.dies trivial))
    refine LoginDone.inv ⟨?_, ?_, fun halive => (nomatch halive)⟩ fun _ => hrequests
    · exact LoggedIn.login (c := { c₀ with requestedUsername := name, userid := userid }) hfresh
    · exact idle_of_eq_nil hrequests
  | accepted token sharedSecret =>
    obtain ⟨hstate, hname, key, -, hq'⟩ := hdid
    obtain ⟨hfresh, hremote, hidle⟩ := h.accepting hq hstate hname (hb.alive trivial) (hb.idle _ _ (Or.inl rfl))
    refine LoginInv.quiet ?_ hq'
    refine ⟨fun hl => absurd (hl.symm.trans hremote) (by decide), hidle.oneInFlight, Or.inl ?_⟩
    exact hfresh.append (by simp) (by simp [IsLoginSuccess])
  | requested token sharedSecret text =>
    obtain ⟨hstate, hname, key, -, hq'⟩ := hdid
    obtain ⟨hfresh, hremote, hidle⟩ := h.accepting hq hstate hname (hb.alive trivial) (hb.idle _ _ (Or.inr ⟨_, rfl⟩))
    refine LoginInv.quiet ?_ hq'
    refine ⟨fun hl => absurd (hl.symm.trans hremote) (by decide), hidle.oneInFlight_snoc _, Or.inl ?_⟩
    exact hfresh.append (by simp) (by simp [IsLoginSuccess])
  | staged k stage =>
    obtain ⟨⟨r, hr, hflight⟩, hq'⟩ := hdid
    obtain ⟨hfresh, hremote⟩ := h₀.of_inFlight hr hflight
    refine LoginInv.quiet ?_ hq'
    exact ⟨fun hl => absurd (hl.symm.trans hremote) (by decide), h₀.inFlight.stage hr hflight, Or.inl hfresh⟩
  | authenticated k id name =>
    obtain ⟨r, hr, hflight, hq'⟩ := hdid
    obtain ⟨hfresh, hremote⟩ := h₀.of_inFlight hr hflight
    refine LoginInv.quiet ?_ hq'
    refine LoginDone.inv ⟨?_, h₀.inFlight.finished hr hflight, fun _ => Or.inl rfl⟩ fun hl =>
      absurd (hl.symm.trans hremote) (by decide)
    exact LoggedIn.login (c := (c₀.stage k .finished).join r.sharedSecret id name)
      (hfresh.append (by simp) (by simp [IsLoginSuccess]))
  | authenticatedFailed k id name =>
    obtain ⟨r, hr, hflight, -, hq'⟩ := hdid
    obtain ⟨hfresh, hremote⟩ := h₀.of_inFlight hr hflight
    refine LoginInv.quiet ?_ hq'
    refine LoginDone.inv ⟨?_, h₀.inFlight.finished hr hflight, fun _ => Or.inr ⟨rfl, hremote⟩⟩ fun hl =>
      absurd (hl.symm.trans hremote) (by decide)
    exact LoggedIn.login (c := (c₀.stage k .finished).join r.sharedSecret id name)
      (hfresh.append (by simp) (by simp [IsLoginSuccess]))

/-- The names of a client that is logged in and in `PLAY` are not touched again. -/
theorem LoginInv.names (h : LoginInv c) (hhanded : HandedOff c) (hconn : ConnStep E l c c') :
    c'.userid = c.userid ∧ c'.requestedUsername = c.requestedUsername := by
  obtain ⟨c₀, hq, hdid⟩ := hconn
  have hplay : c₀.state ≠ .LOGIN := by
    rw [hq.state, hhanded.1]
    decide
  have hidle : Idle c₀.requests := hq.requests ▸ (h.done hhanded.2).idle
  have hnames : c'.userid = c₀.userid ∧ c'.requestedUsername = c₀.requestedUsername := by
    cases l with
    | quiet => exact ⟨Quiet.userid hdid, Quiet.requestedUsername hdid⟩
    | handshake n => exact ⟨hdid.2.userid, hdid.2.requestedUsername⟩
    | loginStart name token => exact absurd hdid.1 hplay
    | loopbackLogin name userid => exact absurd hdid.1 hplay
    | loopbackLoginFailed name userid => exact absurd hdid.1 hplay
    | accepted token sharedSecret => exact absurd hdid.1 hplay
    | requested token sharedSecret text => exact absurd hdid.1 hplay
    | staged k stage => exact ⟨hdid.2.userid, hdid.2.requestedUsername⟩
    | authenticated k id name =>
      obtain ⟨r, hr, hflight, -⟩ := hdid
      exact absurd hflight (hidle r (List.mem_of_getElem? hr))
    | authenticatedFailed k id name =>
      obtain ⟨r, hr, hflight, -⟩ := hdid
      exact absurd hflight (hidle r (List.mem_of_getElem? hr))
  exact ⟨hnames.1.trans hq.userid, hnames.2.trans hq.requestedUsername⟩

theorem loginInv_new (handle : Word) (loopback : Bool) (verifyToken : Block 4) :
    LoginInv (Client.new .login ⟨handle, loopback, .connected⟩ verifyToken) where
  loopback := fun _ => ⟨rfl, fun _ _ => rfl⟩
  inFlight := fun _ _ _ _ h => (nomatch h)
  phase := Or.inl ⟨rfl, rfl⟩

/-- What the events bring, if they meet the condition. -/
theorem FromEvent.brings {j : ConnId} (hfrom : FromEvent E w j c c' l e) (hj : g.objects[j]? = some c)
    (honce : AcceptsOnce E g (w, e)) : Brings c c' l := by
  refine ⟨fun hl => ?_, fun token sharedSecret hl => ?_, fun hthrows => ?_⟩
  · obtain ⟨-, -, -, halive, -⟩ := hfrom.ofPacket hl
    exact halive
  · obtain ⟨data, p, f, rfl, halive, hp, hf, -, haccepts⟩ := hfrom.ofAccepting hl
    exact honce j data c p f sharedSecret rfl hj halive hp hf haccepts
  · have hpacket : l.OfPacket := by cases l <;> trivial
    obtain ⟨-, -, -, -, -, -, hdies⟩ := hfrom.ofPacket hpacket
    exact hdies hthrows

theorem LoginInv.fromEvent {j : ConnId} (h : LoginInv c) (hj : g.objects[j]? = some c) (hconn : ConnStep E l c c')
    (hfrom : FromEvent E w j c c' l e) (honce : AcceptsOnce E g (w, e)) : LoginInv c' := by
  obtain ⟨c₀, hq, hdid⟩ := hconn
  exact h.did hq hdid (hfrom.brings hj honce)

theorem keepsNames_of_inv (hI : AllClients LoginInv g) : KeepsNames E g (w, e) := by
  intro g' i c hstep hi hhanded
  rcases step_simulates hstep with ⟨handle, loopback, verifyToken, -, hobjects⟩ | hsim
  · refine ⟨c, ?_, rfl, rfl⟩
    rw [hobjects, List.getElem?_append_left (List.getElem?_eq_some_iff.mp hi).1]
    exact hi
  · obtain ⟨c', hc', l, hconn, -⟩ := hsim.2 i c hi
    exact ⟨c', hc', (hI i c hi).names hhanded hconn⟩

end Steps

/-- **One login.** In a run in which no `EncryptionPacket` is accepted while a request is in flight or once
encryption is on, every connection is logged in at most once, and keeps its names once it is handed off. -/
theorem loggedInOnce_of_acceptsOnce (E : Env) (run : List (World × Event))
    (h : AllSteps (step E) (AcceptsOnce E) Gateway.init run) :
    AllStates (step E) (AllClients LoggedInOnce) Gateway.init run ∧
      AllSteps (step E) (KeepsNames E) Gateway.init run := by
  have hstep : ∀ g e g', AllClients LoginInv g → AcceptsOnce E g e → step E g e = some g' → AllClients LoginInv g' :=
    fun g e g' hI honce hstep => hI.of_step loginInv_new
      (fun _ _ _ _ hj hc hconn hfrom => hc.fromEvent hj hconn hfrom honce) hstep
  refine ⟨(allStates_of_inv hstep allClients_init h).mono fun g hI j c hc => (hI j c hc).once, ?_⟩
  exact allSteps_of_inv hstep (fun g e g' hI _ _ => keepsNames_of_inv hI) allClients_init h

/-! ## Runs -/

theorem ReadsIdle.acceptsOnce {E : Env} {g : Gateway} {e : World × Event} (h : ReadsIdle g e) : AcceptsOnce E g e :=
  fun i data c _ _ _ he hc _ _ _ _ => h ⟨i, false, data, he⟩ c (List.mem_of_getElem? hc)

/-- One secret and one request make one login. -/
theorem loggedInOnce_oneSecret :
    AllStates (step .player) (AllClients LoggedInOnce) Gateway.init oneSecret ∧
      AllSteps (step .player) (KeepsNames .player) Gateway.init oneSecret :=
  loggedInOnce_of_acceptsOnce .player oneSecret (readsIdle_oneSecret.mono fun _ _ => ReadsIdle.acceptsOnce)

/-- Two secrets are accepted and both requests complete. -/
def twoRequests : List (World × Event) := twoSecrets ++ plainRun (requestCompletes 1)

/-- Each of the two requests logs the client in. -/
theorem two_requests_log_in_twice :
    ¬ ∀ (E : Env) (run : List (World × Event)), AllStates (step E) (AllClients LoggedInOnce) Gateway.init run ∧
      AllSteps (step E) (KeepsNames E) Gateway.init run := by
  intro h
  have hlogins : (clientAfter .player twoRequests 0).map (·.log.count .onPlayerLogin) = some 2 := by
    decide +kernel
  obtain ⟨c, hc, hcount⟩ := Option.map_eq_some_iff.mp hlogins
  have honce := (AllClients.after (h _ _).1 hc).1
  rw [hcount] at honce
  exact absurd honce (by decide)

end CeriosCluster.ClientGateway
