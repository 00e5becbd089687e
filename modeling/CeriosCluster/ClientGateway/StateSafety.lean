import CeriosCluster.ClientGateway.Refinement

/-!
# The state of a connection

`state` is set from a number of the network by a handshake and to `PLAY` by `onPlayerLogin`. Along a
run it stays an enumerator, and `PLAY` stays the mark of a login, exactly when no handshake that a
client sends in `HANDSHAKE` asks for anything but `HANDSHAKE`, `STATUS` and `LOGIN`.
-/

namespace CeriosCluster.ClientGateway

open CeriosCluster.Lib CeriosCluster.MCPacket

/-- The state is an enumerator, and `PLAY` only after `onPlayerLogin`. -/
def StateSafe (c : Client) : Prop := c.state.IsEnumerator ∧ (c.state = .PLAY → .onPlayerLogin ∈ c.log)

def BeforeLogin (s : ClientState) : Prop := s = .HANDSHAKE ∨ s = .STATUS ∨ s = .LOGIN

/-- A handshake that the event completes for a client in `HANDSHAKE` asks for a state before the login. -/
def HandshakeInRange (E : Env) (g : Gateway) (e : World × Event) : Prop :=
  ∀ i data c p f, e.2 = .onLengthReceive i false data → g.objects[i]? = some c → c.alive = true →
    c.state = .HANDSHAKE → nextPacket E e.1 c data = some p → p.fields = .handshake f →
    BeforeLogin f.requestedNextState

/-- What keeps `StateSafe`: a client in `HANDSHAKE` has not begun to log in. -/
structure StateInv (c : Client) : Prop where
  safe : StateSafe c
  fresh : c.state = .HANDSHAKE → .onPlayerLogin ∉ c.log ∧ c.requests = []

section Quiet

variable {c c' : Client}

theorem StateSafe.quiet (h : Quiet c c') (hc : StateSafe c) : StateSafe c' := by
  unfold StateSafe
  rw [h.state, h.onPlayerLogin_mem]
  exact hc

theorem StateInv.quiet (h : Quiet c c') (hc : StateInv c) : StateInv c' where
  safe := hc.safe.quiet h
  fresh := by
    rw [h.state, h.onPlayerLogin_mem, h.requests]
    exact hc.fresh

end Quiet

theorem BeforeLogin.ne_play {s : ClientState} (h : BeforeLogin s) : s ≠ .PLAY := by
  rcases h with rfl | rfl | rfl <;> decide

theorem BeforeLogin.isEnumerator {s : ClientState} (h : BeforeLogin s) : s.IsEnumerator := by
  rcases h with rfl | rfl | rfl <;> decide

/-- A state that no handshake may ask for is unsafe before the login. -/
theorem not_stateSafe {c : Client} (hstate : ¬ BeforeLogin c.state) (hlog : .onPlayerLogin ∉ c.log) :
    ¬ StateSafe c := by
  rintro ⟨henum, hplay⟩
  rcases henum with h | h | h | h
  · exact hstate (Or.inl h)
  · exact hstate (Or.inr (Or.inl h))
  · exact hstate (Or.inr (Or.inr h))
  · exact hlog (hplay h)

section Steps

variable {E : Env} {w : World} {e : Event} {g g' : Gateway} {c c' : Client} {l : Label}

theorem StateInv.of_state {s : ClientState} (hstate : c.state = s) (henum : s.IsEnumerator) (hs : s ≠ .HANDSHAKE)
    (hplay : s = .PLAY → .onPlayerLogin ∈ c.log) : StateInv c where
  safe := ⟨hstate ▸ henum, fun h => hplay (hstate.symm.trans h)⟩
  fresh := fun h => absurd (hstate.symm.trans h) hs

/-- A step of the automaton keeps the invariant, if a handshake asks for a state before the login. -/
theorem StateInv.did (hc : StateInv c) (h : Did E c c' l) (hrange : ∀ n, l = .handshake n → BeforeLogin n) :
    StateInv c' := by
  have logging {d : Client} (hstate : d.state = .LOGIN) (hq : Quiet d c') : StateInv c' :=
    (StateInv.of_state hstate (by decide) (by decide) fun h => by cases h).quiet hq
  have playing {d : Client} (hq : Quiet d.login.play c') : StateInv c' :=
    (StateInv.of_state (s := .PLAY) rfl (by decide) (by decide)
      fun _ => by simp [Client.login, Client.play, Client.logged]).quiet hq
  cases l with
  | quiet => exact hc.quiet h
  | handshake n =>
    obtain ⟨hstate, hq⟩ := h
    refine StateInv.quiet hq ⟨⟨(hrange n rfl).isEnumerator, fun hplay => absurd hplay (hrange n rfl).ne_play⟩,
      fun _ => ?_⟩
    exact hc.fresh hstate
  | loginStart name token => exact logging (d := { c with requestedUsername := name, verifyToken := token }) h.1 h.2
  | loopbackLogin name userid => exact playing h.2.2
  | loopbackLoginFailed name userid =>
    exact logging (d := { c with requestedUsername := name, userid := userid }.login) h.1 h.2.2
  | accepted token sharedSecret =>
    obtain ⟨hstate, -, key, -, hq⟩ := h
    exact logging (d := c.accept token key) hstate hq
  | requested token sharedSecret text =>
    obtain ⟨hstate, -, key, -, hq⟩ := h
    exact logging (d := (c.accept token key).request sharedSecret text) hstate hq
  | staged k stage =>
    obtain ⟨-, hq⟩ := h
    refine StateInv.quiet hq ⟨hc.safe, fun hstate => ?_⟩
    obtain ⟨hlog, hrequests⟩ := hc.fresh hstate
    exact ⟨hlog, by simp [Client.stage, hrequests]⟩
  | authenticated k id name =>
    obtain ⟨r, -, -, hq⟩ := h
    exact playing hq
  | authenticatedFailed k id name =>
    obtain ⟨r, hr, -, -, hq⟩ := h
    have hstate : c.state ≠ .HANDSHAKE := fun hstate => by
      rw [(hc.fresh hstate).2] at hr
      cases hr
    refine StateInv.quiet hq ⟨⟨hc.safe.1, fun _ => ?_⟩, fun h => absurd h hstate⟩
    simp [Client.login, Client.logged]

theorem StateInv.connStep (hc : StateInv c) (h : ConnStep E l c c') (hrange : ∀ n, l = .handshake n → BeforeLogin n) :
    StateInv c' := by
  obtain ⟨c₀, hq, hdid⟩ := h
  exact (hc.quiet hq).did hdid hrange

theorem StateInv.fromEvent {j : ConnId} (hc : StateInv c) (hj : g.objects[j]? = some c) (hconn : ConnStep E l c c')
    (hfrom : FromEvent E w j c c' l e) (hrange : HandshakeInRange E g (w, e)) : StateInv c' := by
  refine hc.connStep hconn fun n hn => ?_
  subst hn
  obtain ⟨data, p, rfl, halive, hp, ⟨f, hf, rfl⟩, -⟩ := hfrom.ofPacket (l := .handshake n) trivial
  obtain ⟨c₀, hq, hstate, -⟩ := hconn
  exact hrange j data c p f rfl hj halive (hq.state.symm.trans hstate) hp hf

theorem FromPacket.handshake_eq {p : Packet} {f : HandshakePacket} (hp : p.fields = .handshake f)
    (hstate : c.state = .HANDSHAKE) (h : FromPacket w c p l) : l = .handshake f.requestedNextState := by
  cases l with
  | quiet => exact absurd hstate (h f hp)
  | handshake n =>
    obtain ⟨f', hf', rfl⟩ := h
    obtain rfl : f = f' := by simpa using hp.symm.trans hf'
    rfl
  | accepted _ =>
    obtain ⟨f', hf', -⟩ := h
    cases hp.symm.trans hf'
  | requested _ _ =>
    obtain ⟨f', hf', -⟩ := h
    cases hp.symm.trans hf'
  | staged _ _ => exact h.elim
  | authenticated _ _ _ => exact h.elim
  | authenticatedFailed _ _ _ => exact h.elim
  | _ => cases hp.symm.trans h

/-- A handshake out of range leaves its client in an unsafe state. -/
theorem not_stateSafe_of_step (hI : AllClients StateInv g) (h : step E g (w, e) = some g')
    (hrange : ¬ HandshakeInRange E g (w, e)) : ¬ AllClients StateSafe g' := by
  intro hsafe
  apply hrange
  intro i data c p f he hc halive hstate hp hf
  by_contra hn
  obtain rfl : e = .onLengthReceive i false data := he
  obtain ⟨handle, loopback, verifyToken, hne, -⟩ | hsim := step_simulates h
  · cases hne
  obtain ⟨c', hc', l, ⟨c₀, hq, hdid⟩, hfrom⟩ := hsim.2 i c hc
  rw [FromEvent, if_pos rfl, FromRead, if_pos ⟨halive, rfl⟩] at hfrom
  simp only [hp] at hfrom
  obtain rfl := hfrom.1.handshake_eq hf hstate
  obtain ⟨-, hq'⟩ := hdid
  refine not_stateSafe ?_ ?_ (hsafe i c' hc')
  · rw [hq'.state]
    exact hn
  · rw [hq'.onPlayerLogin_mem]
    exact fun hmem => ((hI i c hc).fresh hstate).1 (hq.onPlayerLogin_mem.mp hmem)

theorem stateInv_new (handle : Word) (loopback : Bool) (verifyToken : Block 4) :
    StateInv (Client.new .login ⟨handle, loopback, .connected⟩ verifyToken) where
  safe := ⟨Or.inl rfl, fun h => by cases h⟩
  fresh := fun _ => ⟨by simp [Client.new], rfl⟩

end Steps

/-- **The states along a run.** They are enumerators, and `PLAY` comes only with `onPlayerLogin`, exactly
when every handshake that a client completes in `HANDSHAKE` asks for a state before the login. -/
theorem stateSafe_iff (E : Env) (run : List (World × Event)) :
    AllStates (step E) (AllClients StateSafe) Gateway.init run ↔
      AllSteps (step E) (HandshakeInRange E) Gateway.init run :=
  allStates_iff_allSteps (I := AllClients StateInv)
    (fun _ _ _ hI hrange h => hI.of_step stateInv_new (fun _ _ _ _ hj hc hconn hfrom =>
      hc.fromEvent hj hconn hfrom hrange) h)
    (fun _ hI j c hc => (hI j c hc).safe) (fun _ _ _ hI hrange h => not_stateSafe_of_step hI h hrange) allClients_init

/-! ## A run -/

/-- Libraries for a run: `zlib` cannot be used, the cipher changes nothing, and one JSON text is known. -/
def Env.plain (json id name : Bytes) : Env where
  zlib := .unusable
  fuel := 0
  cipher := ⟨fun _ input => some ⟨input, rfl⟩, fun _ input => some ⟨input, rfl⟩⟩
  sha1 := fun _ => ⟨List.replicate 20 1, rfl⟩
  sha256 := fun _ => ⟨List.replicate 32 1, rfl⟩
  publicKeyString := []
  parsePlayerInfo := fun text => if text = json then some (id, name) else none

/-- Every call succeeds, and the sealed bytes are the clear ones. -/
def World.plain : World where
  ambient := .zero
  verifyToken := ⟨[1, 2, 3, 4], rfl⟩
  pkeyContext := true
  pkeyDecryptInit := true
  pkeyPadding := true
  pkeyDecrypt := some
  sha1Init := true
  resolves := true
  freedReads := false

/-- A client connects and sends a handshake that asks for `PLAY`. -/
def playHandshake : List (World × Event) :=
  [(.plain, .acceptConstruct 7 false zeroToken), (.plain, .acceptInsert),
    (.plain, .onLengthReceive 0 false [6, 0, 47, 0, 0, 0, 3])]

/-- The handshake alone puts its client into `PLAY`. -/
theorem handshake_reaches_play :
    ¬ ∀ (E : Env) (run : List (World × Event)), AllStates (step E) (AllClients StateSafe) Gateway.init run := by
  intro h
  have hplay : (clientAfter (.plain [] [] []) playHandshake 0).map
      (fun c => (c.state, decide (.onPlayerLogin ∈ c.log))) = some (.PLAY, false) := by
    decide +kernel
  obtain ⟨c, hc, hstate⟩ := Option.map_eq_some_iff.mp hplay
  obtain ⟨hstate, hlog⟩ := Prod.mk.injEq _ _ _ _ ▸ hstate
  exact of_decide_eq_false hlog ((AllClients.after (h _ _) hc).2 hstate)

end CeriosCluster.ClientGateway
