import CeriosCluster.ClientGateway.Frame

/-!
# The login of one connection as an automaton

What one handler does to the login of one client is one of the labelled steps below, with quiet pieces
before and after it. The automaton forgets bytes, sockets and owners: it keeps the state, the keys, the
names, the requests in flight, the encryption flag and the log.
-/

namespace CeriosCluster.ClientGateway

open CeriosCluster.Lib CeriosCluster.MCPacket

/-- A step of a connection's login. -/
inductive Label
  | quiet
  | handshake (requestedNextState : ClientState)
  | loginStart (playerName : Bytes) (verifyToken : Block 4)
  | loopbackLogin (playerName userid : Bytes)
  | loopbackLoginFailed (playerName userid : Bytes)
  | accepted (verifyTokenBuffer sharedSecret : Bytes)
  | requested (verifyTokenBuffer sharedSecret text : Bytes)
  | staged (k : Nat) (stage : Stage)
  | authenticated (k : Nat) (id name : Bytes)
  | authenticatedFailed (k : Nat) (id name : Bytes)

/-- The step accepts an `EncryptionPacket` with these decrypted bytes for a token and this secret. -/
def Label.Accepting (token sharedSecret : Bytes) (l : Label) : Prop :=
  l = .accepted token sharedSecret ∨ ∃ text, l = .requested token sharedSecret text

def loginSuccessPacket (c : Client) : Packet := ⟨0x02, [], false, .loginSuccess ⟨c.userid, c.requestedUsername⟩⟩

namespace Client

/-- The token matched with these bytes decrypted, and the ciphers have this key. -/
def accept (c : Client) (verifyTokenBuffer : Bytes) (key : Block 16) : Client :=
  { c with
    encryptCipherContext := some ⟨key, []⟩
    decryptCipherContext := some ⟨key, []⟩
    log := c.log ++ [.tokenMatched verifyTokenBuffer c.verifyToken] }

def request (c : Client) (sharedSecret text : Bytes) : Client :=
  { c with requests := c.requests ++ [⟨sharedSecret, text, .connecting⟩] }

def stage (c : Client) (k : Nat) (stage : Stage) : Client :=
  { c with requests := c.requests.modify k fun r => { r with stage := stage } }

/-- The session server answered, and encryption is on. -/
def join (c : Client) (sharedSecret id name : Bytes) : Client :=
  { c with
    userid := formatUUID id
    requestedUsername := name
    encrypted := true
    buffer := []
    log := c.log ++ [.hasJoined sharedSecret c.encryptCipherContext c.decryptCipherContext] }

/-- `onPlayerLogin` up to the packet it sends. -/
def login (c : Client) : Client := (c.logged .onPlayerLogin).logged (.sendPacket (loginSuccessPacket c))

def play (c : Client) : Client := { c with state := .PLAY }

end Client

def Unframable (E : Env) (c : Client) : Prop :=
  ∃ e p, Packet.toWire E.zlib E.fuel getSide c.compressionThreshold (loginSuccessPacket c) = .threw e p

/-- The automaton's steps; what is quiet after one of them belongs to it. -/
def Did (E : Env) (c c' : Client) : Label → Prop
  | .quiet => Quiet c c'
  | .handshake n => c.state = .HANDSHAKE ∧ Quiet { c with state := n } c'
  | .loginStart name token => c.state = .LOGIN ∧ Quiet { c with requestedUsername := name, verifyToken := token } c'
  | .loopbackLogin name userid =>
    c.state = .LOGIN ∧ c.socket.loopback ∧ Quiet { c with requestedUsername := name, userid := userid }.login.play c'
  | .loopbackLoginFailed name userid =>
    c.state = .LOGIN ∧ c.socket.loopback ∧ Quiet { c with requestedUsername := name, userid := userid }.login c'
  | .accepted token sharedSecret =>
    c.state = .LOGIN ∧ c.requestedUsername ≠ [] ∧ ∃ key : Block 16, key.val = sharedSecret.take 16 ∧
      Quiet (c.accept token key) c'
  | .requested token sharedSecret text =>
    c.state = .LOGIN ∧ c.requestedUsername ≠ [] ∧ ∃ key : Block 16, key.val = sharedSecret.take 16 ∧
      Quiet ((c.accept token key).request sharedSecret text) c'
  | .staged k stage => (∃ r, c.requests[k]? = some r ∧ r.InFlight) ∧ Quiet (c.stage k stage) c'
  | .authenticated k id name =>
    ∃ r, c.requests[k]? = some r ∧ r.InFlight ∧
      Quiet (((c.stage k .finished).join r.sharedSecret id name).login.play) c'
  | .authenticatedFailed k id name =>
    ∃ r, c.requests[k]? = some r ∧ r.InFlight ∧ Unframable E ((c.stage k .finished).join r.sharedSecret id name) ∧
      Quiet (((c.stage k .finished).join r.sharedSecret id name).login) c'

/-- One handler: a labelled step after a quiet piece. -/
def ConnStep (E : Env) (l : Label) (c c' : Client) : Prop := ∃ c₀, Quiet c c₀ ∧ Did E c₀ c' l

section Compose

variable {E : Env} {l : Label} {c c' c'' : Client}

theorem Did.quiet_after (h : Did E c c' l) (hq : Quiet c' c'') : Did E c c'' l := by
  cases l with
  | quiet => exact Quiet.trans h hq
  | handshake n => exact ⟨h.1, h.2.trans hq⟩
  | loginStart name token => exact ⟨h.1, h.2.trans hq⟩
  | loopbackLogin name userid => exact ⟨h.1, h.2.1, h.2.2.trans hq⟩
  | loopbackLoginFailed name userid => exact ⟨h.1, h.2.1, h.2.2.trans hq⟩
  | accepted token sharedSecret =>
    obtain ⟨hstate, hname, key, hkey, hrest⟩ := h
    exact ⟨hstate, hname, key, hkey, hrest.trans hq⟩
  | requested token sharedSecret text =>
    obtain ⟨hstate, hname, key, hkey, hrest⟩ := h
    exact ⟨hstate, hname, key, hkey, hrest.trans hq⟩
  | staged k stage => exact ⟨h.1, h.2.trans hq⟩
  | authenticated k id name =>
    obtain ⟨r, hr, hflight, hrest⟩ := h
    exact ⟨r, hr, hflight, hrest.trans hq⟩
  | authenticatedFailed k id name =>
    obtain ⟨r, hr, hflight, hframe, hrest⟩ := h
    exact ⟨r, hr, hflight, hframe, hrest.trans hq⟩

theorem ConnStep.quiet_after (h : ConnStep E l c c') (hq : Quiet c' c'') : ConnStep E l c c'' := by
  obtain ⟨c₀, h₀, hdid⟩ := h
  exact ⟨c₀, h₀, hdid.quiet_after hq⟩

theorem ConnStep.quiet_before (hq : Quiet c c') (h : ConnStep E l c' c'') : ConnStep E l c c'' := by
  obtain ⟨c₀, h₀, hdid⟩ := h
  exact ⟨c₀, hq.trans h₀, hdid⟩

theorem ConnStep.of_did (h : Did E c c' l) : ConnStep E l c c' := ⟨c, Quiet.refl c, h⟩

theorem ConnStep.of_quiet (h : Quiet c c') : ConnStep E .quiet c c' := ⟨c, Quiet.refl c, h⟩

end Compose

/-! ## One client apart -/

/-- The client at `i` now satisfies `P`, and every other one is as it was, up to quiet pieces. -/
def Turned (g : Gateway) (i : ConnId) (P : Client → Prop) (g' : Gateway) : Prop :=
  EveryClient (fun j c c' => if j = i then P c' else Quiet c c') g g'

namespace Turned

variable {α : Type} {g g₁ g₂ : Gateway} {i : ConnId} {c : Client} {P R : Client → Prop} {f : Client → Client}
  {m : M α} {E : Exn → Gateway → Prop}

theorem start (h : Live g i c) : Turned g i (· = c) g := by
  refine ⟨rfl, fun j c' hc' => ⟨c', hc', ?_⟩⟩
  dsimp only
  split
  · next hj =>
    subst hj
    exact Option.some.inj (hc'.symm.trans h.1)
  · exact Quiet.refl c'

theorem mono (h : Turned g i P g₁) (hP : ∀ c, P c → R c) : Turned g i R g₁ := by
  refine EveryClient.mono h fun j c c' hc => ?_
  split at hc
  · next hj => rw [if_pos hj]; exact hP c' hc
  · next hj => rw [if_neg hj]; exact hc

theorem quiet (h : Turned g i P g₁) (hq : AllQuiet g₁ g₂) (hP : ∀ c c', P c → Quiet c c' → R c') :
    Turned g i R g₂ := by
  refine EveryClient.trans h hq fun j c c' c'' hc hc' => ?_
  split at hc
  · next hj => rw [if_pos hj]; exact hP c' c'' hc hc'
  · next hj => rw [if_neg hj]; exact hc.trans hc'

theorem modify (h : Turned g i P g₁) (hf : ∀ c, P c → R (f c)) : Turned g i R (g₁.modify i f) := by
  refine ⟨by simpa [Gateway.modify] using h.1, fun j c hc => ?_⟩
  obtain ⟨c', hc', hq⟩ := h.2 j c hc
  rw [g₁.getElem?_modify, hc']
  split at hq
  · next hj => exact ⟨f c', by simp [hj], by simpa only [if_pos hj] using hf c' hq⟩
  · next hj => exact ⟨c', by simp [Ne.symm hj], by simpa only [if_neg hj] using hq⟩

/-- The client is still there, and satisfies `P`. -/
theorem now (h : Turned g i P g₁) (hd : g.objects[i]? = some c) : ∃ c', g₁.objects[i]? = some c' ∧ P c' := by
  obtain ⟨c', hc', hP⟩ := h.2 i c hd
  rw [if_pos rfl] at hP
  exact ⟨c', hc', hP⟩

theorem live (h : Turned g i P g₁) (hl : Live g₁ i c) : P c := by
  have hlt : i < g.objects.length := by
    rw [← h.1]
    exact (List.getElem?_eq_some_iff.mp hl.1).1
  obtain ⟨c', hc', hP⟩ := h.now (List.getElem?_eq_getElem hlt)
  obtain rfl : c' = c := Option.some.inj (hc'.symm.trans hl.1)
  exact hP

/-- The client that is there is the one that satisfies `P`. -/
theorem exact (h : Turned g i P g₁) (hl : Live g₁ i c) : Turned g i (· = c) g₁ := by
  refine ⟨h.1, fun j c₀ hc₀ => ?_⟩
  obtain ⟨c', hc', hq⟩ := h.2 j c₀ hc₀
  refine ⟨c', hc', ?_⟩
  split at hq
  · next hj =>
    subst hj
    simpa using Option.some.inj (hc'.symm.trans hl.1)
  · next hj => simpa only [if_neg hj] using hq

theorem wp_client {Q : Client → Gateway → Prop} (h : Turned g i P g₁) (hQ : ∀ c, P c → Q c g₁) :
    Exec.wp (client i) Q E g₁ :=
  ClientGateway.wp_client.mpr fun c hl => hQ c (h.live hl)

theorem wp_modify {Q : Unit → Gateway → Prop} (h : Turned g i P g₁) (hf : ∀ c, P c → R (f c))
    (hQ : ∀ g₂, Turned g i R g₂ → Q () g₂) : Exec.wp (modifyClient i f) Q E g₁ :=
  wp_modifyClient.mpr fun _ _ => hQ _ (h.modify hf)

theorem wp_modify_eq {Q : Unit → Gateway → Prop} (h : Turned g i (· = c) g₁)
    (hQ : ∀ g₂, Turned g i (· = f c) g₂ → Q () g₂) : Exec.wp (modifyClient i f) Q E g₁ :=
  h.wp_modify (R := fun c' => c' = f c) (fun _ hc => congrArg f hc) hQ

theorem wp_client_eq {Q : Client → Gateway → Prop} (h : Turned g i (· = c) g₁) (hQ : Q c g₁) :
    Exec.wp (client i) Q E g₁ :=
  h.wp_client fun _ hc => hc ▸ hQ

theorem wp_keeps {Q : α → Gateway → Prop} (h : Turned g i P g₁) (hm : Exec.Keeps AllQuiet m)
    (hP : ∀ c c', P c → Quiet c c' → R c') (hQ : ∀ a g₂, Turned g i R g₂ → Q a g₂)
    (hE : ∀ e g₂, Turned g i R g₂ → E e g₂) : Exec.wp m Q E g₁ :=
  Exec.wp_mono (hm g₁) (fun a g₂ hq => hQ a g₂ (h.quiet hq hP)) (fun e g₂ hq => hE e g₂ (h.quiet hq hP))

end Turned

end CeriosCluster.ClientGateway
