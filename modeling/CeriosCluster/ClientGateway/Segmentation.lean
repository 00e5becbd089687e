import CeriosCluster.ClientGateway.Frames
import CeriosCluster.ClientGateway.Input
import CeriosCluster.ClientGateway.ReadLoop

/-!
# The segmentation of a stream

Every call of `onLengthReceive` takes at most one frame off the buffer, however many have arrived. As long as
no call leaves a complete frame behind, what a client is handed is the fold of its stream's frames, which does
not depend on how the stream was cut into chunks.
-/

namespace CeriosCluster.ClientGateway

open CeriosCluster.Lib CeriosCluster.MCPacket

/-- A chunk is delivered, and the call neither throws nor disconnects the client. -/
def deliver (E : Env) (i : ConnId) (g : Gateway) (call : World × Bytes) : Option Gateway :=
  match onLengthReceive E call.1 i false call.2 g with
  | .ok _ g' => do
    let c ← g'.objects[i]?
    if c.alive then some g' else none
  | _ => none

def stream (calls : List (World × Bytes)) : Bytes := calls.flatMap (·.2)

/-- The buffer holds at most one complete frame when the call parses it, with its id if more has arrived. -/
def TakesOneFrame (i : ConnId) (g : Gateway) (call : World × Bytes) : Prop :=
  ∀ c, g.objects[i]? = some c → OneFrame (c.buffer ++ call.2)

instance (i : ConnId) (g : Gateway) (call : World × Bytes) : Decidable (TakesOneFrame i g call) :=
  match h : g.objects[i]? with
  | none => isTrue fun c hc => by rw [h] at hc; cases hc
  | some c =>
    decidable_of_iff (OneFrame (c.buffer ++ call.2))
      ⟨fun hone d hd => by rw [h] at hd; exact Option.some.inj hd ▸ hone, fun hone => hone c h⟩

/-- The state of a connection after a packet that `receivedMessage` handles without an exception. -/
def nextState (state : ClientState) (loopback : Bool) (packet : Packet) : ClientState :=
  match packet.fields with
  | .handshake f => if state = .HANDSHAKE then f.requestedNextState else state
  | .loginStart _ => if state = .LOGIN ∧ loopback = true then .PLAY else state
  | _ => state

/-- The state of a connection and the packets it has been handed, one packet later. -/
def handOver (loopback : Bool) (s : ClientState × List Packet) : Option Packet → ClientState × List Packet
  | none => s
  | some packet => (nextState s.1 loopback packet, s.2 ++ [packet])

/-- The same, one frame later. -/
def decodeFrame (E : Env) (a : Ambient) (loopback : Bool) (s : ClientState × List Packet) (f : Frame) :
    ClientState × List Packet :=
  handOver loopback s (f.bind (parsedFrame E s.1 a))

/-! ## The state after one packet -/

section State

variable {E : Env} {w : World} {i : ConnId} {g g₁ : Gateway} {c d : Client} {packet : Packet}

theorem state_of_onPlayerLogin (h : Turned g i (· = d) g₁) :
    Exec.wp (onPlayerLogin E w i) (fun _ => Turned g i fun c => c.state = .PLAY) (fun _ _ => True) g₁ :=
  Exec.wp_mono (wp_onPlayerLogin h) (fun _ _ h₂ => h₂.mono fun _ hc => hc.state) fun _ _ _ => trivial

theorem state_of_receivedLoginStart {f : LoginStartPacket} (hstate : d.state = .LOGIN) (h : Turned g i (· = d) g₁) :
    Exec.wp (receivedLoginStart E w i f)
      (fun _ => Turned g i fun c => c.state = if d.socket.loopback = true then .PLAY else .LOGIN)
        (fun _ _ => True) g₁ := by
  rw [receivedLoginStart, Exec.wp_bind]
  refine h.wp_modify_eq fun g₂ h₂ => ?_
  rw [Exec.wp_bind, remoteEndpoint, Exec.wp_bind]
  refine h₂.wp_client_eq ?_
  rw [Exec.wp_ite]
  refine ⟨fun _ => ?_, fun _ => trivial⟩
  rw [Exec.wp_pure, Exec.wp_bind]
  refine h₂.wp_client_eq ?_
  rw [Exec.wp_ite]
  refine ⟨fun hloopback => ?_, fun hremote => ?_⟩
  · rw [Exec.wp_bind]
    refine h₂.wp_modify_eq fun g₃ h₃ => ?_
    rw [Exec.wp_bind]
    refine h₃.wp_modify_eq fun g₄ h₄ => ?_
    rw [if_pos hloopback]
    exact state_of_onPlayerLogin h₄
  · rw [newPacket_encryption, Exec.wp_bind]
    refine h₂.wp_modify_eq fun g₃ h₃ => ?_
    rw [if_neg hremote]
    refine (h₃.mono fun _ => Quiet.of_eq).wp_keeps (Inert.quiet (inert_sendPacket (by simp [Fields.packetClass])))
      (fun _ _ => Quiet.trans) (fun _ _ h₄ => h₄.mono fun c hc => ?_) fun _ _ _ => trivial
    exact hc.state.trans hstate

/-- A packet that is no `LoginStartPacket` changes the state as the label of its step says. -/
theorem nextState_of_step {c' : Client} {l : Label} (hpacket : ∀ f, packet.fields ≠ .loginStart f)
    (hstep : ConnStep E l c c') (hfrom : FromPacket w c packet l) :
      c'.state = nextState c.state c.socket.loopback packet := by
  obtain ⟨c₀, hq, hdid⟩ := hstep
  unfold nextState
  cases l with
  | quiet =>
    have hstate : c'.state = c.state := (Quiet.state hdid).trans hq.state
    split
    · next f hf => rw [if_neg (hfrom f hf), hstate]
    · next f hf => exact absurd hf (hpacket f)
    · exact hstate
  | handshake n =>
    obtain ⟨f, hf, rfl⟩ := hfrom
    rw [hf]
    dsimp only
    rw [if_pos (hq.state.symm.trans hdid.1), hdid.2.state]
  | loginStart name token => exact absurd hfrom (hpacket _)
  | loopbackLogin name userid => exact absurd hfrom (hpacket _)
  | loopbackLoginFailed name userid => exact absurd hfrom (hpacket _)
  | accepted token sharedSecret =>
    obtain ⟨f, hf, -⟩ := hfrom
    obtain ⟨-, -, key, -, hlast⟩ := hdid
    rw [hf]
    exact hlast.state.trans hq.state
  | requested token sharedSecret text =>
    obtain ⟨f, hf, -⟩ := hfrom
    obtain ⟨-, -, key, -, hlast⟩ := hdid
    rw [hf]
    exact hlast.state.trans hq.state
  | staged k stage => exact hfrom.elim
  | authenticated k id name => exact hfrom.elim
  | authenticatedFailed k id name => exact hfrom.elim

theorem wp_receivedMessage_state (h : Turned g i (· = c) g₁) :
    Exec.wp (receivedMessage E w i packet)
      (fun _ => Turned g i fun c' => c'.state = nextState c.state c.socket.loopback packet) (fun _ _ => True) g₁ := by
  by_cases hstart : ∃ f, packet.fields = .loginStart f
  · obtain ⟨f, hf⟩ := hstart
    rw [receivedMessage, Exec.wp_bind, record]
    refine h.wp_modify_eq fun g₂ h₂ => ?_
    unfold nextState
    rw [hf]
    dsimp only
    rw [Exec.wp_bind]
    refine h₂.wp_client_eq ?_
    rw [onPacketReceived_then, Exec.wp_ite]
    refine ⟨fun hlogin => ?_, fun hother => ?_⟩
    · refine Exec.wp_mono (state_of_receivedLoginStart hlogin h₂) (fun _ g₃ h₃ => h₃.mono fun c' hc' => ?_) fun _ _ _ =>
        trivial
      have hlogin : c.state = .LOGIN := hlogin
      have hc' : c'.state = if c.socket.loopback = true then .PLAY else .LOGIN := hc'
      rw [hc', hlogin]
      simp
    · refine h₂.mono fun c' hc' => ?_
      have hother : c.state ≠ .LOGIN := hother
      rw [if_neg fun hboth => hother hboth.1, hc']
      rfl
  · have hpacket : ∀ f, packet.fields ≠ .loginStart f := fun f hf => hstart ⟨f, hf⟩
    refine Exec.wp_mono (wp_receivedMessage (h.mono fun _ => Quiet.of_eq)) (fun _ g₂ h₂ => h₂.mono ?_) fun _ _ _ =>
      trivial
    rintro c' ⟨l, hstep, hfrom, -⟩
    exact nextState_of_step hpacket hstep hfrom

end State

/-! ## One call -/

section Calls

variable {E : Env} {w : World} {i : ConnId} {g g' : Gateway} {c c' : Client} {call : World × Bytes}
  {calls : List (World × Bytes)}
  {packet : Packet} {a : Ambient}

structure Handed (packet : Packet) (c c' : Client) : Prop where
  input : SameInput (c.logged (.receivedMessage packet)) c'
  state : c'.state = nextState c.state c.socket.loopback packet

theorem wp_handled (packet : Packet) (h : Live g i c) :
    Exec.wp (do
      let handled ← Exec.tryCatch (do
        receivedMessage E w i packet
        pure true) fun _ => do
          disconnect w i
          pure false
      if handled then startAsyncRead i else pure ())
      (fun _ g' => ∀ c', g'.objects[i]? = some c' → c'.alive = true → Handed packet c c') (fun _ _ => True) g := by
  rw [Exec.wp_bind, Exec.wp_tryCatch, Exec.wp_bind]
  have hstart := Turned.start h
  have hthrew : Exec.wp (receivedMessage E w i packet) (fun _ _ => True) (fun _ => Turned g i fun _ => True) g :=
    Exec.wp_mono (wp_receivedMessage (hstart.mono fun _ => Quiet.of_eq)) (fun _ _ _ => trivial) fun _ _ h₁ =>
      h₁.mono fun _ _ => trivial
  have hall := Exec.wp_and (Exec.wp_and (wp_receivedMessage_input packet) (wp_receivedMessage_state hstart)) hthrew
  refine Exec.wp_mono hall (fun _ g₁ ⟨⟨hinput, hstate⟩, _⟩ => ?_) fun _ g₁ ⟨_, hthrew⟩ => ?_
  · rw [Exec.wp_pure, if_pos rfl, startAsyncRead, wp_modifyClient]
    intro c₁ hl₁ c' hc' _
    obtain ⟨d, hd, hsame⟩ := hinput.2 i _ (h.modify (f := fun c => c.logged (.receivedMessage packet)) rfl).1
    obtain rfl := Option.some.inj (hd.symm.trans hl₁.1)
    have hd := hstate.live hl₁
    have hread := hl₁.modify (f := fun c => { c with readPending := true }) rfl
    obtain rfl := Option.some.inj (hread.1.symm.trans hc')
    exact ⟨hsame.trans { SameInput.refl d with }, hd⟩
  · rw [Exec.wp_bind]
    refine Exec.wp_mono (wp_disconnect (P := fun _ => True) (fun _ _ h _ => h) hthrew) (fun _ g₂ h₂ => ?_) fun _ _ _ =>
      trivial
    rw [Exec.wp_pure, if_neg (by simp)]
    intro c' hc' halive
    obtain ⟨d, hd, -, hdead⟩ := h₂.now h.1
    obtain rfl := Option.some.inj (hd.symm.trans hc')
    exact absurd (hdead.symm.trans halive) Bool.noConfusion

structure InClearText (c : Client) : Prop where
  encrypted : c.encrypted = false
  compressionThreshold : c.compressionThreshold = noCompression

/-- The client has been handed what the frames of `b` hold, and keeps the rest. -/
structure Decoded (E : Env) (a : Ambient) (b : Bytes) (c c' : Client) : Prop where
  clear : InClearText c'
  loopback : c'.socket.loopback = c.socket.loopback
  decoded : (c'.state, c'.received) = (framing.frames b).foldl (decodeFrame E a c.socket.loopback) (c.state, c.received)
  buffer : c'.buffer = framing.rest b

/-- What the parser gives is the fold of the frames it takes. -/
theorem decodeFrame_of_parse {state : ClientState} {b b' : Bytes} {p : Option Packet} (hone : OneFrame b)
    (h : parseReceived E w state false b = .ok p b') (loopback : Bool) (received : List Packet) :
    framing.rest b = b' ∧
      (framing.frames b).foldl (decodeFrame E w.ambient loopback) (state, received) =
        handOver loopback (state, received) p := by
  have hparsed := parseReceived_of_ok hone h
  cases hnext : nextFrame b with
  | none =>
    rw [hnext] at hparsed
    obtain ⟨rfl, rfl⟩ := hparsed
    rw [Framing.frames_of_none (F := framing) hnext, Framing.rest_of_none (F := framing) hnext]
    exact ⟨rfl, rfl⟩
  | some taken =>
    rw [hnext] at hparsed
    obtain ⟨rfl, rfl⟩ := hparsed
    obtain ⟨hframes, hrest⟩ := hone.frames hnext
    rw [hframes]
    exact ⟨hrest, rfl⟩

theorem decoded_of_parse (h : Live g i c) (hclear : InClearText c) (hone : OneFrame c.buffer) :
    Exec.wp (parseAndHandle E w i)
      (fun _ g' => ∀ c', g'.objects[i]? = some c' → c'.alive = true →
        Decoded E w.ambient c.buffer c c') (fun _ _ => True) g := by
  have hplain : decide (0 ≤ c.compressionThreshold.toInt) = false := by
    rw [hclear.compressionThreshold]
    decide
  unfold parseAndHandle Exec.wp
  rw [Exec.run_bind_ok (run_client h), hplain]
  have hrun := run_onBuffer (m := parseReceived E w c.state false) h
  cases hparse : parseReceived E w c.state false c.buffer with
  | threw e b =>
    rw [hparse] at hrun
    rw [Exec.run_bind_threw hrun]
    trivial
  | undefined =>
    rw [hparse] at hrun
    rw [Exec.run_bind_undefined hrun]
    trivial
  | diverged =>
    rw [hparse] at hrun
    rw [Exec.run_bind_diverged hrun]
    trivial
  | ok p b =>
    rw [hparse] at hrun
    rw [Exec.run_bind_ok hrun]
    have hl₁ : Live (g.modify i fun c => { c with buffer := b }) i { c with buffer := b } := h.modify rfl
    obtain ⟨hrest, hpacket⟩ := decodeFrame_of_parse (w := w) hone hparse c.socket.loopback c.received
    cases p with
    | none =>
      show Exec.wp (startAsyncRead i) _ _ _
      rw [startAsyncRead, wp_modifyClient]
      intro c₁ hl c' hc' _
      obtain rfl := Option.some.inj (hl₁.1.symm.trans hl.1)
      obtain rfl := Option.some.inj ((hl₁.modify (f := fun c => { c with readPending := true }) rfl).1.symm.trans hc')
      exact ⟨⟨hclear.encrypted, hclear.compressionThreshold⟩, rfl, hpacket.symm, hrest.symm⟩
    | some packet =>
      refine Exec.wp_mono (wp_handled packet hl₁) (fun _ g' hhanded c' hc' halive => ?_) fun _ _ _ => trivial
      obtain ⟨hinput, hstate⟩ := hhanded c' hc' halive
      refine ⟨⟨hinput.encrypted.trans hclear.encrypted, hinput.compressionThreshold.trans hclear.compressionThreshold⟩,
        hinput.loopback, ?_, hinput.buffer.trans hrest.symm⟩
      rw [hpacket, hstate, hinput.received, received_logged]
      rfl

/-- A delivered chunk leaves the client with what the frames of its buffer hold. -/
theorem decoded_of_deliver (hc : g.objects[i]? = some c) (hclear : InClearText c) (hone : TakesOneFrame i g call)
    (h : deliver E i g call = some g') :
    ∃ c', g'.objects[i]? = some c' ∧ Decoded E call.1.ambient (c.buffer ++ call.2) c c' := by
  have hwp : Exec.wp (onLengthReceive E call.1 i false call.2)
      (fun _ g' => ∀ c', g'.objects[i]? = some c' → c'.alive = true →
        Decoded E call.1.ambient (c.buffer ++ call.2) c c')
      (fun _ _ => True) g := by
    refine wp_client_first ⟨_, rfl⟩ hc fun hl => ?_
    cases halive : c.alive with
    | false =>
      unfold onLengthReceive Exec.wp
      rw [Exec.run_bind_ok (run_client hl), if_pos (by simp [halive])]
      intro c' hc' halive'
      obtain rfl := Option.some.inj (hc.symm.trans hc')
      exact absurd (halive.symm.trans halive') Bool.noConfusion
    | true =>
      obtain ⟨g₁, hrun, hl₁⟩ := run_appendReceived_clear (E := E) call.2 hl hclear.encrypted
      unfold Exec.wp
      rw [onLengthReceive_live hl halive]
      refine (congrArg (Exec.Sat _ _) (Exec.run_bind_ok hrun)).mpr ?_
      refine Exec.wp_mono (decoded_of_parse hl₁ ⟨hclear.encrypted, hclear.compressionThreshold⟩ (hone c hc))
        (fun _ g' hdecoded c' hc' halive' => ?_) fun _ _ _ => trivial
      have hreceived : Client.received { c with buffer := c.buffer ++ call.2, log := c.log ++ [.appended call.2] } =
        c.received :=
        received_appended (c := { c with buffer := c.buffer ++ call.2 }) call.2
      obtain ⟨hclear', hloopback, hfold, hbuffer⟩ := hdecoded c' hc' halive'
      rw [hreceived] at hfold
      exact ⟨hclear', hloopback, hfold, hbuffer⟩
  unfold deliver at h
  split at h
  · next g₁ hrun =>
    obtain ⟨c', hc', hkept⟩ := Option.bind_eq_some_iff.mp h
    obtain ⟨halive, hg₁⟩ := Option.ite_none_right_eq_some.mp hkept
    obtain rfl := Option.some.inj hg₁
    exact ⟨c', hc', hwp.of_ok hrun c' hc' halive⟩
  · cases h

/-! ## A run -/

theorem Decoded.trans {b x : Bytes} {c'' : Client} (h : Decoded E a b c c') (h' : Decoded E a (c'.buffer ++ x) c' c'') :
    Decoded E a (b ++ x) c c'' := by
  obtain ⟨hframes, hrest⟩ := Framing.frames_append (F := framing) b x
  refine ⟨h'.clear, h'.loopback.trans h.loopback, ?_, ?_⟩
  · rw [h'.decoded, h.decoded, h.loopback, h.buffer, hframes, List.foldl_append]
  · rw [h'.buffer, h.buffer, hrest]

theorem stream_cons : stream (call :: calls) = call.2 ++ stream calls := List.flatMap_cons

/-- **What a run hands over** is the fold of the frames of its stream. By induction on the calls: each of them leaves a
buffer without a complete frame, so the frames of what has arrived and of what is still to come are those of the
stream. -/
theorem decoded_of_run (hc : g.objects[i]? = some c) (hclear : InClearText c)
    (hlast : calls = [] → nextFrame c.buffer = none) (hambient : ∀ call ∈ calls, call.1.ambient = a)
    (hone : AllSteps (deliver E i) (TakesOneFrame i) g calls) (hrun : runFrom (deliver E i) g calls = some g')
    (hc' : g'.objects[i]? = some c') :
    Decoded E a (c.buffer ++ stream calls) c c' := by
  induction calls generalizing g c with
  | nil =>
    obtain rfl := Option.some.inj hrun
    obtain rfl := Option.some.inj (hc.symm.trans hc')
    have hnone : framing.next (c.buffer ++ stream []) = none := by
      show nextFrame (c.buffer ++ []) = none
      rw [List.append_nil]
      exact hlast rfl
    refine ⟨hclear, rfl, ?_, ?_⟩
    · rw [Framing.frames_of_none hnone]
      rfl
    · rw [Framing.rest_of_none hnone]
      exact (List.append_nil _).symm
  | cons call calls ih =>
    obtain ⟨g₁, hstep, hrest⟩ := runFrom_cons_some hrun
    obtain ⟨htakes, hlater⟩ := hone g₁ hstep
    obtain ⟨c₁, hc₁, hdecoded⟩ := decoded_of_deliver hc hclear htakes hstep
    rw [hambient call List.mem_cons_self] at hdecoded
    have hnone : nextFrame c₁.buffer = none := by
      rw [hdecoded.buffer]
      exact framing.next_rest _
    have hih := ih hc₁ hdecoded.clear (fun _ => hnone) (fun call hmem =>
      hambient call (List.mem_cons_of_mem _ hmem)) hlater hrest
    rw [stream_cons, ← List.append_assoc]
    exact hdecoded.trans hih

end Calls

/-- Non-empty chunks are delivered to the client, no call throws or disconnects it, and it ends as `c'`. The packets are
all made in the same memory. -/
structure Delivers (E : Env) (a : Ambient) (i : ConnId) (g : Gateway) (calls : List (World × Bytes)) (c' : Client) :
    Prop where
  nonempty : ∀ call ∈ calls, call.2 ≠ []
  ambient : ∀ call ∈ calls, call.1.ambient = a
  run : ∃ g', runFrom (deliver E i) g calls = some g' ∧ g'.objects[i]? = some c'

/-- The same packets have been handed over, and the same bytes are left, with no complete frame at their front. -/
structure SameOutcome (calls : List (World × Bytes)) (c₁ c₂ : Client) : Prop where
  received : c₁.received = c₂.received
  buffer : c₁.buffer = c₂.buffer
  noFrame : calls ≠ [] → nextFrame c₁.buffer = none

theorem stream_eq_nil {calls : List (World × Bytes)} (hnonempty : ∀ call ∈ calls, call.2 ≠ []) (h : stream calls = []) :
    calls = [] := by
  cases calls with
  | nil => rfl
  | cons call calls =>
    rw [stream_cons] at h
    exact absurd (List.append_eq_nil_iff.mp h).1 (hnonempty call List.mem_cons_self)

/-- **Segmentation.** However a stream is cut, a client in clear text is handed the same packets and keeps the same
bytes, with no complete frame among them, as long as every call takes the only frame its buffer holds. -/
theorem sameOutcome_of_takesOneFrame (E : Env) (a : Ambient) (i : ConnId) (g : Gateway) (c c₁ c₂ : Client)
    (calls₁ calls₂ : List (World × Bytes)) (hc : g.objects[i]? = some c) (hclear : InClearText c)
    (h₁ : Delivers E a i g calls₁ c₁) (h₂ : Delivers E a i g calls₂ c₂) (hstream : stream calls₁ = stream calls₂)
    (hone₁ : AllSteps (deliver E i) (TakesOneFrame i) g calls₁)
    (hone₂ : AllSteps (deliver E i) (TakesOneFrame i) g calls₂) :
    SameOutcome calls₁ c₁ c₂ := by
  obtain ⟨g₁, hrun₁, hc₁⟩ := h₁.run
  obtain ⟨g₂, hrun₂, hc₂⟩ := h₂.run
  by_cases hempty : calls₁ = []
  · subst hempty
    obtain rfl := stream_eq_nil h₂.nonempty hstream.symm
    obtain rfl := Option.some.inj (hrun₁.symm.trans hrun₂)
    obtain rfl := Option.some.inj (hc₁.symm.trans hc₂)
    exact ⟨rfl, rfl, fun hne => absurd rfl hne⟩
  · have hempty₂ : calls₂ ≠ [] := by
      rintro rfl
      exact hempty (stream_eq_nil h₁.nonempty hstream)
    have hd₁ := decoded_of_run hc hclear (fun hnil => absurd hnil hempty) h₁.ambient hone₁ hrun₁ hc₁
    have hd₂ := decoded_of_run hc hclear (fun hnil => absurd hnil hempty₂) h₂.ambient hone₂ hrun₂ hc₂
    rw [← hstream] at hd₂
    refine ⟨congrArg Prod.snd (hd₁.decoded.trans hd₂.decoded.symm), hd₁.buffer.trans hd₂.buffer.symm, fun _ => ?_⟩
    rw [hd₁.buffer]
    exact framing.next_rest _

/-! ## Two frames -/

def connectedGateway : Gateway :=
  { Gateway.init with objects := [Client.new .login ⟨7, false, .connected⟩ zeroToken] }

def handshakeFrame : Bytes := [6, 0, 47, 0, 0, 0, 2]

def loginStartFrame : Bytes := 8 :: 0 :: 6 :: ascii "Player"

def chunks (pieces : List Bytes) : List (World × Bytes) := pieces.map fun data => (.plain, data)

theorem delivers_chunks (pieces : List Bytes) (n : Nat) (hnonempty : ∀ data ∈ pieces, data ≠ [])
    (hrun : ((runFrom (deliver .player 0) connectedGateway (chunks pieces)).bind (·.objects[0]?)).map
      (·.received.length) = some n) :
    ∃ c, Delivers .player .zero 0 connectedGateway (chunks pieces) c ∧ c.received.length = n := by
  obtain ⟨c, hclient, hlength⟩ := Option.map_eq_some_iff.mp hrun
  obtain ⟨g', hrun', hc⟩ := Option.bind_eq_some_iff.mp hclient
  refine ⟨c, ⟨fun call hcall => ?_, fun call hcall => ?_, g', hrun', hc⟩, hlength⟩
  · obtain ⟨data, hdata, rfl⟩ := List.mem_map.mp hcall
    exact hnonempty data hdata
  · obtain ⟨data, -, rfl⟩ := List.mem_map.mp hcall
    rfl

/-- One frame a chunk, and the same frames cut elsewhere. -/
theorem sameOutcome_twoFrames :
    ∃ c₁ c₂, Delivers .player .zero 0 connectedGateway (chunks [handshakeFrame, loginStartFrame]) c₁ ∧
      Delivers .player .zero 0 connectedGateway (chunks [[6, 0, 47], [0, 0, 0, 2, 8, 0], 6 :: ascii "Player"]) c₂ ∧
        c₁.received.length = 2 ∧
        SameOutcome (chunks [handshakeFrame, loginStartFrame]) c₁ c₂ := by
  obtain ⟨c₁, h₁, hlength⟩ := delivers_chunks [handshakeFrame, loginStartFrame] 2 (by decide) (by decide +kernel)
  obtain ⟨c₂, h₂, -⟩ := delivers_chunks [[6, 0, 47], [0, 0, 0, 2, 8, 0], 6 :: ascii "Player"] 2 (by decide)
    (by decide +kernel)
  refine ⟨c₁, c₂, h₁, h₂, hlength, ?_⟩
  exact sameOutcome_of_takesOneFrame .player .zero 0 connectedGateway _ c₁ c₂ _ _ rfl ⟨rfl, rfl⟩ h₁ h₂ rfl
    (by decide +kernel) (by decide +kernel)

/-- In one chunk the second frame is left in the buffer. -/
theorem second_frame_stays :
    ¬ ∀ (E : Env) (a : Ambient) (i : ConnId) (g : Gateway) (c c₁ c₂ : Client) (calls₁ calls₂ : List (World × Bytes)),
      g.objects[i]? = some c → InClearText c → Delivers E a i g calls₁ c₁ → Delivers E a i g calls₂ c₂ →
        stream calls₁ = stream calls₂ → SameOutcome calls₁ c₁ c₂ := by
  intro h
  obtain ⟨c₁, h₁, hlength₁⟩ := delivers_chunks [handshakeFrame ++ loginStartFrame] 1 (by decide) (by decide +kernel)
  obtain ⟨c₂, h₂, hlength₂⟩ := delivers_chunks [handshakeFrame, loginStartFrame] 2 (by decide) (by decide +kernel)
  have hsame := (h .player .zero 0 connectedGateway _ c₁ c₂ _ _ rfl ⟨rfl, rfl⟩ h₁ h₂ rfl).received
  rw [hsame, hlength₂] at hlength₁
  exact absurd hlength₁ (by decide)

end CeriosCluster.ClientGateway
