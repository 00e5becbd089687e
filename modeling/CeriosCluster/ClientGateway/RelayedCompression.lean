import CeriosCluster.ClientGateway.Relay
import CeriosCluster.MCPacket.DeflateLoop

/-!
# Compressing what is relayed

`handleMessage` and `sendPacket` compress and frame what they hand to `sendData`, each in its own way. Both compress a
payload above the threshold and neither one below it; a payload of just the threshold's size is compressed by
`handleMessage` only.
-/

namespace CeriosCluster.ClientGateway

open CeriosCluster.Lib CeriosCluster.MCPacket CeriosCluster.InternalComms

/-- The bytes that `handleMessage` hands to `sendData`. -/
def relayedData (E : Env) (compressionThreshold : Word) (payload : Bytes) : M Bytes :=
  Exec.onLocal payload do
    let payload ← Exec.get
    if asSize compressionThreshold ≤ payload.length then compressData E.zlib E.fuel else pure ()
    writeBufferLengthToFront
    Exec.get

/-- An outcome without its state: the bytes, an exception, or nothing that is defined. -/
def outcome {σ : Type} : Res Exn σ Bytes → Res Unit Unit Bytes
  | .ok data _ => .ok data ()
  | .threw _ _ => .threw () ()
  | .undefined => .undefined
  | .diverged => .diverged

def handedFrame (b : Bytes) : Res Unit Unit Bytes :=
  match frame b with
  | some data => .ok data ()
  | none => .threw () ()

def handedCompressed (z : Zlib) (fuel : Nat) (b : Bytes) : Res Unit Unit Bytes :=
  match compressData z fuel b with
  | .ok _ compressed => handedFrame compressed
  | .threw _ _ => .threw () ()
  | .undefined => .undefined
  | .diverged => .diverged

/-- Compressing makes no difference to the frame: it leaves the data as it was, or there is none with it nor without. -/
def CompressedAlike (z : Zlib) (fuel : Nat) (b : Bytes) : Prop :=
  ∃ compressed, compressData z fuel b = .ok () compressed ∧
    (compressed = b ∨ ¬ FitsFrame compressed.length ∧ ¬ FitsFrame b.length)

section Frames

variable {z : Zlib} {fuel : Nat} {b b' : Bytes}

theorem handedFrame_fits (h : FitsFrame b.length) :
    handedFrame b = .ok (writeVarIntToBuffer (BitVec.ofNat 32 b.length) ++ b) () := by
  rw [handedFrame, frame_fits h]

theorem handedFrame_large (h : ¬ FitsFrame b.length) : handedFrame b = .threw () () := by
  rw [handedFrame, frame_large h]

theorem handedFrame_eq_iff : handedFrame b = handedFrame b' ↔
    b = b' ∨ ¬ FitsFrame b.length ∧ ¬ FitsFrame b'.length := by
  constructor
  · intro h
    by_cases hb : FitsFrame b.length
    · by_cases hb' : FitsFrame b'.length
      · rw [handedFrame_fits hb, handedFrame_fits hb'] at h
        have hframe : frame b' = some (writeVarIntToBuffer (BitVec.ofNat 32 b.length) ++ b) := by
          rw [frame_fits hb']
          exact congrArg some (Res.ok.inj h).1.symm
        exact Or.inl (frame_injective (frame_fits hb) hframe)
      · rw [handedFrame_fits hb, handedFrame_large hb'] at h
        cases h
    · by_cases hb' : FitsFrame b'.length
      · rw [handedFrame_large hb, handedFrame_fits hb'] at h
        cases h
      · exact Or.inr ⟨hb, hb'⟩
  · rintro (rfl | ⟨hb, hb'⟩)
    · rfl
    · rw [handedFrame_large hb, handedFrame_large hb']

theorem compressLoop_ne_threw {n : Nat} {s t : Deflating z} {e : Exn} : compressLoop z n fuel s ≠ .threw e t := by
  induction fuel generalizing s with
  | zero => exact fun h => nomatch h
  | succ fuel ih =>
    rw [compressLoop_eq]
    by_cases hover : (s.refilled n).Overruns n
    · rw [afterCall_overruns hover]
      exact fun h => nomatch h
    · by_cases hstops : (s.refilled n).Stops
      · rw [afterCall_stops hover hstops]
        exact fun h => nomatch h
      · rw [afterCall_goes hover hstops]
        exact ih

theorem compressData_ne_threw {e : Exn} : compressData z fuel b ≠ .threw e b' := by
  intro h
  rw [compressData, Exec.run_bind_ok (Exec.run_get b)] at h
  cases hinit : z.deflateInit with
  | none =>
    rw [hinit] at h
    cases h
  | some stream =>
    rw [hinit] at h
    dsimp only at h
    rw [Exec.run_bind] at h
    cases hloop : compressLoop z b.length fuel ⟨stream, b.take (b.length % 2 ^ 32), 0, 0, 0, []⟩ with
    | ok output t =>
      rw [Exec.run_onLocal_ok hloop] at h
      dsimp only at h
      rw [Exec.run_bind_ok (Exec.run_set output b), writeVarIntToFront] at h
      cases hwrite : writeVarIntToFrontLoop 6 (BitVec.ofNat 32 b.length) <;> rw [hwrite] at h <;> cases h
    | threw e t => exact compressLoop_ne_threw hloop
    | undefined =>
      rw [Exec.run_onLocal_undefined hloop] at h
      cases h
    | diverged =>
      rw [Exec.run_onLocal_diverged hloop] at h
      cases h

theorem handedFrame_defined : handedFrame b ≠ .undefined ∧ handedFrame b ≠ .diverged := by
  by_cases hb : FitsFrame b.length
  · rw [handedFrame_fits hb]
    exact ⟨nofun, nofun⟩
  · rw [handedFrame_large hb]
    exact ⟨nofun, nofun⟩

theorem handedCompressed_eq_iff : handedCompressed z fuel b = handedFrame b ↔ CompressedAlike z fuel b := by
  unfold handedCompressed CompressedAlike
  cases hrun : compressData z fuel b with
  | ok u compressed =>
    refine handedFrame_eq_iff.trans ⟨fun h => ⟨compressed, rfl, h⟩, ?_⟩
    rintro ⟨_, heq, h⟩
    cases heq
    exact h
  | threw e b' => exact absurd hrun compressData_ne_threw
  | undefined => exact ⟨fun h => absurd h.symm handedFrame_defined.1, fun ⟨_, h, _⟩ => by cases h⟩
  | diverged => exact ⟨fun h => absurd h.symm handedFrame_defined.2, fun ⟨_, h, _⟩ => by cases h⟩

end Frames

/-! ## The two ways -/

section Ways

variable {E : Env} {g : Gateway} {compressionThreshold : Word} {payload : Bytes} {p : Packet}

theorem outcome_onLocal {τ : Type} (t : τ) (m : Exec Exn τ Bytes) :
    outcome ((Exec.onLocal t m : M Bytes) g) = outcome (m t) := by
  rw [Exec.onLocal]
  cases m t <;> rfl

theorem outcome_framed (b : Bytes) : outcome ((writeBufferLengthToFront >>= fun _ => Exec.get) b) = handedFrame b := by
  by_cases hb : FitsFrame b.length
  · rw [Exec.run_bind_ok (writeBufferLengthToFront_ok hb), handedFrame_fits hb]
    rfl
  · rw [Exec.run_bind_threw (writeBufferLengthToFront_large hb), handedFrame_large hb]
    rfl

/-- From the threshold on `handleMessage` compresses. -/
theorem outcome_relayedData : outcome (relayedData E compressionThreshold payload g) =
    if asSize compressionThreshold ≤
      payload.length then handedCompressed E.zlib E.fuel payload else handedFrame payload := by
  rw [relayedData, outcome_onLocal, Exec.run_bind_ok (Exec.run_get payload)]
  by_cases hlarge : asSize compressionThreshold ≤ payload.length
  · rw [if_pos hlarge, if_pos hlarge, handedCompressed]
    cases hrun : compressData E.zlib E.fuel payload with
    | ok u compressed => rw [Exec.run_bind_ok hrun, outcome_framed]
    | threw e b => exact absurd hrun compressData_ne_threw
    | undefined => rw [Exec.run_bind_undefined hrun, outcome]
    | diverged => rw [Exec.run_bind_diverged hrun, outcome]
  · rw [if_neg hlarge, if_neg hlarge]
    exact outcome_framed payload

theorem outcome_framePacket (p : Packet) :
    outcome ((framePacket >>= fun _ => Exec.get >>= fun packet => pure packet.rawPayload) p) =
      handedFrame p.rawPayload := by
  by_cases hb : FitsFrame p.rawPayload.length
  · rw [Exec.run_bind_ok (framePacket_frame (frame_fits hb)), handedFrame_fits hb]
    rfl
  · rw [Exec.run_bind_threw (framePacket_large (frame_large hb)), handedFrame_large hb]
    rfl

theorem compressIfLargerThan_run {z : Zlib} {fuel lengthBytes : Nat} (h : lengthBytes < p.rawPayload.length)
    (hnew : p.compressed = false) : compressIfLargerThan z fuel lengthBytes p =
      (Packet.onRawPayload (compressData z fuel) >>= fun _ => Exec.modify fun p =>
        { p with compressed := true }) p := by
  rw [compressIfLargerThan, Exec.run_bind_ok (Exec.run_get p), if_pos h, compressPacket,
    Exec.run_bind_ok (Exec.run_get p), hnew]
  rfl

/-- `sendPacket` compresses above the threshold. -/
theorem outcome_packetData (hthreshold : 0 ≤ compressionThreshold.toInt)
    (hclass : p.fields.packetClass ≠ .setCompression) (hpayload : p.serialized getSide = payload) :
      outcome (packetData E compressionThreshold p g) =
      if asSize compressionThreshold <
        payload.length then handedCompressed E.zlib E.fuel payload else handedFrame payload := by
  have hraw : (p.serializePacket getSide).rawPayload = payload := hpayload
  rw [packetData, outcome_onLocal, Packet.toWire, Exec.bind_assoc, Exec.run_bind_ok (Exec.run_modify _ p),
    Exec.bind_assoc, Exec.run_bind_ok (Exec.run_get _), if_pos ⟨hthreshold, hclass⟩, Exec.bind_assoc]
  by_cases hlarge : asSize compressionThreshold < payload.length
  · rw [if_pos hlarge, handedCompressed, ← hraw]
    rw [← hraw] at hlarge
    cases hrun : compressData E.zlib E.fuel (p.serializePacket getSide).rawPayload with
    | ok u compressed =>
      rw [Exec.run_bind_ok ((compressIfLargerThan_large (u := u) hlarge rfl).mpr ⟨compressed, hrun, rfl⟩),
        outcome_framePacket]
    | threw e b => exact absurd hrun compressData_ne_threw
    | undefined =>
      have hbuffer : Packet.onRawPayload (compressData E.zlib E.fuel) (p.serializePacket getSide) = .undefined := by
        rw [Packet.onRawPayload, Exec.zoom, hrun]
      rw [Exec.run_bind_undefined ((compressIfLargerThan_run hlarge rfl).trans (Exec.run_bind_undefined hbuffer)),
        outcome]
    | diverged =>
      have hbuffer : Packet.onRawPayload (compressData E.zlib E.fuel) (p.serializePacket getSide) = .diverged := by
        rw [Packet.onRawPayload, Exec.zoom, hrun]
      rw [Exec.run_bind_diverged ((compressIfLargerThan_run hlarge rfl).trans (Exec.run_bind_diverged hbuffer)),
        outcome]
  · rw [if_neg hlarge, Exec.run_bind_ok (compressIfLargerThan_small (by rw [hraw]; exact Nat.not_lt.mp hlarge)),
      outcome_framePacket, hraw]

theorem handleMessage_relayed {i : ConnId} {c : Client} {packet : Message} (hl : Live g i c) (hfor : IsFor g packet i) :
    ClientServer.handleMessage E packet g =
      (relayedData E c.compressionThreshold packet.getPayload >>= fun data => sendData E i data) g := by
  unfold ClientServer.handleMessage
  rw [Exec.run_bind_ok (clientAt_entry hfor.1)]
  dsimp only
  rw [if_pos hfor.2, Exec.run_bind_ok (run_client hl)]
  rfl

theorem sendPacket_direct {i : ConnId} {c : Client} (hl : Live g i c) :
    sendPacket E i p g = (packetData E c.compressionThreshold p >>= fun data => sendData E i data)
      (g.modify i fun c => c.logged (.sendPacket p)) := by
  unfold sendPacket record
  rw [Exec.run_bind_ok (run_client hl), Exec.run_bind_ok (run_modifyClient hl)]

/-- The two hand the same to `sendData`, or compressing makes no difference. -/
theorem outcome_eq_iff (hthreshold : 0 ≤ compressionThreshold.toInt) (hclass : p.fields.packetClass ≠ .setCompression)
    {g' : Gateway} :
    outcome (relayedData E compressionThreshold (p.serialized getSide) g) =
      outcome (packetData E compressionThreshold p g') ↔
      ((p.serialized getSide).length : Int) ≠ compressionThreshold.toInt ∨
        CompressedAlike E.zlib E.fuel (p.serialized getSide) := by
  have hsize := asSize_of_nonneg hthreshold
  have hnat := toNat_eq_of_nonneg hthreshold
  rw [outcome_relayedData, outcome_packetData hthreshold hclass rfl]
  rcases Nat.lt_trichotomy (p.serialized getSide).length (asSize compressionThreshold) with hless | hequal | hgreater
  · rw [if_neg (by omega), if_neg (by omega)]
    exact ⟨fun _ => Or.inl (by omega), fun _ => rfl⟩
  · rw [if_pos (by omega), if_neg (by omega), handedCompressed_eq_iff]
    exact ⟨Or.inr, fun h => h.resolve_left fun hne => hne (by omega)⟩
  · rw [if_pos (by omega), if_pos hgreater]
    exact ⟨fun _ => Or.inl (by omega), fun _ => rfl⟩

end Ways

/-- **Direct and relayed compression.** With a threshold `handleMessage` and `sendPacket` hand to `sendData` what
`relayedData` and `packetData` give, which for the same payload is the same unless its size is the threshold and
compressing makes a difference. -/
theorem relayed_as_direct_iff (E : Env) (g : Gateway) (i : ConnId) (c : Client) (hl : Live g i c)
    (hthreshold : 0 ≤ c.compressionThreshold.toInt) (packet : Message) (hfor : IsFor g packet i) (p : Packet)
    (hclass : p.fields.packetClass ≠ .setCompression) (hpayload : packet.getPayload = p.serialized getSide) :
    ClientServer.handleMessage E packet g =
        (relayedData E c.compressionThreshold packet.getPayload >>= fun data => sendData E i data) g ∧
      sendPacket E i p g = (packetData E c.compressionThreshold p >>= fun data => sendData E i data)
        (g.modify i fun c => c.logged (.sendPacket p)) ∧
      (outcome (relayedData E c.compressionThreshold packet.getPayload g) =
          outcome (packetData E c.compressionThreshold p (g.modify i fun c => c.logged (.sendPacket p))) ↔
        (packet.getPayload.length : Int) ≠ c.compressionThreshold.toInt ∨
          CompressedAlike E.zlib E.fuel packet.getPayload) := by
  refine ⟨handleMessage_relayed hl hfor, sendPacket_direct hl, ?_⟩
  rw [hpayload]
  exact outcome_eq_iff hthreshold hclass

def thriftyClient : Client :=
  { Client.new .clientServer ⟨7, false, .connected⟩ zeroToken with compressionThreshold := 2 }

def thriftyGateway : Gateway := ⟨[thriftyClient], ∅, (∅ : ClientMap Bytes).insert playerUserid.val (some 0), none, true⟩

def Env.storing : Env := { Env.player with zlib := .stored, fuel := 2 }

/-- Two bytes, when it is serialized. -/
def keepAlivePacket : Packet := ⟨0, [], false, .keepAlive ⟨7⟩⟩

/-- The same two bytes, relayed. -/
def keepAliveMessage : Message := newPacket zeroHeader .MC_PACKET playerUserid.val (keepAlivePacket.serialized getSide)

theorem keepAliveMessage_isFor : IsFor thriftyGateway keepAliveMessage 0 := by
  refine ⟨?_, rfl⟩
  rw [keepAliveMessage, newPacket_getPlayerID]
  exact AList.lookup_insert _

theorem relayed_as_direct_keepAlive :
    ClientServer.handleMessage Env.storing keepAliveMessage thriftyGateway =
        (relayedData Env.storing thriftyClient.compressionThreshold keepAliveMessage.getPayload >>=
          fun data => sendData Env.storing 0 data) thriftyGateway ∧
      sendPacket Env.storing 0 keepAlivePacket thriftyGateway =
        (packetData Env.storing thriftyClient.compressionThreshold keepAlivePacket >>=
          fun data => sendData Env.storing 0 data)
          (thriftyGateway.modify 0 fun c => c.logged (.sendPacket keepAlivePacket)) ∧
      (outcome (relayedData Env.storing thriftyClient.compressionThreshold keepAliveMessage.getPayload thriftyGateway) =
          outcome (packetData Env.storing thriftyClient.compressionThreshold keepAlivePacket
            (thriftyGateway.modify 0 fun c => c.logged (.sendPacket keepAlivePacket))) ↔
        (keepAliveMessage.getPayload.length : Int) ≠ thriftyClient.compressionThreshold.toInt ∨
          CompressedAlike Env.storing.zlib Env.storing.fuel keepAliveMessage.getPayload) :=
  relayed_as_direct_iff Env.storing thriftyGateway 0 thriftyClient
    ⟨rfl, rfl⟩ (by decide) keepAliveMessage keepAliveMessage_isFor
    keepAlivePacket (by decide) rfl

/-- The keep-alive is compressed only when it is relayed. -/
theorem keepAlive_compressed_when_relayed :
    ¬ ∀ (E : Env) (g : Gateway) (i : ConnId) (c : Client) (packet : Message) (p : Packet), Live g i c →
      0 ≤ c.compressionThreshold.toInt → IsFor g packet i → p.fields.packetClass ≠ .setCompression →
      packet.getPayload = p.serialized getSide →
      outcome (relayedData E c.compressionThreshold packet.getPayload g) =
        outcome (packetData E c.compressionThreshold p (g.modify i fun c => c.logged (.sendPacket p))) := by
  intro h
  have hsame := h Env.storing thriftyGateway 0 thriftyClient keepAliveMessage keepAlivePacket ⟨rfl, rfl⟩ (by decide)
    keepAliveMessage_isFor (by decide) rfl
  rw [outcome_relayedData, outcome_packetData (by decide) (by decide) rfl] at hsame
  exact absurd hsame (by decide +kernel)

end CeriosCluster.ClientGateway
