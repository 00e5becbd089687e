import CeriosCluster.ClientGateway.PingCancel
import CeriosCluster.ClientGateway.ClientBoundForm
import CeriosCluster.ClientGateway.Relay
import CeriosCluster.ClientGateway.Segmentation

/-!
# The echo of a ping

A ping is decoded to a number, found in the registry under the key that stands for both sides, and the
same object is serialized and framed again. The bytes that come back are those that arrived.
-/

namespace CeriosCluster.ClientGateway

open CeriosCluster.Lib CeriosCluster.MCPacket

/-- A ping without its length: the id and eight bytes. -/
def pingOf (payload : Block 8) : Bytes := 1 :: payload.val

def pingFrameOf (payload : Block 8) : Bytes := 9 :: pingOf payload

def pingPacketOf (payload : Block 8) : Packet := ⟨1, [], false, .ping ⟨podOf 64 payload.val⟩⟩

theorem length_pingOf (payload : Block 8) : (pingOf payload).length = 9 := by
  rw [pingOf, List.length_cons, payload.property]

section Parse

variable {E : Env} {w : World} {payload : Block 8} {r : Bytes}

/-- The id is looked up under the side that stands for both. -/
theorem lookupClass_ping : lookupClass .serverBound .STATUS 1 = some .ping := by decide

theorem parse_ping (a : Ambient) (payload : Block 8) :
    PacketClass.parse .serverBound a .ping payload.val = .ok (.ping ⟨podOf 64 payload.val⟩) [] := by
  have hread : readPODFromBuffer 8 64 a.unixEpoch payload.val = .ok (podOf 64 payload.val) [] := by
    rw [readPODFromBuffer, Exec.run_bind_ok (Exec.run_get _), if_neg (by rw [payload.property]; decide),
      List.take_of_length_le (Nat.le_of_eq payload.property), List.drop_of_length_le (Nat.le_of_eq payload.property)]
    rfl
  rw [PacketClass.parse, PingPacket.parse, Exec.bind_assoc, Exec.run_bind_ok hread]
  rfl

theorem parsePacket_ping (payload : Block 8) (r : Bytes) :
    parsePacket E.zlib E.fuel .serverBound 9 .STATUS w.ambient false true (pingOf payload ++ r) =
      .ok (some (pingPacketOf payload)) r := by
  have hscan : scanVarInt (pingOf payload) = some ⟨1, 1⟩ := rfl
  have hread : readPacket E.zlib E.fuel (pingOf payload).length false true (pingOf payload ++ r) =
      .ok (some ⟨1, (pingOf payload).drop 1⟩) r := readPacket_of_complete hscan (by decide)
  have hparse : PacketClass.parse .serverBound w.ambient .ping ((pingOf payload).drop 1) =
    .ok (.ping ⟨podOf 64 payload.val⟩) [] :=
    parse_ping w.ambient payload
  rw [length_pingOf] at hread
  rw [parsePacket_of_ok hread, run_instantiate_ok lookupClass_ping hparse]
  rfl

/-- The frame in front of the buffer is taken off it. -/
theorem parseReceived_ping (payload : Block 8) (r : Bytes) :
    parseReceived E w .STATUS false (pingFrameOf payload ++ r) = .ok (some (pingPacketOf payload)) r := by
  have hscan : scanVarInt (pingFrameOf payload ++ r) = some ⟨1, 9⟩ := rfl
  have hcomplete : completeLength (pingFrameOf payload ++ r) ⟨1, 9⟩ := by
    refine ⟨by decide, ?_⟩
    rw [show (asSize 9 + 1) % 2 ^ 64 =
      10 by decide, pingFrameOf, List.cons_append, List.length_cons, List.length_append, length_pingOf]
    omega
  have hlength : readVarIntFromBuffer false (pingFrameOf payload ++ r) = .ok ⟨1, 9⟩ (pingFrameOf payload ++ r) :=
    readVarIntFromBuffer_eq_ok.mpr ⟨hscan, rfl⟩
  rw [parseReceived, Exec.run_bind_ok hlength, Exec.run_bind_ok (Exec.run_get _), if_pos hcomplete,
    Exec.run_bind_ok (Exec.run_set _ _)]
  exact parsePacket_ping payload r

end Parse

/-! ## The answer -/

/-- A client in clear text after a call of `sendData`. -/
def Client.handedData (data : Bytes) (c : Client) : Client :=
  if c.alive then
    { (c.logged (.sendData data false)).logged (.write .data data) with writesPending := c.writesPending + 1 }
  else c.logged (.sendData data false)

section Answer

variable {E : Env} {w : World} {i : ConnId} {g : Gateway} {c : Client} {data : Bytes}

theorem sendData_clear (data : Bytes) (hl : Live g i c) (hclear : c.encrypted = false) :
    sendData E i data g = .ok () (g.modify i (·.handedData data)) := by
  have hlogged := hl.modify (f := fun c => c.logged (.sendData data false)) rfl
  unfold sendData record
  rw [Exec.run_bind_ok (run_client hl), hclear, Exec.run_bind_ok (run_modifyClient hl)]
  cases halive : c.alive with
  | false =>
    have hhanded : c.logged (.sendData data false) = c.handedData data := by rw [Client.handedData, halive]; rfl
    exact congrArg _ (Gateway.modify_congr (·.handedData data) hl.1 hhanded)
  | true =>
    have hhanded : (c.logged (.sendData data false)).wrote .data data = c.handedData data := by
      rw [Client.handedData, halive]
      rfl
    rw [if_neg (by simp), if_neg (by simp), run_asyncWrite .data data hlogged, Gateway.modify_modify]
    exact congrArg _ (Gateway.modify_congr (·.handedData data) hl.1 hhanded)

theorem sent_handedData : (c.handedData data).sent = c.sent ++ [data] := by
  unfold Client.handedData
  split
  · show ((c.logged (.sendData data false)).logged (.write .data data)).sent = _
    rw [sent_logged, sent_logged]
    simp [Action.dataSent]
  · exact sent_logged

theorem buffer_handedData : (c.handedData data).buffer = c.buffer := by
  unfold Client.handedData
  split <;> rfl

theorem frame_ping (payload : Block 8) :
    frame ((pingPacketOf payload).serialized getSide) = some (pingFrameOf payload) := by
  have hserialized : (pingPacketOf payload).serialized getSide = pingOf payload := by
    show writeVarIntToBuffer 1 ++ podBytes 8 (podOf (8 * 8) payload.val) = pingOf payload
    rw [podBytes_podOf]
    rfl
  rw [hserialized, frame_fits ((fitsFrame_iff (by rw [length_pingOf]; decide)).mpr (by rw [length_pingOf]; decide)),
    length_pingOf]
  rfl

theorem freed_handedData : (c.handedData data).freed = c.freed := by
  unfold Client.handedData
  split <;> rfl

theorem state_handedData : (c.handedData data).state = c.state := by
  unfold Client.handedData
  split <;> rfl

theorem sendPacket_ping (payload : Block 8) (hl : Live g i c) (hclear : InClearText c) :
    sendPacket E i (pingPacketOf payload) g =
      .ok () (g.modify i fun c => (c.logged (.sendPacket (pingPacketOf payload))).handedData
        (pingFrameOf payload)) := by
  have hl₁ := hl.modify (f := fun c => c.logged (.sendPacket (pingPacketOf payload))) rfl
  rw [sendPacket_hands hl hclear.compressionThreshold, handedToSendData_eq, frame_ping]
  dsimp only
  rw [sendData_clear (pingFrameOf payload) hl₁ hclear.encrypted, Gateway.modify_modify]
  rfl

/-- The cancel changes nothing, whether it throws or not. -/
theorem after_socketCancel (hl : Live g i c) : Exec.after (socketCancel i) g = some g := by
  have hrun : socketCancel i g = (if c.socket.state = .closed then Exec.throw .systemError else pure ()) g :=
    Exec.run_bind_ok (run_client hl)
  split at hrun
  · exact Exec.after_of_threw hrun
  · exact Exec.after_of_ok hrun

theorem after_receivedMessage_ping (payload : Block 8) (hl : Live g i c) (hclear : InClearText c)
    (hstate : c.state = .STATUS) :
    ∃ g' c', Exec.after (receivedMessage E w i (pingPacketOf payload)) g = some g' ∧ Live g' i c' ∧
      c'.sent = c.sent ++ [pingFrameOf payload] ∧ c'.buffer = c.buffer := by
  have hl₁ := hl.modify (f := fun c => c.logged (.receivedMessage (pingPacketOf payload))) rfl
  have hsend := sendPacket_ping (E := E) payload hl₁ ⟨hclear.encrypted, hclear.compressionThreshold⟩
  have hl₂ := hl₁.modify (f := fun c => (c.logged (.sendPacket (pingPacketOf payload))).handedData
    (pingFrameOf payload))
    freed_handedData
  have hstate₂ : (((c.logged (.receivedMessage (pingPacketOf payload))).logged
    (.sendPacket (pingPacketOf payload))).handedData
      (pingFrameOf payload)).state = .STATUS := state_handedData.trans hstate
  generalize (g.modify i fun c => c.logged (.receivedMessage (pingPacketOf payload))).modify i _ = g₂ at hsend hl₂
  have hrun : receivedMessage E w i (pingPacketOf payload) g = socketCancel i g₂ := by
    unfold receivedMessage record
    rw [Exec.run_bind_ok (run_modifyClient hl)]
    exact (Exec.run_bind_ok hsend).trans ((Exec.run_bind_ok (run_client hl₂)).trans (congrFun (if_pos hstate₂) g₂))
  refine ⟨g₂, _, ?_, hl₂, sent_handedData.trans ?_, buffer_handedData⟩
  · unfold Exec.after
    rw [hrun]
    exact after_socketCancel hl₂
  · rw [sent_logged, sent_logged]
    simp [Action.dataSent]

end Answer

/-- **Ping echo.** In front of any bytes, the frame of a ping to a client in clear text and `STATUS` is taken off the
buffer, and the answer hands the same ten bytes to `sendData`. -/
theorem ping_echoed (E : Env) (w : World) (g : Gateway) (i : ConnId) (c : Client) (hl : Live g i c)
    (hclear : InClearText c) (hstate : c.state = .STATUS) (payload : Block 8) (r : Bytes)
    (hbuffer : c.buffer = pingFrameOf payload ++ r) :
    ∃ packet g₁ g' c',
      onBuffer i (parseReceived E w c.state (0 ≤ c.compressionThreshold.toInt)) g = .ok (some packet) g₁ ∧
      Exec.after (receivedMessage E w i packet) g₁ = some g' ∧ Live g' i c' ∧
      c'.sent = c.sent ++ [pingFrameOf payload] ∧ c'.buffer = r := by
  have hplain : decide (0 ≤ c.compressionThreshold.toInt) = false := by
    rw [hclear.compressionThreshold]
    decide
  have hparse : onBuffer i (parseReceived E w c.state (0 ≤ c.compressionThreshold.toInt)) g =
      .ok (some (pingPacketOf payload)) (g.modify i fun c => { c with buffer := r }) := by
    rw [run_onBuffer hl, hplain, hbuffer, hstate, parseReceived_ping]
  have hl₁ := hl.modify (f := fun c => { c with buffer := r }) rfl
  obtain ⟨g', c', hafter, hl', hsent, hrest⟩ :=
    after_receivedMessage_ping (E := E) (w := w) payload hl₁ ⟨hclear.encrypted, hclear.compressionThreshold⟩ hstate
  exact ⟨_, _, g', c', hparse, hafter, hl', hsent, hrest⟩

/-- A client in `STATUS` that has sent a ping, with the start of another frame behind it. -/
def pinger : Client :=
  { Client.new .login ⟨7, false, .connected⟩ zeroToken with
    state := .STATUS, buffer := pingFrameOf ⟨[1, 2, 3, 4, 5, 6, 7, 8], rfl⟩ ++ [9, 1] }

theorem ping_echoed_pinger :
    Live { Gateway.init with objects := [pinger] } 0 pinger ∧ InClearText pinger ∧ pinger.state = .STATUS ∧
      ∃ packet g₁ g' c',
        onBuffer 0 (parseReceived .player .plain pinger.state (0 ≤ pinger.compressionThreshold.toInt))
          { Gateway.init with objects := [pinger] } = .ok (some packet) g₁ ∧
        Exec.after (receivedMessage .player .plain 0 packet) g₁ = some g' ∧ Live g' 0 c' ∧
        c'.sent = pinger.sent ++ [pingFrameOf ⟨[1, 2, 3, 4, 5, 6, 7, 8], rfl⟩] ∧ c'.buffer = [9, 1] :=
  have hl : Live { Gateway.init with objects := [pinger] } 0 pinger := ⟨rfl, rfl⟩
  ⟨hl, ⟨rfl, rfl⟩, rfl, ping_echoed .player .plain _ 0 pinger hl ⟨rfl, rfl⟩ rfl ⟨[1, 2, 3, 4, 5, 6, 7, 8],
    rfl⟩ [9, 1] rfl⟩

end CeriosCluster.ClientGateway
