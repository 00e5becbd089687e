import CeriosCluster.MCPacket.Calls
import CeriosCluster.ClientGateway.SessionKey

/-!
# Sending a packet again

A packet object keeps its buffer and its `compressed` flag from one send to the next, and a broadcast
sends one object to every client in turn. `serializePacket` resets both, and no operation touches the id
or the fields, so what a send hands to `sendData` is the same whatever was done to the object before.
-/

namespace CeriosCluster.ClientGateway

open CeriosCluster.Lib CeriosCluster.MCPacket

section Content

variable {p q : Packet}

/-- Serializing forgets the buffer and the flag. -/
theorem serializePacket_congr (h : p.SameContent q) (side : Side) :
    p.serializePacket side = q.serializePacket side := by
  obtain ⟨hid, hfields⟩ := h
  rw [Packet.serializePacket, Packet.serializePacket, hid, hfields]

theorem toWire_congr (h : p.SameContent q) (z : Zlib) (fuel : Nat) (side : Side) (compressionThreshold : Word) :
    Packet.toWire z fuel side compressionThreshold p = Packet.toWire z fuel side compressionThreshold q := by
  have hmodify {r : Packet} : (Exec.modify (Packet.serializePacket side) : PacketM Unit) r =
    .ok () (r.serializePacket side) := rfl
  rw [Packet.toWire, Exec.run_bind_ok hmodify, Exec.run_bind_ok hmodify, serializePacket_congr h side]

theorem packetData_congr (E : Env) (h : p.SameContent q) (compressionThreshold : Word) :
    packetData E compressionThreshold p = packetData E compressionThreshold q := by
  funext g
  have hwire := toWire_congr h E.zlib E.fuel getSide compressionThreshold
  rw [packetData, packetData, Exec.onLocal, Exec.onLocal, Exec.run_bind, Exec.run_bind, hwire]

theorem sameContent_of_runCalls {fuel : Nat} {calls : List Call} (h : runCalls fuel calls p = .ok () q) :
    p.SameContent q :=
  Exec.wp.of_ok (Q := fun _ => p.SameContent) (runCalls_keeps calls p) h

end Content

/-! ## One object for several clients -/

/-- The bytes an object is sent as to clients with these thresholds, each send working on what the last one left. -/
def sendInTurn (E : Env) : List Word → PacketM (List Bytes)
  | [] => pure []
  | compressionThreshold :: thresholds => do
    Packet.toWire E.zlib E.fuel getSide compressionThreshold
    let packet ← Exec.get
    let rest ← sendInTurn E thresholds
    pure (packet.rawPayload :: rest)

/-- Each client is sent what it would be sent if it were the only one. -/
theorem sendInTurn_alike (E : Env) {thresholds : List Word} {p q : Packet} {datas : List Bytes}
    (h : sendInTurn E thresholds p = .ok datas q) :
    List.Forall₂ (fun compressionThreshold data => ∀ g, packetData E compressionThreshold p g =
      .ok data g) thresholds datas := by
  induction thresholds generalizing p datas with
  | nil =>
    cases h
    exact .nil
  | cons compressionThreshold thresholds ih =>
    obtain ⟨⟨⟩, p₁, hwire, h⟩ := Exec.bind_eq_ok.mp h
    rw [Exec.run_bind_ok (Exec.run_get p₁)] at h
    obtain ⟨rest, q', hrest, hq⟩ := Exec.bind_eq_ok.mp h
    cases hq
    have hsame : p.SameContent p₁ :=
      Exec.wp.of_ok (Q := fun _ => p.SameContent) ((Call.sendPacket E.zlib getSide compressionThreshold).run_keeps p)
        hwire
    refine .cons (fun g => ?_) ((ih hrest).imp fun threshold data hdata g => ?_)
    · exact Exec.run_onLocal_ok ((Exec.run_bind_ok hwire).trans (Exec.run_bind_ok (Exec.run_get p₁)))
    · rw [packetData_congr E hsame]
      exact hdata g

/-! ## After any calls -/

/-- **Sends are independent of what came before.** Whatever operations, none of which threw, two objects with the same
id and fields went through, they have them still, and the next `sendPacket` over a connection with the same threshold
hands the same bytes to `sendData`. -/
theorem resend_independent (E : Env) (compressionThreshold : Word) {fuel fuel' : Nat} {calls calls' : List Call}
    {p q p' q' : Packet}
    (hsame : p.SameContent p') (hrun : runCalls fuel calls p = .ok () q)
    (hrun' : runCalls fuel' calls' p' = .ok () q') :
    p.SameContent q ∧ q.SameContent q' ∧
      packetData E compressionThreshold q = packetData E compressionThreshold q' := by
  have hq := sameContent_of_runCalls hrun
  have hq' := sameContent_of_runCalls hrun'
  have hqq' : q.SameContent q' := ⟨hq'.1.trans (hsame.1.trans hq.1.symm), hq'.2.trans (hsame.2.trans hq.2.symm)⟩
  exact ⟨hq, hqq', packetData_congr E hqq' compressionThreshold⟩

/-- An empty status, serialized, marked as compressed and framed, is sent as it would have been at first. -/
theorem resend_status :
    runCalls 0 [.serializePacket .clientBound, .compressPacket .unusable, .framePacket] ⟨0, [], false,
      .serverStatus .new⟩ =
        .ok () ⟨0, [2, 0, 0], true, .serverStatus .new⟩ ∧
      packetData .player noCompression ⟨0, [2, 0, 0], true, .serverStatus .new⟩ =
        packetData .player noCompression ⟨0, [], false, .serverStatus .new⟩ := by
  have hrun : runCalls 0 [.serializePacket .clientBound, .compressPacket .unusable, .framePacket] ⟨0, [], false,
    .serverStatus .new⟩ =
      .ok () ⟨0, [2, 0, 0], true, .serverStatus .new⟩ := by decide
  have hnone : runCalls 0 [] ⟨0, [], false, .serverStatus .new⟩ = .ok () ⟨0, [], false, .serverStatus .new⟩ := rfl
  exact ⟨hrun, (resend_independent .player noCompression ⟨rfl, rfl⟩ hrun hnone).2.2⟩

end CeriosCluster.ClientGateway
