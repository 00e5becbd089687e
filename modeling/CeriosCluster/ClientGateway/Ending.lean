import CeriosCluster.ClientGateway.Transcript

/-!
# Every handler ends

Three loops of the packets turn forever on some input: those that compress and decompress, and the one that puts a
negative number in front of a buffer. No client has a compression threshold in a state that a run reaches, so the first
two are not entered: a read is parsed uncompressed, and no payload in memory is as long as the threshold `-1` is as a
size. The third only gets lengths that fit into three bytes.
-/

namespace CeriosCluster.ClientGateway

open CeriosCluster.Lib CeriosCluster.MCPacket CeriosCluster.InternalComms

section Datagrams

variable {E : Env} {w : World} {e : Event} {i : ConnId} {g : Gateway} {m : M Unit}

theorem writeBufferLengthToFront_halts : writeBufferLengthToFront.Halts := by
  intro b
  by_cases h : FitsFrame b.length
  · rw [writeBufferLengthToFront_ok h]
    simp
  · rw [writeBufferLengthToFront_large h]
    simp

theorem fromData_halts (consume : Bool) : (InternalComms.fromData consume).Halts := by
  intro data
  rw [InternalComms.fromData_eq]
  split
  · simp
  · split
    · simp
    · split <;> simp

theorem wp_fromData_length {consume : Bool} {data : Bytes} :
    Exec.wp (InternalComms.fromData consume) (fun p _ => ∀ packet, p = some packet →
      packet.payload.length ≤ data.length)
      (fun _ _ => True) data := by
  unfold Exec.wp
  rw [InternalComms.fromData_eq]
  split
  · trivial
  · split
    · exact nofun
    · split
      · trivial
      · rintro packet hpacket
        obtain rfl := Option.some.inj hpacket
        calc (InternalComms.received data).payload.length
            ≤ (data.drop InternalComms.MessagePacketHeader.size).length := List.length_take_le' ..
          _ ≤ data.length := by simp

theorem length_messageOf_le {data : Bytes} {packet : InternalComms.Message} (h : messageOf data = some packet)
    (hmax : data.length ≤ maxSize) : packet.getPayload.length ≤ maxSize := by
  unfold messageOf at h
  split at h
  · next hparse =>
    have hlength := (Exec.wp_of_ok hparse).mp wp_fromData_length
    exact (hlength packet h).trans hmax
  · cases h

theorem ends_handleMessage (hs : g.custody.Sound) {packet : InternalComms.Message}
    (hmax : packet.payload.length ≤ maxSize) :
    Exec.Ends (ClientServer.handleMessage E packet) (fun _ _ => True) (fun _ _ => True) g := by
  have hentry : Exec.Ends (clientAt packet.getPlayerID) (fun _ g₁ => g₁.objects = g.objects) (fun _ _ => True) g := by
    refine .get_bind ?_
    cases g.clients.lookup packet.getPlayerID with
    | some p => exact .pure rfl
    | none => exact .set_bind (.pure rfl)
  refine .bind (hentry.mono (fun p g₁ hobjects => ?_) fun _ _ h => h)
  cases p with
  | none => exact .pure trivial
  | some j =>
    refine .ite (fun _ => .bind (ends_client fun c hl => ?_)) fun _ => .pure trivial
    have hthreshold : c.compressionThreshold = noCompression := (usual_of_sound hs (hobjects ▸ hl.1)).uncompressed
    have hsmall : ¬ asSize c.compressionThreshold ≤ packet.getPayload.length := by
      have hpayload : packet.getPayload.length ≤ maxSize := hmax
      rw [hthreshold, asSize_noCompression]
      unfold maxSize at hpayload
      omega
    refine .bind (.onLocal ?_ (Exec.wp_mono (Exec.wp_true _ _) (fun data _ _ => ?_) fun _ _ _ => trivial))
    · rw [Exec.run_bind_ok (Exec.run_get _), if_neg hsmall]
      exact Exec.Halts.bind writeBufferLengthToFront_halts (fun _ => .get) _
    · have hsends := acts_sendData (E := E) (i := j) (c := c) (F := fun _ _ => True) data
      exact ⟨hsends.not_diverged hl.1, Exec.wp_true _ _⟩

theorem ends_onDataReceived (hs : g.custody.Sound) {datagram : Option Bytes}
    (hmax : ∀ data, datagram = some data → data.length ≤ maxSize) :
    Exec.Ends (ClientServer.onDataReceived E datagram) (fun _ _ => True) (fun _ _ => True) g := by
  refine .bind ⟨nofun, ?_⟩
  cases datagram with
  | none => exact .pure trivial
  | some data =>
    refine .bind (.onLocal (fromData_halts false data)
      (Exec.wp_mono wp_fromData_length (fun p _ hp => ?_) fun _ _ h => h))
    cases p with
    | none => exact .bind .undefined
    | some packet =>
      have hsound : Gateway.custody { g with receivePending := false } = g.custody := rfl
      have hpayload : packet.payload.length ≤ maxSize := (hp packet rfl).trans (hmax data rfl)
      exact .bind ((ends_handleMessage (hsound ▸ hs) hpayload).mono
        (fun _ _ _ => ⟨nofun, trivial⟩) fun _ _ _ => trivial)

/-- **Every handler ends.** In no state that a run reaches does the handler of an event turn forever, whatever becomes
of the loops on zlib; of a datagram it is only known that it fits into memory. -/
theorem handler_never_diverges (E : Env) (run : List (World × Event)) (g : Gateway) (w : World) (e : Event) (m : M Unit)
    (hrun : runFrom (step E) Gateway.init run = some g)
    (hmax : ∀ data, e = .onDataReceived (some data) → data.length ≤ maxSize) (hm : handler E g w e = some m) :
      m g ≠ .diverged := by
  have hu := (allStates_usual E run).last hrun
  cases he : e.connection with
  | some i => exact (handler_ends hu he hm).1
  | none =>
    cases e with
    | acceptConstruct handle loopback verifyToken =>
      simp only [handler, Option.ite_none_right_eq_some, Option.some.injEq] at hm
      obtain ⟨-, rfl⟩ := hm
      exact fun h => by cases h
    | acceptInsert =>
      obtain ⟨i, -, rfl⟩ := Option.map_eq_some_iff.mp hm
      exact (ends_acceptInsert (E := E)).1
    | onDataReceived datagram =>
      simp only [handler, Option.ite_none_right_eq_some, Option.some.injEq] at hm
      obtain ⟨-, rfl⟩ := hm
      exact (ends_onDataReceived hu.sound fun data hdata => hmax data (by rw [hdata])).1
    | _ => cases he

/-- A message for one of two players. -/
theorem handler_never_diverges_playerMessage :
    ∃ g m, runFrom (step .player) Gateway.init twoLogins = some g ∧ IsFor g (received (playerMessage 0x2a)) 1 ∧
      handler .player g .plain (.onDataReceived (some (playerMessage 0x2a))) = some m ∧ m g ≠ .diverged := by
  have hruns : (runFrom (step .player) Gateway.init twoLogins).map (fun g =>
      (g.receivePending, g.clients.lookup (received (playerMessage 0x2a)).getPlayerID)) =
        some (true, some (some 1)) := by
    decide +kernel
  obtain ⟨g, hg, hstate⟩ := Option.map_eq_some_iff.mp hruns
  obtain ⟨hreceives, hentry⟩ := Prod.mk.inj hstate
  have hm : handler .player g .plain (.onDataReceived (some (playerMessage 0x2a))) =
      some (ClientServer.onDataReceived .player (some (playerMessage 0x2a))) := if_pos hreceives
  refine ⟨g, _, hg, ⟨hentry, by decide⟩, hm, handler_never_diverges .player twoLogins g .plain _ _ hg
    (fun data hdata => ?_) hm⟩
  obtain rfl := Option.some.inj (Event.onDataReceived.inj hdata)
  decide

end Datagrams

end CeriosCluster.ClientGateway
