import CeriosCluster.ClientGateway.Continuing
import CeriosCluster.ClientGateway.Relay

/-!
# What a datagram makes a connection say

A datagram is handled for at most one client, the one whose player its message names. If the message is one to pass on
and its payload has a frame, the client is given the frame; nothing else happens to any client.
-/

namespace CeriosCluster.ClientGateway

open CeriosCluster.Lib CeriosCluster.MCPacket CeriosCluster.InternalComms

/-- The client stays as it is but for a payload that it has been relayed, which it says if it is alive. -/
structure Client.Relayed (E : Env) (payload : Bytes) (c c' : Client) : Prop where
  freed : c'.freed = c.freed
  alive : c'.alive = c.alive
  relays : c.alive = true → ∃ as, c'.log = c.log ++ as ∧ Line.Relays E payload c.line as c'.line

instance (g : Gateway) (packet : Message) (j : ConnId) : Decidable (IsFor g packet j) :=
  inferInstanceAs (Decidable (_ ∧ _))

/-- The frames that a message is for the client `j`. -/
def framesFor (g : Gateway) (packet : Message) (j : ConnId) : List Bytes :=
  if IsFor g packet j then (frame packet.getPayload).toList else []

/-- The message has been handled: it is for at most one client, which has been relayed a payload, the message's own if
that fits into memory. -/
def PassedOn (E : Env) (packet : Message) (g g' : Gateway) : Prop :=
  EveryClient (fun j c c' =>
    c' = c ∧ (packet.getPayload.length ≤ maxSize → framesFor g packet j = []) ∨
      ∃ payload, IsFor g packet j ∧ c.Relayed E payload c' ∧
        (packet.getPayload.length ≤ maxSize → payload = packet.getPayload)) g g'

section Messages

variable {E : Env} {g g₁ g' : Gateway} {i j : ConnId} {c c' : Client} {packet : Message}

theorem Client.Relayed.of_speaking {payload data : Bytes} (hjoined : c.owner = .clientServer)
    (hframe : frame payload = some data) (h : c.Says (Line.Carries E data) c') : c.Relayed E payload c' := by
  obtain ⟨as, context, writes, rfl, hspeaks⟩ := h
  exact ⟨rfl, rfl, fun halive => ⟨as, rfl, .framed (by simp [Client.line, hjoined]) hframe (hspeaks halive)⟩⟩

theorem Client.Relayed.continues {payload : Bytes} (h : c.Relayed E payload c') : c.Continues (Line.Talks E) c' := by
  intro honline
  have halive : c.alive = true := h.alive.symm.trans honline.alive
  obtain ⟨as, hlog, hrelays⟩ := h.relays halive
  exact ⟨⟨h.freed.symm.trans honline.there, halive⟩, as, hlog, .single (.relays payload hrelays)⟩

theorem wp_clientAt (playerId : Bytes) :
    Exec.wp (clientAt playerId) (fun p g' => g'.objects = g.objects ∧
      ∀ j, p = some j ↔ g.clients.lookup playerId = some (some j)) (fun _ _ => False) g := by
  rw [clientAt, Exec.wp_bind, Exec.wp_get]
  cases hp : g.clients.lookup playerId with
  | some p => exact ⟨rfl, fun j => by simp⟩
  | none => exact ⟨rfl, fun j => by simp⟩

/-- Whatever becomes of a payload before, it goes out in a frame. -/
theorem wp_relayed (payload : Bytes) :
    Exec.wp (do
        let payload ← Exec.get
        if asSize noCompression ≤ payload.length then compressData E.zlib E.fuel else pure ()
        writeBufferLengthToFront
        Exec.get)
      (fun data _ => ∃ b, frame b = some data ∧ (payload.length ≤ maxSize → b = payload))
      (fun _ _ => payload.length ≤ maxSize → frame payload = none) payload := by
  have hframes (b : Bytes) : Exec.wp (writeBufferLengthToFront >>= fun _ => Exec.get) (fun data _ => frame b =
    some data)
      (fun _ _ => frame b = none) b := by
    rw [Exec.wp_bind]
    by_cases hfits : FitsFrame b.length
    · exact (Exec.wp_of_ok (writeBufferLengthToFront_ok hfits)).mpr (frame_fits hfits)
    · exact (Exec.wp_of_threw (writeBufferLengthToFront_large hfits)).mpr (frame_large hfits)
  rw [Exec.wp_bind, Exec.wp_get]
  dsimp only
  rw [Exec.wp_ite]
  refine ⟨fun hlarge => ?_, fun _ => Exec.wp_mono (hframes payload)
    (fun data _ hframe => ⟨payload, hframe, fun _ => rfl⟩) fun _ _ h _ => h⟩
  have hhuge : ¬ payload.length ≤ maxSize := by
    rw [asSize_noCompression] at hlarge
    unfold maxSize
    omega
  rw [Exec.wp_bind]
  refine Exec.wp_mono (Exec.wp_true _ _) (fun _ b _ => ?_) fun _ _ _ hfits => absurd hfits hhuge
  exact Exec.wp_mono (hframes b) (fun data _ hframe => ⟨b, hframe, fun hfits => absurd hfits hhuge⟩) fun _ _ _ hfits =>
    absurd hfits hhuge

/-- **A message** is relayed to the client of its player, if there is one. -/
theorem wp_handleMessage_passedOn (hs : g.custody.Sound) (packet : Message) :
    Exec.wp (ClientServer.handleMessage E packet) (fun _ => PassedOn E packet g) (fun _ => PassedOn E packet g) g := by
  have hsame (hnone : ∀ j, packet.getPayload.length ≤ maxSize → framesFor g packet j = []) {g₁ : Gateway}
      (hobjects : g₁.objects = g.objects) : PassedOn E packet g g₁ :=
    ⟨by rw [hobjects], fun j c hc => ⟨c, hobjects ▸ hc, Or.inl ⟨rfl, hnone j⟩⟩⟩
  have hnobody (hno : ∀ j, ¬ IsFor g packet j) (j : ConnId) (_ : packet.getPayload.length ≤ maxSize) :
    framesFor g packet j = [] :=
    if_neg (hno j)
  rw [ClientServer.handleMessage, Exec.wp_bind]
  refine Exec.wp_mono (wp_clientAt _) (fun p g₁ h₁ => ?_) fun _ _ h => h.elim
  obtain ⟨hobjects, hentry⟩ := h₁
  cases p with
  | none => exact hsame (hnobody fun j hj => by simpa using (hentry j).mpr hj.1) hobjects
  | some j =>
    have hlookup := (hentry j).mp rfl
    obtain ⟨h, hh, -, howner⟩ := hs.owned.fits _ _ (held_client_iff.mpr hlookup)
    obtain ⟨c, hc, rfl⟩ := objects_of_custody hh
    rw [Exec.wp_ite]
    refine ⟨fun hid => ?_, fun hid => hsame (hnobody fun _ hj => hid hj.2) hobjects⟩
    have hfor : IsFor g packet j := ⟨hlookup, hid⟩
    rw [Exec.wp_bind, wp_client]
    intro c₁ hl
    obtain rfl : c = c₁ := Option.some.inj (hc.symm.trans (hobjects ▸ hl.1))
    rw [(usual_of_sound hs hc).uncompressed, Exec.wp_bind, Exec.wp_onLocal]
    refine Exec.wp_mono (wp_relayed _) (fun data _ hdata => ?_) fun _ _ hlarge => hsame (fun k hfits => ?_) hobjects
    · obtain ⟨payload, hframe, hown⟩ := hdata
      refine Exec.wp_mono ((acts_sendData (E := E) (F := fun _ _ => False) data).wp hl.1) (fun _ g₂ h₂ =>
        ?_) fun _ _ h => ?_
      · obtain ⟨c₂, rfl, hspeaks⟩ := h₂
        refine ⟨by simp [connection, hobjects], fun k d hd => ?_⟩
        by_cases hjk : j = k
        · subst hjk
          obtain rfl : c = d := Option.some.inj (hc.symm.trans hd)
          exact ⟨c₂, (connection j).read_write g₁ c c₂ hl.1,
            Or.inr ⟨payload, hfor, .of_speaking howner hframe hspeaks, hown⟩⟩
        · refine ⟨d, ?_, Or.inl ⟨rfl, fun _ => if_neg fun hk => hjk ?_⟩⟩
          · rw [getElem?_write_other hjk, hobjects, hd]
          · simpa using hlookup.symm.trans hk.1
      · obtain ⟨_, -, h⟩ := h
        exact h.elim
    · unfold framesFor
      split
      · rw [hlarge hfits]
        rfl
      · rfl

/-- One client at most has gone on with its line. -/
theorem PassedOn.led (h : PassedOn E packet g g') :
    ∃ k, Led (Line.Talks E) k g g' ∧ ∀ j, k = some j → IsFor g packet j := by
  by_cases hfor : ∃ i, IsFor g packet i
  · obtain ⟨i, hi⟩ := hfor
    refine ⟨some i, EveryClient.mono h fun j c c' hc => ?_, fun j hj => Option.some.inj hj ▸ hi⟩
    rcases hc with ⟨rfl, -⟩ | ⟨payload, hj, hrelayed, -⟩
    · exact ⟨.refl c', fun _ _ => rfl⟩
    · exact ⟨hrelayed.continues, fun hij => absurd (hi.1.symm.trans hj.1) (by simpa using hij)⟩
  · refine ⟨none, EveryClient.mono h fun j c c' hc => ?_, nofun⟩
    rcases hc with ⟨rfl, -⟩ | ⟨payload, hj, -⟩
    · exact ⟨.refl c', fun _ _ => rfl⟩
    · exact absurd ⟨j, hj⟩ hfor

end Messages

/-! ## Datagrams -/

def due (g : Gateway) (e : Event) (j : ConnId) : List Bytes :=
  match e with
  | .onDataReceived datagram => (datagram.bind messageOf).elim [] fun packet => framesFor g packet j
  | _ => []

/-- The datagram is a message for the player whose client is `j`. -/
def SentTo (g : Gateway) (datagram : Option Bytes) (j : ConnId) : Prop :=
  ∃ packet, datagram.bind messageOf = some packet ∧ IsFor g packet j

section Datagrams

variable {E : Env} {g : Gateway}

/-- **A datagram** is handled as its message is, if it has one. -/
theorem wp_onDataReceived_passedOn (hs : g.custody.Sound) (datagram : Option Bytes) :
    Exec.wp (ClientServer.onDataReceived E datagram)
      (fun _ g' => (datagram.bind messageOf).elim (g'.objects = g.objects) fun packet => PassedOn E packet g g')
      (fun _ g' => (datagram.bind messageOf).elim (g'.objects = g.objects) fun packet => PassedOn E packet g g') g := by
  unfold ClientServer.onDataReceived
  rw [Exec.wp_bind, Exec.wp_modify]
  cases datagram with
  | none => exact rfl
  | some data =>
    rw [Exec.wp_bind, Option.bind_some]
    cases hdata : messageOf data with
    | some packet =>
      have hsound : Gateway.custody { g with receivePending := false } = g.custody := rfl
      refine (Exec.wp_of_ok (onLocal_fromData hdata)).mpr ?_
      rw [Exec.wp_bind]
      exact Exec.wp_mono (wp_handleMessage_passedOn (hsound ▸ hs) packet) (fun _ _ h => h) fun _ _ h => h
    | none =>
      unfold messageOf at hdata
      unfold Exec.onLocal Exec.wp
      cases hparse : fromData false data with
      | ok p rest =>
        rw [hparse] at hdata
        obtain rfl : p = none := hdata
        trivial
      | threw e rest => exact rfl
      | undefined => trivial
      | diverged => trivial

end Datagrams

end CeriosCluster.ClientGateway
