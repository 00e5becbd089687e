import CeriosCluster.ClientGateway.Relay
import CeriosCluster.ClientServer.Node
import CeriosCluster.MCPacket.Safety

/-!
# Waiting for the next datagram

A handler of a datagram waits for the next one as the last thing it does. It comes to that, on either node,
when the datagram holds the message its header announces; on the gateway a message to a client also has to be
one that can be framed.
-/

namespace CeriosCluster.ClientGateway

open CeriosCluster.Lib CeriosCluster.MCPacket CeriosCluster.InternalComms

/-- The handler returns and waits for the next datagram. -/
def HandlesNext {σ : Type} (armed : σ → Bool) (handler : Exec Exn σ Unit) (s : σ) : Prop :=
  ∃ s', handler s = .ok () s' ∧ armed s' = true

/-- If the message is for a client, it can be framed. -/
def Deliverable (g : Gateway) (packet : Message) : Prop := ∀ i, IsFor g packet i → packet.payload.length < 2 ^ 21

section Gateway

variable {E : Env} {run : List (World × Event)} {g : Gateway} {i : ConnId} {packet : Message} {data : Bytes}

theorem length_received (hmax : data.length ≤ maxSize) : (received data).payload.length ≤ maxSize := by
  unfold received
  rw [List.length_take, List.length_drop]
  omega

theorem handleMessage_other (hother : ∀ i, ¬ IsFor g packet i) :
    ∃ g', ClientServer.handleMessage E packet g = .ok () g' := by
  cases hlookup : g.clients.lookup packet.getPlayerID with
  | none => exact ⟨_, handleMessage_unknown fun h => h hlookup⟩
  | some p =>
    unfold ClientServer.handleMessage
    rw [Exec.run_bind_ok (clientAt_entry hlookup)]
    cases p with
    | none => exact ⟨g, rfl⟩
    | some i =>
      dsimp only
      rw [if_neg fun hid => hother i ⟨hlookup, hid⟩]
      exact ⟨g, rfl⟩

/-- A message to a client that is too large to be framed ends the handler. -/
theorem handleMessage_large (hready : Ready g i) (hfor : IsFor g packet i)
    (hlarge : 2 ^ 21 ≤ packet.payload.length) (hmax : packet.payload.length ≤ maxSize) :
    ClientServer.handleMessage E packet g = .threw (tooLarge packet.payload.length) g := by
  obtain ⟨c, hl, hthreshold, -⟩ := hready
  have hfits : ¬ FitsFrame packet.payload.length := by
    rw [fitsFrame_iff (by unfold maxSize at hmax; omega)]
    omega
  unfold ClientServer.handleMessage
  rw [Exec.run_bind_ok (clientAt_entry hfor.1)]
  dsimp only
  rw [if_pos hfor.2, Exec.run_bind_ok (run_client hl)]
  refine Exec.run_bind_threw (Exec.run_onLocal_threw (?_ : _ = Res.threw _ packet.payload))
  rw [Exec.run_bind_ok (Exec.run_get _), hthreshold, asSize_noCompression,
    if_neg (by simp only [Message.getPayload]; unfold maxSize at hmax; omega)]
  exact Exec.run_bind_threw (writeBufferLengthToFront_large hfits)

theorem onDataReceived_cut (h : ¬ Whole data) : ClientServer.onDataReceived E (some data) g = .undefined := by
  unfold ClientServer.onDataReceived
  rw [Exec.run_bind_ok (Exec.run_modify _ g)]
  rcases onLocal_cut { g with receivePending := false } false h with hparse | hparse
  · exact Exec.run_bind_undefined hparse
  · exact Exec.run_bind_ok hparse

/-- What becomes of a whole datagram is what `handleMessage` makes of its message. -/
theorem onDataReceived_whole (h : Whole data) (hmax : data.length ≤ maxSize) :
    ClientServer.onDataReceived E (some data) g =
      (ClientServer.handleMessage E (received data) >>= fun _ => Exec.modify fun g => { g with receivePending := true })
        { g with receivePending := false } := by
  unfold ClientServer.onDataReceived
  rw [Exec.run_bind_ok (Exec.run_modify _ g)]
  exact Exec.run_bind_ok (onLocal_whole _ false h hmax)

theorem onDataReceived_deliverable (hready : ∀ i, IsFor g (received data) i → Ready g i) (h : Whole data)
    (hmax : data.length ≤ maxSize) (hdeliverable : Deliverable g (received data)) :
    HandlesNext Gateway.receivePending (ClientServer.onDataReceived E (some data)) g := by
  have hhandled : ∃ g', ClientServer.handleMessage E (received data) { g with receivePending := false } =
    .ok () g' := by
    by_cases hfor : ∃ i, IsFor g (received data) i
    · obtain ⟨i, hfor⟩ := hfor
      obtain ⟨g', hrun, -⟩ := handleMessage_framed (E := E) (g := { g with receivePending := false })
        (hready i hfor) hfor
        (hdeliverable i hfor)
      exact ⟨g', hrun⟩
    · exact handleMessage_other (g := { g with receivePending := false }) (not_exists.mp hfor)
  obtain ⟨g', hrun⟩ := hhandled
  unfold HandlesNext
  rw [onDataReceived_whole h hmax, Exec.run_bind_ok hrun]
  exact ⟨_, rfl, rfl⟩

theorem onDataReceived_undeliverable (hready : ∀ i, IsFor g (received data) i → Ready g i) (h : Whole data)
    (hmax : data.length ≤ maxSize) (hundeliverable : ¬ Deliverable g (received data)) :
    ClientServer.onDataReceived E (some data) g =
      .threw (tooLarge (received data).payload.length) { g with receivePending := false } := by
  obtain ⟨i, hundeliverable⟩ := not_forall.mp hundeliverable
  obtain ⟨hfor, hlarge⟩ := Classical.not_imp.mp hundeliverable
  rw [onDataReceived_whole h hmax]
  exact Exec.run_bind_threw (handleMessage_large (g := { g with receivePending := false }) (hready i hfor) hfor
    (not_lt.mp hlarge) (length_received hmax))

theorem onDataReceived_iff (hready : ∀ userid i, g.clients.lookup userid = some (some i) → Ready g i)
    (datagram : Option Payload) :
    HandlesNext Gateway.receivePending (ClientServer.onDataReceived E (datagram.map Subtype.val)) g ↔
      ∃ data, datagram = some data ∧ Whole data.val ∧ Deliverable g (received data.val) := by
  constructor
  · rintro ⟨g', hreturn, harmed⟩
    cases datagram with
    | none =>
      cases hreturn
      cases harmed
    | some data =>
      have hentry (i : ConnId) (hfor : IsFor g (received data.val) i) : Ready g i := hready _ i hfor.1
      rw [Option.map_some] at hreturn
      refine ⟨data, rfl, Classical.byContradiction fun hnot => ?_⟩
      by_cases hwhole : Whole data.val
      · rw [onDataReceived_undeliverable hentry hwhole data.property fun h => hnot ⟨hwhole, h⟩] at hreturn
        cases hreturn
      · rw [onDataReceived_cut hwhole] at hreturn
        cases hreturn
  · rintro ⟨data, rfl, hwhole, hdeliverable⟩
    exact onDataReceived_deliverable (fun i hfor => hready _ i hfor.1) hwhole data.property hdeliverable

end Gateway

theorem onDatagramMessageReceived_iff (n : ClientServer.Node) (datagram : Option Payload) :
    HandlesNext ClientServer.Node.receivePending (ClientServer.onDatagramMessageReceived (datagram.map Subtype.val)) n ↔
      ∃ data, datagram = some data ∧ Whole data.val := by
  constructor
  · rintro ⟨n', hreturn, harmed⟩
    cases datagram with
    | none =>
      cases hreturn
      cases harmed
    | some data =>
      refine ⟨data, rfl, Classical.byContradiction fun hcut => ?_⟩
      rw [Option.map_some, ClientServer.onDatagramMessageReceived_cut hcut] at hreturn
      cases hreturn
  · rintro ⟨data, rfl, hwhole⟩
    exact ⟨_, ClientServer.onDatagramMessageReceived_whole hwhole data.property, rfl⟩

/-! ## Runs -/

section Runs

variable {E : Env} {w : World} {g g' : Gateway} {e : Event}

def ReceiveKept (g g' : Gateway) : Prop := g'.receivePending = g.receivePending

instance : Std.Refl ReceiveKept := ⟨fun _ => rfl⟩

instance : IsTrans Gateway ReceiveKept := ⟨fun _ _ _ h h' => Eq.trans h' h⟩

theorem indifferent_receiveKept : Indifferent ReceiveKept where
  modify := fun _ _ _ => rfl
  pendingClients := fun _ _ => rfl
  insert := fun _ _ _ => rfl
  erase := fun _ _ => rfl
  modifyAny := fun _ _ _ => rfl
  construct := fun _ _ _ => rfl
  inserted := fun _ _ _ => rfl

/-- What is received is a whole datagram with a deliverable message. -/
def DatagramDeliverable (g : Gateway) (e : World × Event) : Prop :=
  ∀ datagram, e.2 = .onDataReceived datagram →
    ∃ data : Payload, datagram = some data.val ∧ Whole data.val ∧ Deliverable g (received data.val)

theorem receivePending_step (hready : ∀ userid i, g.clients.lookup userid = some (some i) → Ready g i)
    (hpending : g.receivePending = true) (hdeliverable : DatagramDeliverable g (w, e)) (h : step E g (w, e) = some g') :
    g'.receivePending = true := by
  by_cases he : ∀ datagram, e ≠ .onDataReceived datagram
  · exact (indifferent_receiveKept.step he h).trans hpending
  · obtain ⟨datagram, he⟩ := not_forall.mp he
    obtain rfl := not_not.mp he
    obtain ⟨data, rfl, hwhole, hfits⟩ := hdeliverable datagram rfl
    obtain ⟨m, hm, hwp⟩ := step_runs h
    simp only [handler, Option.ite_none_right_eq_some, Option.some.injEq] at hm
    obtain ⟨-, rfl⟩ := hm
    obtain ⟨g'', hreturn, harmed⟩ :=
      onDataReceived_deliverable (E := E) (fun i hfor => hready _ i hfor.1) hwhole data.property hfits
    exact hwp (fun g' => g'.receivePending = true) ((Exec.wp_of_ok hreturn).mpr harmed)

/-- A run all of whose receives are of whole datagrams with deliverable messages leaves the gateway waiting for the
next. -/
theorem receivePending_run (E : Env) (run : List (World × Event))
    (h : AllSteps (step E) DatagramDeliverable Gateway.init run) :
    AllStates (step E) (fun g => g.receivePending = true) Gateway.init run := by
  have hinv : AllStates (step E) (fun g => g.receivePending = true ∧ ∃ before, runFrom (step E) Gateway.init before =
    some g)
      Gateway.init run := by
    refine allStates_of_inv ?_ ⟨rfl, [], rfl⟩ h
    rintro g e g' ⟨hpending, before, hbefore⟩ hdeliverable hstep
    refine ⟨receivePending_step (fun _ _ => ready_of_entry hbefore) hpending hdeliverable hstep, before ++ [e], ?_⟩
    rw [runFrom_append, hbefore]
    exact runFrom_cons hstep
  exact hinv.mono fun g hg => hg.1

end Runs

/-! ## Every receive -/

/-- **The receive is armed again.** In every reachable state of the gateway, and on the client server's node, a receive
is handled and the next one waited for exactly when a whole datagram has arrived, which on the gateway has to be
deliverable. -/
theorem handlesNext_iff (E : Env) (run : List (World × Event)) (g : Gateway)
    (hrun : runFrom (step E) Gateway.init run = some g) (n : ClientServer.Node) (datagram : Option Payload) :
    (HandlesNext Gateway.receivePending (ClientServer.onDataReceived E (datagram.map Subtype.val)) g ↔
        ∃ data, datagram = some data ∧ Whole data.val ∧ Deliverable g (received data.val)) ∧
      (HandlesNext ClientServer.Node.receivePending
        (ClientServer.onDatagramMessageReceived (datagram.map Subtype.val)) n ↔
        ∃ data, datagram = some data ∧ Whole data.val) :=
  ⟨onDataReceived_iff (fun _ _ => ready_of_entry hrun) datagram, onDatagramMessageReceived_iff n datagram⟩

/-- A message for a player who is logged in. -/
theorem handlesNext_playerMessage :
    ∃ g, runFrom (step .player) Gateway.init loginAfterInsert = some g ∧ IsFor g (received (playerMessage 0x2a)) 0 ∧
      HandlesNext Gateway.receivePending (ClientServer.onDataReceived .player (some (playerMessage 0x2a))) g ∧
      HandlesNext ClientServer.Node.receivePending (ClientServer.onDatagramMessageReceived (some (playerMessage 0x2a)))
        .init := by
  have hwhole : Whole (playerMessage 0x2a) := by decide
  have hpayload : (received (playerMessage 0x2a)).payload.length < 2 ^ 21 := by decide
  have hlookup : (runFrom (step .player) Gateway.init loginAfterInsert).map (fun g =>
      g.clients.lookup (received (playerMessage 0x2a)).getPlayerID) = some (some (some 0)) := by
    decide +kernel
  obtain ⟨g, hg, hentry⟩ := Option.map_eq_some_iff.mp hlookup
  let datagram : Payload := ⟨playerMessage 0x2a, by decide⟩
  have h := handlesNext_iff .player loginAfterInsert g hg .init (some datagram)
  exact ⟨g, hg, ⟨hentry, by decide⟩, h.1.mpr ⟨datagram, rfl, hwhole, fun _ _ => hpayload⟩,
    h.2.mpr ⟨datagram, rfl, hwhole⟩⟩

/-- A header that announces one byte, and nothing behind it. -/
def cutDatagram : Payload := ⟨List.replicate 38 0 ++ [1, 0, 0, 0, 0, 0, 0, 0], by decide⟩

/-- The header's byte is missing, and the null packet is dereferenced. -/
theorem cutDatagram_stops :
    ¬ ∀ (E : Env) (run : List (World × Event)) (g : Gateway), runFrom (step E) Gateway.init run = some g →
      ∀ (n : ClientServer.Node) (datagram : Payload),
        HandlesNext Gateway.receivePending (ClientServer.onDataReceived E (some datagram.val)) g ∧
          HandlesNext ClientServer.Node.receivePending
            (ClientServer.onDatagramMessageReceived (some datagram.val)) n := by
  intro h
  obtain ⟨-, n, hreturn, -⟩ := h .player [] Gateway.init rfl .init cutDatagram
  have hcut : ¬ Whole cutDatagram.val := by decide
  rw [ClientServer.onDatagramMessageReceived_cut hcut] at hreturn
  cases hreturn

end CeriosCluster.ClientGateway
