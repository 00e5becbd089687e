import CeriosCluster.ClientGateway.Input
import CeriosCluster.ClientGateway.Refinement

/-!
# What does not look at the clients

A relation between two states that any change of a client keeps, and the owners' changes of their maps too.
Every event but a datagram then keeps it.
-/

namespace CeriosCluster.ClientGateway

open CeriosCluster.Lib CeriosCluster.MCPacket

structure Indifferent (R : Gateway → Gateway → Prop) : Prop extends Routine R where
  modifyAny : ∀ g i f, R g (g.modify i f)
  construct : ∀ g objects accepting, R g { g with objects := objects, accepting := accepting }
  inserted : ∀ g pending accepting, R g { g with pendingClients := pending, accepting := accepting }

namespace Indifferent

variable {R : Gateway → Gateway → Prop} {E : Env} {w : World} {i : ConnId} {f : Client → Client} {g g' : Gateway}
  {e : Event}

theorem modifyClient (hR : Indifferent R) : Exec.Keeps R (modifyClient i f) :=
  fun g => wp_modifyClient.mpr fun _ _ => hR.modifyAny g i f

variable [Std.Refl R]

theorem shrinkBuffer (hR : Indifferent R) (size : Nat) : Exec.Keeps R (shrinkBuffer i size) :=
  .ite (fun _ => .throw _) fun _ => hR.modifyClient

variable [IsTrans Gateway R]

theorem acceptInsert (hR : Indifferent R) : Exec.Keeps R (acceptInsert i) :=
  .bind Routine.client fun _ => Routine.get_set (fun g => hR.inserted g _ _) fun _ => hR.free _

theorem decrypt (hR : Indifferent R) (ciphertext : Bytes) : Exec.Keeps R (decrypt E i ciphertext) := by
  refine .bind Routine.client fun c => ?_
  split
  · exact .undefined
  · refine .ite (fun _ => .undefined) fun _ => ?_
    split
    · exact .pure _
    · exact .bind hR.modifyClient fun _ => .pure _

theorem appendReceived (hR : Indifferent R) (data : Bytes) : Exec.Keeps R (appendReceived E i data) := by
  refine .bind Routine.client fun _ => .ite (fun _ => ?_) fun _ => .bind hR.modifyClient fun _ => hR.modifyClient
  refine .bind hR.modifyClient fun _ => .bind Routine.client fun c => .bind (hR.decrypt _) fun r => ?_
  cases r with
  | none => exact .bind hR.modifyClient fun _ => hR.shrinkBuffer _
  | some cleartext => exact .bind hR.modifyClient fun _ => hR.modifyClient

theorem onBuffer {α : Type} (hR : Indifferent R) (m : BufferM α) : Exec.Keeps R (onBuffer i m) :=
  .bind Routine.client fun _ => .zoom (fun g _ => hR.modifyAny g i _) m

theorem receivedMessage (hR : Indifferent R) (packet : Packet) : Exec.Keeps R (receivedMessage E w i packet) := by
  obtain ⟨rest, heq, hrest⟩ := hR.toRoutine.receivedMessage (E := E) (w := w) (i := i) packet
  rw [heq]
  exact .bind hR.modifyClient fun _ => hrest

theorem onLengthReceive (hR : Indifferent R) (error : Bool) (data : Bytes) :
    Exec.Keeps R (onLengthReceive E w i error data) := by
  refine .bind Routine.client fun _ => .ite (fun _ => .pure _) fun _ => .ite (fun _ => hR.disconnect) fun _ => ?_
  refine .bind (hR.appendReceived data) fun _ => .bind Routine.client fun _ => .bind (hR.onBuffer _) fun r => ?_
  cases r with
  | none => exact hR.startAsyncRead
  | some packet =>
    refine .bind (.tryCatch ?_ fun _ => .bind hR.disconnect fun _ => .pure _) fun _ => ?_
    · exact .bind (hR.receivedMessage packet) fun _ => .pure _
    · exact .ite (fun _ => hR.startAsyncRead) fun _ => .pure _

theorem keepAlive (hR : Indifferent R) (error expired : Bool) : Exec.Keeps R (keepAlive E w i error expired) := by
  refine .bind Routine.client fun c => .ite (fun _ => .pure _) fun _ => .ite (fun _ => hR.disconnect) fun _ => ?_
  refine .ite (fun _ => Routine.socketCancel) fun _ => ?_
  split
  · exact .bind (hR.sendPacket _) fun _ => hR.modifyClient
  · exact Routine.socketCancel

theorem readHTTPHeader (hR : Indifferent R) (k : Nat) (error : Bool) (data : Bytes) :
    Exec.Keeps R (readHTTPHeader i k error data) := by
  refine .bind hR.modifyClient fun _ => .bind Routine.client fun c => .ite (fun _ => .pure _) fun _ => ?_
  split
  · exact .throw _
  · exact .bind Routine.remoteEndpoint fun _ => Routine.socketCancel
  · split
    · exact .pure _
    · exact hR.modifyClient

theorem onHasJoinedPostComplete (hR : Indifferent R) (k length : Nat) (sharedSecret data : Bytes) (error : ReadError) :
    Exec.Keeps R (onHasJoinedPostComplete E w i k sharedSecret error data length) := by
  refine .bind hR.modifyClient fun _ => .ite (fun _ => .pure _) fun _ => .ite (fun _ => .undefined) fun _ => ?_
  split
  · exact .undefined
  · exact .bind hR.modifyClient fun _ => .bind hR.modifyClient fun _ => .bind hR.modifyClient fun _ =>
      .bind hR.modifyClient fun _ => .bind Routine.client fun _ => .bind hR.modifyClient fun _ => hR.onPlayerLogin

/-- Every event keeps the relation, if its handler is not that of a datagram. -/
theorem step (hR : Indifferent R) (he : ∀ datagram, e ≠ .onDataReceived datagram) (h : step E g (w, e) = some g') :
    R g g' := by
  obtain ⟨m, hm, hwp⟩ := step_runs h
  refine hwp _ ?_
  cases e with
  | acceptConstruct handle loopback verifyToken =>
    simp only [handler, Option.ite_none_right_eq_some, Option.some.injEq] at hm
    obtain ⟨-, rfl⟩ := hm
    exact hR.construct g _ _
  | acceptInsert =>
    obtain ⟨i, -, rfl⟩ := Option.map_eq_some_iff.mp hm
    exact hR.acceptInsert g
  | onLengthReceive i error data =>
    simp only [handler, Option.bind_eq_bind, Option.bind_eq_some_iff, Option.ite_none_right_eq_some,
      Option.some.injEq] at hm
    obtain ⟨d, hd, -, rfl⟩ := hm
    exact Exec.Keeps.bind hR.modifyClient (fun _ => hR.onLengthReceive error data) g
  | onWriteComplete i error =>
    simp only [handler, Option.bind_eq_bind, Option.bind_eq_some_iff, Option.ite_none_right_eq_some,
      Option.some.injEq] at hm
    obtain ⟨d, hd, -, rfl⟩ := hm
    exact Exec.Keeps.bind hR.modifyClient (fun _ => .ite (fun _ => hR.disconnect) fun _ => .pure _) g
  | keepAlive i error expired =>
    simp only [handler, Option.bind_eq_bind, Option.bind_eq_some_iff, Option.ite_none_right_eq_some,
      Option.some.injEq] at hm
    obtain ⟨d, hd, -, rfl⟩ := hm
    exact Exec.Keeps.bind hR.modifyClient (fun _ => hR.keepAlive error expired) g
  | connectedToMojang i k isOpen =>
    simp only [handler, Option.bind_eq_bind, Option.bind_eq_some_iff, Option.ite_none_right_eq_some,
      Option.some.injEq] at hm
    obtain ⟨r, hr, hstage, rfl⟩ := hm
    exact Exec.Keeps.bind hR.modifyClient (fun _ => .ite (fun _ => hR.modifyClient) fun _ => .throw _) g
  | sslHandshakeComplete i k error =>
    simp only [handler, Option.bind_eq_bind, Option.bind_eq_some_iff, Option.ite_none_right_eq_some,
      Option.some.injEq] at hm
    obtain ⟨r, hr, hstage, rfl⟩ := hm
    exact Exec.Keeps.bind hR.modifyClient (fun _ => .ite (fun _ => .pure _) fun _ => hR.modifyClient) g
  | sendHTTPRequestDone i k error =>
    simp only [handler, Option.bind_eq_bind, Option.bind_eq_some_iff, Option.ite_none_right_eq_some,
      Option.some.injEq] at hm
    obtain ⟨r, hr, hstage, rfl⟩ := hm
    exact Exec.Keeps.bind hR.modifyClient (fun _ => .ite (fun _ => .pure _) fun _ => hR.modifyClient) g
  | readHTTPHeader i k error data =>
    simp only [handler, Option.bind_eq_bind, Option.bind_eq_some_iff, Option.ite_none_right_eq_some,
      Option.some.injEq] at hm
    obtain ⟨r, hr, hstage, rfl⟩ := hm
    exact hR.readHTTPHeader k error data g
  | onHasJoinedPostComplete i k error more =>
    simp only [handler, Option.bind_eq_bind, Option.bind_eq_some_iff] at hm
    obtain ⟨r, hr, hm⟩ := hm
    split at hm
    · next length data hstage =>
      rw [Option.ite_none_right_eq_some, Option.some.injEq] at hm
      obtain ⟨-, rfl⟩ := hm
      exact hR.onHasJoinedPostComplete k length r.sharedSecret (data ++ more) error g
    · cases hm
  | onDataReceived datagram => exact absurd rfl (he datagram)
  | peerReset i =>
    simp only [handler, Option.bind_eq_bind, Option.bind_eq_some_iff, Option.ite_none_right_eq_some,
      Option.some.injEq] at hm
    obtain ⟨d, hd, -, rfl⟩ := hm
    exact hR.modifyClient g

end Indifferent

end CeriosCluster.ClientGateway
