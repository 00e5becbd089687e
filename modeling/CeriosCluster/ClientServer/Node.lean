import CeriosCluster.InternalComms.Stream

/-!
# The client server's node

The node that the gateways send messages to. It waits for a datagram, takes the message out of it and looks
at its kind, which makes no difference yet.
-/

namespace CeriosCluster.ClientServer

open CeriosCluster.Lib CeriosCluster.MCPacket CeriosCluster.InternalComms

/-- `receivePending` says whether the node waits for a datagram. -/
structure Node where
  receivePending : Bool
  deriving DecidableEq

def Node.init : Node := ⟨true⟩

def handleMessage (packet : Message) : Exec Exn Node Unit :=
  if packet.getMessageID = .ACCEPT_CLIENT then pure ()
  else if packet.getMessageID = .MC_PACKET then pure ()
  else pure ()

/-- `ClientServer::onDatagramMessageReceived`, with the datagram it receives, if it receives one; a null packet is
dereferenced. -/
def onDatagramMessageReceived (datagram : Option Bytes) : Exec Exn Node Unit := do
  Exec.modify fun _ => ⟨false⟩
  match datagram with
  | none => pure ()
  | some data => do
    match ← Exec.onLocal data (fromData true) with
    | none => Exec.undefined
    | some packet => handleMessage packet
    Exec.modify fun _ => ⟨true⟩

section Receives

variable {n : Node} {data : Bytes}

theorem run_handleMessage (packet : Message) : handleMessage packet n = .ok () n := by
  unfold handleMessage
  split
  · rfl
  · split <;> rfl

theorem onDatagramMessageReceived_whole (h : Whole data) (hmax : data.length ≤ maxSize) :
    onDatagramMessageReceived (some data) n = .ok () ⟨true⟩ := by
  unfold onDatagramMessageReceived
  rw [Exec.run_bind_ok (Exec.run_modify _ n)]
  refine (Exec.run_bind_ok (onLocal_whole _ true h hmax)).trans ?_
  exact Exec.run_bind_ok (run_handleMessage _)

theorem onDatagramMessageReceived_cut (h : ¬ Whole data) : onDatagramMessageReceived (some data) n = .undefined := by
  unfold onDatagramMessageReceived
  rw [Exec.run_bind_ok (Exec.run_modify _ n)]
  rcases onLocal_cut (⟨false⟩ : Node) true h with hparse | hparse
  · exact Exec.run_bind_undefined hparse
  · exact Exec.run_bind_ok hparse

end Receives

end CeriosCluster.ClientServer
