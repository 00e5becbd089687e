import CeriosCluster.ClientGateway.SessionKey
import CeriosCluster.Lib.WriteQueue

/-!
# The order of the writes

`sendData` starts an `async_write` for each frame while earlier ones may still be under way, and nothing but the
completion handlers is bound to the strand. A frame that the socket takes in part is therefore finished behind the
frames that were started meanwhile. Nor does anyone keep its bytes until then: `asio::buffer` refers to the caller's
vector, which belongs to a packet or a payload of the handler that sends it, and goes with it.
-/

namespace CeriosCluster.ClientGateway

open CeriosCluster.Lib CeriosCluster.MCPacket

/-- The writes a client has started, with the bytes that each found in its vector. -/
def Client.writes (c : Client) : List Bytes :=
  c.log.filterMap fun
    | .write _ bytes => some bytes
    | _ => none

/-- A gateway with the writes under way on one client's socket, and what `sendData` has been called with. -/
structure Writing where
  gateway : Gateway
  socket : WriteQueue Byte
  sent : Bytes

def Writing.start (g : Gateway) : Writing := ⟨g, .empty, []⟩

/-- A call of `sendData`, the end of a vector that one was called with (the handler that called it returns, or sends
its packet again), or progress of a write, with what lies where its vector was. -/
inductive WriteEvent
  | sendData (data : Bytes)
  | release (vector : Nat)
  | transfer (n : Nat) (stale : Bytes)
  | resume (k : Nat)

def startedWrites (i : ConnId) (g g' : Gateway) : List Bytes :=
  match g.objects[i]?, g'.objects[i]? with
  | some c, some c' => c'.writes.drop c.writes.length
  | _, _ => []

def writeStep (E : Env) (i : ConnId) (s : Writing) : WriteEvent → Option Writing
  | .sendData data =>
    match sendData E i data s.gateway with
    | .ok _ g' => some ⟨g', (startedWrites i s.gateway g').foldl WriteQueue.start s.socket, s.sent ++ data⟩
    | _ => none
  | .release vector => (s.socket.release vector).map fun socket => { s with socket := socket }
  | .transfer n stale => (s.socket.transfer n stale).map fun socket => { s with socket := socket }
  | .resume k => (s.socket.resume k).map fun socket => { s with socket := socket }

/-- A transfer finds the vector of its write as `sendData` was called with it, a write is cut only while no other is
pending, and none is started before the rest of one that was cut is issued. -/
def Undisturbed (s : Writing) : WriteEvent → Prop
  | .sendData _ => s.socket.resuming = []
  | .release _ => True
  | .transfer n _ => s.socket.Undisturbed n
  | .resume _ => True

instance (s : Writing) : ∀ e, Decidable (Undisturbed s e)
  | .sendData _ => inferInstanceAs (Decidable (_ = _))
  | .release _ => isTrue trivial
  | .transfer n _ => inferInstanceAs (Decidable (s.socket.Undisturbed n))
  | .resume _ => isTrue trivial

/-- The bytes on the socket are a prefix of what was sent. -/
def WiredInOrder (s : Writing) : Prop := s.socket.wire <+: s.sent

section Steps

variable {E : Env} {i : ConnId} {g : Gateway} {c : Client} {data : Bytes} {s s' : Writing} {e : WriteEvent}

theorem writes_sendData {encrypted : Bool} (data : Bytes) (vector : SendVector) (bytes : Bytes) :
    ((c.logged (.sendData data encrypted)).wrote vector bytes).writes = c.writes ++ [bytes] := by
  show (c.log ++ [_] ++ [_]).filterMap _ = _
  rw [List.filterMap_append, List.filterMap_append]
  simp [Client.writes]

/-- A live client in clear text starts one write, of the data, in the vector of its caller. -/
theorem run_sendData (data : Bytes) (hl : Live g i c) (halive : c.alive = true) (hclear : c.encrypted = false) :
    ∃ g', sendData E i data g = .ok () g' ∧ Live g' i ((c.logged (.sendData data false)).wrote .data data) := by
  have hlogged := hl.modify (f := fun c => c.logged (.sendData data false)) rfl
  have hwrote := hlogged.modify (f := (·.wrote .data data)) rfl
  refine ⟨_, ?_, hwrote⟩
  unfold sendData record
  rw [Exec.run_bind_ok (run_client hl), hclear, Exec.run_bind_ok (run_modifyClient hl), if_neg (by simp [halive]),
    if_neg (by simp)]
  exact run_asyncWrite .data data hlogged

/-- What holds along a run whose writes are not disturbed. -/
structure WritingInv (i : ConnId) (s : Writing) : Prop where
  clear : ∃ c, Live s.gateway i c ∧ c.alive = true ∧ c.encrypted = false
  order : s.socket.InOrder s.sent

theorem WritingInv.step (h : WritingInv i s) (hcalm : Undisturbed s e) (hstep : writeStep E i s e = some s') :
    WritingInv i s' := by
  obtain ⟨⟨c, hl, halive, hclear⟩, horder⟩ := h
  cases e with
  | sendData data =>
    obtain ⟨g', hrun, hl'⟩ := run_sendData (E := E) data hl halive hclear
    simp only [writeStep, hrun, Option.some.injEq] at hstep
    subst hstep
    have hstarted : startedWrites i s.gateway g' = [data] := by
      unfold startedWrites
      rw [hl.1, hl'.1]
      dsimp only
      rw [writes_sendData, List.drop_left]
    refine ⟨⟨_, hl', halive, hclear⟩, ?_⟩
    rw [hstarted]
    exact horder.start hcalm
  | release vector =>
    obtain ⟨q, hq, rfl⟩ := Option.map_eq_some_iff.mp hstep
    exact ⟨⟨c, hl, halive, hclear⟩, horder.release hq⟩
  | transfer n stale =>
    obtain ⟨q, hq, rfl⟩ := Option.map_eq_some_iff.mp hstep
    exact ⟨⟨c, hl, halive, hclear⟩, horder.transfer hq hcalm⟩
  | resume k =>
    obtain ⟨q, hq, rfl⟩ := Option.map_eq_some_iff.mp hstep
    exact ⟨⟨c, hl, halive, hclear⟩, horder.resume hq⟩

end Steps

/-- **The order of the writes.** On a live client in clear text, the bytes on the socket are a prefix of what was sent
along every run whose transfers find their vectors as they were, and cut a write only while it is the only one. -/
theorem wiredInOrder_of_undisturbed (E : Env) (g : Gateway) (i : ConnId) (c : Client) (hl : Live g i c)
    (halive : c.alive = true) (hclear : c.encrypted = false) (run : List WriteEvent)
    (h : AllSteps (writeStep E i) Undisturbed (.start g) run) :
      AllStates (writeStep E i) WiredInOrder (.start g) run := by
  have hinv : WritingInv i (.start g) := ⟨⟨c, hl, halive, hclear⟩, WriteQueue.inOrder_empty⟩
  have hall := allStates_of_inv (I := WritingInv i) (fun s e s' hI hcalm hstep => hI.step hcalm hstep) hinv h
  exact hall.mono fun s hI => hI.order.wire_isPrefix

/-! ## Runs -/

def oneClient : Gateway :=
  { Gateway.init with
    objects := [Client.new .login ⟨7, false, .connected⟩ zeroToken]
    pendingClients := (∅ : ClientMap Word).insert 7 (some 0) }

/-- The socket takes two frames at once, before the handlers that sent them return, and a third in two parts: its
rest is issued while its handler still runs. -/
def oneByOne : List WriteEvent :=
  [.sendData [1, 2], .transfer 2 [], .release 0, .sendData [3], .transfer 1 [], .release 1,
    .sendData [4, 5, 6], .transfer 1 [], .resume 0, .transfer 2 [], .release 2]

/-- The frames arrive in order. -/
theorem wiredInOrder_oneByOne : AllStates (writeStep .player 0) WiredInOrder (.start oneClient) oneByOne :=
  wiredInOrder_of_undisturbed .player oneClient 0 (Client.new .login ⟨7, false, .connected⟩ zeroToken)
    ⟨rfl, rfl⟩ rfl rfl
    oneByOne (by decide +kernel)

/-- The rest of a frame is read after its handler has returned: something else is sent in its place. -/
example : (runFrom (writeStep .player 0) (.start oneClient)
    [.sendData [1, 2], .transfer 1 [], .release 0, .resume 0, .transfer 1 [9]]).map (·.socket.wire) = some [1, 9] := by
  decide +kernel

/-- The second frame overtakes the rest of the first. -/
theorem second_frame_overtakes :
    ¬ ∀ (E : Env) (g : Gateway) (i : ConnId) (c : Client), Live g i c → c.alive = true → c.encrypted = false →
      ∀ run : List WriteEvent, AllStates (writeStep E i) WiredInOrder (.start g) run := by
  intro h
  have hwire : (runFrom (writeStep .player 0) (.start oneClient)
      [.sendData [1, 2], .sendData [3], .transfer 1 [], .transfer 1 []]).map (fun s => (s.socket.wire, s.sent)) =
        some ([1, 3], [1, 2, 3]) := by
    decide +kernel
  obtain ⟨s, hs, hstate⟩ := Option.map_eq_some_iff.mp hwire
  obtain ⟨hwire, hsent⟩ := Prod.mk.inj hstate
  have hordered := (h .player oneClient 0 _ ⟨rfl, rfl⟩ rfl rfl _).last hs
  unfold WiredInOrder at hordered
  rw [hwire, hsent] at hordered
  exact absurd hordered (by decide)

end CeriosCluster.ClientGateway
