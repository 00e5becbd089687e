import CeriosCluster.ClientGateway.CustodyEffects
import CeriosCluster.ClientGateway.Indifference
import CeriosCluster.ClientGateway.SessionKey

/-!
# Null pointers in `clients`

`handleMessage` looks the player of a datagram up with `operator[]`, which puts a null pointer under an id
that is not there. Nothing else puts one there, so `clients` is free of them exactly along the runs whose
datagrams are all about players it knows.
-/

namespace CeriosCluster.ClientGateway

open CeriosCluster.Lib CeriosCluster.MCPacket CeriosCluster.InternalComms

def NoNull (g : Gateway) : Prop := ∀ userid, g.clients.lookup userid ≠ some none

def NoNewNull (g g' : Gateway) : Prop :=
  ∀ userid, g'.clients.lookup userid = some none → g.clients.lookup userid = some none

theorem NoNull.of_noNewNull {g g' : Gateway} (h : NoNull g) (hnew : NoNewNull g g') : NoNull g' :=
  fun userid hnull => h userid (hnew userid hnull)

instance : Std.Refl NoNewNull := ⟨fun _ _ h => h⟩

instance : IsTrans Gateway NoNewNull := ⟨fun _ _ _ h h' userid hnull => h userid (h' userid hnull)⟩

theorem noNewNull_of_eq {g g' : Gateway} (h : g'.clients = g.clients) : NoNewNull g g' := by
  intro userid hnull
  rw [← h]
  exact hnull

/-! ## What puts no null pointer there -/

section Frames

variable {i : ConnId} {g : Gateway}

theorem noNewNull_insert {userid : Bytes} : NoNewNull g { g with clients := g.clients.insert userid (some i) } := by
  intro key hnull
  by_cases hkey : key = userid
  · subst hkey
    simp at hnull
  · simpa [AList.lookup_insert_ne hkey] using hnull

theorem noNewNull_erase {userid : Bytes} : NoNewNull g { g with clients := g.clients.erase userid } := by
  intro key hnull
  by_cases hkey : key = userid
  · subst hkey
    simp at hnull
  · simpa [AList.lookup_erase_ne hkey] using hnull

theorem indifferent_noNewNull : Indifferent NoNewNull where
  modify := fun _ _ _ => noNewNull_of_eq rfl
  pendingClients := fun _ _ => noNewNull_of_eq rfl
  insert := fun _ _ _ => noNewNull_insert
  erase := fun _ _ => noNewNull_erase
  modifyAny := fun _ _ _ => noNewNull_of_eq rfl
  construct := fun _ _ _ => noNewNull_of_eq rfl
  inserted := fun _ _ _ => noNewNull_of_eq rfl

end Frames

/-! ## Datagrams -/

def messageOf (data : Bytes) : Option Message :=
  match fromData false data with
  | .ok packet _ => packet
  | _ => none

def Knows (g : Gateway) (packet : Message) : Prop := g.clients.lookup packet.getPlayerID ≠ none

section Datagrams

variable {E : Env} {g g' : Gateway} {packet : Message}

theorem noNewNull_handleMessage (hknown : Knows g packet) :
    Exec.wp (ClientServer.handleMessage E packet) (fun _ => NoNewNull g) (fun _ => NoNewNull g) g := by
  have hat : Exec.wp (clientAt packet.getPlayerID) (fun _ g' => g' = g) (fun _ _ => False) g := by
    unfold clientAt
    rw [Exec.wp_bind, Exec.wp_get]
    cases hlookup : g.clients.lookup packet.getPlayerID with
    | none => exact absurd hlookup hknown
    | some p => rfl
  rw [ClientServer.handleMessage, Exec.wp_bind]
  refine Exec.wp_mono hat (fun p g' h => ?_) fun _ _ h => h.elim
  subst h
  cases p with
  | none => exact refl_of NoNewNull g'
  | some i =>
    have hsend : Exec.Keeps NoNewNull (if packet.getMessageID = .MC_PACKET then do
        let c ← client i
        let payload ← Exec.onLocal packet.getPayload do
          let payload ← Exec.get
          if asSize c.compressionThreshold ≤ payload.length then compressData E.zlib E.fuel else pure ()
          writeBufferLengthToFront
          Exec.get
        sendData E i payload else pure ()) :=
      .ite (fun _ => .bind Routine.client fun _ => .bind (.onLocal _ _) fun _ => indifferent_noNewNull.sendData _)
        fun _ => .pure _
    exact hsend g'

/-- A message about a player that is not known leaves a null pointer under its id. -/
theorem handleMessage_unknown (hunknown : ¬ Knows g packet) :
    ClientServer.handleMessage E packet g = .ok () { g with clients := g.clients.insert packet.getPlayerID none } := by
  have hlookup : g.clients.lookup packet.getPlayerID = none := not_not.mp hunknown
  have hat : clientAt packet.getPlayerID g =
    .ok none { g with clients := g.clients.insert packet.getPlayerID none } := by
    unfold clientAt
    rw [Exec.run_bind_ok (Exec.run_get g), hlookup]
    rfl
  unfold ClientServer.handleMessage
  rw [Exec.run_bind_ok hat]
  rfl

theorem not_noNull_insert {userid : Bytes} : ¬ NoNull { g with clients := g.clients.insert userid none } := by
  intro h
  apply h userid
  simp

theorem onLocal_fromData {data : Bytes} (hdata : messageOf data = some packet) :
    (Exec.onLocal data (fromData false) : M (Option Message)) g = .ok (some packet) g := by
  unfold messageOf at hdata
  split at hdata
  · next hparse =>
    rw [hdata] at hparse
    exact Exec.run_onLocal_ok hparse
  · cases hdata

theorem noNewNull_onDataReceived {datagram : Option Bytes}
    (hknown : ∀ data packet, datagram = some data → messageOf data = some packet → Knows g packet) :
    Exec.wp (ClientServer.onDataReceived E datagram) (fun _ => NoNewNull g) (fun _ => NoNewNull g) g := by
  unfold ClientServer.onDataReceived
  rw [Exec.wp_bind, Exec.wp_modify]
  cases datagram with
  | none => exact noNewNull_of_eq rfl
  | some data =>
    rw [Exec.wp_bind, Exec.wp_onLocal]
    unfold Exec.wp
    cases hparse : fromData false data with
    | ok p b =>
      cases p with
      | none => trivial
      | some packet =>
        have hmessage : messageOf data = some packet := by
          unfold messageOf
          rw [hparse]
        have hhandled := noNewNull_handleMessage (E := E) (g := { g with receivePending := false })
          (hknown data packet rfl hmessage)
        show Exec.wp (ClientServer.handleMessage E packet >>= fun _ => Exec.modify fun g =>
          { g with receivePending := true })
          _ _ { g with receivePending := false }
        rw [Exec.wp_bind]
        exact Exec.wp_mono hhandled (fun _ _ h => h) fun _ _ h => h
    | threw e b => exact noNewNull_of_eq rfl
    | undefined => trivial
    | diverged => trivial

theorem onDataReceived_unknown {data : Bytes} (hdata : messageOf data = some packet) (hunknown : ¬ Knows g packet) :
    ClientServer.onDataReceived E (some data) g =
      .ok () { g with clients := g.clients.insert packet.getPlayerID none, receivePending := true } := by
  have hhandled := handleMessage_unknown (E := E) (g := { g with receivePending := false }) hunknown
  have hlocal := onLocal_fromData (g := { g with receivePending := false }) hdata
  unfold ClientServer.onDataReceived
  rw [Exec.run_bind_ok (Exec.run_modify _ g)]
  refine (Exec.run_bind_ok hlocal).trans ?_
  refine (Exec.run_bind_ok hhandled).trans ?_
  rfl

end Datagrams

/-! ## The calls -/

/-- An event of the gateway, or a call of one of the functions of `ClientServer` that change `clients`. -/
inductive ServerCall
  | event (e : Event)
  | addClient (i : ConnId)
  | clientDisconnected (i : ConnId)
  | handleMessage (packet : Message)

def serverStep (E : Env) (g : Gateway) (call : World × ServerCall) : Option Gateway :=
  match call.2 with
  | .event e => step E g (call.1, e)
  | .addClient i => (ClientServer.addClient E call.1 i).after g
  | .clientDisconnected i => (ClientServer.clientDisconnected call.1 i).after g
  | .handleMessage packet => (ClientServer.handleMessage E packet).after g

/-- A datagram that is received is about a player that `clients` knows. -/
def DatagramKnown (g : Gateway) : Event → Prop
  | .onDataReceived (some data) => ∀ packet, messageOf data = some packet → Knows g packet
  | _ => True

/-- A message that is handled is about a player that `clients` knows. -/
def PlayerKnown (g : Gateway) (call : World × ServerCall) : Prop :=
  match call.2 with
  | .event e => DatagramKnown g e
  | .handleMessage packet => Knows g packet
  | _ => True

section Calls

variable {E : Env} {w : World} {g g' : Gateway} {e : Event} {call : World × ServerCall}

theorem noNewNull_step (hknown : DatagramKnown g e) (h : step E g (w, e) = some g') : NoNewNull g g' := by
  by_cases he : ∀ datagram, e ≠ .onDataReceived datagram
  · exact indifferent_noNewNull.step he h
  · obtain ⟨datagram, he⟩ := not_forall.mp he
    obtain rfl := not_not.mp he
    obtain ⟨m, hm, hwp⟩ := step_runs h
    simp only [handler, Option.ite_none_right_eq_some, Option.some.injEq] at hm
    obtain ⟨-, rfl⟩ := hm
    refine hwp _ (noNewNull_onDataReceived fun data packet hdata hmessage => ?_)
    subst hdata
    exact hknown packet hmessage

/-- A datagram about a player that is not known leaves a null pointer. -/
theorem null_of_step (hunknown : ¬ DatagramKnown g e) (h : step E g (w, e) = some g') : ¬ NoNull g' := by
  obtain ⟨m, hm, hwp⟩ := step_runs h
  cases e with
  | onDataReceived datagram =>
    simp only [handler, Option.ite_none_right_eq_some, Option.some.injEq] at hm
    obtain ⟨-, rfl⟩ := hm
    cases datagram with
    | none => exact absurd trivial hunknown
    | some data =>
      obtain ⟨packet, hunknown⟩ := not_forall.mp hunknown
      obtain ⟨hmessage, hunknown⟩ := Classical.not_imp.mp hunknown
      refine hwp (fun g' => ¬ NoNull g') ((Exec.wp_of_ok (onDataReceived_unknown hmessage hunknown)).mpr ?_)
      exact not_noNull_insert (g := { g with receivePending := true })
  | _ => exact absurd trivial hunknown

theorem noNewNull_serverStep (hknown : PlayerKnown g call) (h : serverStep E g call = some g') : NoNewNull g g' := by
  obtain ⟨w, call⟩ := call
  cases call with
  | event e => exact noNewNull_step hknown h
  | addClient i => exact Exec.wp.of_after (indifferent_noNewNull.addClient g) h
  | clientDisconnected i => exact Exec.wp.of_after (indifferent_noNewNull.clientDisconnected .clientServer g) h
  | handleMessage packet => exact Exec.wp.of_after (noNewNull_handleMessage hknown) h

theorem null_of_serverStep (hunknown : ¬ PlayerKnown g call) (h : serverStep E g call = some g') : ¬ NoNull g' := by
  obtain ⟨w, call⟩ := call
  cases call with
  | event e => exact null_of_step hunknown h
  | handleMessage packet =>
    have hafter := Exec.after_of_ok (handleMessage_unknown (E := E) hunknown)
    obtain rfl := Option.some.inj (hafter.symm.trans h)
    exact not_noNull_insert
  | _ => exact absurd trivial hunknown

end Calls

/-- **No null pointer** lies in `clients`, whatever events and calls come in whatever order, exactly when every
message that is handled is about a player that `clients` knows. -/
theorem noNull_iff (E : Env) (run : List (World × ServerCall)) :
    AllStates (serverStep E) NoNull Gateway.init run ↔ AllSteps (serverStep E) PlayerKnown Gateway.init run := by
  refine allStates_iff_allSteps (I := NoNull) ?_ (fun _ h => h) ?_ ?_
  · intro g call g' h hknown hstep
    exact h.of_noNewNull (noNewNull_serverStep hknown hstep)
  · intro g call g' _ hunknown hstep
    exact null_of_serverStep hunknown hstep
  · intro userid hnull
    cases hnull

def strangerUserid : Block 36 := ⟨ascii "00000000-0000-0000-0000-000000000000", by decide⟩

/-- One message about a player nobody knows, and its id has a null pointer. -/
theorem unknown_player_leaves_null :
    ¬ ∀ (E : Env) (run : List (World × ServerCall)), AllStates (serverStep E) NoNull Gateway.init run := by
  intro h
  have hnull : (runFrom (serverStep .player) Gateway.init [(.plain,
    .handleMessage ⟨⟨3, 0, strangerUserid, 0⟩, []⟩)]).map
      (·.clients.lookup strangerUserid.val) = some (some none) := by
    decide +kernel
  obtain ⟨g, hg, hlookup⟩ := Option.map_eq_some_iff.mp hnull
  exact (h .player _).last hg strangerUserid.val hlookup

end CeriosCluster.ClientGateway
