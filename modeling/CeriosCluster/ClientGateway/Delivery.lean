import CeriosCluster.ClientGateway.Ending
import CeriosCluster.Lib.Reader

/-!
# Messages are delivered in order

What a connection gives to `sendData` is the frame of a packet that it has just been told to send, or a frame that has
been relayed to it. The log tells the two apart. So the frames that have been relayed to a live connection can be
compared with those that the datagrams of the run were for it: they are the same, in the same order.
-/

namespace CeriosCluster.ClientGateway

open CeriosCluster.Lib CeriosCluster.MCPacket CeriosCluster.InternalComms

/-- Reads a log for the data that is not the frame of a packet sent just before. -/
def relayReader : Reader (Option Bytes) Action Bytes where
  rest := none
  read expected
    | .sendPacket p => (frame (p.serialized getSide), [])
    | .sendData data _ => (none, if expected = some data then [] else [data])
    | _ => (none, [])

def Client.relayed (c : Client) : List Bytes := relayReader.outputs c.log

/-- The frames of a run that are for the client `j`. -/
def dueAlong (E : Env) (j : ConnId) : Gateway → List (World × Event) → List Bytes
  | _, [] => []
  | g, e :: es => due g e.2 j ++ (step E g e).elim [] fun g' => dueAlong E j g' es

def Event.datagram : Event → Bytes
  | .onDataReceived (some data) => data
  | _ => []

def FitMemory (run : List (World × Event)) : Prop :=
  ∀ e ∈ run, ∀ data, e.2 = .onDataReceived (some data) → data.length ≤ maxSize

/-! ## Reading turns -/

section Turns

variable {E : Env} {l l' : Line} {as : List Action} {p : Packet} {data payload : Bytes} {a : Ambient} {ids : List Word}

theorem run_carries (h : Line.Carries E data l as l') (expected : Option Bytes) :
    relayReader.run expected as = (none, if expected = some data then [] else [data]) := by
  cases h <;> simp [Reader.run, relayReader]

theorem settles_sends (h : Line.Sends E p l as l') : relayReader.Settles as [] := by
  obtain ⟨hframe, hcarries⟩ := h
  show relayReader.run none (_ :: _) = _
  rw [Reader.run, show (relayReader.read none (.sendPacket p)) =
    (some _, []) from by rw [← hframe]; rfl, run_carries hcarries]
  simp [relayReader]

theorem settles_sendsFresh (h : Line.SendsFresh E a ids l as l') : relayReader.Settles as [] := by
  induction h with
  | nil l => exact .nil
  | cons hp hsends hrest ih => exact (settles_sends hsends).append ih

theorem settles_turn (h : Line.Turn E l as l') : relayReader.Settles as [] := by
  have hlogin : relayReader.Settles [.onPlayerLogin] [] := rfl
  cases h with
  | hears bytes | ignores hother | handshake hp hstate | agrees key hstate
  | encrypts sharedSecret decryptContext hkey hstate
  | expires hwaits => rfl
  | answers hstate hp hsends | asks hstate hp hsends | keepsAlive hstate hwaits hp hsends => exact settles_sends hsends
  | refuses hstate hp hlarge =>
    show relayReader.run none _ = _
    simp [Reader.run, relayReader, hlarge]
  | admits hstate hp hsends => exact hlogin.append (settles_sends hsends)
  | joins hstate hp howner hsends hjoin =>
    exact hlogin.append ((settles_sends hsends).append (settles_sendsFresh hjoin))

theorem settles_relays (h : Line.Relays E payload l as l') : relayReader.Settles as (frame payload).toList := by
  obtain ⟨hjoined, hframe, hcarries⟩ := h
  show relayReader.run none as = _
  rw [run_carries hcarries, hframe]
  rfl

theorem settles_talks (h : Line.Talks E l as l') : ∃ out, relayReader.Settles as out := by
  cases h with
  | speaks h => exact ⟨[], settles_turn h⟩
  | relays payload h => exact ⟨_, settles_relays h⟩

end Turns

/-! ## Runs -/

def Gateway.relayed (g : Gateway) (j : ConnId) : List Bytes := g.objects[j]?.elim [] Client.relayed

section Runs

variable {E : Env} {w : World} {e : Event} {j : ConnId} {g g' : Gateway} {c c' : Client} {run es : List (World × Event)}

theorem Gateway.relayed_of_client (hc : g.objects[j]? = some c) : g.relayed j = c.relayed := by
  simp [Gateway.relayed, hc]

theorem due_of_none (hs : g.custody.Sound) (hc : g.objects[j]? = none) : due g e j = [] := by
  have hnobody (packet : Message) : framesFor g packet j = [] := by
    refine if_neg fun hfor => ?_
    obtain ⟨h, hh, -⟩ := hs.owned.fits _ _ (held_client_iff.mpr hfor.1)
    obtain ⟨c, hc', -⟩ := objects_of_custody hh
    cases hc.symm.trans hc'
  cases e with
  | onDataReceived datagram =>
    show (datagram.bind messageOf).elim [] (fun packet => framesFor g packet j) = []
    cases datagram.bind messageOf with
    | none => rfl
    | some packet => exact hnobody packet
  | _ => rfl

theorem none_before (hu : g.Usual) (h : step E g (w, e) = some g') (hc' : g'.objects[j]? = none) :
    g.objects[j]? = none := by
  have hlength : g.objects.length ≤ g'.objects.length := by
    rcases step_led hu h with ⟨handle, loopback, verifyToken, -, hobjects⟩ | ⟨k, hled, -⟩
    · rw [hobjects, List.length_append]
      exact Nat.le_add_right ..
    · exact Nat.le_of_eq hled.1.symm
  exact List.getElem?_eq_none (hlength.trans (List.getElem?_eq_none_iff.mp hc'))

theorem due_of_not_datagram (h : ∀ datagram, e ≠ .onDataReceived datagram) : due g e j = [] := by
  cases e with
  | onDataReceived datagram => exact absurd rfl (h datagram)
  | _ => rfl

theorem settles_log (ht : Told E g) (hc : g.objects[j]? = some c) (honline : c.OnLine) :
    relayReader.Settles c.log c.relayed :=
  Reader.settles_of_history (fun _ _ _ => settles_talks) (ht j c hc honline)

/-- A client that has gone on by itself has been relayed nothing. -/
theorem relayed_of_continues (hlog : relayReader.Settles c.log c.relayed) (h : c.Continues (Line.Turn E) c')
    (honline : c'.OnLine) :
    c'.relayed = c.relayed := by
  obtain ⟨-, as, hsaid, hturns⟩ := h honline
  have hnothing : relayReader.Settles as [] := Reader.settles_nil_of_history (fun _ _ _ => settles_turn) hturns
  unfold Client.relayed
  rw [hsaid, (hlog.append hnothing).outputs, List.append_nil]
  rfl

theorem relayed_of_passedOn {packet : Message} (hlog : relayReader.Settles c.log c.relayed)
    (hfits : packet.getPayload.length ≤ maxSize) (honline : c'.OnLine)
    (h : c' = c ∧ (packet.getPayload.length ≤ maxSize → framesFor g packet j = []) ∨
      ∃ payload, IsFor g packet j ∧ c.Relayed E payload c' ∧
        (packet.getPayload.length ≤ maxSize → payload = packet.getPayload)) :
    c'.relayed = c.relayed ++ framesFor g packet j := by
  rcases h with ⟨rfl, hnone⟩ | ⟨payload, hfor, hrelayed, hown⟩
  · rw [hnone hfits, List.append_nil]
  · obtain rfl := hown hfits
    obtain ⟨as, hsaid, hrelays⟩ := hrelayed.relays (hrelayed.alive.symm.trans honline.alive)
    have hout : c'.relayed = c.relayed ++ (frame packet.getPayload).toList := by
      unfold Client.relayed
      rw [hsaid, (hlog.append (settles_relays hrelays)).outputs]
      rfl
    rw [hout, framesFor, if_pos hfor]

/-- **One event** has the frames relayed that it brings. -/
theorem step_relayed (hu : g.Usual) (ht : Told E g)
    (hfits : ∀ data, e = .onDataReceived (some data) → data.length ≤ maxSize) (h : step E g (w, e) = some g')
    (hc' : g'.objects[j]? = some c') (honline : c'.OnLine) :
    g'.relayed j = g.relayed j ++ due g e j := by
  have before {Q : ConnId → Client → Client → Prop} (hevery : EveryClient Q g g') :
      ∃ c, g.objects[j]? = some c ∧ g.relayed j = c.relayed ∧ Q j c c' := by
    have hlt : j < g.objects.length := hevery.1 ▸ (List.getElem?_eq_some_iff.mp hc').1
    have hc := List.getElem?_eq_getElem hlt
    obtain ⟨c₁, hc₁, hq⟩ := hevery.2 j _ hc
    obtain rfl : c₁ = c' := Option.some.inj (hc₁.symm.trans hc')
    exact ⟨_, hc, Gateway.relayed_of_client hc, hq⟩
  rw [Gateway.relayed_of_client hc']
  rcases step_cases hu h with ⟨handle, loopback, verifyToken, rfl, hobjects⟩ | ⟨hled, hother⟩ | ⟨datagram, rfl,
    hhandled⟩
  · rw [due_of_not_datagram (by simp), List.append_nil]
    rw [hobjects, List.getElem?_append] at hc'
    split at hc'
    · exact (Gateway.relayed_of_client hc').symm
    · next hlt =>
      rw [List.getElem?_singleton] at hc'
      split at hc'
      · obtain rfl := Option.some.inj hc'
        rw [Gateway.relayed, List.getElem?_eq_none (Nat.le_of_not_lt hlt)]
        rfl
      · cases hc'
  · obtain ⟨c, hc, hrelayed, hgoes, -⟩ := before hled
    rw [due_of_not_datagram hother, List.append_nil, hrelayed]
    exact relayed_of_continues (settles_log ht hc (hgoes honline).1) hgoes honline
  · show c'.relayed = g.relayed j ++ (datagram.bind messageOf).elim [] (fun packet => framesFor g packet j)
    cases hpacket : datagram.bind messageOf with
    | none =>
      rw [hpacket] at hhandled
      rw [show g'.objects = g.objects from hhandled] at hc'
      rw [Gateway.relayed_of_client hc']
      exact (List.append_nil _).symm
    | some packet =>
      rw [hpacket] at hhandled
      have hevery : PassedOn E packet g g' := hhandled
      obtain ⟨data, rfl, hmessage⟩ := Option.bind_eq_some_iff.mp hpacket
      obtain ⟨c, hc, hrelayed, hpassed⟩ := before hevery
      have honline₀ : c.OnLine := by
        rcases hpassed with ⟨rfl, -⟩ | ⟨payload, -, hrel, -⟩
        · exact honline
        · exact (hrel.continues honline).1
      rw [hrelayed]
      exact relayed_of_passedOn (settles_log ht hc honline₀)
        (length_messageOf_le hmessage (hfits data rfl)) honline hpassed

/-- **Delivery.** In every state that a run reaches, what has been relayed to a live connection is what the datagrams of
the run were for it: no frame is lost or doubled, and none overtakes another. -/
theorem delivered_in_order (E : Env) (run : List (World × Event)) (g : Gateway) (j : ConnId) (c : Client)
    (hfits : FitMemory run) (hrun : runFrom (step E) Gateway.init run = some g) (hc : g.objects[j]? = some c)
    (honline : c.OnLine) :
    c.relayed = dueAlong E j Gateway.init run := by
  have hall {es : List (World × Event)} {g₀ : Gateway} (hu : g₀.Usual) (ht : Told E g₀) (hfits : FitMemory es)
      (hes : runFrom (step E) g₀ es = some g) : g.relayed j = g₀.relayed j ++ dueAlong E j g₀ es := by
    induction es generalizing g₀ with
    | nil =>
      obtain rfl : g₀ = g := Option.some.inj hes
      exact (List.append_nil _).symm
    | cons e es ih =>
      obtain ⟨g₁, hstep, hrest⟩ := runFrom_cons_some hes
      have hu₁ := hu.step hstep
      rw [ih hu₁ (step_told hu ht hstep) (fun e' he' => hfits e' (List.mem_cons_of_mem _ he')) hrest, dueAlong, hstep,
        ← List.append_assoc]
      refine congrArg (· ++ _) ?_
      cases hc₁ : g₁.objects[j]? with
      | some c₁ =>
        have honline₁ : c₁.OnLine := (continues_along hu₁ hrest hc₁ hc honline).1
        exact step_relayed (w := e.1) hu ht (hfits e (List.mem_cons_self ..)) hstep hc₁ honline₁
      | none =>
        have hc₀ := none_before (w := e.1) (e := e.2) hu hstep hc₁
        rw [due_of_none hu.sound hc₀, List.append_nil, Gateway.relayed, Gateway.relayed, hc₁, hc₀]
  have hwhole := hall usual_init told_init hfits hrun
  rw [Gateway.relayed_of_client hc] at hwhole
  simpa [Gateway.relayed, Gateway.init] using hwhole

def twoMessages : List (World × Event) :=
  loginAfterInsert ++ plainRun [.onDataReceived (some (playerMessage 0x2a)),
    .onDataReceived (some (playerMessage 0x2b))]

/-- Two messages come for a player. -/
theorem delivered_in_order_twoMessages :
    ∃ g c, runFrom (step .player) Gateway.init twoMessages = some g ∧ g.objects[0]? = some c ∧
      c.relayed = dueAlong .player 0 Gateway.init twoMessages ∧
        dueAlong .player 0 Gateway.init twoMessages = [[1, 0x2a], [1, 0x2b]] := by
  have hafter : (clientAfter .player twoMessages 0).map (fun c => (c.freed, c.alive)) = some (false, true) := by
    decide +kernel
  have hdue : dueAlong .player 0 Gateway.init twoMessages = [[1, 0x2a], [1, 0x2b]] := by decide +kernel
  have hfits : FitMemory twoMessages := by
    have hlengths : ∀ e ∈ twoMessages, e.2.datagram.length ≤ maxSize := by decide
    intro e he data hdata
    have hlength := hlengths e he
    rw [hdata] at hlength
    exact hlength
  obtain ⟨c, hclient, hfields⟩ := Option.map_eq_some_iff.mp hafter
  obtain ⟨hfreed, halive⟩ := Prod.mk.inj hfields
  obtain ⟨g, hg, hc⟩ := Option.bind_eq_some_iff.mp hclient
  exact ⟨g, c, hg, hc, delivered_in_order .player twoMessages g 0 c hfits hg hc ⟨hfreed, halive⟩, hdue⟩

end Runs

end CeriosCluster.ClientGateway
