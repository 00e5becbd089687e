import CeriosCluster.ClientGateway.ClientKeys
import CeriosCluster.ClientGateway.PendingEntries
import CeriosCluster.ClientGateway.Relay
import CeriosCluster.Lib.ErasingLoop

/-!
# Shutting down

`sendShutdownSignal` goes over `clients` and disconnects one client after the other. `Client::disconnect` calls
back into `clientDisconnected`, which erases the entry under the client's id from the same map. The loop cannot go
on from an entry that is erased while it is there, which happens at the first live client that stands under its own
id; and a client that is freed by another one's id is not disconnected.
-/

namespace CeriosCluster.ClientGateway

open CeriosCluster.Lib CeriosCluster.Lib.ErasingLoop CeriosCluster.MCPacket

/-- `ClientServer::sendShutdownSignal`, over what is left of the order in which the map holds its keys; it returns the
clients it has disconnected. An entry that is erased before its turn is passed by. What follows the loop closes the two
datagram sockets. -/
def ClientServer.sendShutdownSignal (w : World) : List Bytes → M (List ConnId)
  | [] => pure []
  | userid :: order => do
    let g ← Exec.get
    match g.clients.lookup userid with
    | none => ClientServer.sendShutdownSignal w order
    | some none => Exec.undefined
    | some (some i) => do
      let c ← client i
      disconnect w i
      let g ← Exec.get
      -- the iterator is advanced from the entry
      if (g.clients.lookup userid).isNone then Exec.undefined
      else do
        let disconnected ← ClientServer.sendShutdownSignal w order
        pure (if c.alive then i :: disconnected else disconnected)

/-- The loop ends, with every live client disconnected once and no client alive. -/
def DisconnectsAll (w : World) (order : List Bytes) (g : Gateway) : Prop :=
  ∃ disconnected g', ClientServer.sendShutdownSignal w order g = .ok disconnected g' ∧
    ∀ userid i c, g.clients.lookup userid = some (some i) → g.objects[i]? = some c →
      (c.alive = true → disconnected.count i = 1) ∧ ∃ c', g'.objects[i]? = some c' ∧ c'.alive = false

/-- What the loop does at an entry. -/
def Gateway.visit (g : Gateway) (userid : Bytes) : Visit Bytes :=
  match (g.clients.lookup userid).getD none with
  | none => .null
  | some i =>
    match g.objects[i]? with
    | none => .null
    | some c => if c.alive then .erases c.getClientId else .idle

def Gateway.entry (g : Gateway) (userid : Bytes) : Option ConnId := (g.clients.lookup userid).getD none

def Gateway.hasEntry (g : Gateway) (userid : Bytes) : Bool := (g.clients.lookup userid).isSome

/-- Every entry of `clients` that is not null is a client of `ClientServer` that is there, and under no other key. -/
structure Entries (g : Gateway) : Prop where
  exclusive : ∀ userid userid' i, g.clients.lookup userid = some (some i) → g.clients.lookup userid' = some (some i) →
    userid = userid'
  live : ∀ userid i, g.clients.lookup userid = some (some i) → ∃ c, Live g i c ∧ c.owner = .clientServer

/-- The gateway once `ClientServer` has disconnected `i`, with the entry of `userid` erased. -/
def Gateway.disconnected (g : Gateway) (i : ConnId) (userid : Bytes) : Gateway :=
  let g' : Gateway := { g.modify i Client.shut with clients := g.clients.erase userid }
  match (g.clients.lookup userid).getD none with
  | none => g'
  | some j => g'.modify j fun c => { c with freed := true }

section Entry

variable {w : World} {g : Gateway} {i j : ConnId} {c d : Client} {userid : Bytes}

theorem Entries.of_sound (h : g.custody.Sound) : Entries g where
  exclusive := by
    intro userid userid' i hi hi'
    have hslot := h.owned.exclusive _ _ i (held_client_iff.mpr hi) (held_client_iff.mpr hi')
    exact Slot.client.inj hslot
  live := by
    intro userid i hi
    obtain ⟨d, hd, hfreed, howner⟩ := h.owned.fits _ i (held_client_iff.mpr hi)
    obtain ⟨c, hc, rfl⟩ := objects_of_custody hd
    exact ⟨c, ⟨hc, hfreed⟩, howner⟩

@[simp] theorem clients_disconnected : (g.disconnected i userid).clients = g.clients.erase userid := by
  unfold Gateway.disconnected
  split <;> rfl

theorem objects_disconnected (i : ConnId) (userid : Bytes) (hd : g.objects[j]? = some d) :
    ∃ d', (g.disconnected i userid).objects[j]? = some d' ∧ d'.owner = d.owner ∧ d'.userid = d.userid ∧
      d'.alive = (d.alive && j != i) ∧ d'.freed = (d.freed || g.clients.lookup userid == some (some j)) := by
  have hshut : ∃ d', (g.modify i Client.shut).objects[j]? = some d' ∧ d'.owner = d.owner ∧ d'.userid = d.userid ∧
      d'.alive = (d.alive && j != i) ∧ d'.freed = d.freed := by
    rw [g.getElem?_modify, hd]
    by_cases hij : i = j
    · subst hij
      exact ⟨d.shut, by simp, rfl, rfl, by simp [Client.shut], rfl⟩
    · exact ⟨d, by simp [hij], rfl, rfl, by simp [Ne.symm hij], rfl⟩
  obtain ⟨d₁, hd₁, howner, huserid, halive, hfreed⟩ := hshut
  unfold Gateway.disconnected
  cases hlookup : (g.clients.lookup userid).getD none with
  | none =>
    have hother : g.clients.lookup userid ≠ some (some j) := by
      intro hentry
      rw [hentry] at hlookup
      cases hlookup
    exact ⟨d₁, hd₁, howner, huserid, halive, by simp [hfreed, hother]⟩
  | some k =>
    dsimp only
    rw [Gateway.getElem?_modify]
    by_cases hkj : k = j
    · subst hkj
      have hentry := held_client_iff.mp hlookup
      refine ⟨{ d₁ with freed := true }, ?_, howner, huserid, halive, by simp [hentry]⟩
      rw [show ({ g.modify i Client.shut with clients := g.clients.erase userid } : Gateway).objects[k]? =
        some d₁ from hd₁]
      simp
    · have hother : g.clients.lookup userid ≠ some (some j) := by
        rw [held_client_iff.mp hlookup]
        simp [hkj]
      refine ⟨d₁, ?_, howner, huserid, halive, by simp [hfreed, hother]⟩
      rw [show ({ g.modify i Client.shut with clients := g.clients.erase userid } : Gateway).objects[j]? =
        some d₁ from hd₁]
      simp [hkj]

theorem run_free (h : Entries g) :
    free ((g.clients.lookup userid).getD none) ({ g.modify i Client.shut with clients := g.clients.erase userid }) =
      .ok () (g.disconnected i userid) := by
  unfold Gateway.disconnected
  cases hlookup : (g.clients.lookup userid).getD none with
  | none => rfl
  | some j =>
    obtain ⟨d, hl, -⟩ := h.live userid j (held_client_iff.mp hlookup)
    obtain ⟨d', hd', hfreed⟩ : ∃ d', (g.modify i Client.shut).objects[j]? = some d' ∧ d'.freed = false := by
      rw [g.getElem?_modify, hl.1]
      by_cases hij : i = j
      · exact ⟨d.shut, by simp [hij], hl.2⟩
      · exact ⟨d, by simp [hij], hl.2⟩
    exact run_modifyClient ⟨hd', hfreed⟩

/-- A live client is disconnected; after that the endpoint is printed of a client that may be gone. -/
theorem run_disconnect_clientServer (h : Entries g) (hl : Live g i c) (halive : c.alive = true)
    (howner : c.owner = .clientServer) :
    disconnect w i g =
      (if w.freedReads then pure () else Exec.tryCatch (remoteEndpoint i) fun _ => pure () : M Unit)
        (g.disconnected i c.userid) := by
  have hl' : Live (g.modify i Client.shut) i c.shut := hl.modify rfl
  rw [run_disconnect_alive hl halive, howner]
  show ClientServer.clientDisconnected w i (g.modify i Client.shut) = _
  unfold ClientServer.clientDisconnected
  rw [Exec.run_bind_ok (run_client hl'), Exec.run_bind_ok (Exec.run_get _), Exec.run_bind_ok (Exec.run_set _ _)]
  exact Exec.run_bind_ok (run_free h)

/-- A client that is not under its own id outlives its disconnection. -/
theorem run_disconnect_other (h : Entries g) (hl : Live g i c) (halive : c.alive = true)
    (howner : c.owner = .clientServer) (hother : g.clients.lookup c.userid ≠ some (some i)) :
      disconnect w i g = .ok () (g.disconnected i c.userid) := by
  rw [run_disconnect_clientServer h hl halive howner]
  split
  · rfl
  · obtain ⟨c', hc', -, -, -, hfreed⟩ := objects_disconnected i c.userid hl.1
    have hl' : Live (g.disconnected i c.userid) i c' := ⟨hc', by simp [hfreed, hother, hl.2]⟩
    unfold Exec.tryCatch remoteEndpoint
    rw [Exec.run_bind_ok (run_client hl')]
    by_cases hconnected : c'.socket.state = .connected
    · rw [if_pos hconnected]
      rfl
    · rw [if_neg hconnected]
      rfl

/-- A client that is under its own id is freed before its endpoint is printed. -/
theorem run_disconnect_own (h : Entries g) (hl : Live g i c) (halive : c.alive = true)
    (howner : c.owner = .clientServer) (hown : g.clients.lookup c.userid = some (some i)) :
    disconnect w i g = if w.freedReads then .ok () (g.disconnected i c.userid) else .undefined := by
  rw [run_disconnect_clientServer h hl halive howner]
  split
  · rfl
  · obtain ⟨c', hc', -, -, -, hfreed⟩ := objects_disconnected i c.userid hl.1
    have hgone : c'.freed = true := by simp [hfreed, hown]
    have hclient : client i (g.disconnected i c.userid) = .undefined := by
      unfold client
      rw [Exec.run_bind_ok (Exec.run_get _), hc']
      dsimp only
      rw [if_pos hgone]
      rfl
    unfold Exec.tryCatch remoteEndpoint
    rw [Exec.run_bind_undefined hclient]

theorem Entries.disconnected (h : Entries g) : Entries (g.disconnected i userid) := by
  have hbefore {key : Bytes} {j : ConnId} (hlookup : (g.disconnected i userid).clients.lookup key = some (some j)) :
      key ≠ userid ∧ g.clients.lookup key = some (some j) := by
    rw [clients_disconnected] at hlookup
    by_cases hkey : key = userid
    · subst hkey
      simp at hlookup
    · exact ⟨hkey, by simpa [AList.lookup_erase_ne hkey] using hlookup⟩
  refine ⟨fun key key' j hj hj' => h.exclusive key key' j (hbefore hj).2 (hbefore hj').2, fun key j hj => ?_⟩
  obtain ⟨hkey, hj⟩ := hbefore hj
  obtain ⟨d, hl, howner⟩ := h.live key j hj
  obtain ⟨d', hd', howner', -, -, hfreed⟩ := objects_disconnected i userid hl.1
  have hkept : g.clients.lookup userid ≠ some (some j) := fun herased => hkey (h.exclusive key userid j hj herased)
  exact ⟨d', ⟨hd', by simp [hfreed, hkept, hl.2]⟩, howner'.trans howner⟩

end Entry

/-! ## The loop and the map -/

section Loop

variable {w : World} {g : Gateway} {i j : ConnId} {c d : Client} {userid key target : Bytes} {order : List Bytes}

theorem visit_null (hlookup : g.clients.lookup key = some none) : g.visit key = .null := by
  unfold Gateway.visit
  rw [hlookup]
  rfl

theorem visit_client (hlookup : g.clients.lookup key = some (some i)) (hc : g.objects[i]? = some c) :
    g.visit key = if c.alive then .erases c.getClientId else .idle := by
  unfold Gateway.visit
  rw [hlookup]
  dsimp only [Option.getD_some]
  rw [hc]

theorem visit_erases (hvisit : g.visit key = .erases target) :
    ∃ i c, g.clients.lookup key = some (some i) ∧ g.objects[i]? = some c ∧ c.alive = true := by
  unfold Gateway.visit at hvisit
  split at hvisit
  · cases hvisit
  · next i hi =>
    split at hvisit
    · cases hvisit
    · next c hc =>
      split at hvisit
      · next halive => exact ⟨i, c, held_client_iff.mp hi, hc, halive⟩
      · cases hvisit

theorem hasEntry_disconnected : (g.disconnected i userid).hasEntry = erase g.hasEntry userid := by
  funext key
  unfold Gateway.hasEntry ErasingLoop.erase
  rw [clients_disconnected]
  by_cases hkey : key = userid
  · subst hkey
    simp
  · simp [AList.lookup_erase_ne hkey, hkey]

theorem visit_disconnected (h : Entries g) (hkey : key ≠ userid) (hother : g.clients.lookup key ≠ some (some i)) :
    (g.disconnected i userid).visit key = g.visit key := by
  have hlookup : (g.disconnected i userid).clients.lookup key = g.clients.lookup key := by
    rw [clients_disconnected, AList.lookup_erase_ne hkey]
  cases hentry : g.clients.lookup key with
  | none =>
    unfold Gateway.visit
    rw [hlookup, hentry]
    rfl
  | some p =>
    cases p with
    | none => rw [visit_null hentry, visit_null (hlookup.trans hentry)]
    | some j =>
      obtain ⟨d, hl, -⟩ := h.live key j hentry
      obtain ⟨d', hd', -, huserid, halive, -⟩ := objects_disconnected i userid hl.1
      have hji : j ≠ i := by
        rintro rfl
        exact hother hentry
      have hsame : d'.alive = d.alive := by simp [halive, hji]
      rw [visit_client hentry hl.1, visit_client (hlookup.trans hentry) hd', hsame]
      show (if d.alive then Visit.erases d'.userid else .idle) = if d.alive then Visit.erases d.userid else .idle
      rw [huserid]

/-! ### One turn -/

theorem turn_dead (hlookup : g.clients.lookup userid = some (some i)) (hl : Live g i c) (hdead : c.alive = false) :
    ClientServer.sendShutdownSignal w (userid :: order) g = ClientServer.sendShutdownSignal w order g := by
  rw [ClientServer.sendShutdownSignal, Exec.run_bind_ok (Exec.run_get g), hlookup]
  dsimp only
  rw [Exec.run_bind_ok (run_client hl), Exec.run_bind_ok (run_disconnect_dead hl hdead),
    Exec.run_bind_ok (Exec.run_get g), hlookup, if_neg (by simp), hdead, Exec.run_bind]
  cases ClientServer.sendShutdownSignal w order g <;> rfl

/-- At a live client under its own id the loop gets stuck. -/
theorem turn_own (h : Entries g) (hlookup : g.clients.lookup c.userid = some (some i)) (hl : Live g i c)
    (halive : c.alive = true) (howner : c.owner = .clientServer) :
      ClientServer.sendShutdownSignal w (c.userid :: order) g = .undefined := by
  rw [ClientServer.sendShutdownSignal, Exec.run_bind_ok (Exec.run_get g), hlookup]
  dsimp only
  rw [Exec.run_bind_ok (run_client hl)]
  have hrun := run_disconnect_own (w := w) h hl halive howner hlookup
  split at hrun
  · have herased : (g.disconnected i c.userid).clients.lookup c.userid = none := by
      rw [clients_disconnected, AList.lookup_erase]
    rw [Exec.run_bind_ok hrun, Exec.run_bind_ok (Exec.run_get _), herased, if_pos (by simp)]
    rfl
  · rw [Exec.run_bind_undefined hrun]

/-- From a live client under another id the loop goes on without the entry of that id. -/
theorem turn_other (h : Entries g) (hlookup : g.clients.lookup userid = some (some i)) (hl : Live g i c)
    (halive : c.alive = true) (howner : c.owner = .clientServer) (hother : c.userid ≠ userid) :
    ClientServer.sendShutdownSignal w (userid :: order) g =
      (ClientServer.sendShutdownSignal w order >>= fun disconnected => pure (i :: disconnected))
        (g.disconnected i c.userid) := by
  have hnot : g.clients.lookup c.userid ≠ some (some i) := fun hi => hother (h.exclusive c.userid userid i hi hlookup)
  have hkept : (g.disconnected i c.userid).clients.lookup userid = some (some i) := by
    rw [clients_disconnected, AList.lookup_erase_ne (Ne.symm hother), hlookup]
  rw [ClientServer.sendShutdownSignal, Exec.run_bind_ok (Exec.run_get g), hlookup]
  dsimp only
  rw [Exec.run_bind_ok (run_client hl), Exec.run_bind_ok (run_disconnect_other h hl halive howner hnot),
    Exec.run_bind_ok (Exec.run_get _), hkept, if_neg (by simp), halive]
  rfl

/-! ### The rest of the map -/

theorem left_of_disconnected (h : Entries g) (hlookup : g.clients.lookup userid = some (some i)) (hnew : userid ∉ order)
    (hkey : key ∈ order) (hthere : (g.disconnected i c.userid).hasEntry key = true) :
    key ≠ c.userid ∧ g.clients.lookup key ≠ some (some i) := by
  rw [hasEntry_disconnected] at hthere
  refine ⟨(erase_iff.mp hthere).1, fun hi => ?_⟩
  rw [h.exclusive key userid i hi hlookup] at hkey
  exact hnew hkey

theorem loop_disconnected (h : Entries g) (hlookup : g.clients.lookup userid = some (some i)) (hnew : userid ∉ order) :
    loop (g.disconnected i c.userid).visit order (g.disconnected i c.userid).hasEntry =
      loop g.visit order (erase g.hasEntry c.getClientId) := by
  apply loop_congr
  · intro key _
    rw [hasEntry_disconnected]
    rfl
  · intro key hkey hthere
    obtain ⟨hne, hother⟩ := left_of_disconnected h hlookup hnew hkey hthere
    exact visit_disconnected h hne hother

theorem filterMap_entry_disconnected {visited : List Bytes} (h : Entries g)
    (hlookup : g.clients.lookup userid = some (some i)) (hnew : userid ∉ order)
    (hvisited : loop (g.disconnected i c.userid).visit order (g.disconnected i c.userid).hasEntry = some visited) :
    visited.filterMap (g.disconnected i c.userid).entry = visited.filterMap g.entry := by
  apply List.filterMap_congr
  intro key hkey
  obtain ⟨hmem, hthere⟩ := mem_of_loop hvisited hkey
  unfold Gateway.entry
  rw [clients_disconnected, AList.lookup_erase_ne (left_of_disconnected h hlookup hnew hmem hthere).1]

/-- **What the loop does.** It gets stuck where the loop over the map does, and otherwise disconnects the clients of the
entries visited and no others. -/
theorem run_sendShutdownSignal (h : Entries g) (hnodup : order.Nodup) :
    (loop g.visit order g.hasEntry = none ∧ ClientServer.sendShutdownSignal w order g = .undefined) ∨
      ∃ visited g', loop g.visit order g.hasEntry = some visited ∧
        ClientServer.sendShutdownSignal w order g = .ok (visited.filterMap g.entry) g' ∧
        ∀ j d, g.objects[j]? = some d →
          ∃ d', g'.objects[j]? = some d' ∧ d'.alive = (d.alive && !(visited.filterMap g.entry).contains j) := by
  induction order generalizing g with
  | nil => exact Or.inr ⟨[], g, rfl, rfl, fun j d hd => ⟨d, hd, by simp⟩⟩
  | cons userid order ih =>
    obtain ⟨hnew, hnodup⟩ := List.nodup_cons.mp hnodup
    rw [loop]
    cases hlookup : g.clients.lookup userid with
    | none =>
      rw [if_neg (by simp [Gateway.hasEntry, hlookup]), ClientServer.sendShutdownSignal,
        Exec.run_bind_ok (Exec.run_get g), hlookup]
      exact ih h hnodup
    | some p =>
      rw [if_pos (by simp [Gateway.hasEntry, hlookup])]
      cases p with
      | none =>
        rw [visit_null hlookup, ClientServer.sendShutdownSignal, Exec.run_bind_ok (Exec.run_get g), hlookup]
        exact Or.inl ⟨rfl, rfl⟩
      | some i =>
        obtain ⟨c, hl, howner⟩ := h.live userid i hlookup
        rw [visit_client hlookup hl.1]
        cases halive : c.alive with
        | false =>
          rw [turn_dead hlookup hl halive]
          exact ih h hnodup
        | true =>
          rw [if_pos rfl]
          dsimp only
          by_cases hown : c.getClientId = userid
          · obtain rfl : c.userid = userid := hown
            rw [if_pos (show c.getClientId = c.userid from rfl)]
            exact Or.inl ⟨rfl, turn_own h hlookup hl halive howner⟩
          · rw [if_neg hown, turn_other h hlookup hl halive howner hown]
            have hloop := loop_disconnected (c := c) h hlookup hnew
            rcases ih (g := g.disconnected i c.userid) h.disconnected hnodup with ⟨hstuck, hrun⟩ | ⟨visited, g',
              hvisited, hrun, hobjects⟩
            · rw [← hloop, hstuck]
              exact Or.inl ⟨rfl, Exec.run_bind_undefined hrun⟩
            · have hentries := filterMap_entry_disconnected h hlookup hnew hvisited
              have hhead : (userid :: visited).filterMap g.entry = i :: visited.filterMap g.entry := by
                rw [List.filterMap_cons_some]
                unfold Gateway.entry
                rw [hlookup]
                rfl
              rw [← hloop, hvisited, Exec.run_bind_ok hrun, hentries]
              refine Or.inr ⟨userid :: visited, g', rfl, by rw [hhead]; rfl, fun j d hd => ?_⟩
              obtain ⟨d₁, hd₁, -, -, halive₁, -⟩ := objects_disconnected i c.userid hd
              obtain ⟨d', hd', halive'⟩ := hobjects j d₁ hd₁
              refine ⟨d', hd', ?_⟩
              rw [halive', halive₁, hentries, hhead, List.contains_cons, Bool.not_or, Bool.and_assoc]
              rfl

end Loop

/-! ## Every set of clients -/

section Orders

variable {w : World} {g : Gateway} {order : List Bytes}

/-- The loop over the entries that are there, whatever the order is. -/
theorem disconnectsAll_iff_orderly (h : Entries g) (horder : order.Perm g.clients.keys) :
    DisconnectsAll w order g ↔ Orderly g.visit order := by
  have hnodup : order.Nodup := horder.nodup_iff.mpr g.clients.keys_nodup
  have hthere : ∀ key ∈ order, g.hasEntry key = true := by
    intro key hkey
    exact AList.lookup_isSome.mpr (AList.mem_keys.mpr (horder.mem_iff.mp hkey))
  have hloop : loop g.visit order g.hasEntry = loop g.visit order fun _ => true :=
    loop_congr hthere fun _ _ _ => rfl
  have hexclusive (key key' : Bytes) (i : ConnId) (hi : g.entry key = some i) (hi' : g.entry key' = some i) :
    key = key' :=
    h.exclusive key key' i (held_client_iff.mp hi) (held_client_iff.mp hi')
  rw [← loop_iff hnodup, ← hloop]
  constructor
  · rintro ⟨disconnected, g', hrun, hall⟩
    rcases run_sendShutdownSignal (w := w) h hnodup with ⟨-, hstuck⟩ | ⟨visited, g'', hvisited, hrun', -⟩
    · cases hstuck.symm.trans hrun
    · obtain ⟨rfl, rfl⟩ := Res.ok.inj (hrun'.symm.trans hrun)
      refine ⟨visited, hvisited, fun key _ target hvisit => ?_⟩
      obtain ⟨i, c, hlookup, hc, halive⟩ := visit_erases hvisit
      have hcount := (hall key i c hlookup hc).1 halive
      have hmem : i ∈ visited.filterMap g.entry := List.count_pos_iff.mp (by omega)
      obtain ⟨key', hkey', hi⟩ := List.mem_filterMap.mp hmem
      rwa [hexclusive key key' i (held_client_iff.mpr hlookup) hi]
  · rintro ⟨visited, hvisited, hall⟩
    rcases run_sendShutdownSignal (w := w) h hnodup with ⟨hstuck, -⟩ | ⟨visited', g', hvisited', hrun, hobjects⟩
    · cases hstuck.symm.trans hvisited
    · obtain rfl := Option.some.inj (hvisited'.symm.trans hvisited)
      refine ⟨_, g', hrun, fun userid i c hlookup hc => ?_⟩
      have hvisits (halive : c.alive = true) : i ∈ visited'.filterMap g.entry := by
        have hkey : userid ∈ order := by
          rw [horder.mem_iff, ← AList.mem_keys, ← AList.lookup_isSome, hlookup]
          rfl
        have hvisit : g.visit userid = .erases c.getClientId := by rw [visit_client hlookup hc, if_pos halive]
        exact List.mem_filterMap.mpr ⟨userid, hall userid hkey _ hvisit, held_client_iff.mpr hlookup⟩
      refine ⟨fun halive => ?_, ?_⟩
      · refine List.count_eq_one_of_mem ?_ (hvisits halive)
        exact (nodup_of_loop hnodup hvisited).filterMap hexclusive
      · obtain ⟨c', hc', halive'⟩ := hobjects i c hc
        refine ⟨c', hc', ?_⟩
        cases halive : c.alive with
        | false => rw [halive', halive, Bool.false_and]
        | true => rw [halive', List.contains_iff_mem.mpr (hvisits halive), Bool.not_true, Bool.and_false]

/-- While every entry is a client under its own id, one live client is enough for the loop to get stuck. -/
theorem orderly_iff_of_keyedById (h : KeyedById g) (horder : order.Perm g.clients.keys) :
    Orderly g.visit order ↔
      ∀ userid i c, g.clients.lookup userid = some (some i) → g.objects[i]? = some c → c.alive = false := by
  have hvisit {key target : Bytes} (hv : g.visit key = .erases target) :
      target = key ∧ ∃ i c, g.clients.lookup key = some (some i) ∧ g.objects[i]? = some c ∧ c.alive = true := by
    obtain ⟨i, c, hlookup, hc, halive⟩ := visit_erases hv
    obtain ⟨j, d, hj, hd, hid⟩ := h key _ hlookup
    obtain rfl := Option.some.inj hj
    obtain rfl := Option.some.inj (hc.symm.trans hd)
    rw [visit_client hlookup hc, if_pos halive] at hv
    exact ⟨(Visit.erases.inj hv).symm.trans hid, i, c, hlookup, hc, halive⟩
  constructor
  · intro horderly userid i c hlookup hc
    rw [Bool.eq_false_iff]
    intro halive
    have hkey : userid ∈ order := by
      rw [horder.mem_iff, ← AList.mem_keys, ← AList.lookup_isSome, hlookup]
      rfl
    have hv : g.visit userid = .erases c.getClientId := by rw [visit_client hlookup hc, if_pos halive]
    exact horderly.other userid hkey _ hv (hvisit hv).1
  · intro hdead
    have hnone (key target : Bytes) (hv : g.visit key = .erases target) : False := by
      obtain ⟨-, i, c, hlookup, hc, halive⟩ := hvisit hv
      rw [hdead key i c hlookup hc] at halive
      cases halive
    refine ⟨fun key _ target hv => (hnone key target hv).elim, fun key _ target _ hv => (hnone key target hv).elim, ?_⟩
    intro key hkey hnull
    obtain ⟨p, hp⟩ := Option.isSome_iff_exists.mp
      (AList.lookup_isSome.mpr (AList.mem_keys.mpr (horder.mem_iff.mp hkey)))
    obtain ⟨i, c, rfl, hc, -⟩ := h key p hp
    rw [visit_client hp hc] at hnull
    split at hnull <;> cases hnull

end Orders

/-- **Shutting down.** In every reachable state and for every order of the map, the loop disconnects each live client
once and ends exactly when no live client stands under its own id, none erases a live client that comes later, and every
null pointer is erased before its turn. -/
theorem disconnectsAll_iff (E : Env) (run : List (World × Event)) (g : Gateway)
    (hrun : runFrom (step E) Gateway.init run = some g) (w : World) (order : List Bytes)
    (horder : order.Perm g.clients.keys) :
    DisconnectsAll w order g ↔ Orderly g.visit order :=
  disconnectsAll_iff_orderly (.of_sound ((allStates_sound E run).last hrun)) horder

/-- The client of `twoNames` is live under the key of its first name, and erases that of its second. -/
theorem disconnectsAll_twoNames :
    ∃ g c, runFrom (step .twoPlayers) Gateway.init twoNames = some g ∧ g.objects[0]? = some c ∧ c.alive = true ∧
      Orderly g.visit [secretUserid.val] ∧ DisconnectsAll .plain [secretUserid.val] g := by
  have hafter : (runFrom (step .twoPlayers) Gateway.init twoNames).map (fun g =>
      (g.clients.keys, g.clients.lookup secretUserid.val, g.objects[0]?.map fun c => (c.alive, c.getClientId))) =
        some ([secretUserid.val], some (some 0), some (true, ascii "fedcba98-7654-3210-fedc-ba9876543210")) := by
    decide +kernel
  obtain ⟨g, hg, hstate⟩ := Option.map_eq_some_iff.mp hafter
  obtain ⟨hkeys, hlookup, hclient⟩ : _ ∧ _ ∧ _ := by simpa only [Prod.mk.injEq] using hstate
  obtain ⟨c, hc, hfields⟩ := Option.map_eq_some_iff.mp hclient
  obtain ⟨halive, hid⟩ := Prod.mk.inj hfields
  have hvisit : g.visit secretUserid.val = .erases (ascii "fedcba98-7654-3210-fedc-ba9876543210") := by
    rw [visit_client hlookup hc, if_pos halive, hid]
  have hne : ascii "fedcba98-7654-3210-fedc-ba9876543210" ≠ secretUserid.val := by decide +kernel
  have horderly : Orderly g.visit [secretUserid.val] := by
    refine ⟨fun key hkey target herases => ?_, fun key hkey target htarget herases => ?_, fun key hkey hnull => ?_⟩
    · obtain rfl := List.mem_singleton.mp hkey
      rw [hvisit] at herases
      obtain rfl := Visit.erases.inj herases
      exact hne
    · obtain rfl := List.mem_singleton.mp hkey
      obtain rfl := List.mem_singleton.mp htarget
      exact absurd (Visit.erases.inj (hvisit.symm.trans herases)) hne
    · obtain rfl := List.mem_singleton.mp hkey
      cases hvisit.symm.trans hnull
  exact ⟨g, c, hg, hc, halive, horderly,
    (disconnectsAll_iff .twoPlayers twoNames g hg .plain [secretUserid.val] (by rw [hkeys])).mpr horderly⟩

/-- The entry of the one player is gone when the loop goes on from it, even where the freed client can still be read. -/
theorem one_player_erased :
    ¬ ∀ (E : Env) (run : List (World × Event)) (g : Gateway) (w : World) (order : List Bytes),
      runFrom (step E) Gateway.init run = some g → order.Perm g.clients.keys → DisconnectsAll w order g := by
  intro h
  have hstuck : (runFrom (step .player) Gateway.init loginAfterInsert).map (fun g => (g.clients.keys,
      (ClientServer.sendShutdownSignal { World.plain with freedReads := true } [playerUserid.val]).after g)) =
        some ([playerUserid.val], none) := by
    decide +kernel
  obtain ⟨g, hg, hstate⟩ := Option.map_eq_some_iff.mp hstuck
  obtain ⟨hkeys, hafter⟩ := Prod.mk.inj hstate
  obtain ⟨disconnected, g', hrun, -⟩ :=
    h .player loginAfterInsert g { World.plain with freedReads := true } [playerUserid.val] hg
    (by rw [hkeys])
  rw [Exec.after_of_ok hrun] at hafter
  cases hafter

end CeriosCluster.ClientGateway
