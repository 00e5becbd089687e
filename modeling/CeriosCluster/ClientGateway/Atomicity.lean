import CeriosCluster.ClientGateway.ClientBoundForm
import CeriosCluster.ClientGateway.Relay
import CeriosCluster.ClientGateway.PendingEntries
import CeriosCluster.ClientGateway.WriteOrder

/-!
# The hand-off between the maps

`handoffClient` moves a client from `pendingClients` to `clients`. It looks the client up with `operator[]`, which
leaves an entry under every handle it is asked for, takes whatever lies there, and takes it out before `addClient` has
sent the packets of the join.
-/

namespace CeriosCluster.ClientGateway

open CeriosCluster.Lib CeriosCluster.MCPacket

/-- What owning pointers promise: no two entries have the same client, and the clients are there. -/
structure Gateway.Owning (g : Gateway) : Prop where
  exclusive : Exclusive g.held
  there : ∀ s i, g.held s = some i → ∃ c, Live g i c

def Sends (E : Env) (c : Client) (packet : Option Packet) : Prop :=
  ∃ p u p', packet = some p ∧ Packet.toWire E.zlib E.fuel getSide c.compressionThreshold p = .ok u p' ∧
    (c.alive = true → c.encrypted = true → (∃ key, encryptKey c = some key) ∧ p'.rawPayload.length < 2 ^ 31)

def joinIds : List Word := [0x01, 0x05, 0x08, 0x39]

/-- The four packets of the join can be sent to the client. -/
def CanJoin (E : Env) (w : World) (c : Client) : Prop :=
  ∀ id ∈ joinIds, Sends E c (newPacket .clientBound .PLAY id w.ambient)

/-- `pendingClients` has lost the entry under the client's handle, and `clients` has the client under its id. -/
structure MovedToClients (i : ConnId) (c : Client) (g g' : Gateway) : Prop where
  pendingClients : ∀ handle, g'.pendingClients.lookup handle =
    if handle = c.socket.native_handle then none else g.pendingClients.lookup handle
  clients : ∀ userid, g'.clients.lookup userid = if userid = c.userid then some (some i) else g.clients.lookup userid

structure SameEntries (g g' : Gateway) : Prop where
  pendingClients : ∀ handle, g'.pendingClients.lookup handle = g.pendingClients.lookup handle
  clients : ∀ userid, g'.clients.lookup userid = g.clients.lookup userid

/-- `handoffClient` returns, and either has found the client and handed it off, or has not found it and changed
nothing. -/
def HandsOffAtomically (E : Env) (w : World) (i : ConnId) (c : Client) (g : Gateway) : Prop :=
  ∃ g', Login.handoffClient E w i g = .ok () g' ∧
    if g.pendingClients.lookup c.socket.native_handle = some (some i) then MovedToClients i c g g' else SameEntries g g'

def sendJoin (E : Env) (a : Ambient) (i : ConnId) : List Word → M Unit
  | [] => pure ()
  | id :: ids => do
    sendNewPacket E i (newPacket .clientBound .PLAY id a)
    sendJoin E a i ids

theorem addClient_eq (E : Env) (w : World) (i : ConnId) :
    ClientServer.addClient E w i = sendJoin E w.ambient i joinIds >>= fun _ => client i >>=
      fun c => setClient c.userid i := by
  simp only [ClientServer.addClient, joinIds, sendJoin, Exec.bind_assoc]
  rfl

section Sending

variable {E : Env} {w : World} {a : Ambient} {g g' : Gateway} {i : ConnId} {c c' : Client} {p : Packet}
  {ids : List Word}

/-! ## What the sends touch -/

def OnlyClient (i : ConnId) (g g' : Gateway) : Prop := ∃ f, g' = g.modify i f

instance : Std.Refl (OnlyClient i) := ⟨fun g => ⟨id, (g.modify_id i).symm⟩⟩

instance : IsTrans Gateway (OnlyClient i) := ⟨by
  rintro g _ _ ⟨f, rfl⟩ ⟨f', rfl⟩
  exact ⟨f' ∘ f, g.modify_modify i f f'⟩⟩

theorem onlyClient_client : Exec.Keeps (OnlyClient i) (client i) :=
  fun g => wp_client.mpr fun _ _ => refl_of (OnlyClient i) g

theorem onlyClient_modify {f : Client → Client} : Exec.Keeps (OnlyClient i) (modifyClient i f) :=
  fun _ => wp_modifyClient.mpr fun _ _ => ⟨f, rfl⟩

theorem onlyClient_asyncWrite (vector : SendVector) (bytes : Bytes) :
    Exec.Keeps (OnlyClient i) (asyncWrite i vector bytes) :=
  .bind onlyClient_modify fun _ => onlyClient_modify

theorem onlyClient_encrypt (plaintext : Bytes) : Exec.Keeps (OnlyClient i) (encrypt E i plaintext) := by
  refine .bind onlyClient_client fun c => ?_
  split
  · exact .undefined
  · refine .ite (fun _ => .undefined) fun _ => ?_
    split
    · exact .pure _
    · exact .bind onlyClient_modify fun _ => .pure _

theorem onlyClient_sendPacket : Exec.Keeps (OnlyClient i) (sendPacket E i p) := by
  refine .bind onlyClient_client fun c => .bind onlyClient_modify fun _ => .bind (.onLocal _ _) fun data => ?_
  refine .bind onlyClient_client fun c => .bind onlyClient_modify fun _ => .ite (fun _ => .pure _) fun _ => ?_
  refine .ite (fun _ => .bind (onlyClient_encrypt data) fun r => ?_) fun _ => onlyClient_asyncWrite _ data
  cases r <;> exact onlyClient_asyncWrite _ _

theorem onlyClient_sendJoin : Exec.Keeps (OnlyClient i) (sendJoin E a i ids) := by
  induction ids with
  | nil => exact .pure _
  | cons id ids ih =>
    refine .bind ?_ fun _ => ih
    cases newPacket .clientBound .PLAY id a with
    | none => exact .undefined
    | some p => exact onlyClient_sendPacket

/-! ## When they return -/

theorem packetData_eq_ok {threshold : Word} {data : Bytes} :
    packetData E threshold p g = .ok data g' ↔
      g' = g ∧ ∃ u p', Packet.toWire E.zlib E.fuel getSide threshold p = .ok u p' ∧ p'.rawPayload = data := by
  unfold packetData
  rw [Exec.onLocal_eq_ok]
  constructor
  · rintro ⟨p₁, hrun, hg⟩
    obtain ⟨u, p', hwire, hget⟩ := Exec.bind_eq_ok.mp hrun
    obtain ⟨hdata, -⟩ := Res.ok.inj hget
    exact ⟨hg, u, p', hwire, hdata⟩
  · rintro ⟨hg, u, p', hwire, rfl⟩
    exact ⟨p', Exec.bind_eq_ok.mpr ⟨u, p', hwire, rfl⟩, hg⟩

theorem packetData_of_frame {data : Bytes} (h : frame (p.serialized getSide) = some data) :
    packetData E noCompression p g = .ok data g := by
  rw [packetData_noCompression, h]

theorem encrypt_undefined (hl : Live g i c) {data : Bytes}
    (h : ¬ ((∃ key, encryptKey c = some key) ∧ data.length < 2 ^ 31)) :
    encrypt E i data g = .undefined := by
  unfold encrypt
  rw [Exec.run_bind_ok (run_client hl)]
  cases hcontext : c.encryptCipherContext with
  | none => rfl
  | some context =>
    dsimp only
    rw [if_pos]
    · rfl
    · by_contra hlength
      exact h ⟨⟨context.key, by rw [encryptKey, hcontext]; rfl⟩, Nat.not_le.mp hlength⟩

theorem sendData_ok_iff (hl : Live g i c) {data : Bytes} :
    (∃ g', sendData E i data g = .ok () g') ↔
      (c.alive = true → c.encrypted = true → (∃ key, encryptKey c = some key) ∧ data.length < 2 ^ 31) := by
  have hl₁ := hl.modify (f := fun c₀ => c₀.logged (.sendData data c.encrypted)) rfl
  constructor
  · rintro ⟨g', hrun⟩ halive hencrypted
    by_contra hnot
    unfold sendData record at hrun
    rw [Exec.run_bind_ok (run_client hl), Exec.run_bind_ok (run_modifyClient hl), if_neg (by simp [halive]),
      if_pos hencrypted, Exec.run_bind_undefined (encrypt_undefined hl₁ hnot)] at hrun
    cases hrun
  · intro h
    cases halive : c.alive with
    | false =>
      refine ⟨g.modify i fun c₀ => c₀.logged (.sendData data c.encrypted), ?_⟩
      unfold sendData record
      rw [Exec.run_bind_ok (run_client hl), Exec.run_bind_ok (run_modifyClient hl), if_pos (by simp [halive])]
      rfl
    | true =>
      by_cases hencrypted : c.encrypted = true
      · obtain ⟨hkey, hlength⟩ := h halive hencrypted
        obtain ⟨f, hrun, -⟩ := sendData_returns (E := E) hl (fun _ => hkey) hlength
        exact ⟨_, hrun⟩
      · obtain ⟨g', hrun, -⟩ := run_sendData (E := E) data hl halive (by simpa using hencrypted)
        exact ⟨g', hrun⟩

theorem sendPacket_ok_iff (hl : Live g i c) : (∃ g', sendPacket E i p g = .ok () g') ↔ Sends E c (some p) := by
  have hl₁ := hl.modify (f := fun c => c.logged (.sendPacket p)) rfl
  have hthen : sendPacket E i p g =
      (packetData E c.compressionThreshold p >>= sendData E i) (g.modify i fun c => c.logged (.sendPacket p)) := by
    unfold sendPacket record
    rw [Exec.run_bind_ok (run_client hl), Exec.run_bind_ok (run_modifyClient hl)]
  rw [hthen]
  constructor
  · rintro ⟨g', hrun⟩
    obtain ⟨data, g₁, hdata, hsend⟩ := Exec.bind_eq_ok.mp hrun
    obtain ⟨rfl, u, p', hwire, rfl⟩ := packetData_eq_ok.mp hdata
    exact ⟨p, u, p', rfl, hwire, (sendData_ok_iff hl₁).mp ⟨g', hsend⟩⟩
  · rintro ⟨_, u, p', hp, hwire, hready⟩
    obtain rfl := Option.some.inj hp
    obtain ⟨g', hsend⟩ := (sendData_ok_iff (E := E) hl₁).mpr hready
    exact ⟨g', Exec.bind_eq_ok.mpr ⟨_, _, packetData_eq_ok.mpr ⟨rfl, u, p', hwire, rfl⟩, hsend⟩⟩

/-- A packet can be sent before others exactly if it can be sent after them. -/
theorem sends_of_inert (h : Inert g g') (hl : Live g i c) (hl' : Live g' i c') (packet : Option Packet) :
    Sends E c' packet ↔ Sends E c packet := by
  obtain ⟨d, hd, hquiet⟩ := h.allQuiet.2 i c hl.1
  obtain rfl := Option.some.inj (hd.symm.trans hl'.1)
  have hholder := (custody_of_live hl').symm.trans ((congrArg (·.holders[i]?) h.custody).trans (custody_of_live hl))
  have halive : d.alive = c.alive := congrArg Holder.alive (Option.some.inj hholder)
  unfold Sends
  rw [hquiet.compressionThreshold, hquiet.encryptKey, hquiet.encrypted, halive]

theorem joinIds_class : ∀ id ∈ joinIds, lookupClass .clientBound .PLAY id ≠ some .loginSuccess := by
  simp only [joinIds, List.forall_mem_cons]
  exact ⟨by decide, by decide, by decide, by decide, fun _ h => absurd h List.not_mem_nil⟩

theorem inert_sendJoin (hclass : ∀ id ∈ ids, lookupClass .clientBound .PLAY id ≠ some .loginSuccess) :
    Exec.Keeps Inert (sendJoin E a i ids) := by
  induction ids with
  | nil => exact .pure _
  | cons id ids ih =>
    obtain ⟨hfirst, hrest⟩ := List.forall_mem_cons.mp hclass
    exact .bind (inert_sendNewPacket hfirst) fun _ => ih hrest

theorem live_of_inert (h : Inert g g') (hl : Live g i c) : ∃ c', Live g' i c' ∧ c'.userid = c.userid := by
  obtain ⟨c', hc', hquiet⟩ := h.allQuiet.2 i c hl.1
  have hholder : g'.custody.holders[i]? = some c.holder :=
    (congrArg (·.holders[i]?) h.custody).trans (custody_of_live hl)
  have hfreed : c'.freed = c.freed :=
    congrArg Holder.freed (Option.some.inj ((holder_of_object hc').symm.trans hholder))
  exact ⟨c', ⟨hc', hfreed.trans hl.2⟩, hquiet.userid⟩

theorem sendNewPacket_ok_iff (hl : Live g i c) (packet : Option Packet) :
    (∃ g', sendNewPacket E i packet g = .ok () g') ↔ Sends E c packet := by
  cases packet with
  | none => exact iff_of_false (fun ⟨_, h⟩ => nomatch h) fun ⟨_, _, _, h, _⟩ => nomatch h
  | some p => exact sendPacket_ok_iff hl

/-- **The packets of the join** are sent exactly if each can be. By induction on the packets: what can be sent before
the first can be sent after it. -/
theorem sendJoin_ok_iff (hclass : ∀ id ∈ ids, lookupClass .clientBound .PLAY id ≠ some .loginSuccess)
    (hl : Live g i c) :
    (∃ g', sendJoin E a i ids g = .ok () g') ↔ ∀ id ∈ ids, Sends E c (newPacket .clientBound .PLAY id a) := by
  induction ids generalizing g c with
  | nil => exact iff_of_true ⟨g, rfl⟩ fun _ h => absurd h List.not_mem_nil
  | cons id ids ih =>
    obtain ⟨hfirst, hrest⟩ := List.forall_mem_cons.mp hclass
    have hthen {g₁ : Gateway} (hsend : sendNewPacket E i (newPacket .clientBound .PLAY id a) g = .ok () g₁) :
        (∃ g', sendJoin E a i ids g₁ = .ok () g') ↔ ∀ id ∈ ids, Sends E c (newPacket .clientBound .PLAY id a) := by
      have hinert : Inert g g₁ := (inert_sendNewPacket hfirst g).of_ok hsend
      obtain ⟨c₁, hl₁, -⟩ := live_of_inert hinert hl
      rw [ih hrest hl₁]
      exact forall₂_congr fun _ _ => sends_of_inert hinert hl hl₁ _
    rw [List.forall_mem_cons, ← sendNewPacket_ok_iff hl]
    constructor
    · rintro ⟨g', hrun⟩
      obtain ⟨⟨⟩, g₁, hsend, hrun⟩ := Exec.bind_eq_ok.mp hrun
      exact ⟨⟨g₁, hsend⟩, (hthen hsend).mp ⟨g', hrun⟩⟩
    · rintro ⟨⟨g₁, hsend⟩, hall⟩
      obtain ⟨g', hrun⟩ := (hthen hsend).mpr hall
      exact ⟨g', (Exec.run_bind_ok hsend).trans hrun⟩

end Sending

section Handoff

variable {E : Env} {w : World} {g g' : Gateway} {i j : ConnId} {c d : Client} {userid : Bytes} {p : Option ConnId}

/-! ## `addClient` -/

theorem live_of_client (h : client i g = .ok c g') : Live g' i c ∧ g = g' := by
  have hwp : Exec.wp (client i) (fun c g' => Live g' i c ∧ g = g') (fun _ _ => True) g :=
    wp_client.mpr fun _ hl => ⟨hl, rfl⟩
  exact hwp.of_ok h

theorem maps_of_free (h : free p g = .ok () g') : g'.pendingClients = g.pendingClients ∧ g'.clients = g.clients := by
  cases p with
  | none =>
    obtain ⟨-, rfl⟩ := Res.ok.inj h
    exact ⟨rfl, rfl⟩
  | some j =>
    have hwp : Exec.wp (free (some j)) (fun _ g' => g'.pendingClients = g.pendingClients ∧ g'.clients = g.clients)
        (fun _ _ => True) g := wp_modifyClient.mpr fun _ _ => ⟨rfl, rfl⟩
    exact hwp.of_ok h

theorem free_returns (h : ∀ j, p = some j → ∃ d, Live g j d) : ∃ g', free p g = .ok () g' := by
  cases p with
  | none => exact ⟨g, rfl⟩
  | some j =>
    obtain ⟨d, hl⟩ := h j rfl
    exact ⟨_, run_modifyClient hl⟩

theorem addClient_ok_iff (hl : Live g i c) (hold : ∀ j, g.held (.client c.userid) = some j → ∃ d, Live g j d) :
    (∃ g', ClientServer.addClient E w i g = .ok () g') ↔ CanJoin E w c := by
  rw [addClient_eq, CanJoin, ← sendJoin_ok_iff joinIds_class hl]
  constructor
  · rintro ⟨g', hrun⟩
    obtain ⟨⟨⟩, g₁, hsend, -⟩ := Exec.bind_eq_ok.mp hrun
    exact ⟨g₁, hsend⟩
  · rintro ⟨g₁, hsend⟩
    have hinert : Inert g g₁ := (inert_sendJoin joinIds_class g).of_ok hsend
    have hheld : g₁.held = g.held := congrArg Custody.held hinert.custody
    obtain ⟨c₁, hl₁, huserid⟩ := live_of_inert hinert hl
    have hthere : ∀ j, g₁.held (.client c₁.userid) = some j →
        ∃ d, Live { g₁ with clients := g₁.clients.insert c₁.userid (some i) } j d := by
      intro j hj
      rw [hheld, huserid] at hj
      obtain ⟨d, hd⟩ := hold j hj
      obtain ⟨d₁, hd₁, -⟩ := live_of_inert hinert hd
      exact ⟨d₁, hd₁⟩
    obtain ⟨g', hfree⟩ := free_returns hthere
    refine ⟨g', ?_⟩
    rw [Exec.run_bind_ok hsend, Exec.run_bind_ok (run_client hl₁)]
    exact hfree

theorem maps_of_addClient (hrun : ClientServer.addClient E w i g = .ok () g') :
    g'.pendingClients = g.pendingClients ∧ ∀ c, Live g i c → g'.clients = g.clients.insert c.userid (some i) := by
  rw [addClient_eq] at hrun
  obtain ⟨⟨⟩, g₁, hsend, hrun⟩ := Exec.bind_eq_ok.mp hrun
  obtain ⟨c₁, g₂, hclient, hset⟩ := Exec.bind_eq_ok.mp hrun
  obtain ⟨hl₁, rfl⟩ := live_of_client hclient
  obtain ⟨f, hf⟩ : OnlyClient i g g₁ := (onlyClient_sendJoin g).of_ok hsend
  have hinert : Inert g g₁ := (inert_sendJoin joinIds_class g).of_ok hsend
  obtain ⟨hpending, hclients⟩ := maps_of_free (g := { g₁ with clients := g₁.clients.insert c₁.userid (some i) }) hset
  refine ⟨by rw [hpending, hf]; rfl, fun c hl => ?_⟩
  obtain ⟨c', hl', huserid⟩ := live_of_inert hinert hl
  obtain rfl := Option.some.inj (hl₁.1.symm.trans hl'.1)
  rw [hclients, huserid, hf]
  rfl

/-! ## Looking the client up -/

/-- Without a client under the handle, a null pointer is left there. -/
theorem run_handoff_none (hl : Live g i c)
    (hentry : (g.pendingClients.lookup c.socket.native_handle).getD none = none) :
    Login.handoffClient E w i g = .ok ()
      { g with pendingClients := g.pendingClients.insert c.socket.native_handle none } := by
  unfold Login.handoffClient
  rw [Exec.run_bind_ok (run_client hl), Exec.run_bind_ok (Exec.run_get g), Exec.run_bind_ok (Exec.run_set _ g), hentry]
  rfl

/-- The gateway when `addClient` is called for the client that was under its own handle. -/
def Gateway.taken (g : Gateway) (i : ConnId) (handle : Word) : Gateway :=
  Gateway.modify { g with pendingClients := (g.pendingClients.insert handle none).erase handle } i
    fun c => { c with owner := .clientServer }

theorem run_handoff_found (hl : Live g i c) (hentry : g.pendingClients.lookup c.socket.native_handle = some (some i)) :
    Login.handoffClient E w i g =
      Exec.tryCatch (ClientServer.addClient E w i) (fun e => do
        free (some i)
        Exec.throw e) (g.taken i c.socket.native_handle) := by
  have hl₁ : Live { g with pendingClients := g.pendingClients.insert c.socket.native_handle none } i c := hl
  have hl₂ : Live { g with
      pendingClients := (g.pendingClients.insert c.socket.native_handle none).erase c.socket.native_handle } i c := hl
  have herase : erasePendingClient c.socket.native_handle
      { g with pendingClients := g.pendingClients.insert c.socket.native_handle none } =
        .ok () { g with
          pendingClients := (g.pendingClients.insert c.socket.native_handle none).erase c.socket.native_handle } := by
    unfold erasePendingClient
    rw [Exec.run_bind_ok (Exec.run_get _), Exec.run_bind_ok (Exec.run_set _ _), AList.lookup_insert]
    rfl
  unfold Login.handoffClient
  rw [Exec.run_bind_ok (run_client hl), Exec.run_bind_ok (Exec.run_get g), Exec.run_bind_ok (Exec.run_set _ g), hentry]
  show (client i >>= _) _ = _
  rw [Exec.run_bind_ok (run_client hl₁), Exec.run_bind_ok herase, Exec.run_bind_ok (run_modifyClient hl₂)]
  rfl

/-- An exception out of `addClient` is thrown again. -/
theorem addClient_of_tryCatch
    (hrun : Exec.tryCatch (ClientServer.addClient E w j) (fun e => do
      free (some j)
      Exec.throw e) g = .ok () g') : ClientServer.addClient E w j g = .ok () g' := by
  unfold Exec.tryCatch at hrun
  split at hrun
  · obtain ⟨_, _, -, hthrow⟩ := Exec.bind_eq_ok.mp hrun
    cases hthrow
  · exact hrun

theorem entry_of_handoff (hl : Live g i c) (hentry : g.pendingClients.lookup c.socket.native_handle = some (some j))
    (hrun : Login.handoffClient E w i g = .ok () g') :
      g'.pendingClients.lookup c.socket.native_handle ≠ some (some j) := by
  unfold Login.handoffClient at hrun
  rw [Exec.run_bind_ok (run_client hl), Exec.run_bind_ok (Exec.run_get g), Exec.run_bind_ok (Exec.run_set _ g),
    hentry] at hrun
  obtain ⟨d, g₁, hclient, hrun⟩ := Exec.bind_eq_ok.mp hrun
  obtain ⟨-, rfl⟩ := live_of_client hclient
  obtain ⟨⟨⟩, g₂, herase, hrun⟩ := Exec.bind_eq_ok.mp hrun
  obtain ⟨herase, -⟩ := maps_of_free
    (g := { g with
      pendingClients := (g.pendingClients.insert c.socket.native_handle none).erase d.socket.native_handle })
    herase
  obtain ⟨⟨⟩, g₃, hmodify, hrun⟩ := Exec.bind_eq_ok.mp hrun
  obtain ⟨f, rfl⟩ : OnlyClient j g₂ g₃ := (onlyClient_modify g₂).of_ok hmodify
  obtain ⟨hadd, -⟩ := maps_of_addClient (addClient_of_tryCatch hrun)
  have hpending : g'.pendingClients = g₂.pendingClients := hadd
  rw [hpending, herase]
  dsimp only
  by_cases hhandle : c.socket.native_handle = d.socket.native_handle
  · rw [hhandle, AList.lookup_erase]
    simp
  · rw [AList.lookup_erase_ne hhandle, AList.lookup_insert]
    simp

/-! ## The cases -/

theorem handsOff_null (hl : Live g i c) (hentry : g.pendingClients.lookup c.socket.native_handle = some none) :
    HandsOffAtomically E w i c g := by
  refine ⟨_, run_handoff_none hl (by rw [hentry]; rfl), ?_⟩
  rw [hentry, if_neg (by simp)]
  refine ⟨fun handle => ?_, fun _ => rfl⟩
  by_cases hhandle : handle = c.socket.native_handle
  · rw [hhandle, hentry]
    exact AList.lookup_insert _
  · exact AList.lookup_insert_ne hhandle

theorem not_handsOff_absent (hl : Live g i c) (hentry : g.pendingClients.lookup c.socket.native_handle = none) :
    ¬ HandsOffAtomically E w i c g := by
  rintro ⟨g', hrun, hmaps⟩
  rw [run_handoff_none hl (by rw [hentry]; rfl)] at hrun
  obtain ⟨-, rfl⟩ := Res.ok.inj hrun
  rw [hentry, if_neg (by simp)] at hmaps
  have hkept := hmaps.pendingClients c.socket.native_handle
  rw [hentry, AList.lookup_insert] at hkept
  cases hkept

theorem not_handsOff_other (hl : Live g i c) (hentry : g.pendingClients.lookup c.socket.native_handle = some (some j))
    (hij : j ≠ i) :
    ¬ HandsOffAtomically E w i c g := by
  rintro ⟨g', hrun, hmaps⟩
  rw [hentry, if_neg (by simpa using hij)] at hmaps
  exact entry_of_handoff hl hentry hrun ((hmaps.pendingClients _).trans hentry)

/-- A client that is found is handed off exactly if it can be sent the packets of the join. -/
theorem handsOff_own_iff (hg : g.Owning) (hl : Live g i c)
    (hentry : g.pendingClients.lookup c.socket.native_handle = some (some i)) :
    HandsOffAtomically E w i c g ↔ CanJoin E w c := by
  have hl₁ : Live (g.taken i c.socket.native_handle) i { c with owner := .clientServer } :=
    Live.modify (g := { g with
      pendingClients := (g.pendingClients.insert c.socket.native_handle none).erase c.socket.native_handle }) hl rfl
  have hold : ∀ j, (g.taken i c.socket.native_handle).held (.client c.userid) = some j →
      ∃ d, Live (g.taken i c.socket.native_handle) j d := by
    intro j hj
    obtain ⟨d, hd, hfreed⟩ := hg.there (.client c.userid) j hj
    have hne : i ≠ j := by
      rintro rfl
      cases hg.exclusive (.client c.userid) (.pending c.socket.native_handle) i hj (by rw [Gateway.held, hentry]; rfl)
    refine ⟨d, ?_, hfreed⟩
    show ((g.modify i _).objects[j]?) = some d
    rw [g.getElem?_modify, hd]
    simp [hne]
  have hadd := addClient_ok_iff (E := E) (w := w) hl₁ hold
  have hjoin : (∃ g', ClientServer.addClient E w i (g.taken i c.socket.native_handle) = .ok () g') ↔
    CanJoin E w c := hadd
  rw [← hjoin]
  constructor
  · rintro ⟨g', hrun, -⟩
    rw [run_handoff_found hl hentry] at hrun
    exact ⟨g', addClient_of_tryCatch hrun⟩
  · rintro ⟨g', hrun⟩
    obtain ⟨hpending, hclients⟩ := maps_of_addClient hrun
    have hclients := hclients _ hl₁
    refine ⟨g', by rw [run_handoff_found hl hentry, Exec.tryCatch, hrun], ?_⟩
    rw [if_pos hentry]
    refine ⟨fun handle => ?_, fun userid => ?_⟩
    · rw [hpending]
      show AList.lookup handle ((g.pendingClients.insert c.socket.native_handle none).erase c.socket.native_handle) = _
      split
      · next hhandle => rw [hhandle, AList.lookup_erase]
      · next hhandle => rw [AList.lookup_erase_ne hhandle, AList.lookup_insert_ne hhandle]
    · rw [hclients]
      show AList.lookup userid (g.clients.insert c.userid (some i)) = _
      split
      · next huserid => rw [huserid, AList.lookup_insert]
      · next huserid => exact AList.lookup_insert_ne huserid

theorem canJoin_of_uncompressed (hthreshold : c.compressionThreshold = noCompression)
    (hkey : c.encrypted = true → ∃ key, encryptKey c = some key) : CanJoin E w c := by
  intro id hid
  obtain ⟨packetClass, hclass⟩ : ∃ packetClass, lookupClass .clientBound .PLAY id = some packetClass := by
    simp only [joinIds, List.mem_cons, List.not_mem_nil, or_false] at hid
    rcases hid with rfl | rfl | rfl | rfl
    · exact ⟨.joinGame, by decide⟩
    · exact ⟨.spawnPosition, by decide⟩
    · exact ⟨.playerPositionAndLook, by decide⟩
    · exact ⟨.playerAbilities, by decide⟩
  have hnew : newPacket .clientBound .PLAY id w.ambient = some (packetClass.newPacket .clientBound w.ambient) := by
    rw [newPacket, hclass]
    rfl
  have hshort := fresh_short packetClass .clientBound getSide w.ambient
  have hframe := frame_fits (fresh_fits packetClass .clientBound getSide w.ambient)
  obtain ⟨u, p', hwire, hraw⟩ := (packetData_eq_ok.mp (packetData_of_frame (E := E) (g := Gateway.init) hframe)).2
  refine ⟨_, u, p', hnew, hthreshold ▸ hwire, fun _ hencrypted => ⟨hkey hencrypted, ?_⟩⟩
  have hvarint := length_writeVarIntToBuffer_le
    (BitVec.ofNat 32 ((packetClass.newPacket .clientBound w.ambient).serialized getSide).length)
  rw [hraw, List.length_append]
  omega

end Handoff

/-- **The hand-off is atomic** exactly if a null pointer lies under the client's handle, or the client itself and the
packets of the join can be sent to it. -/
theorem handsOffAtomically_iff (E : Env) (w : World) (i : ConnId) (c : Client) (g : Gateway) (hg : g.Owning)
    (hl : Live g i c) :
    HandsOffAtomically E w i c g ↔
      g.pendingClients.lookup c.socket.native_handle = some none ∨
        g.pendingClients.lookup c.socket.native_handle = some (some i) ∧ CanJoin E w c := by
  cases hentry : g.pendingClients.lookup c.socket.native_handle with
  | none => exact iff_of_false (not_handsOff_absent hl hentry) (by simp)
  | some p =>
    cases p with
    | none => exact iff_of_true (handsOff_null hl hentry) (Or.inl rfl)
    | some j =>
      by_cases hij : j = i
      · subst hij
        rw [handsOff_own_iff hg hl hentry]
        simp
      · exact iff_of_false (not_handsOff_other hl hentry hij) (by simp [hij])

/-! ## A client that has just connected -/

def newcomer : Client := Client.new .login ⟨7, false, .connected⟩ zeroToken

def newcomerGateway : Gateway := { Gateway.init with objects := [newcomer] }

def acceptedGateway : Gateway := { newcomerGateway with pendingClients := AList.insert 7 (some 0) ∅ }

theorem held_newcomerGateway (s : Slot) : newcomerGateway.held s = none := by
  cases s with
  | pending handle =>
    have hnone : newcomerGateway.pendingClients.lookup handle = none := AList.lookup_empty handle
    rw [Gateway.held, hnone]
    rfl
  | client userid =>
    have hnone : newcomerGateway.clients.lookup userid = none := AList.lookup_empty userid
    rw [Gateway.held, hnone]
    rfl
  | accepting => rfl

theorem owning_newcomerGateway : newcomerGateway.Owning where
  exclusive := fun s _ _ hs => by rw [held_newcomerGateway] at hs; cases hs
  there := fun s _ hs => by rw [held_newcomerGateway] at hs; cases hs

theorem held_acceptedGateway {s : Slot} {i : ConnId} (h : acceptedGateway.held s = some i) :
    s = .pending 7 ∧ i = 0 := by
  cases s with
  | pending handle =>
    by_cases hhandle : handle = 7
    · subst hhandle
      exact ⟨rfl, (Option.some.inj h).symm⟩
    · have hnone : acceptedGateway.pendingClients.lookup handle = none :=
        (AList.lookup_insert_ne hhandle).trans (AList.lookup_empty handle)
      rw [Gateway.held, hnone] at h
      cases h
  | client userid => exact absurd ((held_newcomerGateway (.client userid)).symm.trans h) (by simp)
  | accepting => cases h

theorem owning_acceptedGateway : acceptedGateway.Owning where
  exclusive := fun _ _ _ hs ht => (held_acceptedGateway hs).1.trans (held_acceptedGateway ht).1.symm
  there := fun _ _ hs => ⟨newcomer, by rw [(held_acceptedGateway hs).2]; rfl, rfl⟩

theorem handsOffAtomically_accepted : HandsOffAtomically .player .plain 0 newcomer acceptedGateway :=
  (handsOffAtomically_iff .player .plain 0 newcomer acceptedGateway owning_acceptedGateway ⟨rfl, rfl⟩).mpr
    (Or.inr ⟨rfl, canJoin_of_uncompressed rfl fun h => (nomatch h)⟩)

/-- Looking up a client that is not there leaves a null pointer. -/
theorem missed_handoff_leaves_an_entry :
    ¬ ∀ (E : Env) (w : World) (i : ConnId) (c : Client) (g : Gateway), g.Owning → Live g i c →
      HandsOffAtomically E w i c g := by
  intro h
  exact not_handsOff_absent (E := .player) (w := .plain) ⟨rfl, rfl⟩ (AList.lookup_empty _)
    (h .player .plain 0 newcomer newcomerGateway owning_newcomerGateway ⟨rfl, rfl⟩)

end CeriosCluster.ClientGateway
