import CeriosCluster.ClientGateway.ClientBoundForm
import CeriosCluster.ClientGateway.Ownership
import CeriosCluster.ClientGateway.Reading

/-!
# The gateway's handlers on the slots

What each function of the two owners, and each handler that calls one, does to the custody of the clients.
Sends leave it alone, and without compression those that the handlers make do not throw, except for a
`LoginSuccessPacket` that is too large.
-/

namespace CeriosCluster.ClientGateway

open CeriosCluster.Lib CeriosCluster.MCPacket

/-! ## The maps -/

section Maps

variable {g : Gateway} {handle : Word} {userid : Bytes} {p : Option ConnId}

theorem custody_insertPending (handle : Word) (p : Option ConnId) :
    Gateway.custody { g with pendingClients := g.pendingClients.insert handle p } =
      g.custody.write (.pending handle) p := by
  refine congrArg (Custody.mk _) (funext fun s => ?_)
  cases s with
  | pending handle' =>
    by_cases h : handle' = handle
    · subst h
      simp [Gateway.held, Gateway.custody]
    · simp [Gateway.held, Gateway.custody, AList.lookup_insert_ne h, h]
  | client userid => rfl
  | accepting => rfl

theorem custody_erasePending :
    Gateway.custody { g with pendingClients := g.pendingClients.erase handle } =
      g.custody.write (.pending handle) none := by
  refine congrArg (Custody.mk _) (funext fun s => ?_)
  cases s with
  | pending handle' =>
    by_cases h : handle' = handle
    · subst h
      simp [Gateway.held, Gateway.custody]
    · simp [Gateway.held, Gateway.custody, AList.lookup_erase_ne h, h]
  | client userid => rfl
  | accepting => rfl

theorem custody_insertClient :
    Gateway.custody { g with clients := g.clients.insert userid p } = g.custody.write (.client userid) p := by
  refine congrArg (Custody.mk _) (funext fun s => ?_)
  cases s with
  | client userid' =>
    by_cases h : userid' = userid
    · subst h
      simp [Gateway.held, Gateway.custody]
    · simp [Gateway.held, Gateway.custody, AList.lookup_insert_ne h, h]
  | pending handle => rfl
  | accepting => rfl

theorem custody_eraseClient :
    Gateway.custody { g with clients := g.clients.erase userid } = g.custody.write (.client userid) none := by
  refine congrArg (Custody.mk _) (funext fun s => ?_)
  cases s with
  | client userid' =>
    by_cases h : userid' = userid
    · subst h
      simp [Gateway.held, Gateway.custody]
    · simp [Gateway.held, Gateway.custody, AList.lookup_erase_ne h, h]
  | pending handle => rfl
  | accepting => rfl

end Maps

/-! ## The owners -/

section Owners

variable {E : Env} {w : World} {g : Gateway} {i : ConnId} {c : Client}

theorem custody_of_live (h : Live g i c) : g.custody.holders[i]? = some c.holder := by
  simp [Gateway.custody, h.1]

theorem wp_free (p : Option ConnId) :
    Exec.wp (free p) (fun _ g' => g'.custody = g.custody.free p) (fun _ _ => False) g := by
  cases p with
  | none => exact rfl
  | some i => exact wp_modifyClient.mpr fun _ _ => custody_modify fun _ _ => rfl

theorem wp_erasePendingClient (handle : Word) :
    Exec.wp (erasePendingClient handle) (fun _ g' => g'.custody = g.custody.replace (.pending handle) none)
      (fun _ _ => False) g := by
  rw [erasePendingClient, Exec.wp_bind, Exec.wp_get, Exec.wp_bind, Exec.wp_set]
  refine Exec.wp_mono (wp_free _) (fun _ g' h => h.trans ?_) fun _ _ h => h
  rw [custody_erasePending]
  rfl

theorem wp_setClient (userid : Bytes) :
    Exec.wp (setClient userid i) (fun _ g' => g'.custody = g.custody.replace (.client userid) (some i))
      (fun _ _ => False) g := by
  rw [setClient, Exec.wp_bind, Exec.wp_get, Exec.wp_bind, Exec.wp_set]
  refine Exec.wp_mono (wp_free _) (fun _ g' h => h.trans ?_) fun _ _ h => h
  rw [custody_insertClient]
  rfl

/-- `ClientServer` erases the entry under the client's id, whoever that entry holds. -/
theorem wp_clientServerClientDisconnected {c : Holder} (hc : g.custody.holders[i]? = some c) :
    Exec.wp (ClientServer.clientDisconnected w i) (fun _ g' => g'.custody = g.custody.replace (.client c.userid) none)
      (fun _ _ => False) g := by
  rw [ClientServer.clientDisconnected, Exec.wp_bind, wp_client]
  intro d hl
  obtain rfl : d.holder = c := Option.some.inj ((custody_of_live hl).symm.trans hc)
  rw [Exec.wp_bind, Exec.wp_get, Exec.wp_bind, Exec.wp_set, Exec.wp_bind]
  refine Exec.wp_mono (wp_free _) (fun _ g' h => ?_) fun _ _ h => h
  have herased : g'.custody = g.custody.replace (.client d.userid) none := by
    rw [h, custody_eraseClient]
    rfl
  rw [Exec.wp_ite]
  refine ⟨fun _ => herased, fun _ => ?_⟩
  rw [Exec.wp_tryCatch]
  exact Exec.wp_mono (Inert.unmoved inert_remoteEndpoint g') (fun _ _ hg => hg.trans herased)
    fun _ _ hg => hg.trans herased

/-- `Login` never comes to erase a client whose socket is shut: its endpoint throws first. -/
theorem wp_loginClientDisconnected {c : Holder} (hc : g.custody.holders[i]? = some c)
    (hshut : c.socket.state ≠ .connected) :
    Exec.wp (Login.clientDisconnected i) (fun _ _ => False) (fun _ g' => g' = g) g := by
  rw [Login.clientDisconnected, Exec.wp_bind, remoteEndpoint, Exec.wp_bind, wp_client]
  intro d hl
  obtain rfl : d.holder = c := Option.some.inj ((custody_of_live hl).symm.trans hc)
  rw [Exec.wp_ite]
  exact ⟨fun hconnected => absurd hconnected hshut, fun _ => rfl⟩

theorem Socket.shut_ne_connected (s : Socket) : s.shut.state ≠ .connected := by
  rw [Socket.shut]
  split
  · simp
  · next h => exact h

/-- `cancel`, `shutdown` and `close`, one after the other until one throws. -/
theorem wp_shut :
    Exec.wp (Exec.tryCatch (do
        socketCancel i
        socketShutdown i
        socketClose i) fun _ => pure ())
      (fun _ g' => g'.custody = g.custody.modify i fun c => { c with socket := c.socket.shut })
        (fun _ _ => False) g := by
  have hopen : ∀ c, Live g i c → c.socket.state ≠ .connected →
      g.custody = g.custody.modify i fun c => { c with socket := c.socket.shut } := by
    intro c hl hstate
    refine (Custody.modify_eq_self fun d hd => ?_).symm
    obtain rfl : c.holder = d := Option.some.inj ((custody_of_live hl).symm.trans hd)
    have hshut : c.holder.socket.shut = c.holder.socket := if_neg hstate
    rw [hshut]
  rw [Exec.wp_tryCatch, Exec.wp_bind, socketCancel, Exec.wp_bind, wp_client]
  intro c hl
  rw [Exec.wp_ite]
  refine ⟨fun hclosed => hopen c hl (by simp [hclosed]), fun _ => ?_⟩
  rw [Exec.wp_pure, Exec.wp_bind, socketShutdown, Exec.wp_bind, wp_client]
  intro c' hl'
  obtain rfl : c = c' := Option.some.inj (hl.1.symm.trans hl'.1)
  rw [Exec.wp_ite]
  refine ⟨fun hconnected => ?_, fun hstate => hopen c hl hstate⟩
  rw [Exec.wp_pure]
  refine wp_modifyClient.mpr fun _ _ => custody_modify fun d hd => ?_
  obtain rfl : c = d := Option.some.inj (hl.1.symm.trans hd)
  simp [Client.holder, Socket.shut, hconnected]

/-- **`disconnect`** does what the abstract operation does, whether it throws or not. -/
theorem wp_disconnect_custody :
    Exec.wp (disconnect w i) (fun _ g' => g'.custody = g.custody.disconnect i)
      (fun _ g' => g'.custody = g.custody.disconnect i) g := by
  rw [disconnect, Exec.wp_bind, wp_client]
  intro c hl
  rw [Exec.wp_ite, Custody.disconnect, custody_of_live hl]
  refine ⟨fun hdead => ?_, fun halive => ?_⟩
  · have hdead : c.alive = false := by simpa using hdead
    simp [Client.holder, hdead, Exec.wp_pure]
  · have halive : c.alive = true := by simpa using halive
    rw [Exec.wp_bind, wp_modifyClient]
    intro _ _
    have hdied : (g.modify i fun c => { c with alive := false }).custody =
        g.custody.modify i fun c => { c with alive := false } := custody_modify fun _ _ => rfl
    rw [Exec.wp_bind]
    refine Exec.wp_mono wp_shut (fun _ g₂ h₂ => ?_) fun _ _ h => h.elim
    rw [hdied, Custody.modify_modify] at h₂
    have hc₂ : g₂.custody.holders[i]? = some { c.holder with alive := false, socket := c.holder.socket.shut } := by
      rw [h₂, Custody.modify_self (custody_of_live hl)]
      rfl
    rw [Exec.wp_bind, wp_client]
    intro c₂ hl₂
    have hholder := Option.some.inj ((custody_of_live hl₂).symm.trans hc₂)
    have howner : c₂.owner = c.owner := congrArg Holder.owner hholder
    simp only [Client.holder, halive, if_true]
    rw [howner]
    cases hlogin : c.owner with
    | login =>
      refine Exec.wp_mono (wp_loginClientDisconnected hc₂ (Socket.shut_ne_connected _)) (fun _ _ h =>
        h.elim) fun _ g₃ h₃ => ?_
      rw [h₃, h₂]
      rfl
    | clientServer =>
      refine Exec.wp_mono (wp_clientServerClientDisconnected hc₂) (fun _ g₃ h₃ => ?_) fun _ _ h => h.elim
      rw [h₃, h₂]
      rfl

end Owners

/-! ## Sending without compression -/

section Send

variable {E : Env} {w : World} {g : Gateway} {i : ConnId}

/-- `sendPacket` throws exactly on what cannot be framed. -/
theorem wp_sendPacket {packet : Packet} (h : g.custody.Uncompressed) :
    Exec.wp (sendPacket E i packet)
      (fun _ g' => FitsFrame (packet.serialized getSide).length ∧ g'.custody = g.custody)
      (fun _ g' => ¬ FitsFrame (packet.serialized getSide).length ∧ g'.custody = g.custody) g := by
  rw [sendPacket, Exec.wp_bind, wp_client]
  intro c hl
  have hthreshold : c.compressionThreshold = noCompression := h i _ (custody_of_live hl)
  rw [Exec.wp_bind, record, wp_modifyClient]
  intro _ _
  have hrecorded : Unmoved g (g.modify i fun c => c.logged (.sendPacket packet)) :=
    unmoved_modify fun _ _ => holder_logged (by simp)
  rw [Exec.wp_bind, hthreshold]
  by_cases hfits : FitsFrame (packet.serialized getSide).length
  · rw [Exec.wp_of_ok (by rw [packetData_noCompression, frame_fits hfits])]
    refine Exec.wp_mono (Exec.wp_and (Inert.unmoved (inert_sendData _) _) (wp_sendData_returns _)) (fun _ g' h' => ?_)
      fun _ _ h' => h'.2.elim
    exact ⟨hfits, h'.1.trans hrecorded⟩
  · rw [Exec.wp_of_threw (by rw [packetData_noCompression, frame_large hfits])]
    exact ⟨hfits, hrecorded⟩

theorem wp_sendNewPacket {side : Side} {state : ClientState} {id : Word} {a : Ambient} (h : g.custody.Uncompressed) :
    Exec.wp (sendNewPacket E i (newPacket side state id a)) (fun _ g' => g'.custody = g.custody)
      (fun _ _ => False) g := by
  cases hp : newPacket side state id a with
  | none => trivial
  | some p =>
    obtain ⟨c, -, rfl⟩ := Option.map_eq_some_iff.mp hp
    exact Exec.wp_mono (wp_sendPacket h) (fun _ _ h' => h'.2) fun _ _ h' => h'.1 (fresh_fits c _ _ _)

theorem wp_addClient {c : Holder} (h : g.custody.Uncompressed) (hc : g.custody.holders[i]? = some c) :
    Exec.wp (ClientServer.addClient E w i) (fun _ g' => g'.custody = g.custody.replace (.client c.userid) (some i))
      (fun _ _ => False) g := by
  have hsend {α : Type} {side : Side} {state : ClientState} {id : Word} {a : Ambient} {m : Unit → M α} {g₁ : Gateway}
      {Q : α → Gateway → Prop} (h₁ : g₁.custody = g.custody)
      (hm : ∀ g₂ : Gateway, g₂.custody = g.custody → Exec.wp (m ()) Q (fun _ _ => False) g₂) :
      Exec.wp (sendNewPacket E i (newPacket side state id a) >>= m) Q (fun _ _ => False) g₁ := by
    rw [Exec.wp_bind]
    refine Exec.wp_mono (wp_sendNewPacket (h₁ ▸ h)) (fun _ g₂ h₂ => hm g₂ (h₂.trans h₁)) fun _ _ h => h
  refine hsend rfl fun g₁ h₁ => hsend h₁ fun g₂ h₂ => hsend h₂ fun g₃ h₃ => hsend h₃ fun g₄ h₄ => ?_
  rw [Exec.wp_bind, wp_client]
  intro d hl
  obtain rfl : d.holder = c := Option.some.inj ((custody_of_live hl).symm.trans (h₄ ▸ hc))
  rw [← h₄]
  exact wp_setClient d.userid

end Send

/-! ## The hand-off -/

section Handoff

variable {E : Env} {w : World} {g : Gateway} {i : ConnId}

theorem Custody.write_self {o : Custody} {s : Slot} {p : Option ConnId} (h : o.held s = p) : o.write s p = o := by
  rw [Custody.write, ← h, Function.update_eq_self]

/-- **The hand-off** does what the abstract operation does, and does not throw. -/
theorem wp_loginHandoffClient {c : Holder} (h : g.custody.Uncompressed) (hc : g.custody.holders[i]? = some c) :
    Exec.wp (Login.handoffClient E w i) (fun _ g' => g'.custody = g.custody.handoff c.socket.native_handle)
      (fun _ _ => False) g := by
  rw [Login.handoffClient, Exec.wp_bind, wp_client]
  intro d hl
  obtain rfl : d.holder = c := Option.some.inj ((custody_of_live hl).symm.trans hc)
  rw [Exec.wp_bind, Exec.wp_get, Exec.wp_bind, Exec.wp_set]
  have hheld : (g.pendingClients.lookup d.socket.native_handle).getD none =
      g.custody.held (.pending d.holder.socket.native_handle) := rfl
  rw [hheld]
  have hset := custody_insertPending (g := g) d.socket.native_handle none
  revert hset
  generalize Gateway.mk _ _ _ _ _ = g₁
  intro hset
  rw [Custody.handoff]
  cases hj : g.custody.held (.pending d.holder.socket.native_handle) with
  | none =>
    refine hset.trans (Custody.write_self hj)
  | some j =>
    dsimp only
    rw [Exec.wp_bind, wp_client]
    intro e hl'
    have he := custody_of_live hl'
    have he' : g.custody.holders[j]? = some e.holder := by
      rw [hset] at he
      exact he
    rw [he', Exec.wp_bind]
    refine Exec.wp_mono (wp_erasePendingClient _) (fun _ g₂ h₂ => ?_) fun _ _ h => h
    rw [Exec.wp_bind, wp_modifyClient]
    intro e₂ hl₂
    have he₂ := custody_of_live hl₂
    have huserid : e₂.userid = e.userid := by
      rw [h₂] at he₂
      obtain ⟨e₁, he₁, heq⟩ := Custody.free_fields he₂
      obtain rfl : e₁ = e.holder := Option.some.inj (he₁.symm.trans he)
      exact congrArg Holder.userid heq
    have hadopted : (g₂.modify j fun c => { c with owner := .clientServer }).custody =
        g₂.custody.modify j fun c => { c with owner := .clientServer } := custody_modify fun _ _ => rfl
    have huncompressed : (g₂.modify j fun c => { c with owner := .clientServer }).custody.Uncompressed := by
      rw [hadopted, h₂, hset]
      exact Custody.Uncompressed.modify (Custody.Uncompressed.replace h) fun _ _ => rfl
    have he₃ : (g₂.modify j fun c => { c with owner := .clientServer }).custody.holders[j]? =
        some { e₂.holder with owner := .clientServer } := by
      rw [hadopted, Custody.modify_self he₂]
    rw [Exec.wp_tryCatch]
    refine Exec.wp_mono (wp_addClient huncompressed he₃) (fun _ g₄ h₄ => ?_) fun _ _ h => h.elim
    rw [h₄, hadopted, h₂, hset]
    exact congrArg (fun userid => Custody.adopt _ j userid) huserid

end Handoff

/-! ## Logging in -/

def LoginFits (userid requestedUsername : Bytes) : Prop :=
  FitsFrame ((Packet.mk 0x02 [] false (.loginSuccess ⟨userid, requestedUsername⟩)).serialized getSide).length

instance (userid requestedUsername : Bytes) : Decidable (LoginFits userid requestedUsername) :=
  inferInstanceAs (Decidable (FitsFrame _))

section Login

variable {E : Env} {w : World} {g : Gateway} {i : ConnId} {d : Client}

/-- **`onPlayerLogin`** hands the client over, or throws on a `LoginSuccessPacket` that is too large. -/
theorem wp_onPlayerLogin_custody (h : g.custody.Uncompressed) (hd : g.objects[i]? = some d) :
    Exec.wp (onPlayerLogin E w i)
      (fun _ g' => LoginFits d.userid d.requestedUsername ∧ g'.custody = g.custody.apply (.login i))
      (fun _ g' => ¬ LoginFits d.userid d.requestedUsername ∧ g'.custody = g.custody.apply (.failLogin i)) g := by
  rw [onPlayerLogin, Exec.wp_bind, record, wp_modifyClient]
  intro _ hl
  obtain rfl : d = _ := Option.some.inj (hd.symm.trans hl.1)
  have hrecorded : (g.modify i fun c => c.logged .onPlayerLogin).custody =
      g.custody.modify i fun c => { c with logins := c.logins + 1 } :=
    custody_modify fun c _ => by simp [Client.holder, Client.logged, List.count_append]
  have huncompressed : (g.modify i fun c => c.logged .onPlayerLogin).custody.Uncompressed := by
    rw [hrecorded]
    exact h.modify fun _ _ => rfl
  rw [Exec.wp_bind, wp_client]
  intro d₁ hl₁
  obtain rfl : d.logged .onPlayerLogin = d₁ :=
    Option.some.inj ((hl.modify (f := fun c => c.logged .onPlayerLogin) rfl).1.symm.trans hl₁.1)
  rw [newPacket_loginSuccess, Exec.wp_bind]
  refine Exec.wp_mono (wp_sendPacket huncompressed) (fun _ g₂ hsent => ?_) fun _ g₂ hthrew =>
    hthrew.imp_right (·.trans hrecorded)
  obtain ⟨hfits, h₂⟩ := hsent
  rw [Exec.wp_bind, wp_modifyClient]
  intro _ _
  rw [Exec.wp_bind, wp_modifyClient]
  intro _ _
  generalize hg₄ : (Gateway.modify (Gateway.modify g₂ i _) i _) = g₄
  have h₄ : g₄.custody = g.custody.modify i fun c =>
      { c with state := .PLAY, waitsPending := c.waitsPending + 1, logins := c.logins + 1 } := by
    rw [← hg₄, custody_modify (k := fun c => { c with waitsPending := c.waitsPending + 1 }) fun _ _ => rfl,
      custody_modify (k := fun c => { c with state := .PLAY }) fun _ _ => rfl, h₂, hrecorded, Custody.modify_modify,
      Custody.modify_modify]
    rfl
  have hd₄ : g₄.custody.holders[i]? = some { d.holder with
      state := .PLAY, waitsPending := d.waitsPending + 1, logins := d.holder.logins + 1 } := by
    rw [h₄, Custody.modify_self (custody_of_live hl)]
    rfl
  rw [Exec.wp_bind, wp_client]
  intro d₄ hl₄
  have howner : d₄.owner = d.owner := congrArg Holder.owner (Option.some.inj ((custody_of_live hl₄).symm.trans hd₄))
  have hthreshold : g₄.custody.Uncompressed := by
    rw [h₄]
    exact h.modify fun _ _ => rfl
  rw [howner]
  cases hdowner : d.owner with
  | login =>
    have hlogin : g.custody.apply (.login i) = g₄.custody.handoff d.socket.native_handle := by
      rw [Custody.apply, Custody.login, custody_of_live hl, h₄]
      dsimp only [Client.holder]
      rw [hdowner]
    rw [hlogin]
    exact Exec.wp_mono (wp_loginHandoffClient hthreshold hd₄) (fun _ _ h₅ => ⟨hfits, h₅⟩) fun _ _ h => h.elim
  | clientServer =>
    have hlogin : g.custody.apply (.login i) = g₄.custody := by
      rw [Custody.apply, Custody.login, custody_of_live hl, h₄]
      dsimp only [Client.holder]
      rw [hdowner]
    exact ⟨hfits, hlogin.symm⟩

end Login

end CeriosCluster.ClientGateway
