import CeriosCluster.ClientGateway.CustodyRefinement

/-!
# What the operations do to the slots

Which client each slot holds after an operation, and what has become of the clients, as equations that the
properties of the two maps are read off.
-/

namespace CeriosCluster.ClientGateway

open CeriosCluster.Lib CeriosCluster.MCPacket

/-! ## The maps as slots -/

section Maps

variable {g : Gateway} {i : ConnId} {c : Client}

theorem held_client_iff {userid : Bytes} : g.custody.held (.client userid) = some i ↔
    g.clients.lookup userid = some (some i) := by
  show (g.clients.lookup userid).getD none = some i ↔ _
  cases g.clients.lookup userid <;> simp

theorem held_pending_iff {handle : Word} :
    g.custody.held (.pending handle) = some i ↔ g.pendingClients.lookup handle = some (some i) := by
  show (g.pendingClients.lookup handle).getD none = some i ↔ _
  cases g.pendingClients.lookup handle <;> simp

theorem holder_of_object (hc : g.objects[i]? = some c) : g.custody.holders[i]? = some c.holder := by
  simp [Gateway.custody, hc]

end Maps

def Holder.play (c : Holder) : Holder :=
  { c with state := .PLAY, waitsPending := c.waitsPending + 1, logins := c.logins + 1 }

namespace Custody

variable {o : Custody} {i j k : ConnId} {c d : Holder} {handle : Word}

/-! ## The slots -/

theorem held_insert (hc : o.holders[i]? = some c) :
    (o.insert i).held = Function.update (Function.update o.held .accepting none) (.pending c.socket.native_handle)
    (some i) := by
  unfold insert
  rw [hc]
  simp

theorem held_disconnect_login (hc : o.holders[i]? = some c) (howner : c.owner = .login) :
    (o.disconnect i).held = o.held := by
  unfold disconnect
  rw [hc]
  cases halive : c.alive <;> simp [howner, halive]

theorem held_disconnect_clientServer (hc : o.holders[i]? = some c) (halive : c.alive = true)
    (howner : c.owner = .clientServer) :
    (o.disconnect i).held = Function.update o.held (.client c.userid) none := by
  unfold disconnect
  rw [hc]
  simp [howner, halive]

theorem held_of_disconnect {s : Slot} (hk : (o.disconnect i).held s = some k) : o.held s = some k := by
  cases hi : o.holders[i]? with
  | none =>
    unfold disconnect at hk
    rw [hi] at hk
    exact hk
  | some c =>
    cases halive : c.alive with
    | false =>
      rw [disconnect_dead hi halive] at hk
      exact hk
    | true =>
      cases howner : c.owner with
      | login =>
        rw [held_disconnect_login hi howner] at hk
        exact hk
      | clientServer =>
        rw [held_disconnect_clientServer hi halive howner] at hk
        obtain ⟨-, hnone⟩ | ⟨-, hk⟩ := held_of_update hk
        · cases hnone
        · exact hk

/-- The accept handler does nothing to the slots of `ClientServer`. -/
theorem held_client_insert {userid : Bytes} : (o.insert i).held (.client userid) = o.held (.client userid) := by
  cases hi : o.holders[i]? with
  | none =>
    unfold insert
    rw [hi]
  | some c => rw [held_insert hi, Function.update_of_ne (by simp), Function.update_of_ne (by simp)]

theorem handoff_none (hj : o.held (.pending handle) = none) : o.handoff handle = o := by
  unfold handoff
  rw [hj]

theorem held_handoff (hj : o.held (.pending handle) = some j) (hd : o.holders[j]? = some d) :
    (o.handoff handle).held = Function.update (Function.update (Function.update o.held (.pending handle) none)
      (.pending d.socket.native_handle) none) (.client d.userid) (some j) := by
  unfold handoff
  rw [hj]
  dsimp only
  rw [hd]
  simp [adopt]

/-! ## The clients -/

theorem replace_inv {s : Slot} {p : Option ConnId} (h : (o.replace s p).holders[k]? = some c) :
    ∃ d, o.holders[k]? = some d ∧ c = { d with freed := c.freed } :=
  free_fields (o := o.write s p) h

@[simp] theorem length_modify {f : Holder → Holder} : (o.modify i f).holders.length = o.holders.length := by
  unfold modify
  simp

@[simp] theorem length_write {s : Slot} {p : Option ConnId} : (o.write s p).holders.length = o.holders.length := rfl

@[simp] theorem length_free {p : Option ConnId} : (o.free p).holders.length = o.holders.length := by
  cases p with
  | none => rfl
  | some i => exact length_modify

@[simp] theorem length_replace {s : Slot} {p : Option ConnId} : (o.replace s p).holders.length = o.holders.length := by
  unfold replace
  rw [length_free, length_write]

theorem length_insert : (o.insert i).holders.length = o.holders.length := by
  unfold insert
  split
  · rfl
  · simp

theorem length_disconnect : (o.disconnect i).holders.length = o.holders.length := by
  unfold disconnect
  split
  · rfl
  · split
    · dsimp only
      split <;> simp
    · rfl

theorem length_handoff : (o.handoff handle).holders.length = o.holders.length := by
  unfold handoff
  split
  · rfl
  · split
    · rfl
    · simp [adopt]

theorem length_login : (o.login i).holders.length = o.holders.length := by
  unfold login
  split
  · rfl
  · dsimp only
    split
    · rw [length_handoff, length_modify]
    · exact length_modify

theorem insert_inv (h : (o.insert i).holders[k]? = some c) :
    ∃ d, o.holders[k]? = some d ∧ c = { d with freed := c.freed } := by
  unfold insert at h
  split at h
  · exact ⟨c, h, rfl⟩
  · exact replace_inv (o := o.write .accepting none) h

theorem disconnect_inv (h : (o.disconnect i).holders[k]? = some c) :
    ∃ d, o.holders[k]? = some d ∧
      (c = { d with freed := c.freed } ∧ k ≠ i ∨
        k = i ∧ c = { d with freed := c.freed, alive := false, socket := c.socket }) := by
  unfold disconnect at h
  split at h
  · next hnone =>
    refine ⟨c, h, Or.inl ⟨rfl, ?_⟩⟩
    rintro rfl
    rw [hnone] at h
    cases h
  · next d hd =>
    split at h
    · obtain ⟨e, he, hc⟩ : ∃ e, (o.modify i fun c => { c with alive := false, socket := c.socket.shut }).holders[k]? =
        some e ∧
          c = { e with freed := c.freed } := by
        dsimp only at h
        split at h
        · exact ⟨c, h, rfl⟩
        · exact replace_inv h
      obtain ⟨d', hd', ⟨rfl, rfl⟩ | ⟨hik, rfl⟩⟩ := modify_inv he
      · exact ⟨d', hd', Or.inr ⟨rfl, by rw [hc]⟩⟩
      · exact ⟨e, hd', Or.inl ⟨hc, Ne.symm hik⟩⟩
    · next hdead =>
      by_cases hki : k = i
      · subst hki
        obtain rfl := Option.some.inj (hd.symm.trans h)
        have hfalse : d.alive = false := by simpa using hdead
        refine ⟨d, hd, Or.inr ⟨rfl, ?_⟩⟩
        rw [← hfalse]
      · exact ⟨c, h, Or.inl ⟨rfl, hki⟩⟩

theorem handoff_inv (h : (o.handoff handle).holders[k]? = some c) :
    ∃ d, o.holders[k]? = some d ∧
      (c = { d with freed := c.freed } ∨
        o.held (.pending handle) = some k ∧ c = { d with freed := c.freed, owner := .clientServer }) := by
  unfold handoff at h
  split at h
  · exact ⟨c, h, Or.inl rfl⟩
  · next j hj =>
    split at h
    · exact ⟨c, h, Or.inl rfl⟩
    · next d hd =>
      unfold adopt at h
      obtain ⟨e, he, hc⟩ := replace_inv h
      obtain ⟨e', he', hee'⟩ := modify_inv he
      obtain ⟨d', hd', he''⟩ := replace_inv he'
      refine ⟨d', hd', ?_⟩
      rcases hee' with ⟨rfl, rfl⟩ | ⟨hjk, rfl⟩
      · refine Or.inr ⟨hj, ?_⟩
        rw [hc, he'']
      · refine Or.inl ?_
        rw [hc, he'']

/-! ## Logging in -/

theorem login_clientServer (hc : o.holders[i]? = some c) (howner : c.owner = .clientServer) :
    o.login i = o.modify i Holder.play := by
  unfold login
  rw [hc]
  simp only [howner]
  rfl

theorem login_login (hc : o.holders[i]? = some c) (howner : c.owner = .login) :
    o.login i = (o.modify i Holder.play).handoff c.socket.native_handle := by
  unfold login
  rw [hc]
  simp only [howner]
  rfl

/-- The login of `i` hands the client `j` over, under the id `userid`. -/
def Takes (o : Custody) (i j : ConnId) (userid : Bytes) : Prop :=
  ∃ c d, o.holders[i]? = some c ∧ c.owner = .login ∧ o.held (.pending c.socket.native_handle) = some j ∧
    o.holders[j]? = some d ∧ d.userid = userid

theorem modify_play_inv (h : (o.modify i Holder.play).holders[k]? = some c) :
    ∃ d, o.holders[k]? = some d ∧ (k = i ∧ c = d.play ∨ k ≠ i ∧ c = d) := by
  obtain ⟨d, hd, ⟨hik, hc⟩ | ⟨hik, hc⟩⟩ := modify_inv h
  · exact ⟨d, hd, Or.inl ⟨hik.symm, hc⟩⟩
  · exact ⟨d, hd, Or.inr ⟨Ne.symm hik, hc⟩⟩

theorem held_login_none (hno : ∀ j userid, ¬ o.Takes i j userid) (howned : Owned o) : (o.login i).held = o.held := by
  cases hc : o.holders[i]? with
  | none =>
    unfold login
    rw [hc]
  | some c =>
    cases howner : c.owner with
    | clientServer => rw [login_clientServer hc howner, held_modify]
    | login =>
      cases hj : o.held (.pending c.socket.native_handle) with
      | none => rw [login_login hc howner, handoff_none (o := o.modify i Holder.play) hj, held_modify]
      | some j =>
        obtain ⟨d, hd, -⟩ := howned.fits _ _ hj
        exact absurd ⟨c, d, hc, howner, hj, hd, rfl⟩ (hno j d.userid)

theorem held_login {userid : Bytes} (h : o.Takes i j userid) :
    ∃ c d, o.holders[i]? = some c ∧ o.holders[j]? = some d ∧ o.held (.pending c.socket.native_handle) = some j ∧
      (o.login i).held = Function.update
        (Function.update (Function.update o.held (.pending c.socket.native_handle) none)
          (.pending d.socket.native_handle) none) (.client userid) (some j) := by
  obtain ⟨c, d, hc, howner, hj, hd, rfl⟩ := h
  refine ⟨c, d, hc, hd, hj, ?_⟩
  by_cases hij : i = j
  · subst hij
    rw [login_login hc howner, held_handoff (o := o.modify i Holder.play) (d := d.play) hj (modify_self hd)]
    rfl
  · rw [login_login hc howner, held_handoff (o := o.modify i Holder.play) hj ((modify_other hij).trans hd)]
    rfl

/-- What `ClientServer` holds after a login it held before, or the login has taken. -/
theorem held_of_login {userid : Bytes} (howned : Owned o) (hk : (o.login i).held (.client userid) = some k) :
    o.held (.client userid) = some k ∨ o.Takes i k userid := by
  by_cases htakes : ∃ j joined, o.Takes i j joined
  · obtain ⟨j, joined, htakes⟩ := htakes
    obtain ⟨c, d, -, -, -, hslots⟩ := held_login htakes
    rw [hslots] at hk
    obtain ⟨heq, hkj⟩ | ⟨-, hk⟩ := held_of_update hk
    · obtain rfl := Slot.client.inj heq
      obtain rfl := Option.some.inj hkj
      exact Or.inr htakes
    · rw [Function.update_of_ne (by simp), Function.update_of_ne (by simp)] at hk
      exact Or.inl hk
  · rw [held_login_none (fun j joined h => htakes ⟨j, joined, h⟩) howned] at hk
    exact Or.inl hk

theorem login_inv (h : (o.login i).holders[k]? = some c) :
    ∃ d, o.holders[k]? = some d ∧
      ((k ≠ i ∧ c = { d with freed := c.freed, owner := c.owner }) ∨
        (k = i ∧ c = { d.play with freed := c.freed, owner := c.owner })) ∧
      (c.owner = d.owner ∨ c.owner = .clientServer ∧ ∃ userid, o.Takes i k userid) := by
  cases hi : o.holders[i]? with
  | none =>
    unfold login at h
    rw [hi] at h
    refine ⟨c, h, Or.inl ⟨?_, rfl⟩, Or.inl rfl⟩
    rintro rfl
    rw [hi] at h
    cases h
  | some e =>
    cases howner : e.owner with
    | clientServer =>
      rw [login_clientServer hi howner] at h
      obtain ⟨d, hd, ⟨rfl, rfl⟩ | ⟨hki, rfl⟩⟩ := modify_play_inv h
      · exact ⟨d, hd, Or.inr ⟨rfl, rfl⟩, Or.inl rfl⟩
      · exact ⟨c, hd, Or.inl ⟨hki, rfl⟩, Or.inl rfl⟩
    | login =>
      rw [login_login hi howner] at h
      obtain ⟨d', hd', hc⟩ := handoff_inv h
      obtain ⟨d, hd, hplay⟩ := modify_play_inv hd'
      refine ⟨d, hd, ?_, ?_⟩
      · rcases hplay with ⟨rfl, rfl⟩ | ⟨hki, rfl⟩
        · exact Or.inr ⟨rfl, by rcases hc with hc | ⟨-, hc⟩ <;> rw [hc]⟩
        · exact Or.inl ⟨hki, by rcases hc with hc | ⟨-, hc⟩ <;> rw [hc]⟩
      · rcases hc with hc | ⟨hk, hc⟩
        · refine Or.inl ?_
          rw [hc]
          rcases hplay with ⟨rfl, rfl⟩ | ⟨hki, rfl⟩ <;> rfl
        · exact Or.inr ⟨by rw [hc], d.userid, e, d, hi, howner, hk, hd, rfl⟩

end Custody

/-- The event hands the client `j` over to `ClientServer` under the id `userid`. -/
def HandsOver (E : Env) (w : World) (g : Gateway) (e : Event) (j : ConnId) (userid : Bytes) : Prop :=
  ∃ i joined name, Joins E w g i joined name e ∧ LoginFits joined name ∧
    (g.custody.apply (.rename i joined)).Takes i j userid

end CeriosCluster.ClientGateway
