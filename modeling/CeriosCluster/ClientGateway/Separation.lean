import CeriosCluster.ClientGateway.HandOff
import CeriosCluster.ClientGateway.Transcript

/-!
# Connections are kept apart

Every client that is there is in the hands of one owner, under one key. A handler changes nothing about the live
clients of other connections, except that `ClientServer` may free the client of a player: it overwrites its entries by
the players' ids when one logs in, and erases them by the ids when one is disconnected. A client that a second reply has
renamed erases the entry of another.
-/

namespace CeriosCluster.ClientGateway

open CeriosCluster.Lib CeriosCluster.MCPacket

/-! ## One owner, one key -/

/-- A client that is there is held by one slot, and a slot holds only a client that is there and that it may hold. -/
def OwnedOnce (g : Gateway) : Prop :=
  ∀ (i : ConnId) (c : Client), g.objects[i]? = some c →
    (c.freed = false → ∃! s, g.held s = some i) ∧ ∀ s, g.held s = some i → c.freed = false ∧ c.holder.Fits s

section Owned

variable {E : Env} {w : World} {e : Event} {g g' : Gateway}

theorem lies_step (hs : g.custody.Sound) (hl : g.custody.Lies none) (h : step E g (w, e) = some g') :
    g'.custody.Lies none := by
  obtain ⟨ops, -, hallows, hrun⟩ := step_custody hs h
  rw [hrun]
  exact Custody.Along.run (fun _ op hl hop => hl.apply op hop) hl hallows

theorem lies_init : Gateway.init.custody.Lies none := fun _ _ h => by cases h

theorem ownedOnce_of_lies (hs : g.custody.Sound) (hl : g.custody.Lies none) : OwnedOnce g := by
  intro i c hc
  have hholder := holder_of_object hc
  have hheld (s : Slot) (hi : g.held s = some i) : c.freed = false ∧ c.holder.Fits s := by
    obtain ⟨d, hd, hfreed, hfits⟩ := hs.owned.fits s i hi
    obtain rfl : c.holder = d := Option.some.inj (hholder.symm.trans hd)
    exact ⟨hfreed, hfits⟩
  refine ⟨fun hfreed => ?_, hheld⟩
  obtain ⟨s, hi⟩ := hl i c.holder hholder hfreed (by simp)
  exact ⟨s, hi, fun t ht => hs.owned.exclusive t s i ht hi⟩

theorem OwnedOnce.entry (h : OwnedOnce g) {i : ConnId} {c : Client} (hc : g.objects[i]? = some c)
    (hfreed : c.freed = false) (howner : c.owner = .clientServer) : ∃ userid, g.held (.client userid) = some i := by
  obtain ⟨hthere, hfits⟩ := h i c hc
  obtain ⟨s, hheld, -⟩ := hthere hfreed
  cases s with
  | client userid => exact ⟨userid, hheld⟩
  | pending handle => exact absurd (howner.symm.trans (hfits _ hheld).2.1) (by simp)
  | accepting => exact absurd (howner.symm.trans (hfits _ hheld).2) (by simp)

theorem allStates_lies (E : Env) (run : List (World × Event)) :
    AllStates (step E) (fun g => g.custody.Sound ∧ g.custody.Lies none) Gateway.init run :=
  allStates_of_inv (C := fun _ _ => True) (fun _ _ _ hI _ hstep => ⟨sound_step hI.1 hstep, lies_step hI.1 hI.2 hstep⟩)
    ⟨Custody.sound_init, lies_init⟩ (allSteps_of_forall fun _ _ => trivial)

/-- **One owner.** In every state that a run reaches, a client that is there is held by exactly one slot, `Login`'s or
`ClientServer`'s as its `owner` says, and a client that has been freed by none. -/
theorem owned_once (E : Env) (run : List (World × Event)) : AllStates (step E) OwnedOnce Gateway.init run :=
  (allStates_lies E run).mono fun _ h => ownedOnce_of_lies h.1 h.2

end Owned

/-! ## A client that waits to log in -/

/-- The client that an operation is about; the accept handler's has not been seen by anyone else. -/
def CustodyOp.about : CustodyOp → Option ConnId
  | .construct _ => none
  | .insert _ => none
  | .reset i => some i
  | .expire i => some i
  | .arm i => some i
  | .handshake i _ => some i
  | .rename i _ => some i
  | .login i => some i
  | .failLogin i => some i
  | .disconnect i => some i

structure Holder.Waits (c : Holder) : Prop where
  there : c.freed = false
  alive : c.alive = true
  owner : c.owner = .login

namespace Custody

variable {o : Custody} {i j k : ConnId} {c d : Holder} {op : CustodyOp}

theorem Sound.not_under_handle (hs : Sound o) (hc : o.holders[j]? = some c) (hw : c.Waits) (hd : o.holders[k]? = some d)
    (hfreed : d.freed = false) (hjk : j ≠ k) : o.held (.pending d.socket.native_handle) ≠ some j := by
  intro hheld
  obtain ⟨c', hc', -, -, hhandle⟩ := hs.owned.fits _ _ hheld
  obtain rfl : c = c' := Option.some.inj (hc.symm.trans hc')
  have hopen : c.socket.state ≠ .closed := hs.sockets.open_of_alive j c hc hw.alive
  have hsame : d.socket.native_handle = c.socket.handle := hhandle.resolve_right fun hclosed => hopen hclosed.2
  have hdopen : d.socket.state ≠ .closed := fun hclosed =>
    hs.sockets.valid j c hc (hsame.symm.trans (native_handle_of_closed hclosed))
  rw [native_handle_of_open hdopen] at hsame
  exact hjk (hs.sockets.once j k c d hc hd ⟨hw.there, hopen⟩ ⟨hfreed, hdopen⟩ hsame.symm)

theorem Sound.not_under_id (hs : Sound o) (hc : o.holders[j]? = some c) (hw : c.Waits) (userid : Bytes) :
    o.held (.client userid) ≠ some j := by
  intro hheld
  obtain ⟨c', hc', -, howner⟩ := hs.owned.fits _ _ hheld
  obtain rfl : c = c' := Option.some.inj (hc.symm.trans hc')
  have howner : c.owner = .clientServer := howner
  rw [hw.owner] at howner
  cases howner

theorem replace_other {s : Slot} {p : Option ConnId} (h : o.held s ≠ some j) :
    (o.replace s p).holders[j]? = o.holders[j]? :=
  free_other (o := o.write s p) h

theorem waits_insert (hs : Sound o) (hi : o.held .accepting = some i) (hc : o.holders[j]? = some c) (hw : c.Waits) :
    (o.insert i).holders[j]? = some c := by
  obtain ⟨d, hd, hfreed, -⟩ := hs.owned.fits _ _ hi
  unfold insert
  rw [hd]
  have hother : (o.write .accepting none).held (.pending d.socket.native_handle) ≠ some j := by
    rw [held_write, Function.update_of_ne (by simp)]
    by_cases hji : j = i
    · subst hji
      exact fun hheld => Slot.noConfusion (hs.owned.exclusive _ _ j hheld hi)
    · exact hs.not_under_handle hc hw hd hfreed hji
  exact (replace_other hother).trans hc

theorem waits_disconnect (hs : Sound o) (hji : i ≠ j) (hc : o.holders[j]? = some c) (hw : c.Waits) :
    (o.disconnect i).holders[j]? = some c := by
  unfold disconnect
  split
  · exact hc
  · next d _ =>
    split
    · dsimp only
      split
      · exact (modify_other hji).trans hc
      · refine (replace_other ?_).trans ((modify_other hji).trans hc)
        rw [held_modify]
        exact hs.not_under_id hc hw d.userid
    · exact hc

theorem waits_login (hs : Sound o) (hi : ∀ d, o.holders[i]? = some d → d.freed = false) (hji : i ≠ j)
    (hc : o.holders[j]? = some c) (hw : c.Waits) : (o.login i).holders[j]? = some c := by
  cases hd : o.holders[i]? with
  | none =>
    unfold login
    rw [hd]
    exact hc
  | some d =>
    cases howner : d.owner with
    | clientServer =>
      rw [login_clientServer hd howner]
      exact (modify_other hji).trans hc
    | login =>
      rw [login_login hd howner]
      have hfound : o.held (.pending d.socket.native_handle) ≠ some j :=
        hs.not_under_handle hc hw hd (hi d hd) (Ne.symm hji)
      unfold handoff
      split
      · exact (modify_other hji).trans hc
      · next k hk =>
        have hkj : k ≠ j := fun h => hfound (h ▸ hk)
        split
        · exact (modify_other hji).trans hc
        · next d' hd' =>
          -- the client found has been there before, and only its state has changed
          obtain ⟨d₀, hd₀, hfreed₀, -⟩ := hs.owned.fits _ _ hk
          have hsocket : d'.socket = d₀.socket := by
            obtain ⟨e, he, hplay⟩ := modify_play_inv hd'
            obtain rfl : d₀ = e := Option.some.inj (hd₀.symm.trans he)
            rcases hplay with ⟨-, rfl⟩ | ⟨-, rfl⟩ <;> rfl
          have hother : ((o.modify i Holder.play).write (.pending d.socket.native_handle) none).held
              (.pending d'.socket.native_handle) ≠ some j := by
            intro hheld
            obtain ⟨-, hnone⟩ | ⟨-, hheld⟩ := held_of_update hheld
            · cases hnone
            · rw [hsocket] at hheld
              exact hs.not_under_handle hc hw hd₀ hfreed₀ (Ne.symm hkj) hheld
          unfold adopt
          refine (replace_other ?_).trans
            ((modify_other hkj).trans ((replace_other hother).trans ((modify_other hji).trans hc)))
          intro hheld
          rw [held_modify, held_replace, Function.update_of_ne (by simp), held_write,
            Function.update_of_ne (by simp)] at hheld
          exact hs.not_under_id hc hw d'.userid hheld

/-- A client that is inserted takes no entry of `clients` away. -/
theorem served_insert (hs : Sound o) (hc : o.holders[j]? = some c) (howner : c.owner = .clientServer) :
    (o.insert i).holders[j]? = o.holders[j]? := by
  unfold insert
  split
  · rfl
  · refine replace_other fun hheld => ?_
    rw [held_write] at hheld
    obtain ⟨-, hnone⟩ | ⟨-, hheld⟩ := held_of_update hheld
    · cases hnone
    · obtain ⟨d, hd, -, howned, -⟩ := hs.owned.fits _ _ hheld
      obtain rfl := Option.some.inj (hc.symm.trans hd)
      exact OwnerRef.noConfusion (howner.symm.trans howned)

/-- **An operation** about another client leaves it as it is. -/
theorem waits_apply (hs : Sound o) (hop : op.Allowed o) (hother : op.about ≠ some j) (hc : o.holders[j]? = some c)
    (hw : c.Waits) :
    (o.apply op).holders[j]? = some c := by
  have hne {i : ConnId} (h : some i ≠ some j) : i ≠ j := fun hij => h (congrArg some hij)
  cases op with
  | construct socket => exact (List.getElem?_append_left (List.getElem?_eq_some_iff.mp hc).1).trans hc
  | insert i => exact waits_insert hs hop hc hw
  | login i => exact waits_login hs hop (hne hother) hc hw
  | disconnect i => exact waits_disconnect hs (hne hother) hc hw
  | _ => exact (modify_other (hne hother)).trans hc

/-- To disconnect a client takes another away only if `ClientServer` has the one that is disconnected, and it was
alive. -/
theorem disconnect_takes (hij : i ≠ j) (h : (o.disconnect i).holders[j]? ≠ o.holders[j]?) :
    ∃ d d', o.holders[i]? = some d ∧ d.owner = .clientServer ∧ d.alive = true ∧
      (o.disconnect i).holders[i]? = some d' ∧ d'.alive = false := by
  cases hd : o.holders[i]? with
  | none =>
    unfold disconnect at h
    rw [hd] at h
    exact absurd rfl h
  | some d =>
    have hlt : i < (o.disconnect i).holders.length := by
      rw [length_disconnect]
      exact (List.getElem?_eq_some_iff.mp hd).1
    have hd' := List.getElem?_eq_getElem hlt
    have hdead : (o.disconnect i).holders[i].alive = false := by
      obtain ⟨d₀, -, ⟨-, hne⟩ | ⟨-, hdead⟩⟩ := disconnect_inv hd'
      · exact absurd rfl hne
      · rw [hdead]
    unfold disconnect at h
    rw [hd] at h
    dsimp only at h
    split at h
    · next halive =>
      cases howner : d.owner with
      | login =>
        rw [howner] at h
        exact absurd (modify_other hij) h
      | clientServer => exact ⟨d, _, rfl, howner, halive, hd', hdead⟩
    · exact absurd rfl h

theorem Along.of_forall {D : CustodyOp → Prop} {ops : List CustodyOp} (h : ∀ op ∈ ops, D op) :
    Along (fun _ op => D op) o ops := by
  induction ops generalizing o with
  | nil => trivial
  | cons op ops ih => exact ⟨h op (List.mem_cons_self ..), ih fun op' hop' => h op' (List.mem_cons_of_mem _ hop')⟩

theorem alive_apply (hother : op.about ≠ some j) (hc : o.holders[j]? = some c) :
    ∃ c', (o.apply op).holders[j]? = some c' ∧ c'.alive = c.alive := by
  have still {o' : Custody} (hlength : o'.holders.length = o.holders.length) : ∃ c', o'.holders[j]? = some c' := by
    have hlt : j < o'.holders.length := hlength ▸ (List.getElem?_eq_some_iff.mp hc).1
    exact ⟨_, List.getElem?_eq_getElem hlt⟩
  have hne {i : ConnId} (h : some i ≠ some j) : i ≠ j := fun hij => h (congrArg some hij)
  cases op with
  | construct socket => exact ⟨c, (List.getElem?_append_left (List.getElem?_eq_some_iff.mp hc).1).trans hc, rfl⟩
  | insert i =>
    obtain ⟨c', hc'⟩ := still (length_insert (o := o) (i := i))
    obtain ⟨d, hd, hsame⟩ := insert_inv hc'
    obtain rfl : c = d := Option.some.inj (hc.symm.trans hd)
    exact ⟨c', hc', by rw [hsame]⟩
  | login i =>
    obtain ⟨c', hc'⟩ := still (length_login (o := o) (i := i))
    obtain ⟨d, hd, ⟨-, hsame⟩ | ⟨hji, -⟩, -⟩ := login_inv hc'
    · obtain rfl : c = d := Option.some.inj (hc.symm.trans hd)
      exact ⟨c', hc', by rw [hsame]⟩
    · exact absurd hji.symm (hne hother)
  | disconnect i =>
    obtain ⟨c', hc'⟩ := still (length_disconnect (o := o) (i := i))
    obtain ⟨d, hd, ⟨hsame, -⟩ | ⟨hji, -⟩⟩ := disconnect_inv hc'
    · obtain rfl : c = d := Option.some.inj (hc.symm.trans hd)
      exact ⟨c', hc', by rw [hsame]⟩
    · exact absurd hji.symm (hne hother)
  | _ => exact ⟨c, (modify_other (hne hother)).trans hc, rfl⟩

end Custody

/-! ## Other connections -/

section Others

variable {E : Env} {w : World} {e : Event} {g g' : Gateway} {i j : ConnId} {c : Client} {ops : List CustodyOp}

theorem Joins.connection {userid name : Bytes} (h : Joins E w g i userid name e) : e.connection = some i := by
  cases h <;> rfl

theorem Fails.connection (h : Fails i e) : e.connection = some i := by
  cases e with
  | onLengthReceive j error data => exact congrArg some h.1
  | onWriteComplete j error => exact congrArg some h.1
  | keepAlive j error expired => exact congrArg some h.1
  | _ => exact h.elim

/-- The operations an event asks for are about its connection. -/
theorem about_of_asks (h : Asks E w g e ops) : ∀ op ∈ ops, op.about = none ∨ op.about = e.connection := by
  have own {i : ConnId} {ops : List CustodyOp} (hall : ∀ op ∈ ops, op.about = some i) (he : e.connection = some i) :
      ∀ op ∈ ops, op.about = none ∨ op.about = e.connection := fun op hop => Or.inr ((hall op hop).trans he.symm)
  cases h with
  | logsIn hjoins hfits => exact own (by simp [CustodyOp.about]) hjoins.connection
  | unframed hjoins hfits hops =>
    rcases hops with rfl | ⟨rfl, -⟩ <;> exact own (by simp [CustodyOp.about]) hjoins.connection
  | fails hfails hops => rcases hops with rfl | rfl <;> exact own (by simp [CustodyOp.about]) hfails.connection
  | other hjoins hfails hminor => cases hminor <;> simp [CustodyOp.about, Event.connection]

/-- What the operations about other connections keep, an event about another connection keeps. -/
theorem kept_by_event {P : Custody → Prop} (hs : g.custody.Sound) (h : step E g (w, e) = some g')
    (hother : e.connection ≠ some j)
    (hkeeps : ∀ o op, o.Sound → P o → op.Allowed o → op.about ≠ some j → P (o.apply op)) (hP : P g.custody) :
      P g'.custody := by
  obtain ⟨ops, hasks, hallows, hrun⟩ := step_custody hs h
  have habout : ∀ op ∈ ops, op.about ≠ some j := fun op hop => by
    rcases about_of_asks hasks op hop with hnone | hsame
    · simp [hnone]
    · rwa [hsame]
  have hboth := Custody.Along.and hallows (Custody.Along.of_forall habout)
  rw [hrun]
  exact (Custody.Along.run (P := fun o => o.Sound ∧ P o) (fun o op ho hop =>
    ⟨ho.1.apply op hop.1, hkeeps o op ho.1 ho.2 hop.1 hop.2⟩) ⟨hs, hP⟩ hboth).2

/-- An event about another connection ends nobody's life. -/
theorem alive_kept {c' : Client} (hs : g.custody.Sound) (h : step E g (w, e) = some g') (hother : e.connection ≠ some j)
    (hc : g.objects[j]? = some c) (hc' : g'.objects[j]? = some c') : c'.alive = c.alive := by
  obtain ⟨d, hd, halive⟩ := kept_by_event (P := fun o => ∃ d, o.holders[j]? = some d ∧ d.alive = c.alive) hs h hother
    (fun o op _ ⟨d, hd, halive⟩ _ hop => by
      obtain ⟨d', hd', hsame⟩ := Custody.alive_apply hop hd
      exact ⟨d', hd', hsame.trans halive⟩) ⟨c.holder, holder_of_object hc, rfl⟩
  obtain rfl := Option.some.inj ((holder_of_object hc').symm.trans hd)
  exact halive

/-- Nor does it change what the owners see of a client that waits to log in. -/
theorem waits_kept {c' : Client} (hs : g.custody.Sound) (h : step E g (w, e) = some g') (hother : e.connection ≠ some j)
    (hc : g.objects[j]? = some c) (hc' : g'.objects[j]? = some c') (hw : c.holder.Waits) : c'.holder = c.holder := by
  have hkept := kept_by_event (P := fun o => o.holders[j]? = some c.holder) hs h hother
    (fun o op hs hh hop habout => Custody.waits_apply hs hop habout hh hw) (holder_of_object hc)
  exact Option.some.inj ((holder_of_object hc').symm.trans hkept)

/-- The event logs a client in, or disconnects a client of `ClientServer`. -/
def TakesEntry (E : Env) (g : Gateway) (e : World × Event) (g' : Gateway) : Prop :=
  (∃ i userid name, Joins E e.1 g i userid name e.2) ∨
    ∃ i d d', e.2.connection = some i ∧ g.objects[i]? = some d ∧ d.owner = .clientServer ∧ d.alive = true ∧
      g'.objects[i]? = some d' ∧ d'.alive = false

/-- The event has taken the client's entry in `clients` away, and the client has been freed. -/
structure Displaced (E : Env) (g : Gateway) (e : World × Event) (g' : Gateway) (j : ConnId) : Prop where
  freed : ∃ c', g'.objects[j]? = some c' ∧ c'.freed = true
  entry : ∃ userid, g.clients.lookup userid = some (some j) ∧ g'.clients.lookup userid ≠ some (some j)
  event : TakesEntry E g e g'

theorem object_of_holder {h : Holder} (hh : g.custody.holders[i]? = some h) :
    ∃ c, g.objects[i]? = some c ∧ c.holder = h := by
  rw [Gateway.custody, List.getElem?_map] at hh
  exact Option.map_eq_some_iff.mp hh

/-- Only such an event changes what the owners see of another client that `ClientServer` has. -/
theorem takesEntry_of_changed (hs : g.custody.Sound) (hstep : step E g (w, e) = some g')
    (hother : e.connection ≠ some j) (hc : g.objects[j]? = some c) (howner : c.owner = .clientServer)
    (hchanged : g'.custody.holders[j]? ≠ g.custody.holders[j]?) : TakesEntry E g (w, e) g' := by
  have hne {i : ConnId} (h : e.connection = some i) : i ≠ j := fun hij => hother (hij ▸ h)
  -- of the client that is disconnected, the operation before it has left the owner and the life as they were
  have hdisconnect {o : Custody} {i : ConnId} (hi : e.connection = some i) (hj : o.holders[j]? = g.custody.holders[j]?)
      (hsame : ∀ d, o.holders[i]? = some d → ∃ c, g.objects[i]? = some c ∧ c.owner = d.owner ∧ c.alive = d.alive)
      (hrun : g'.custody = o.disconnect i) : TakesEntry E g (w, e) g' := by
    rw [hrun, ← hj] at hchanged
    obtain ⟨d, d', hd, hserved, halive, hd', hdead⟩ := Custody.disconnect_takes (hne hi) hchanged
    obtain ⟨c₀, hc₀, howner₀, halive₀⟩ := hsame d hd
    obtain ⟨c', hc', rfl⟩ := object_of_holder (hrun ▸ hd')
    exact Or.inr ⟨i, c₀, c', hi, hc₀, howner₀.trans hserved, halive₀.trans halive, hc', hdead⟩
  have hat {i : ConnId} (d : Holder) (hd : g.custody.holders[i]? = some d) :
      ∃ c, g.objects[i]? = some c ∧ c.owner = d.owner ∧ c.alive = d.alive := by
    obtain ⟨c, hc, rfl⟩ := object_of_holder hd
    exact ⟨c, hc, rfl, rfl⟩
  obtain ⟨ops, hasks, hallows, hrun⟩ := step_custody hs hstep
  cases hasks with
  | logsIn hjoins hfits => exact Or.inl ⟨_, _, _, hjoins⟩
  | unframed hjoins hfits hops => exact Or.inl ⟨_, _, _, hjoins⟩
  | fails hfails hops =>
    have hi := hfails.connection
    rcases hops with rfl | rfl
    · exact hdisconnect hi rfl hat hrun
    · refine hdisconnect hi (Custody.modify_other (hne hi)) (fun d hd => ?_) hrun
      obtain ⟨d₀, hd₀, ⟨-, hd⟩ | ⟨-, hd⟩⟩ := Custody.modify_inv hd
      · rw [hd]
        exact hat d₀ hd₀
      · rw [hd]
        exact hat d₀ hd₀
  | other hjoins hfails hminor =>
    cases hminor with
    | nothing => exact absurd (by rw [hrun]; rfl) hchanged
    | construct =>
      refine absurd ?_ hchanged
      rw [hrun]
      exact List.getElem?_append_left (List.getElem?_eq_some_iff.mp (holder_of_object hc)).1
    | insert hi => exact absurd (by rw [hrun]; exact Custody.served_insert hs (holder_of_object hc) howner) hchanged
    | reset => exact absurd (by rw [hrun]; exact Custody.modify_other (hne rfl)) hchanged
    | expire => exact absurd (by rw [hrun]; exact Custody.modify_other (hne rfl)) hchanged
    | rearm =>
      exact absurd (by rw [hrun]; exact (Custody.modify_other (hne rfl)).trans (Custody.modify_other (hne rfl)))
        hchanged
    | handshake => exact absurd (by rw [hrun]; exact Custody.modify_other (hne rfl)) hchanged
    | drop hc₀ halive hstate => exact hdisconnect rfl rfl hat hrun

/-- **Connections are kept apart.** In every state that a run reaches, an event leaves every live client that it is not
about exactly as it is, unless a client logs in or a client of `ClientServer` is disconnected, and the client's entry in
`clients` goes: then it is freed. -/
theorem others_kept (E : Env) (run : List (World × Event)) (g g' : Gateway) (e : World × Event) (j : ConnId)
    (c : Client) (hrun : runFrom (step E) Gateway.init run = some g) (hstep : step E g e = some g')
    (hc : g.objects[j]? = some c) (honline : c.OnLine) (hother : ¬ Concerns g e.2 j) :
    g'.objects[j]? = some c ∨ c.owner = .clientServer ∧ Displaced E g e g' j := by
  have hu := (allStates_usual E run).last hrun
  have hu' := hu.step hstep
  rcases step_led hu hstep with ⟨_, _, _, -, hobjects⟩ | ⟨k, hled, hconcerns⟩
  · refine Or.inl ?_
    rw [hobjects, List.getElem?_append_left (List.getElem?_eq_some_iff.mp hc).1, hc]
  · obtain ⟨c', hc', hgoes, hsame⟩ := hled.2 j c hc
    have hconnection : e.2.connection ≠ some j := fun he => hother (Or.inl he)
    have hk : k ≠ some j := fun hkj => hother (hconcerns j hkj)
    have halive : c'.alive = true := (alive_kept hu.sound hstep hconnection hc hc').trans honline.alive
    cases hfreed : c'.freed with
    | false =>
      rw [← hsame hk ⟨hfreed, halive⟩]
      exact Or.inl hc'
    | true =>
      have hdiffers : c'.holder ≠ c.holder := fun hsame =>
        absurd (hfreed.symm.trans (congrArg Holder.freed hsame)) (by simp [Client.holder, honline.there])
      have howner : c.owner = .clientServer := by
        cases howner : c.owner with
        | clientServer => rfl
        | login =>
          exact absurd (waits_kept hu.sound hstep hconnection hc hc' ⟨honline.there, honline.alive, howner⟩) hdiffers
      obtain ⟨hsound, hlies⟩ := (allStates_lies E run).last hrun
      obtain ⟨userid, hheld⟩ := (ownedOnce_of_lies hsound hlies).entry hc honline.there howner
      have hchanged : g'.custody.holders[j]? ≠ g.custody.holders[j]? := by
        rw [holder_of_object hc', holder_of_object hc]
        exact fun hsame => hdiffers (Option.some.inj hsame)
      have hevent := takesEntry_of_changed hu.sound hstep hconnection hc howner hchanged
      refine Or.inr ⟨howner, ⟨c', hc', hfreed⟩, ⟨userid, held_client_iff.mp hheld, fun hstill => ?_⟩, hevent⟩
      obtain ⟨h, hh, hthere, -⟩ := hu'.sound.owned.fits _ j (held_client_iff.mpr hstill)
      obtain rfl := Option.some.inj ((holder_of_object hc').symm.trans hh)
      exact absurd (hthere.symm.trans hfreed) (by simp)

/-- The second of two clients does not notice that the first is read. -/
theorem others_kept_twoAccepted :
    ∃ g g' c, runFrom (step .player) Gateway.init twoAccepted = some g ∧
      step .player g (.plain, .onLengthReceive 0 false [6, 0, 47, 0, 0, 0, 1]) = some g' ∧ g.objects[1]? = some c ∧
        g'.objects[1]? = some c := by
  have hruns : (runFrom (step .player) Gateway.init twoAccepted).map (fun g =>
      (g.objects[1]?.map fun c => (c.freed, c.alive, c.owner),
        (step .player g (.plain, .onLengthReceive 0 false [6, 0, 47, 0, 0, 0, 1])).isSome)) =
          some (some (false, true, .login), true) := by
    decide +kernel
  obtain ⟨g, hg, hboth⟩ := Option.map_eq_some_iff.mp hruns
  obtain ⟨hclient, hsome⟩ := Prod.mk.inj hboth
  obtain ⟨c, hc, hfields⟩ := Option.map_eq_some_iff.mp hclient
  obtain ⟨hfreed, halive, howner⟩ : _ ∧ _ ∧ _ := by simpa only [Prod.mk.injEq] using hfields
  obtain ⟨g', hg'⟩ := Option.isSome_iff_exists.mp hsome
  have hother : ¬ Concerns g (.onLengthReceive 0 false [6, 0, 47, 0, 0, 0, 1]) 1 := by
    rintro (h | ⟨_, h, -⟩) <;> cases h
  refine ⟨g, g', c, hg, hg', hc,
    (others_kept .player twoAccepted g g' _ 1 c hg hg' hc ⟨hfreed, halive⟩ hother).resolve_right ?_⟩
  rintro ⟨howned, -⟩
  exact OwnerRef.noConfusion (howner.symm.trans howned)

end Others

end CeriosCluster.ClientGateway
