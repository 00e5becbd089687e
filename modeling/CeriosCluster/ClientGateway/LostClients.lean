import CeriosCluster.ClientGateway.CustodyEffects
import CeriosCluster.ClientGateway.SessionKey

/-!
# Clients that `ClientServer` loses

`clients` is keyed by the player's id, and the id is not the connection's alone. `addClient` overwrites the
entry under the id of the client it is given, and `clientDisconnected` erases the entry under the id of the
client that goes, whoever that entry holds. A client is lost exactly when one of them meets another live
client there.
-/

namespace CeriosCluster.ClientGateway

open CeriosCluster.Lib CeriosCluster.MCPacket

/-- A live client that was handed to `ClientServer` is under a key of `clients`. -/
def NoneLost (g : Gateway) : Prop :=
  ∀ (i : ConnId) (c : Client), g.objects[i]? = some c → c.owner = .clientServer → c.alive = true →
    ∃ userid, g.clients.lookup userid = some (some i)

/-- The entry under the id holds no live client but `i`. -/
def Custody.Yields (o : Custody) (userid : Bytes) (i : ConnId) : Prop :=
  ∀ k c, o.held (.client userid) = some k → o.holders[k]? = some c → k ≠ i → c.alive = false

/-- Neither the disconnection nor the login that the event brings finds another live client under the id. -/
def SparesOthers (E : Env) (g : Gateway) (e : World × Event) : Prop :=
  (∀ i c, Fails i e.2 → g.objects[i]? = some c → c.alive = true → c.owner = .clientServer →
    g.custody.Yields c.userid i) ∧
    ∀ j userid, HandsOver E e.1 g e.2 j userid → g.custody.Yields userid j

namespace Custody

def NoneLost (o : Custody) : Prop :=
  ∀ (i : ConnId) (c : Holder), o.holders[i]? = some c → c.owner = .clientServer → c.alive = true →
    ∃ userid, o.held (.client userid) = some i

/-- The operation empties or overwrites no entry with another live client. -/
def Spares (o : Custody) : CustodyOp → Prop
  | .disconnect i => ∀ c, o.holders[i]? = some c → c.alive = true → c.owner = .clientServer → o.Yields c.userid i
  | .login i => ∀ j userid, o.Takes i j userid → o.Yields userid j
  | _ => True

section Operations

variable {o : Custody} {i : ConnId} {f : Holder → Holder}

theorem NoneLost.modify (h : NoneLost o) (hf : ∀ c, (f c).owner = c.owner ∧ ((f c).alive = true → c.alive = true)) :
    NoneLost (o.modify i f) := by
  intro k c hc howner halive
  obtain ⟨d, hd, ⟨rfl, rfl⟩ | ⟨-, rfl⟩⟩ := modify_inv hc
  · exact h _ d hd ((hf d).1.symm.trans howner) ((hf d).2 halive)
  · exact h k c hd howner halive

theorem NoneLost.disconnect (h : NoneLost o) (hspares : Spares o (.disconnect i)) : NoneLost (o.disconnect i) := by
  intro k c hc howner halive
  cases hi : o.holders[i]? with
  | none =>
    unfold Custody.disconnect at hc ⊢
    rw [hi] at hc ⊢
    exact h k c hc howner halive
  | some e =>
    obtain ⟨d, hd, ⟨heq, hki⟩ | ⟨rfl, heq⟩⟩ := disconnect_inv hc
    · rw [heq] at howner halive
      obtain ⟨userid, hheld⟩ := h k d hd howner halive
      refine ⟨userid, ?_⟩
      cases hdead : e.alive with
      | false => rw [disconnect_dead hi hdead, hheld]
      | true =>
        cases heowner : e.owner with
        | login => rw [held_disconnect_login hi heowner, hheld]
        | clientServer =>
          rw [held_disconnect_clientServer hi hdead heowner, Function.update_of_ne, hheld]
          intro heq'
          obtain rfl := Slot.client.inj heq'
          have hnot := hspares e hi hdead heowner k d hheld hd hki
          rw [hnot] at halive
          cases halive
    · rw [heq] at halive
      cases halive

theorem NoneLost.login (hs : Sound o) (h : NoneLost o) (hspares : Spares o (.login i)) : NoneLost (o.login i) := by
  intro k c hc howner halive
  obtain ⟨d, hd, hfields, hwho⟩ := login_inv hc
  have hdalive : d.alive = true := by rcases hfields with ⟨-, heq⟩ | ⟨-, heq⟩ <;> (rw [heq] at halive; exact halive)
  rcases hwho with hsame | ⟨-, userid, htakes⟩
  · -- a client that was there keeps its entry
    obtain ⟨userid, hheld⟩ := h k d hd (hsame.symm.trans howner) hdalive
    refine ⟨userid, ?_⟩
    by_cases htakes : ∃ j userid', o.Takes i j userid'
    · obtain ⟨j, userid', htakes⟩ := htakes
      have hyields := hspares j userid' htakes
      obtain ⟨e, d', -, hd', hj, hslots⟩ := held_login htakes
      rw [hslots, Function.update_of_ne, Function.update_of_ne (by simp), Function.update_of_ne (by simp), hheld]
      intro heq
      obtain rfl := Slot.client.inj heq
      have hkj : k ≠ j := by
        rintro rfl
        cases hs.owned.exclusive _ _ k hheld hj
      have hdead := hyields k d hheld hd hkj
      rw [hdead] at hdalive
      cases hdalive
    · rw [held_login_none (fun j userid' hj => htakes ⟨j, userid', hj⟩) hs.owned, hheld]
  · obtain ⟨e, d', -, -, -, hslots⟩ := held_login htakes
    refine ⟨userid, ?_⟩
    rw [hslots, Function.update_self]

/-- **An operation that spares the others** loses no client. -/
theorem NoneLost.apply (hs : Sound o) (h : NoneLost o) (op : CustodyOp) (hspares : Spares o op) :
    NoneLost (o.apply op) := by
  cases op with
  | construct socket =>
    intro k c hc howner halive
    rcases construct_inv hc with hc | ⟨-, rfl⟩
    · obtain ⟨userid, hheld⟩ := h k c hc howner halive
      refine ⟨userid, ?_⟩
      show (o.construct socket).held _ = _
      rw [held_construct, Function.update_of_ne (by simp), hheld]
    · cases howner
  | insert i =>
    intro k c hc howner halive
    obtain ⟨d, hd, heq⟩ := insert_inv hc
    rw [heq] at howner halive
    obtain ⟨userid, hheld⟩ := h k d hd howner halive
    refine ⟨userid, ?_⟩
    show (o.insert i).held _ = _
    rw [held_client_insert, hheld]
  | login i => exact h.login hs hspares
  | disconnect i => exact h.disconnect hspares
  | _ => exact h.modify fun _ => ⟨rfl, id⟩

theorem Yields.modify {userid : Bytes} {j : ConnId} (h : o.Yields userid j)
    (hf : ∀ c, (f c).alive = true → c.alive = true) :
    (o.modify i f).Yields userid j := by
  intro k c hheld hc hkj
  obtain ⟨d, hd, ⟨rfl, rfl⟩ | ⟨-, rfl⟩⟩ := modify_inv hc
  · exact Bool.eq_false_iff.mpr fun halive => Bool.eq_false_iff.mp (h _ d hheld hd hkj) (hf d halive)
  · exact h k c hheld hd hkj

/-- A client in `LOGIN` is not in the hands of `ClientServer`. -/
theorem spares_of_login {c : Holder} (hs : Sound o) (hc : o.holders[i]? = some c) (hstate : c.state = .LOGIN) :
    Spares o (.disconnect i) := by
  intro d hd halive howner
  obtain rfl := Option.some.inj (hc.symm.trans hd)
  have hplay := hs.placed.play_of_alive i c hc halive howner
  exact absurd (hstate.symm.trans hplay) (by decide)

end Operations

end Custody

section Events

variable {E : Env} {w : World} {e : Event} {g g' : Gateway} {ops : List CustodyOp} {i j : ConnId}

theorem noneLost_iff : NoneLost g ↔ g.custody.NoneLost := by
  constructor
  · intro h i c hc howner halive
    obtain ⟨d, hd, rfl⟩ := objects_of_custody hc
    obtain ⟨userid, hlookup⟩ := h i d hd howner halive
    exact ⟨userid, held_client_iff.mpr hlookup⟩
  · intro h i c hc howner halive
    obtain ⟨userid, hheld⟩ := h i c.holder (holder_of_object hc) howner halive
    exact ⟨userid, held_client_iff.mp hheld⟩

theorem spares_of_asks (hs : g.custody.Sound) (hspares : SparesOthers E g (w, e)) (hasks : Asks E w g e ops) :
    Custody.Along Custody.Spares g.custody ops := by
  cases hasks with
  | @logsIn i userid name hjoins hfits =>
    refine ⟨trivial, fun j userid' htakes => ?_, trivial⟩
    exact (hspares.2 j userid' ⟨i, userid, name, hjoins, hfits, htakes⟩).modify fun _ h => h
  | @unframed i userid name ops hjoins hfits hops =>
    rcases hops with rfl | ⟨rfl, c, hc, halive, hstate⟩
    · exact ⟨trivial, trivial, trivial⟩
    · have hs' := (hs.apply (.rename i userid) trivial).apply (.failLogin i) trivial
      have hc' := Custody.modify_self (f := fun c => { c with logins := c.logins + 1 })
        (Custody.modify_self (f := fun c => { c with userid := userid }) (holder_of_object hc))
      exact ⟨trivial, trivial, Custody.spares_of_login hs' hc' hstate, trivial⟩
  | @fails i ops hfails hops =>
    have hdisconnect : ∀ f : Holder → Holder, (∀ c, (f c).alive = c.alive ∧ (f c).owner = c.owner ∧
      (f c).userid = c.userid) →
        Custody.Spares (g.custody.modify i f) (.disconnect i) := by
      intro f hf c hc halive howner
      obtain ⟨d, hd, ⟨-, rfl⟩ | ⟨hne, -⟩⟩ := Custody.modify_inv hc
      · obtain ⟨d, hd', rfl⟩ := objects_of_custody hd
        obtain ⟨hfalive, hfowner, hfuserid⟩ := hf d.holder
        rw [hfuserid]
        refine Custody.Yields.modify ?_ fun c h => (hf c).1 ▸ h
        exact hspares.1 i d hfails hd' (hfalive.symm.trans halive) (hfowner.symm.trans howner)
      · exact absurd rfl hne
    rcases hops with rfl | rfl
    · have hsame := hdisconnect id fun _ => ⟨rfl, rfl, rfl⟩
      rw [Custody.modify_eq_self (f := id) fun _ _ => rfl] at hsame
      exact ⟨hsame, trivial⟩
    · exact ⟨trivial, hdisconnect _ fun _ => ⟨rfl, rfl, rfl⟩, trivial⟩
  | other hjoins hfails hminor =>
    cases hminor with
    | nothing => trivial
    | construct => exact ⟨trivial, trivial⟩
    | insert hi => exact ⟨trivial, trivial⟩
    | reset => exact ⟨trivial, trivial⟩
    | expire => exact ⟨trivial, trivial⟩
    | rearm hc halive => exact ⟨trivial, trivial, trivial⟩
    | handshake hc halive hstate => exact ⟨trivial, trivial⟩
    | drop hc halive hstate => exact ⟨Custody.spares_of_login hs (holder_of_object hc) hstate, trivial⟩

/-- The state of the ownership along a run that loses no client. -/
theorem noneLost_step (hs : g.custody.Sound) (h : g.custody.NoneLost) (hspares : SparesOthers E g (w, e))
    (hstep : step E g (w, e) = some g') : g'.custody.NoneLost := by
  obtain ⟨ops, hasks, hallows, hrun⟩ := step_custody hs hstep
  rw [hrun]
  have hboth := Custody.Along.and hallows (spares_of_asks hs hspares hasks)
  refine (Custody.Along.run (P := fun o => o.Sound ∧ o.NoneLost) (fun o op ho hop => ?_) ⟨hs, h⟩ hboth).2
  exact ⟨ho.1.apply op hop.1, ho.2.apply ho.1 op hop.2⟩

theorem lost_of_unheld {o : Custody} {k : ConnId} {c : Holder} (hc : o.holders[k]? = some c)
    (howner : c.owner = .clientServer) (halive : c.alive = true)
    (hunheld : ∀ userid, o.held (.client userid) ≠ some k) : ¬ o.NoneLost := by
  intro h
  obtain ⟨userid, hheld⟩ := h k c hc howner halive
  exact hunheld userid hheld

/-- Disconnecting a client under whose id another live client lies loses that one. -/
theorem lost_of_disconnect {o : Custody} {c d : Holder} {k : ConnId} (hs : o.Sound) (hc : o.holders[i]? = some c)
    (halive : c.alive = true) (howner : c.owner = .clientServer) (hheld : o.held (.client c.userid) = some k)
    (hd : o.holders[k]? = some d) (hki : k ≠ i) (hdalive : d.alive = true) : ¬ (o.disconnect i).NoneLost := by
  obtain ⟨d', hd', -, hdowner⟩ := hs.owned.fits _ _ hheld
  obtain rfl := Option.some.inj (hd.symm.trans hd')
  have hslots := Custody.held_disconnect_clientServer hc halive howner
  have hlt : k < (o.disconnect i).holders.length := by
    rw [Custody.length_disconnect]
    exact (List.getElem?_eq_some_iff.mp hd).1
  obtain ⟨e, he, ⟨hfields, -⟩ | ⟨rfl, -⟩⟩ := Custody.disconnect_inv (List.getElem?_eq_getElem hlt)
  · obtain rfl := Option.some.inj (hd.symm.trans he)
    apply lost_of_unheld (List.getElem?_eq_getElem hlt)
    · rw [hfields]
      exact hdowner
    · rw [hfields]
      exact hdalive
    · intro userid hk
      rw [hslots] at hk
      exact hs.owned.exclusive.unheld_of_update hheld (p := none) (by simp) _ hk
  · exact absurd rfl hki

/-- Handing a client over under an id where another live client lies loses that one. -/
theorem lost_of_login {o : Custody} {d : Holder} {userid : Bytes} {k : ConnId} (hs : o.Sound)
    (htakes : o.Takes i j userid) (hheld : o.held (.client userid) = some k) (hd : o.holders[k]? = some d) (hkj : k ≠ j)
    (hdalive : d.alive = true) :
    ¬ (o.login i).NoneLost := by
  obtain ⟨d', hd', -, hdowner⟩ := hs.owned.fits _ _ hheld
  obtain rfl := Option.some.inj (hd.symm.trans hd')
  have hlt : k < (o.login i).holders.length := by
    rw [Custody.length_login]
    exact (List.getElem?_eq_some_iff.mp hd).1
  obtain ⟨e, he, hfields, hwho⟩ := Custody.login_inv (List.getElem?_eq_getElem hlt)
  obtain rfl := Option.some.inj (hd.symm.trans he)
  obtain ⟨c, d', -, -, hj, hslots⟩ := Custody.held_login htakes
  apply lost_of_unheld (List.getElem?_eq_getElem hlt)
  · rcases hwho with hsame | ⟨hnew, -⟩
    · exact hsame.trans hdowner
    · exact hnew
  · rcases hfields with ⟨-, heq⟩ | ⟨-, heq⟩ <;> (rw [heq]; exact hdalive)
  · intro userid' hk
    rw [hslots] at hk
    obtain ⟨-, hjk⟩ | ⟨hne, hk⟩ := held_of_update hk
    · exact hkj (Option.some.inj hjk).symm
    · rw [Function.update_of_ne (by simp), Function.update_of_ne (by simp)] at hk
      exact hne (hs.owned.exclusive _ _ k hk hheld)

/-- A step that does not spare the others loses one of them. -/
theorem lost_of_step (hs : g.custody.Sound) (hspares : ¬ SparesOthers E g (w, e)) (hstep : step E g (w, e) = some g') :
    ¬ g'.custody.NoneLost := by
  obtain ⟨ops, hasks, hallows, hrun⟩ := step_custody hs hstep
  rw [hrun]
  intro hnone
  apply hspares
  refine ⟨fun i c hfails hc halive howner k d hheld hd hki => ?_, fun j userid hover k d hheld hd hkj => ?_⟩
  · by_contra hdalive
    rw [Bool.not_eq_false] at hdalive
    cases hasks with
    | logsIn hjoins hfits => exact hjoins.not_fails hfails
    | unframed hjoins hfits hops => exact hjoins.not_fails hfails
    | other hjoins hno hminor => exact hno i hfails
    | @fails i' ops hfails' hops =>
      obtain rfl := hfails.unique hfails'
      rcases hops with rfl | rfl
      · exact lost_of_disconnect hs (holder_of_object hc) halive howner hheld hd hki hdalive hnone
      · have hs' := hs.apply (.expire i) trivial
        exact lost_of_disconnect hs' (Custody.modify_self (holder_of_object hc)) halive howner hheld
          ((Custody.modify_other (Ne.symm hki)).trans hd) hki hdalive hnone
  · by_contra hdalive
    rw [Bool.not_eq_false] at hdalive
    obtain ⟨i, joined, name, hjoins, hfits, htakes⟩ := hover
    cases hasks with
    | @logsIn i' userid' name' hjoins' hfits' =>
      obtain ⟨rfl, rfl, rfl⟩ := hjoins.unique hjoins'
      have hs' := hs.apply (.rename i joined) trivial
      obtain ⟨d', hd', hfields⟩ : ∃ d', (g.custody.apply (.rename i joined)).holders[k]? = some d' ∧
        d'.alive = true := by
        by_cases hik : i = k
        · subst hik
          exact ⟨_, Custody.modify_self hd, hdalive⟩
        · exact ⟨d, (Custody.modify_other hik).trans hd, hdalive⟩
      exact lost_of_login hs' htakes hheld hd' hkj hfields hnone
    | unframed hjoins' hfits' hops =>
      obtain ⟨rfl, rfl, rfl⟩ := hjoins.unique hjoins'
      exact hfits' hfits
    | other hno hfails hminor => exact hno _ _ _ hjoins
    | fails hfails hops => exact hjoins.not_fails hfails

end Events

/-- **No lost client.** Along a run every live client of `ClientServer` is under a key of `clients` exactly when no
login and no failed operation meets another live client under the id. -/
theorem noneLost_iff_sparesOthers (E : Env) (run : List (World × Event)) :
    AllStates (step E) NoneLost Gateway.init run ↔ AllSteps (step E) (SparesOthers E) Gateway.init run := by
  refine allStates_iff_allSteps (I := fun g => g.custody.Sound ∧ g.custody.NoneLost) ?_ ?_ ?_ ⟨Custody.sound_init, ?_⟩
  · intro g e g' h hspares hstep
    exact ⟨sound_step h.1 hstep, noneLost_step h.1 h.2 hspares hstep⟩
  · intro g h
    exact noneLost_iff.mpr h.2
  · intro g e g' h hspares hstep hnone
    exact lost_of_step h.1 hspares hstep (noneLost_iff.mp hnone)
  · intro i c hc
    cases hc

/-! ## A run -/

def sameName : List (World × Event) :=
  plainRun [.acceptConstruct 7 true zeroToken, .acceptInsert, .onLengthReceive 0 false [6, 0, 47, 0, 0, 0, 2],
    .onLengthReceive 0 false (8 :: 0 :: 6 :: ascii "Player"), .acceptConstruct 8 true zeroToken, .acceptInsert,
    .onLengthReceive 1 false [6, 0, 47, 0, 0, 0, 2], .onLengthReceive 1 false (8 :: 0 :: 6 :: ascii "Player")]

/-- The second login frees the first client, which nobody has disconnected. -/
theorem second_login_loses_the_first :
    ¬ ∀ (E : Env) (run : List (World × Event)), AllStates (step E) NoneLost Gateway.init run := by
  intro h
  have hlost : (runFrom (step .player) Gateway.init sameName).map (fun g =>
      (g.objects[0]?.map fun c => (c.owner, c.alive), g.clients.entries.map fun p => p.snd)) =
        some (some (.clientServer, true), [some 1]) := by
    decide +kernel
  obtain ⟨g, hg, hstate⟩ := Option.map_eq_some_iff.mp hlost
  obtain ⟨hclient, hentries⟩ := Prod.mk.inj hstate
  obtain ⟨c, hc, hfields⟩ := Option.map_eq_some_iff.mp hclient
  obtain ⟨howner, halive⟩ := Prod.mk.inj hfields
  obtain ⟨userid, hlookup⟩ := (h .player sameName).last hg 0 c hc howner halive
  have hmem : some 0 ∈ g.clients.entries.map fun p => p.snd :=
    List.mem_map_of_mem (AList.mem_lookup_iff.mp hlookup)
  rw [hentries] at hmem
  simp at hmem

end CeriosCluster.ClientGateway
