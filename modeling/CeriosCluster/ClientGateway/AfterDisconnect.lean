import CeriosCluster.ClientGateway.LostClients

/-!
# After `disconnect`

A client that has been disconnected may still have a request to the session server under way, and only
`readHTTPHeader` looks at `alive`. What a step does to the clients that were dead before it is told by the
custody: they are logged in exactly when a reply comes for one of them, or when the native handle of the
client that logs in leads to one of them.
-/

namespace CeriosCluster.ClientGateway

open CeriosCluster.Lib CeriosCluster.MCPacket

/-- What was dead before the step is dead after it, in the state it was in, with no timer armed, and in
`clients` only if it was there. -/
def DeadStays (E : Env) (g : Gateway) (e : World × Event) : Prop :=
  ∀ g', step E g e = some g' → ∀ (i : ConnId) (c : Client), g.objects[i]? = some c → c.alive = false →
    ∃ c', g'.objects[i]? = some c' ∧ c'.alive = false ∧ c'.state = c.state ∧ c'.waitsPending ≤ c.waitsPending ∧
      ∀ userid, g'.clients.lookup userid = some (some i) → ∃ userid', g.clients.lookup userid' = some (some i)

/-- The client that joins under a name that can be sent is alive, and so is the one that is handed over. -/
def LiveLogin (E : Env) (g : Gateway) (e : World × Event) : Prop :=
  (∀ i userid name c, Joins E e.1 g i userid name e.2 → LoginFits userid name → g.objects[i]? = some c →
    c.alive = true) ∧
    ∀ j userid c, HandsOver E e.1 g e.2 j userid → g.objects[j]? = some c → c.alive = true

namespace Custody

def DeadKept (o o' : Custody) : Prop :=
  ∀ (k : ConnId) (c : Holder), o.holders[k]? = some c → c.alive = false →
    ∃ c', o'.holders[k]? = some c' ∧ c'.alive = false ∧ c'.state = c.state ∧ c'.waitsPending ≤ c.waitsPending ∧
      ∀ userid, o'.held (.client userid) = some k → ∃ userid', o.held (.client userid') = some k

def AliveAt (o : Custody) (i : ConnId) : Prop := ∀ c, o.holders[i]? = some c → c.alive = true

/-- The operation does nothing for a dead client. -/
def ForLive (o : Custody) : CustodyOp → Prop
  | .login i => o.AliveAt i ∧ ∀ j userid, o.Takes i j userid → o.AliveAt j
  | .arm i => o.AliveAt i
  | .handshake i _ => o.AliveAt i
  | _ => True

section Operations

variable {o o' : Custody} {i : ConnId} {f : Holder → Holder}

theorem DeadKept.refl (o : Custody) : DeadKept o o :=
  fun _ c hc hdead => ⟨c, hc, hdead, rfl, le_refl _, fun userid hheld => ⟨userid, hheld⟩⟩

theorem DeadKept.trans {o'' : Custody} (h : DeadKept o o') (h' : DeadKept o' o'') : DeadKept o o'' := by
  intro k c hc hdead
  obtain ⟨c', hc', hdead', hstate, hwaits, hheld⟩ := h k c hc hdead
  obtain ⟨c'', hc'', hdead'', hstate', hwaits', hheld'⟩ := h' k c' hc' hdead'
  refine ⟨c'', hc'', hdead'', hstate'.trans hstate, le_trans hwaits' hwaits, fun userid hk => ?_⟩
  obtain ⟨userid', hk'⟩ := hheld' userid hk
  exact hheld userid' hk'

theorem DeadKept.of_inv (hlength : o.holders.length ≤ o'.holders.length)
    (h : ∀ (k : ConnId) (c c' : Holder), o.holders[k]? = some c → c.alive = false → o'.holders[k]? = some c' →
      c'.alive = false ∧ c'.state = c.state ∧ c'.waitsPending ≤ c.waitsPending ∧
        ∀ userid, o'.held (.client userid) = some k →
          ∃ userid', o.held (.client userid') = some k) : DeadKept o o' := by
  intro k c hc hdead
  have hlt : k < o'.holders.length := lt_of_lt_of_le (List.getElem?_eq_some_iff.mp hc).1 hlength
  exact ⟨_, List.getElem?_eq_getElem hlt, h k c _ hc hdead (List.getElem?_eq_getElem hlt)⟩

theorem DeadKept.modify (hf : ∀ c, o.holders[i]? = some c → c.alive = false →
    (f c).alive = false ∧ (f c).state = c.state ∧ (f c).waitsPending ≤ c.waitsPending) : DeadKept o (o.modify i f) := by
  apply DeadKept.of_inv (le_of_eq length_modify.symm)
  intro k c c' hc hdead hc'
  obtain ⟨d, hd, hcd⟩ := modify_inv hc'
  obtain rfl := Option.some.inj (hc.symm.trans hd)
  have hslots : ∀ userid, (o.modify i f).held (.client userid) = some k →
    ∃ userid', o.held (.client userid') = some k :=
    fun userid hk => ⟨userid, hk⟩
  rcases hcd with ⟨rfl, rfl⟩ | ⟨-, rfl⟩
  · obtain ⟨hdead', hstate, hwaits⟩ := hf c hc hdead
    exact ⟨hdead', hstate, hwaits, hslots⟩
  · exact ⟨hdead, rfl, le_refl _, hslots⟩

theorem DeadKept.construct {socket : Socket} : DeadKept o (o.construct socket) := by
  intro k c hc hdead
  have hlt := (List.getElem?_eq_some_iff.mp hc).1
  refine ⟨c, (List.getElem?_append_left hlt).trans hc, hdead, rfl, le_refl _, fun userid hk => ⟨userid, ?_⟩⟩
  rw [held_construct, Function.update_of_ne (by simp)] at hk
  exact hk

theorem DeadKept.insert : DeadKept o (o.insert i) := by
  apply DeadKept.of_inv (le_of_eq length_insert.symm)
  intro k c c' hc hdead hc'
  obtain ⟨d, hd, heq⟩ := insert_inv hc'
  obtain rfl := Option.some.inj (hc.symm.trans hd)
  rw [heq]
  refine ⟨hdead, rfl, le_refl _, fun userid hk => ⟨userid, ?_⟩⟩
  rw [held_client_insert] at hk
  exact hk

theorem DeadKept.disconnect : DeadKept o (o.disconnect i) := by
  apply DeadKept.of_inv (le_of_eq length_disconnect.symm)
  intro k c c' hc hdead hc'
  obtain ⟨d, hd, heq⟩ := disconnect_inv hc'
  obtain rfl := Option.some.inj (hc.symm.trans hd)
  have hslots : ∀ userid, (o.disconnect i).held (.client userid) = some k →
    ∃ userid', o.held (.client userid') = some k :=
    fun userid hk => ⟨userid, held_of_disconnect hk⟩
  rcases heq with ⟨heq, -⟩ | ⟨-, heq⟩
  · rw [heq]
    exact ⟨hdead, rfl, le_refl _, hslots⟩
  · rw [heq]
    exact ⟨rfl, rfl, le_refl _, hslots⟩

theorem DeadKept.login (hs : Sound o) (hlive : ForLive o (.login i)) : DeadKept o (o.login i) := by
  apply DeadKept.of_inv (le_of_eq length_login.symm)
  intro k c c' hc hdead hc'
  have hki : k ≠ i := by
    rintro rfl
    exact absurd (hlive.1 c hc) (by simp [hdead])
  obtain ⟨d, hd, hfields, -⟩ := login_inv hc'
  obtain rfl := Option.some.inj (hc.symm.trans hd)
  obtain ⟨-, heq⟩ := hfields.resolve_right fun h => hki h.1
  rw [heq]
  refine ⟨hdead, rfl, le_refl _, fun userid hk => ?_⟩
  rcases held_of_login hs.owned hk with hk | htakes
  · exact ⟨userid, hk⟩
  · exact absurd (hlive.2 k userid htakes c hc) (by simp [hdead])

/-- **An operation for live clients** leaves the dead ones. -/
theorem DeadKept.apply (hs : Sound o) (op : CustodyOp) (hlive : ForLive o op) : DeadKept o (o.apply op) := by
  cases op with
  | construct socket => exact .construct
  | insert i => exact .insert
  | reset i => exact .modify fun _ _ hdead => ⟨hdead, rfl, le_refl _⟩
  | expire i => exact .modify fun _ _ hdead => ⟨hdead, rfl, Nat.sub_le _ _⟩
  | arm i => exact .modify fun c hc hdead => absurd (hlive c hc) (by simp [hdead])
  | handshake i n => exact .modify fun c hc hdead => absurd (hlive c hc) (by simp [hdead])
  | rename i userid => exact .modify fun _ _ hdead => ⟨hdead, rfl, le_refl _⟩
  | login i => exact .login hs hlive
  | failLogin i => exact .modify fun _ _ hdead => ⟨hdead, rfl, le_refl _⟩
  | disconnect i => exact .disconnect

theorem AliveAt.modify {j : ConnId} (h : o.AliveAt j) (hf : ∀ c, (f c).alive = c.alive) : (o.modify i f).AliveAt j := by
  intro c hc
  obtain ⟨d, hd, ⟨rfl, rfl⟩ | ⟨-, rfl⟩⟩ := modify_inv hc
  · exact (hf d).trans (h d hd)
  · exact h c hd

end Operations

end Custody

section Events

variable {E : Env} {w : World} {e : Event} {g g' : Gateway} {ops : List CustodyOp}

theorem aliveAt_of_object {i : ConnId} (h : ∀ c, g.objects[i]? = some c → c.alive = true) : g.custody.AliveAt i := by
  intro c hc
  obtain ⟨d, hd, rfl⟩ := objects_of_custody hc
  exact h d hd

theorem forLive_of_asks (hlive : LiveLogin E g (w, e)) (hasks : Asks E w g e ops) :
    Custody.Along Custody.ForLive g.custody ops := by
  have halive {i : ConnId} {c : Client} (hc : g.objects[i]? = some c) (h : c.alive = true) : g.custody.AliveAt i :=
    aliveAt_of_object fun d hd => Option.some.inj (hc.symm.trans hd) ▸ h
  cases hasks with
  | @logsIn i userid name hjoins hfits =>
    refine ⟨trivial, ⟨?_, fun j joined htakes => ?_⟩, trivial⟩
    · exact (aliveAt_of_object fun c hc => hlive.1 i userid name c hjoins hfits hc).modify fun _ => rfl
    · exact (aliveAt_of_object fun c hc => hlive.2 j joined c ⟨i, userid, name, hjoins, hfits, htakes⟩ hc).modify fun
        _ => rfl
  | unframed hjoins hfits hops =>
    rcases hops with rfl | ⟨rfl, -⟩
    · exact ⟨trivial, trivial, trivial⟩
    · exact ⟨trivial, trivial, trivial, trivial⟩
  | fails hfails hops =>
    rcases hops with rfl | rfl
    · exact ⟨trivial, trivial⟩
    · exact ⟨trivial, trivial, trivial⟩
  | other hjoins hfails hminor =>
    cases hminor with
    | nothing => trivial
    | rearm hc h => exact ⟨trivial, (halive hc h).modify fun _ => rfl, trivial⟩
    | handshake hc h hstate => exact ⟨halive hc h, trivial⟩
    | _ => exact ⟨trivial, trivial⟩

theorem deadKept_step (hs : g.custody.Sound) (hlive : LiveLogin E g (w, e)) (hstep : step E g (w, e) = some g') :
    g.custody.DeadKept g'.custody := by
  obtain ⟨ops, hasks, hallows, hrun⟩ := step_custody hs hstep
  rw [hrun]
  have hboth := Custody.Along.and hallows (forLive_of_asks hlive hasks)
  refine (Custody.Along.run (P := fun o => o.Sound ∧ g.custody.DeadKept o) (fun o op ho hop => ?_)
    ⟨hs, .refl _⟩ hboth).2
  exact ⟨ho.1.apply op hop.1, ho.2.trans (.apply ho.1 op hop.2)⟩

theorem deadStays_iff : DeadStays E g (w, e) ↔ ∀ g', step E g (w, e) = some g' → g.custody.DeadKept g'.custody := by
  constructor
  · intro h g' hstep k c hc hdead
    obtain ⟨d, hd, rfl⟩ := objects_of_custody hc
    obtain ⟨d', hd', hdead', hstate, hwaits, hslots⟩ := h g' hstep k d hd hdead
    refine ⟨d'.holder, holder_of_object hd', hdead', hstate, hwaits, fun userid hk => ?_⟩
    obtain ⟨userid', hk'⟩ := hslots userid (held_client_iff.mp hk)
    exact ⟨userid', held_client_iff.mpr hk'⟩
  · intro h g' hstep k d hd hdead
    obtain ⟨c', hc', hdead', hstate, hwaits, hslots⟩ := h g' hstep k d.holder (holder_of_object hd) hdead
    obtain ⟨d', hd', rfl⟩ := objects_of_custody hc'
    refine ⟨d', hd', hdead', hstate, hwaits, fun userid hk => ?_⟩
    obtain ⟨userid', hk'⟩ := hslots userid (held_client_iff.mpr hk)
    exact ⟨userid', held_client_iff.mp hk'⟩

/-- The login of a dead client arms its timer. -/
theorem not_deadKept_of_dead_login {o : Custody} {i : ConnId} {joined : Bytes} {c : Holder}
    (hc : o.holders[i]? = some c) (hdead : c.alive = false) :
      ¬ o.DeadKept ((o.apply (.rename i joined)).apply (.login i)) := by
  intro h
  obtain ⟨c', hc', -, -, hwaits, -⟩ := h i c hc hdead
  obtain ⟨d, hd, hfields, -⟩ := Custody.login_inv hc'
  obtain rfl := Option.some.inj ((Custody.modify_self hc).symm.trans hd)
  obtain ⟨-, heq⟩ := hfields.resolve_left fun h => h.1 rfl
  rw [heq] at hwaits
  exact Nat.not_succ_le_self _ hwaits

/-- The hand-over of a dead client puts it under a key. -/
theorem not_deadKept_of_dead_taken {o : Custody} {i j : ConnId} {joined userid : Bytes} {d : Holder} (hs : o.Sound)
    (htakes : (o.apply (.rename i joined)).Takes i j userid) (hd : o.holders[j]? = some d) (hdead : d.alive = false) :
    ¬ o.DeadKept ((o.apply (.rename i joined)).apply (.login i)) := by
  intro h
  obtain ⟨-, -, -, -, -, hslots⟩ := h j d hd hdead
  obtain ⟨c, d', -, -, hj, hheld⟩ := Custody.held_login htakes
  have hnow : ((o.apply (.rename i joined)).login i).held (.client userid) = some j := by
    rw [hheld, Function.update_self]
  obtain ⟨userid', hbefore⟩ := hslots userid hnow
  cases hs.owned.exclusive _ _ j hbefore hj

theorem liveLogin_of_deadStays (hs : g.custody.Sound) (h : DeadStays E g (w, e)) (hstep : step E g (w, e) = some g') :
    LiveLogin E g (w, e) := by
  have hkept := deadStays_iff.mp h g' hstep
  obtain ⟨ops, hasks, hallows, hrun⟩ := step_custody hs hstep
  rw [hrun] at hkept
  have logs {i : ConnId} {joined name : Bytes} (hjoins : Joins E w g i joined name e) (hfits : LoginFits joined name) :
      g.custody.DeadKept ((g.custody.apply (.rename i joined)).apply (.login i)) := by
    cases hasks with
    | logsIn hjoins' hfits' =>
      obtain ⟨rfl, rfl, rfl⟩ := hjoins.unique hjoins'
      exact hkept
    | unframed hjoins' hfits' hops =>
      obtain ⟨rfl, rfl, rfl⟩ := hjoins.unique hjoins'
      exact absurd hfits hfits'
    | fails hfails hops => exact absurd hfails hjoins.not_fails
    | other hno hfails hminor => exact absurd hjoins (hno _ _ _)
  refine ⟨fun i userid name c hjoins hfits hc => ?_, fun j userid c ⟨i, joined, name, hjoins, hfits, htakes⟩ hc => ?_⟩
  · by_contra hdead
    rw [Bool.not_eq_true] at hdead
    exact not_deadKept_of_dead_login (holder_of_object hc) hdead (logs hjoins hfits)
  · by_contra hdead
    rw [Bool.not_eq_true] at hdead
    exact not_deadKept_of_dead_taken hs htakes (holder_of_object hc) hdead (logs hjoins hfits)

end Events

/-- **After disconnect.** In every step of a run the dead clients stay as they are exactly when in every step the
client that joins is alive, and so is the one that its login hands over. -/
theorem deadStays_iff_liveLogin (E : Env) (run : List (World × Event)) :
    AllSteps (step E) (DeadStays E) Gateway.init run ↔ AllSteps (step E) (LiveLogin E) Gateway.init run := by
  constructor
  · refine allSteps_of_inv (I := fun g => g.custody.Sound) ?_ ?_ Custody.sound_init
    · exact fun g e g' hs _ hstep => sound_step hs hstep
    · exact fun g e g' hs h hstep => liveLogin_of_deadStays hs h hstep
  · refine allSteps_of_inv (I := fun g => g.custody.Sound) ?_ ?_ Custody.sound_init
    · exact fun g e g' hs _ hstep => sound_step hs hstep
    · exact fun g e g' hs hlive hstep => deadStays_iff.mpr fun g'' hstep' => deadKept_step hs hlive hstep'

/-! ## A run -/

/-- The peer resets a connection whose request waits for the rest of the reply, and the read ends with an error. -/
def resetDuringReply : List (World × Event) :=
  plainRun (loginStarts ++ [secretArrives 5] ++ (requestCompletes 0).dropLast ++
    [.peerReset 0, .onLengthReceive 0 true []])

/-- The rest of the reply arms the timer of the dead client. -/
theorem reply_logs_in_the_dead :
    ¬ ∀ (E : Env) (run : List (World × Event)), AllSteps (step E) (DeadStays E) Gateway.init run := by
  intro h
  have hdead : (clientAfter .player resetDuringReply 0).map (fun c => (c.alive, c.waitsPending)) = some (false, 0) := by
    decide +kernel
  have harmed : (clientAfter .player
    (resetDuringReply ++ plainRun [.onHasJoinedPostComplete 0 0 .none playerInfo]) 0).map
      (fun c => c.waitsPending) = some 1 := by
    decide +kernel
  obtain ⟨c, hc, hfields⟩ := Option.map_eq_some_iff.mp hdead
  obtain ⟨hdead, hwaits⟩ := Prod.mk.inj hfields
  obtain ⟨g, hg, hc⟩ := Option.bind_eq_some_iff.mp hc
  obtain ⟨c', hc', hwaits'⟩ := Option.map_eq_some_iff.mp harmed
  obtain ⟨g', hg', hc'⟩ := Option.bind_eq_some_iff.mp hc'
  rw [runFrom_append, hg] at hg'
  obtain ⟨g'', hstep, hg''⟩ := runFrom_cons_some hg'
  obtain rfl := Option.some.inj hg''
  obtain ⟨c'', hc'', -, -, hle, -⟩ := (h .player _).last hg hstep g'' hstep 0 c hc hdead
  obtain rfl := Option.some.inj (hc'.symm.trans hc'')
  rw [hwaits, hwaits'] at hle
  exact absurd hle (by decide)

end CeriosCluster.ClientGateway
