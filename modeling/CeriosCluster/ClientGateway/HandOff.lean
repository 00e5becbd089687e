import CeriosCluster.ClientGateway.LostClients

/-!
# The hand-off

The client is constructed, and reads, before the accept handler puts it into `pendingClients`, and the hand-off
looks it up there under its native handle. Every client that is there lies in some slot, so a client that has
completed `onPlayerLogin` is in `clients` unless `Login` still owns it; it does not if every login that
completes has found its own client.
-/

namespace CeriosCluster.ClientGateway

open CeriosCluster.Lib CeriosCluster.MCPacket

def Client.LoggedIn (c : Client) : Prop := c.state = .PLAY ∧ .onPlayerLogin ∈ c.log

/-- A client that is logged in, and no longer in the accept handler's hands, is in `clients` and not in
`pendingClients`. -/
def HandOffComplete (g : Gateway) : Prop :=
  ∀ (i : ConnId) (c : Client), g.objects[i]? = some c → c.freed = false → c.LoggedIn → g.accepting ≠ some i →
    (∃ userid, g.clients.lookup userid = some (some i)) ∧ ∀ handle, g.pendingClients.lookup handle ≠ some (some i)

/-- A client of `Login` whose login completes is under its native handle. -/
def FindsItself (E : Env) (g : Gateway) (e : World × Event) : Prop :=
  ∀ i userid name c, Joins E e.1 g i userid name e.2 → LoginFits userid name → g.objects[i]? = some c →
    c.owner = .login →
    g.pendingClients.lookup c.socket.native_handle = some (some i)

namespace Custody

/-! ## Every client lies in a slot -/

/-- Every client that is there lies in a slot, but for one. -/
def Lies (p : Option ConnId) (o : Custody) : Prop :=
  ∀ (k : ConnId) (c : Holder), o.holders[k]? = some c → c.freed = false → p ≠ some k → ∃ s, o.held s = some k

section Lies

variable {o : Custody} {i j : ConnId} {p : Option ConnId} {s : Slot} {f : Holder → Holder} {c : Holder}

theorem Lies.modify (h : Lies p o) (hf : ∀ c, (f c).freed = c.freed) : Lies p (o.modify i f) := by
  intro k c hc hfreed hpk
  obtain ⟨d, hd, ⟨rfl, rfl⟩ | ⟨-, rfl⟩⟩ := modify_inv hc
  · exact h _ d hd ((hf d).symm.trans hfreed) hpk
  · exact h k c hd hfreed hpk

theorem Lies.write_none (h : Lies none o) (hs : o.held s = p) : Lies p (o.write s none) := by
  intro k c hc hfreed hpk
  obtain ⟨t, ht⟩ := h k c hc hfreed (by simp)
  refine ⟨t, ?_⟩
  rw [held_write, Function.update_of_ne, ht]
  rintro rfl
  exact hpk (hs.symm.trans ht)

theorem Lies.replace_none (h : Lies p o) : Lies p (o.replace s none) := by
  intro k c hc hfreed hpk
  obtain ⟨hc, hne⟩ := free_inv hc hfreed
  obtain ⟨t, ht⟩ := h k c hc hfreed hpk
  refine ⟨t, ?_⟩
  rw [held_replace, Function.update_of_ne, ht]
  rintro rfl
  exact hne ht

theorem Lies.replace_some (h : Lies (some j) o) : Lies none (o.replace s (some j)) := by
  intro k c hc hfreed _
  obtain ⟨hc, hne⟩ := free_inv hc hfreed
  by_cases hjk : j = k
  · subst hjk
    refine ⟨s, ?_⟩
    rw [held_replace, Function.update_self]
  · obtain ⟨t, ht⟩ := h k c hc hfreed fun hj => hjk (Option.some.inj hj)
    refine ⟨t, ?_⟩
    rw [held_replace, Function.update_of_ne, ht]
    rintro rfl
    exact hne ht

theorem Lies.construct {socket : Socket} (h : Lies none o) (hfree : o.held .accepting = none) :
    Lies none (o.construct socket) := by
  intro k c hc hfreed _
  rcases construct_inv hc with hc | ⟨rfl, -⟩
  · obtain ⟨t, ht⟩ := h k c hc hfreed (by simp)
    refine ⟨t, ?_⟩
    rw [held_construct, Function.update_of_ne, ht]
    rintro rfl
    cases hfree.symm.trans ht
  · refine ⟨.accepting, ?_⟩
    rw [held_construct, Function.update_self]

theorem Lies.insert (h : Lies none o) (hi : o.held .accepting = some i) : Lies none (o.insert i) := by
  unfold Custody.insert
  split
  · exact h
  · exact (h.write_none hi).replace_some

theorem Lies.disconnect (h : Lies none o) : Lies none (o.disconnect i) := by
  have hshut : Lies none (o.modify i fun c => { c with alive := false, socket := c.socket.shut }) :=
    h.modify fun _ => rfl
  unfold Custody.disconnect
  split
  · exact h
  · split
    · dsimp only
      split
      · exact hshut
      · exact hshut.replace_none
    · exact h

theorem Lies.login (h : Lies none o) : Lies none (o.login i) := by
  have hplay : Lies none (o.modify i Holder.play) := h.modify fun _ => rfl
  cases hc : o.holders[i]? with
  | none =>
    unfold Custody.login
    rw [hc]
    exact h
  | some c =>
    cases howner : c.owner with
    | clientServer =>
      rw [login_clientServer hc howner]
      exact hplay
    | login =>
      rw [login_login hc howner]
      unfold handoff adopt
      split
      · exact hplay
      · next j hj =>
        split
        · exact hplay
        · exact Lies.replace_some (.modify (.replace_none (hplay.write_none hj)) fun _ => rfl)

theorem Lies.apply (h : Lies none o) (op : CustodyOp) (hop : op.Allowed o) : Lies none (o.apply op) := by
  cases op with
  | construct socket => exact h.construct hop.1
  | insert i => exact h.insert hop
  | login i => exact h.login
  | disconnect i => exact h.disconnect
  | _ => exact h.modify fun _ => rfl

end Lies

/-! ## `Login` owns no client that is logged in -/

/-- No client of `Login` is logged in. -/
def Awaits (o : Custody) : Prop :=
  ∀ (i : ConnId) (c : Holder), o.holders[i]? = some c → c.owner = .login → c.state = .PLAY → c.logins = 0

/-- A login finds its own client, and no other operation makes a client of `Login` look logged in. -/
def Settles (o : Custody) : CustodyOp → Prop
  | .handshake i _ => ∀ c, o.holders[i]? = some c → c.logins = 0
  | .login i => ∀ c, o.holders[i]? = some c → c.owner = .login → o.held (.pending c.socket.native_handle) = some i
  | .failLogin i => ∀ c, o.holders[i]? = some c → c.state = .PLAY → c.logins ≠ 0
  | _ => True

section Awaits

variable {o : Custody} {i : ConnId} {f : Holder → Holder}

theorem Awaits.modify (h : Awaits o)
    (hf : ∀ c, o.holders[i]? = some c → (c.owner = .login → c.state = .PLAY → c.logins = 0) →
    (f c).owner = .login → (f c).state = .PLAY → (f c).logins = 0) : Awaits (o.modify i f) := by
  intro k c hc howner hplay
  obtain ⟨d, hd, ⟨rfl, rfl⟩ | ⟨-, rfl⟩⟩ := modify_inv hc
  · exact hf d hd (h _ d hd) howner hplay
  · exact h k c hd howner hplay

theorem Awaits.login (hs : Sound o) (h : Awaits o) (hop : (CustodyOp.login i).Allowed o)
    (hfinds : Settles o (.login i)) :
    Awaits (o.login i) := by
  intro k c hc howner hplay
  obtain ⟨d, hd, hfields, hwho⟩ := login_inv hc
  have hdowner : d.owner = .login := by
    rcases hwho with hsame | ⟨hnew, -⟩
    · exact hsame.symm.trans howner
    · cases howner.symm.trans hnew
  rcases hfields with ⟨-, heq⟩ | ⟨rfl, -⟩
  · rw [heq] at hplay ⊢
    exact h k d hd hdowner hplay
  · have htakes : o.Takes k k d.userid := ⟨d, d, hd, hdowner, hfinds d hd hdowner, hd, rfl⟩
    obtain ⟨_, _, -, -, -, hslots⟩ := held_login htakes
    have hheld : (o.login k).held (.client d.userid) = some k := by rw [hslots, Function.update_self]
    obtain ⟨c', hc', -, hclientServer⟩ := (hs.apply (.login k) hop).owned.fits _ _ hheld
    obtain rfl := Option.some.inj (hc.symm.trans hc')
    cases howner.symm.trans hclientServer

theorem Awaits.apply (hs : Sound o) (h : Awaits o) (op : CustodyOp) (hop : op.Allowed o) (hsettles : Settles o op) :
    Awaits (o.apply op) := by
  cases op with
  | construct socket =>
    intro k c hc howner hplay
    rcases construct_inv hc with hc | ⟨-, rfl⟩
    · exact h k c hc howner hplay
    · rfl
  | insert i =>
    intro k c hc howner hplay
    obtain ⟨d, hd, heq⟩ := insert_inv hc
    rw [heq] at howner hplay ⊢
    exact h k d hd howner hplay
  | login i => exact h.login hs hop hsettles
  | disconnect i =>
    intro k c hc howner hplay
    obtain ⟨d, hd, ⟨heq, -⟩ | ⟨-, heq⟩⟩ := disconnect_inv hc
    all_goals
      rw [heq] at howner hplay ⊢
      exact h k d hd howner hplay
  | handshake i n => exact h.modify fun c hc _ _ _ => hsettles c hc
  | failLogin i => exact h.modify fun c hc hawaits howner hplay => absurd (hawaits howner hplay) (hsettles c hc hplay)
  | _ => exact h.modify fun _ _ hawaits => hawaits

end Awaits

end Custody

/-! ## What a client of `Login` can have begun -/

/-- A client in `HANDSHAKE` has not been logged in, and one that is in another state than `LOGIN` without having been
logged in has asked the session server for nothing. -/
structure Early (c : Client) : Prop where
  fresh : c.state = .HANDSHAKE → .onPlayerLogin ∉ c.log
  idle : c.state ≠ .LOGIN → .onPlayerLogin ∉ c.log → c.requests = []

section Automaton

variable {E : Env} {c c' : Client} {l : Label}

theorem Early.quiet (h : Quiet c c') (hc : Early c) : Early c' where
  fresh := by
    rw [h.state, h.onPlayerLogin_mem]
    exact hc.fresh
  idle := by
    rw [h.state, h.onPlayerLogin_mem, h.requests]
    exact hc.idle

theorem Early.of_login (hstate : c.state = .LOGIN) : Early c where
  fresh := fun h => by cases hstate.symm.trans h
  idle := fun h => absurd hstate h

/-- `onPlayerLogin` is on record, and the client is not in `HANDSHAKE`. -/
theorem Early.of_logged (hstate : c.state ≠ .HANDSHAKE) (hlog : .onPlayerLogin ∈ c.log) : Early c where
  fresh := fun h => absurd h hstate
  idle := fun _ h => absurd hlog h

theorem Early.did (hc : Early c) (h : Did E c c' l) : Early c' := by
  have logging {d : Client} (hstate : d.state = .LOGIN) (hq : Quiet d c') : Early c' := (Early.of_login hstate).quiet hq
  have playing {d : Client} (hq : Quiet d.login.play c') : Early c' := by
    have hlogged : .onPlayerLogin ∈ d.login.play.log := by simp [Client.login, Client.play, Client.logged]
    exact (Early.of_logged (c := d.login.play) (show ClientState.PLAY ≠ .HANDSHAKE by decide) hlogged).quiet hq
  have hidle (hstate : c.state = .HANDSHAKE) : c.requests = [] :=
    hc.idle (by rw [hstate]; decide) (hc.fresh hstate)
  cases l with
  | quiet => exact hc.quiet h
  | handshake n =>
    obtain ⟨hstate, hq⟩ := h
    exact Early.quiet hq ⟨fun _ => hc.fresh hstate, fun _ _ => hidle hstate⟩
  | loginStart name token => exact logging (d := { c with requestedUsername := name, verifyToken := token }) h.1 h.2
  | loopbackLogin name userid => exact playing h.2.2
  | loopbackLoginFailed name userid =>
    exact logging (d := { c with requestedUsername := name, userid := userid }.login) h.1 h.2.2
  | accepted token sharedSecret =>
    obtain ⟨hstate, -, key, -, hq⟩ := h
    exact logging (d := c.accept token key) hstate hq
  | requested token sharedSecret text =>
    obtain ⟨hstate, -, key, -, hq⟩ := h
    exact logging (d := (c.accept token key).request sharedSecret text) hstate hq
  | staged k stage =>
    obtain ⟨-, hq⟩ := h
    refine Early.quiet hq ⟨hc.fresh, fun hstate hlog => ?_⟩
    simp [Client.stage, hc.idle hstate hlog]
  | authenticated k id name =>
    obtain ⟨r, -, -, hq⟩ := h
    exact playing hq
  | authenticatedFailed k id name =>
    obtain ⟨r, hr, -, -, hq⟩ := h
    have hstate : c.state ≠ .HANDSHAKE := by
      intro hstate
      rw [hidle hstate] at hr
      cases hr
    generalize hd : ((c.stage k .finished).join r.sharedSecret id name).login = d at hq
    have hlogged : .onPlayerLogin ∈ d.log := by simp [← hd, Client.login, Client.logged]
    exact (Early.of_logged (by rw [← hd]; exact hstate) hlogged).quiet hq

theorem early_new (handle : Word) (loopback : Bool) (verifyToken : Block 4) :
    Early (Client.new .login ⟨handle, loopback, .connected⟩ verifyToken) where
  fresh := fun _ => by simp [Client.new]
  idle := fun _ _ => rfl

end Automaton

/-! ## Events -/

section Events

variable {E : Env} {w : World} {e : Event} {g g' : Gateway} {ops : List CustodyOp}

theorem early_step (h : AllClients Early g) (hstep : step E g (w, e) = some g') : AllClients Early g' := by
  refine h.of_step early_new (fun j c c' l _ hc hconn _ => ?_) hstep
  obtain ⟨c₀, hq, hdid⟩ := hconn
  exact (hc.quiet hq).did hdid

/-- A client that joins in `PLAY` has been logged in before. -/
theorem logins_of_joins {i : ConnId} {joined name : Bytes} {c : Client} (hearly : AllClients Early g)
    (hjoins : Joins E w g i joined name e) (hc : g.objects[i]? = some c) (hplay : c.state = .PLAY) :
      c.holder.logins ≠ 0 := by
  cases hjoins with
  | loopback hc' halive hp hstart hid =>
    obtain rfl := Option.some.inj (hc.symm.trans hc')
    cases hplay.symm.trans hstart.2.1
  | reply hr hstage hcomplete hreply hid =>
    intro hzero
    obtain ⟨c', hc', hr⟩ := stageOf_eq_some hr
    obtain rfl := Option.some.inj (hc.symm.trans hc')
    rw [(hearly i c hc).idle (by rw [hplay]; decide) (List.count_eq_zero.mp hzero)] at hr
    cases hr

theorem settles_of_asks (hearly : AllClients Early g) (hfinds : FindsItself E g (w, e)) (hasks : Asks E w g e ops) :
    Custody.Along Custody.Settles g.custody ops := by
  cases hasks with
  | @logsIn i joined name hjoins hfits =>
    refine ⟨trivial, fun c hc howner => ?_, trivial⟩
    obtain ⟨d, hd, ⟨-, rfl⟩ | ⟨hne, -⟩⟩ := Custody.modify_inv hc
    · obtain ⟨d, hd', rfl⟩ := objects_of_custody hd
      exact held_pending_iff.mpr (hfinds i joined name d hjoins hfits hd' howner)
    · exact absurd rfl hne
  | @unframed i joined name ops hjoins hfits hops =>
    have hfails : Custody.Settles (g.custody.apply (.rename i joined)) (.failLogin i) := by
      intro c hc hplay
      obtain ⟨d, hd, ⟨-, rfl⟩ | ⟨hne, -⟩⟩ := Custody.modify_inv hc
      · obtain ⟨d, hd', rfl⟩ := objects_of_custody hd
        exact logins_of_joins hearly hjoins hd' hplay
      · exact absurd rfl hne
    rcases hops with rfl | ⟨rfl, -⟩
    · exact ⟨trivial, hfails, trivial⟩
    · exact ⟨trivial, hfails, trivial, trivial⟩
  | fails hfails hops =>
    rcases hops with rfl | rfl
    · exact ⟨trivial, trivial⟩
    · exact ⟨trivial, trivial, trivial⟩
  | other hjoins hfails hminor =>
    cases hminor with
    | nothing => trivial
    | rearm hc halive => exact ⟨trivial, trivial, trivial⟩
    | @handshake i data c n hc halive hstate =>
      refine ⟨fun d hd => ?_, trivial⟩
      obtain rfl := Option.some.inj ((holder_of_object hc).symm.trans hd)
      exact List.count_eq_zero.mpr ((hearly i c hc).fresh hstate)
    | _ => exact ⟨trivial, trivial⟩

/-- What holds along a run whose logins find their own clients. -/
structure HandOffInv (g : Gateway) : Prop where
  sound : g.custody.Sound
  early : AllClients Early g
  lies : g.custody.Lies none
  awaits : g.custody.Awaits

theorem HandOffInv.step (h : HandOffInv g) (hfinds : FindsItself E g (w, e)) (hstep : step E g (w, e) = some g') :
    HandOffInv g' := by
  obtain ⟨ops, hasks, hallows, hrun⟩ := step_custody h.sound hstep
  have hboth := Custody.Along.and hallows (settles_of_asks h.early hfinds hasks)
  have hmoved := Custody.Along.run (P := fun o => o.Sound ∧ o.Lies none ∧ o.Awaits) (fun o op ho hop =>
    ⟨ho.1.apply op hop.1, ho.2.1.apply op hop.1, ho.2.2.apply ho.1 op hop.1 hop.2⟩) ⟨h.sound, h.lies, h.awaits⟩ hboth
  rw [← hrun] at hmoved
  exact ⟨hmoved.1, early_step h.early hstep, hmoved.2.1, hmoved.2.2⟩

theorem HandOffInv.complete (h : HandOffInv g) : HandOffComplete g := by
  intro i c hc hfreed hlogged _
  have hh := holder_of_object hc
  have howner : c.owner ≠ .login := by
    intro howner
    exact List.count_eq_zero.mp (h.awaits i c.holder hh howner hlogged.1) hlogged.2
  have howns {s : Slot} (hs : g.custody.held s = some i) : c.holder.Fits s := by
    obtain ⟨d, hd, -, hfits⟩ := h.sound.owned.fits s i hs
    obtain rfl := Option.some.inj (hh.symm.trans hd)
    exact hfits
  obtain ⟨s, hs⟩ := h.lies i c.holder hh hfreed (by simp)
  refine ⟨?_, fun handle hlookup => howner (howns (held_pending_iff.mpr hlookup)).1⟩
  cases s with
  | pending handle => exact absurd (howns hs).1 howner
  | client userid => exact ⟨userid, held_client_iff.mp hs⟩
  | accepting => exact absurd (howns hs) howner

theorem handOffInv_init : HandOffInv Gateway.init where
  sound := Custody.sound_init
  early := allClients_init
  lies := fun _ _ h => by cases h
  awaits := fun _ _ h => by cases h

end Events

/-- **The hand-off.** In a run in which every login that completes for a client of `Login` finds the client under its
native handle, the clients that are logged in are in `clients` and not in `pendingClients`. -/
theorem handOffComplete_of_findsItself (E : Env) (run : List (World × Event))
    (h : AllSteps (step E) (FindsItself E) Gateway.init run) : AllStates (step E) HandOffComplete Gateway.init run := by
  have hinv := allStates_of_inv (I := HandOffInv) (fun g e g' hI hfinds hstep => hI.step hfinds hstep) handOffInv_init h
  exact hinv.mono fun g hI => hI.complete

/-! ## Runs -/

def AllInserted (g : Gateway) : Prop :=
  ∀ i < g.objects.length, ∀ c ∈ g.objects[i]?, c.owner = .login → g.pendingClients.lookup c.socket.native_handle =
    some (some i)

instance (g : Gateway) : Decidable (AllInserted g) := inferInstanceAs (Decidable (∀ i < _, _))

/-- Nothing but the accept handler runs while a client of `Login` is not under its native handle. -/
def InsertedFirst (g : Gateway) : World × Event → Prop
  | (_, .acceptInsert) => True
  | _ => AllInserted g

instance (g : Gateway) : ∀ e, Decidable (InsertedFirst g e)
  | (_, .acceptInsert) => isTrue trivial
  | (_, .acceptConstruct _ _ _) | (_, .onLengthReceive _ _ _) | (_, .onWriteComplete _ _) | (_, .keepAlive _ _ _)
  | (_, .connectedToMojang _ _ _) | (_, .sslHandshakeComplete _ _ _) | (_, .sendHTTPRequestDone _ _ _)
  | (_, .readHTTPHeader _ _ _ _) | (_, .onHasJoinedPostComplete _ _ _ _) | (_, .onDataReceived _) | (_, .peerReset _) =>
    inferInstanceAs (Decidable (AllInserted g))

theorem InsertedFirst.findsItself {E : Env} {g : Gateway} {e : World × Event} (h : InsertedFirst g e) :
    FindsItself E g e := by
  obtain ⟨w, e⟩ := e
  intro i joined name c hjoins hfits hc howner
  have hall : AllInserted g := by
    cases hjoins with
    | loopback hc halive hp hstart hid => exact h
    | reply hr hstage hcomplete hreply hid => exact h
  exact hall i (List.getElem?_eq_some_iff.mp hc).1 c hc howner

/-- A player connects from the loopback address and logs in after the accept handler has finished. -/
def loginAfterInsert : List (World × Event) :=
  plainRun [.acceptConstruct 7 true zeroToken, .acceptInsert, .onLengthReceive 0 false [6, 0, 47, 0, 0, 0, 2],
    .onLengthReceive 0 false (8 :: 0 :: 6 :: ascii "Player")]

/-- The same player logs in before the accept handler's second half. -/
def loginBeforeInsert : List (World × Event) :=
  plainRun [.acceptConstruct 7 true zeroToken, .onLengthReceive 0 false [6, 0, 47, 0, 0, 0, 2],
    .onLengthReceive 0 false (8 :: 0 :: 6 :: ascii "Player"), .acceptInsert]

theorem insertedFirst_loginAfterInsert : AllSteps (step .player) InsertedFirst Gateway.init loginAfterInsert := by
  decide +kernel

/-- Inserted first, the client is handed off. -/
theorem handOffComplete_loginAfterInsert : AllStates (step .player) HandOffComplete Gateway.init loginAfterInsert :=
  handOffComplete_of_findsItself .player loginAfterInsert
    (insertedFirst_loginAfterInsert.mono fun _ _ => InsertedFirst.findsItself)

/-- The client that logs in first is put into `pendingClients` and stays there. -/
theorem early_login_stays_pending :
    ¬ ∀ (E : Env) (run : List (World × Event)), AllStates (step E) HandOffComplete Gateway.init run := by
  intro h
  have hpending : (runFrom (step .player) Gateway.init loginBeforeInsert).map (fun g =>
      (g.objects[0]?.map fun c => (c.freed, c.state, c.log.contains .onPlayerLogin), g.accepting,
        g.pendingClients.lookup 7)) =
        some (some (false, .PLAY, true), none, some (some 0)) := by
    decide +kernel
  obtain ⟨g, hg, hstate⟩ := Option.map_eq_some_iff.mp hpending
  obtain ⟨hclient, haccepting, hlookup⟩ : _ ∧ _ ∧ _ := by simpa only [Prod.mk.injEq] using hstate
  obtain ⟨c, hc, hfields⟩ := Option.map_eq_some_iff.mp hclient
  obtain ⟨hfreed, hplay, hlog⟩ : _ ∧ _ ∧ _ := by simpa only [Prod.mk.injEq] using hfields
  have hlogged : c.LoggedIn := ⟨hplay, List.contains_iff_mem.mp hlog⟩
  exact ((h .player loginBeforeInsert).last hg 0 c hc hfreed hlogged (by simp [haccepting])).2 7 hlookup

end CeriosCluster.ClientGateway
