import CeriosCluster.ClientGateway.CustodyEffects
import CeriosCluster.ClientGateway.ReadLoop

/-!
# The end of a ping

After the pong, `receivedMessage` cancels what the socket has pending, so that the connection ends. While the
handler runs no read is pending, and `onLengthReceive` starts the next one after the cancel: if the writes have
completed before, nothing is aborted, and the client goes on reading.
-/

namespace CeriosCluster.ClientGateway

open CeriosCluster.Lib CeriosCluster.MCPacket

def Client.handled (c : Client) : Nat :=
  c.log.countP fun
    | .receivedMessage _ => true
    | _ => false

/-- Whatever comes, no packet of the client is handled any more, and once its writes have completed it is
disconnected. -/
def EndsHere (E : Env) (g : Gateway) (i : ConnId) : Prop :=
  ∀ run g' c c', runFrom (step E) g run = some g' → g.objects[i]? = some c → g'.objects[i]? = some c' →
    c'.handled = c.handled ∧ (c'.writesPending = 0 → c'.alive = false)

section Events

variable {E : Env} {w : World} {i : ConnId} {g g' : Gateway} {c : Client} {data : Bytes} {p : Packet} {f : PingPacket}

/-- Outside `LOGIN` and `HANDSHAKE` a packet that is no `LoginStartPacket` leaves the custody as it was. -/
theorem custody_of_ping (hs : g.custody.Sound) (hc : g.objects[i]? = some c) (hstate : c.state = .STATUS)
    (hp : nextPacket E w c data = some p) (hf : p.fields = .ping f)
    (hstep : step E g (w, .onLengthReceive i false data) = some g') :
    g'.custody = g.custody := by
  have hnojoin : ∀ j joined name, ¬ Joins E w g j joined name (.onLengthReceive i false data) := by
    refine not_joins_of_read hc fun p' name _ hp' hstart => ?_
    obtain rfl := Option.some.inj (hp.symm.trans hp')
    cases hf.symm.trans hstart.1
  obtain ⟨ops, hasks, -, hrun⟩ := step_custody hs hstep
  rw [hrun]
  cases hasks with
  | logsIn hjoins hfits => exact absurd hjoins (hnojoin _ _ _)
  | unframed hjoins hfits hops => exact absurd hjoins (hnojoin _ _ _)
  | fails hfails hops => exact absurd hfails (not_fails_of_read _)
  | other hjoins hfails hminor =>
    cases hminor with
    | nothing => rfl
    | handshake hc' halive' hstate' =>
      obtain rfl := Option.some.inj (hc.symm.trans hc')
      exact absurd (hstate.symm.trans hstate') (by decide)
    | drop hc' halive' hstate' =>
      obtain rfl := Option.some.inj (hc.symm.trans hc')
      exact absurd (hstate.symm.trans hstate') (by decide)

/-- A read that completes a packet has not thrown before. -/
theorem not_readThrows_of_packet (hp : nextPacket E w c data = some p) : ¬ ReadThrows E w c data := by
  intro ⟨_, hthrows⟩
  unfold nextPacket at hp
  cases hbuffer : receivedBuffer E c data with
  | none =>
    rw [hbuffer] at hp
    cases hp
  | some buffer =>
    rw [hbuffer] at hp
    obtain ⟨e, b, hthrew⟩ := parseReceived_threw_iff.mpr (hthrows buffer hbuffer)
    dsimp only at hp
    rw [hthrew] at hp
    cases hp

/-- **After the ping** the client is alive and reads on. -/
theorem reads_after_ping (hs : g.custody.Sound) (hc : g.objects[i]? = some c) (halive : c.alive = true)
    (hstate : c.state = .STATUS)
    (hp : nextPacket E w c data = some p) (hf : p.fields = .ping f)
    (hstep : step E g (w, .onLengthReceive i false data) = some g') :
    ∃ c', Live g' i c' ∧ c'.alive = true ∧ c'.readPending = true := by
  have hcustody := custody_of_ping hs hc hstate hp hf hstep
  obtain ⟨m, hm, hwp⟩ := step_runs hstep
  simp only [handler, Option.bind_eq_bind, Option.bind_eq_some_iff, Option.ite_none_right_eq_some,
    Option.some.injEq] at hm
  obtain ⟨d, hd, -, rfl⟩ := hm
  obtain rfl := Option.some.inj (hc.symm.trans hd)
  have hreads : ReadsOn i g' ∧ c.freed = false := by
    refine hwp (fun g' => ReadsOn i g' ∧ c.freed = false) (wp_modify_first ⟨_, _, rfl⟩ hc fun hl => ?_)
    rw [Exec.wp_bind, wp_modifyClient]
    intro c₁ hl₁
    obtain rfl := Option.some.inj (hc.symm.trans hl₁.1)
    have hread := readsOn_onLengthReceive (E := E) (w := w) false data
      (hl₁.modify (f := fun c => { c with readPending := false }) rfl) fun _ _ _ => not_readThrows_of_packet hp
    exact Exec.wp_mono hread (fun _ _ h => ⟨h, hl.2⟩) fun _ _ h => ⟨h, hl.2⟩
  obtain ⟨⟨c', hc', hon⟩, hfreed⟩ := hreads
  obtain ⟨d', hd', hholder⟩ := objects_of_custody (hcustody ▸ holder_of_object hc)
  obtain rfl := Option.some.inj (hc'.symm.trans hd')
  have halive' : c'.alive = true := (congrArg Holder.alive hholder).trans halive
  refine ⟨c', ⟨hc', (congrArg Holder.freed hholder).trans hfreed⟩, halive', hon.resolve_left ?_⟩
  rw [halive']
  exact Bool.noConfusion

theorem step_writeCompletes (hl : Live g i c) (hpending : 0 < c.writesPending) :
    step E g (w, .onWriteComplete i false) =
      some (g.modify i fun c => { c with writesPending := c.writesPending - 1 }) := by
  have hrun : (modifyClient i (fun c => { c with writesPending := c.writesPending - 1 }) >>=
    fun _ => onWriteComplete w i false) g =
      .ok () (g.modify i fun c => { c with writesPending := c.writesPending - 1 }) := by
    rw [Exec.run_bind_ok (run_modifyClient hl)]
    rfl
  unfold step handler
  simp [hl.1, hpending, hrun]

/-- When all writes have succeeded, nothing has happened to the client but that. -/
theorem writes_complete (w : World) (hl : Live g i c) :
    ∃ run g', runFrom (step E) g run = some g' ∧ g'.objects[i]? = some { c with writesPending := 0 } := by
  generalize hn : c.writesPending = n
  induction n generalizing g c with
  | zero =>
    refine ⟨[], g, rfl, ?_⟩
    rw [← hn]
    exact hl.1
  | succ n ih =>
    have hl' := hl.modify (f := fun c => { c with writesPending := c.writesPending - 1 }) rfl
    obtain ⟨run, g', hrun, hg'⟩ := ih hl' (by simp [hn])
    refine ⟨(w, .onWriteComplete i false) :: run, g', ?_, hg'⟩
    rw [runFrom_cons (step_writeCompletes hl (by omega)), hrun]

end Events

/-- **No ping ends a connection.** After the ping of a client in `STATUS`, in any state that a run reaches, the writes
may complete and leave the client alive. -/
theorem ping_never_ends (E : Env) (run : List (World × Event)) (w : World) (g g' : Gateway) (i : ConnId) (c : Client)
    (data : Bytes) (p : Packet) (f : PingPacket) (hrun : runFrom (step E) Gateway.init run = some g)
    (hc : g.objects[i]? = some c) (halive : c.alive = true) (hstate : c.state = .STATUS)
    (hp : nextPacket E w c data = some p) (hf : p.fields = .ping f)
    (hstep : step E g (w, .onLengthReceive i false data) = some g') : ¬ EndsHere E g' i := by
  have hsound := (allStates_sound E run).last hrun
  obtain ⟨c', hl, halive', -⟩ := reads_after_ping hsound hc halive hstate hp hf hstep
  obtain ⟨more, g'', hmore, hc''⟩ := writes_complete (E := E) w hl
  intro hends
  have hdead := (hends more g'' c' _ hmore hl.1 hc'').2 rfl
  exact Bool.noConfusion (halive'.symm.trans hdead)

/-! ## A run -/

def statusStarts : List (World × Event) :=
  plainRun [.acceptConstruct 7 false zeroToken, .acceptInsert, .onLengthReceive 0 false [6, 0, 47, 0, 0, 0, 1]]

def pingFrame : Bytes := [9, 1, 0, 0, 0, 0, 0, 0, 0, 0]

def pinged : List (World × Event) := statusStarts ++ plainRun [.onLengthReceive 0 false pingFrame]

theorem ping_arrives :
    ∃ g c p, runFrom (step .player) Gateway.init statusStarts = some g ∧ g.objects[0]? = some c ∧ c.alive = true ∧
      c.state = .STATUS ∧ nextPacket .player .plain c pingFrame = some p ∧ p.fields = .ping ⟨0⟩ := by
  have hbefore : (clientAfter .player statusStarts 0).map (fun c =>
      (c.alive, c.state, (nextPacket .player .plain c pingFrame).map (·.fields))) =
        some (true, .STATUS, some (.ping ⟨0⟩)) := by
    decide +kernel
  obtain ⟨c, hclient, hfields⟩ := Option.map_eq_some_iff.mp hbefore
  obtain ⟨halive, hstate, hpacket⟩ : _ ∧ _ ∧ _ := by simpa only [Prod.mk.injEq] using hfields
  obtain ⟨p, hp, hf⟩ := Option.map_eq_some_iff.mp hpacket
  obtain ⟨g, hg, hc⟩ := Option.bind_eq_some_iff.mp hclient
  exact ⟨g, c, p, hg, hc, halive, hstate, hp, hf⟩

/-- The ping of `statusStarts` does not end the connection. -/
theorem ping_never_ends_pinged : ∃ g, runFrom (step .player) Gateway.init pinged = some g ∧ ¬ EndsHere .player g 0 := by
  have hafter : (runFrom (step .player) Gateway.init pinged).isSome := by decide +kernel
  obtain ⟨g, c, p, hg, hc, halive, hstate, hp, hf⟩ := ping_arrives
  obtain ⟨g', hg'⟩ := Option.isSome_iff_exists.mp hafter
  refine ⟨g', hg', ?_⟩
  unfold pinged at hg'
  rw [runFrom_append, hg] at hg'
  obtain ⟨g'', hstep, hg''⟩ := runFrom_cons_some hg'
  obtain rfl := Option.some.inj hg''
  exact ping_never_ends .player statusStarts .plain g _ 0 c pingFrame p ⟨0⟩ hg hc halive hstate hp hf hstep

/-- The pong is written at once, and a second ping is handled. -/
theorem second_ping_is_handled :
    ¬ ∀ (E : Env) (run : List (World × Event)) (w : World) (g g' : Gateway) (i : ConnId) (c : Client) (data : Bytes)
      (p : Packet) (f : PingPacket), runFrom (step E) Gateway.init run = some g → g.objects[i]? = some c →
        c.alive = true →
        c.state = .STATUS → nextPacket E w c data = some p → p.fields = .ping f →
          step E g (w, .onLengthReceive i false data) = some g' → EndsHere E g' i := by
  intro h
  have hfirst : (clientAfter .player pinged 0).map (·.handled) = some 2 := by decide +kernel
  have hsecond : (clientAfter .player
    (pinged ++ plainRun [.onWriteComplete 0 false, .onLengthReceive 0 false pingFrame]) 0).map
      (·.handled) = some 3 := by
    decide +kernel
  obtain ⟨g, c, p, hg, hc, halive, hstate, hp, hf⟩ := ping_arrives
  obtain ⟨c₁, hclient₁, hhandled₁⟩ := Option.map_eq_some_iff.mp hfirst
  obtain ⟨g₁, hg₁, hc₁⟩ := Option.bind_eq_some_iff.mp hclient₁
  obtain ⟨c₂, hclient₂, hhandled₂⟩ := Option.map_eq_some_iff.mp hsecond
  obtain ⟨g₂, hg₂, hc₂⟩ := Option.bind_eq_some_iff.mp hclient₂
  rw [runFrom_append, hg₁] at hg₂
  unfold pinged at hg₁
  rw [runFrom_append, hg] at hg₁
  obtain ⟨g₀, hstep, hg₀⟩ := runFrom_cons_some hg₁
  obtain rfl := Option.some.inj hg₀
  have hends := h .player statusStarts .plain g _ 0 c pingFrame p ⟨0⟩ hg hc halive hstate hp hf hstep
  have hsame := (hends _ g₂ c₁ c₂ hg₂ hc₁ hc₂).1
  rw [hhandled₁, hhandled₂] at hsame
  exact absurd hsame (by decide)

end CeriosCluster.ClientGateway
