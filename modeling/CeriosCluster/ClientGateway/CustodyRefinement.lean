import CeriosCluster.ClientGateway.CustodyPackets
import CeriosCluster.ClientGateway.Refinement

/-!
# The gateway refines the custody of its clients

Every event of the gateway is a short list of operations on the slots. Which ones is told by the event
and the state before it: a client joins and is logged in, an operation of a client fails and the client is
disconnected, or little happens.
-/

namespace CeriosCluster.ClientGateway

open CeriosCluster.Lib CeriosCluster.MCPacket

/-- The event makes a client the player of this id and name: a loopback client starts its login, or the session
server answers its request. -/
inductive Joins (E : Env) (w : World) (g : Gateway) (i : ConnId) (userid name : Bytes) : Event → Prop
  | loopback {data : Bytes} {c : Client} {p : Packet} (hc : g.objects[i]? = some c) (halive : c.alive = true)
      (hp : nextPacket E w c data = some p) (hstart : StartsLoopback c.holder p name) (hid : userid =
        loopbackId E name) :
      Joins E w g i userid name (.onLengthReceive i false data)
  | reply {k length : Nat} {r : Request} {data more id : Bytes} {error : ReadError} (hr : stageOf g i k = some r)
      (hstage : r.stage = .readingBody length data)
      (hcomplete : ¬ (error = .other ∨ error = .eof ∧ (data ++ more).length < length))
      (hreply : replyOf E (data ++ more) length = some (id, name)) (hid : userid = formatUUID id) :
      Joins E w g i userid name (.onHasJoinedPostComplete i k error more)

def Fails (i : ConnId) : Event → Prop
  | .onLengthReceive j error _ => j = i ∧ error = true
  | .onWriteComplete j error => j = i ∧ error = true
  | .keepAlive j error _ => j = i ∧ error = true
  | _ => False

/-- The operations that move no client into or out of the hands of `ClientServer`. -/
inductive Minor (g : Gateway) : Event → List CustodyOp → Prop
  | nothing {e : Event} : Minor g e []
  | construct {handle : Word} {loopback : Bool} {verifyToken : Block 4} :
      Minor g (.acceptConstruct handle loopback verifyToken) [.construct ⟨handle, loopback, .connected⟩]
  | insert {i : ConnId} (hi : g.accepting = some i) : Minor g .acceptInsert [.insert i]
  | reset {i : ConnId} : Minor g (.peerReset i) [.reset i]
  | expire {i : ConnId} {expired : Bool} : Minor g (.keepAlive i false expired) [.expire i]
  | rearm {i : ConnId} {expired : Bool} {c : Client} (hc : g.objects[i]? = some c) (halive : c.alive = true) :
      Minor g (.keepAlive i false expired) [.expire i, .arm i]
  | handshake {i : ConnId} {data : Bytes} {c : Client} {n : ClientState} (hc : g.objects[i]? = some c)
      (halive : c.alive = true) (hstate : c.state = .HANDSHAKE) :
        Minor g (.onLengthReceive i false data) [.handshake i n]
  | drop {i : ConnId} {data : Bytes} {c : Client} (hc : g.objects[i]? = some c) (halive : c.alive = true)
      (hstate : c.state = .LOGIN) : Minor g (.onLengthReceive i false data) [.disconnect i]

/-- The operations an event asks for. -/
inductive Asks (E : Env) (w : World) (g : Gateway) (e : Event) : List CustodyOp → Prop
  | logsIn {i : ConnId} {userid name : Bytes} (hjoins : Joins E w g i userid name e) (hfits : LoginFits userid name) :
      Asks E w g e [.rename i userid, .login i]
  | unframed {i : ConnId} {userid name : Bytes} {ops : List CustodyOp} (hjoins : Joins E w g i userid name e)
      (hfits : ¬ LoginFits userid name)
      (hops : ops = [] ∨ ops = [.disconnect i] ∧ ∃ c, g.objects[i]? = some c ∧ c.alive = true ∧ c.state = .LOGIN) :
      Asks E w g e ([.rename i userid, .failLogin i] ++ ops)
  | fails {i : ConnId} {ops : List CustodyOp} (hfails : Fails i e) (hops : ops = [] ∨ ops = [.expire i]) :
      Asks E w g e (ops ++ [.disconnect i])
  | other {ops : List CustodyOp} (hjoins : ∀ i userid name, ¬ Joins E w g i userid name e) (hfails : ∀ i, ¬ Fails i e)
      (hminor : Minor g e ops) : Asks E w g e ops

section Events

variable {E : Env} {w : World} {g g' g₁ : Gateway} {e : Event} {i j : ConnId} {c d : Client} {p : Packet}
  {ops : List CustodyOp}
  {userid name userid' name' data : Bytes}

theorem Joins.unique (h : Joins E w g i userid name e) (h' : Joins E w g j userid' name' e) :
    i = j ∧ userid = userid' ∧ name = name' := by
  cases h with
  | loopback hc halive hp hstart hid =>
    cases h' with
    | loopback hc' halive' hp' hstart' hid' =>
      obtain rfl := Option.some.inj (hc.symm.trans hc')
      obtain rfl := Option.some.inj (hp.symm.trans hp')
      obtain rfl : name = name' := by simpa using hstart.1.symm.trans hstart'.1
      exact ⟨rfl, hid.trans hid'.symm, rfl⟩
  | reply hr hstage hcomplete hreply hid =>
    cases h' with
    | reply hr' hstage' hcomplete' hreply' hid' =>
      obtain rfl := Option.some.inj (hr.symm.trans hr')
      obtain ⟨rfl, rfl⟩ := Stage.readingBody.inj (hstage.symm.trans hstage')
      obtain ⟨rfl, rfl⟩ := Prod.mk.inj (Option.some.inj (hreply.symm.trans hreply'))
      exact ⟨rfl, hid.trans hid'.symm, rfl⟩

theorem Fails.unique (h : Fails i e) (h' : Fails j e) : i = j := by
  cases e with
  | onLengthReceive _ _ _ => exact h.1.symm.trans h'.1
  | onWriteComplete _ _ => exact h.1.symm.trans h'.1
  | keepAlive _ _ _ => exact h.1.symm.trans h'.1
  | _ => exact h.elim

theorem Joins.not_fails (h : Joins E w g i userid name e) : ¬ Fails j e := by
  cases h with
  | loopback => exact fun hf => (nomatch hf.2)
  | reply => exact fun hf => hf

/-- What happens to the custody when the event's handler ends. -/
def Does (E : Env) (w : World) (g : Gateway) (e : Event) (g' : Gateway) : Prop :=
  ∃ ops, Asks E w g e ops ∧ g.custody.Allows ops ∧ g'.custody = g.custody.run ops

theorem objects_of_custody {h : Holder} (hc : g.custody.holders[i]? = some h) :
    ∃ c, g.objects[i]? = some c ∧ c.holder = h :=
  Option.map_eq_some_iff.mp ((List.getElem?_map ..).symm.trans hc)

/-- No packet that a read completes starts a loopback login. -/
theorem not_joins_of_read (hd : g.objects[i]? = some d)
    (hno : ∀ p name, d.alive = true → nextPacket E w d data = some p → ¬ StartsLoopback d.holder p name) :
    ∀ j userid name, ¬ Joins E w g j userid name (.onLengthReceive i false data) := by
  rintro j userid name (⟨hc, halive, hp, hstart, -⟩)
  obtain rfl := Option.some.inj (hd.symm.trans hc)
  exact hno _ _ halive hp hstart

theorem not_fails_of_read : ∀ j, ¬ Fails j (.onLengthReceive i false data) := fun _ h => (nomatch h.2)

theorem asks_of_handled (hd : g.objects[i]? = some d) (halive : d.alive = true) (hp : nextPacket E w d data = some p)
    (h : PacketAsks E i d.holder p false ops) : Asks E w g (.onLengthReceive i false data) ops := by
  have other (hno : ∀ name, ¬ StartsLoopback d.holder p name) (hminor : Minor g (.onLengthReceive i false data) ops) :
      Asks E w g (.onLengthReceive i false data) ops := by
    refine .other (not_joins_of_read hd fun p' name _ hp' => ?_) not_fails_of_read hminor
    obtain rfl := Option.some.inj (hp.symm.trans hp')
    exact hno name
  cases h with
  | handshake hp' hstate =>
    exact other (fun name hstart => by cases hp'.symm.trans hstart.1) (.handshake hd halive hstate)
  | login hstart hfits => exact .logsIn (.loopback hd halive hp hstart rfl) hfits
  | nothing hlogin => exact other hlogin .nothing

theorem asks_of_threw (hd : g.objects[i]? = some d) (halive : d.alive = true) (hp : nextPacket E w d data = some p)
    (h : PacketAsks E i d.holder p true ops) : Asks E w g (.onLengthReceive i false data) (ops ++ [.disconnect i]) := by
  cases h with
  | failLogin hstart hfits =>
    exact .unframed (.loopback hd halive hp hstart rfl) hfits (Or.inr ⟨rfl, d, hd, halive, hstart.2.1⟩)
  | throws hstate hlogin =>
    refine .other (not_joins_of_read hd fun p' name _ hp' => ?_) not_fails_of_read (.drop hd halive hstate)
    obtain rfl := Option.some.inj (hp.symm.trans hp')
    exact hlogin name

theorem allows_packet {o : Custody} {threw : Bool} {h : Holder} (hh : o.holders[i]? = some h) (hfreed : h.freed = false)
    (hasks : PacketAsks E i h p threw ops) : o.Allows ops := by
  cases hasks with
  | handshake hp hstate =>
    refine ⟨fun c hc => ?_, trivial⟩
    obtain rfl := Option.some.inj (hh.symm.trans hc)
    exact hstate
  | login hstart hfits =>
    refine ⟨trivial, fun c hc => ?_, trivial⟩
    rw [Custody.apply, Custody.modify_self hh] at hc
    exact Option.some.inj hc ▸ hfreed
  | failLogin hstart hfits => exact ⟨trivial, trivial, trivial⟩
  | throws hstate hlogin => trivial
  | nothing hlogin => trivial

theorem does_nothing_of_read (hd : g.objects[i]? = some d) (hno : d.alive = true → nextPacket E w d data = none)
    (h₁ : Unmoved g g₁) : Does E w g (.onLengthReceive i false data) g₁ := by
  refine ⟨[], .other (not_joins_of_read hd fun p name halive hp => ?_) not_fails_of_read .nothing, trivial, h₁⟩
  cases (hno halive).symm.trans hp

/-- A failed operation disconnects its client. -/
theorem wp_fails {ops : List CustodyOp} (hfails : Fails i e) (hops : ops = [] ∨ ops = [.expire i])
    (h₁ : g₁.custody = g.custody.run ops) :
    Exec.wp (disconnect w i) (fun _ => Does E w g e) (fun _ => Does E w g e) g₁ := by
  have hallows : g.custody.Allows ops := by rcases hops with rfl | rfl <;> exact (by trivial)
  have hdone : ∀ g₂ : Gateway, g₂.custody = g₁.custody.disconnect i → Does E w g e g₂ := fun g₂ h₂ => by
    refine ⟨_, .fails hfails hops, Custody.Along.append hallows ⟨trivial, trivial⟩, ?_⟩
    rw [h₂, h₁, Custody.run_append]
    rfl
  exact Exec.wp_mono wp_disconnect_custody (fun _ => hdone) fun _ => hdone

/-- A dead client is not disconnected again. -/
theorem Custody.disconnect_dead {o : Custody} {h : Holder} (hh : o.holders[i]? = some h) (hdead : h.alive = false) :
    o.disconnect i = o := by
  rw [Custody.disconnect, hh]
  simp [hdead]

/-- **A completed read** does to the custody what the event asks for. -/
theorem wp_onLengthReceive_custody {error : Bool} (h : g.custody.Sound) (hd : g.objects[i]? = some d)
    (hl₁ : Live g₁ i { d with readPending := false }) (h₁ : Unmoved g g₁) :
    Exec.wp (onLengthReceive E w i error data) (fun _ => Does E w g (.onLengthReceive i error data))
      (fun _ => Does E w g (.onLengthReceive i error data)) g₁ := by
  have hh : g.custody.holders[i]? = some d.holder := by simp [Gateway.custody, hd]
  rw [onLengthReceive, Exec.wp_bind]
  refine wp_client_at hl₁.1 fun _ => ?_
  rw [Exec.wp_ite]
  refine ⟨fun hdead => ?_, fun halive => ?_⟩
  · have hdead : d.alive = false := by simpa using hdead
    cases error with
    | true =>
      refine ⟨_, .fails ⟨rfl, rfl⟩ (Or.inl rfl), ⟨trivial, trivial⟩, h₁.trans ?_⟩
      exact (Custody.disconnect_dead hh hdead).symm
    | false => exact does_nothing_of_read hd (fun halive => by simp [hdead] at halive) h₁
  have halive : d.alive = true := by simpa using halive
  rw [Exec.wp_ite]
  refine ⟨fun herror => wp_fails ⟨rfl, herror⟩ (Or.inl rfl) h₁, fun herror => ?_⟩
  obtain rfl : error = false := by simpa using herror
  rw [Exec.wp_bind]
  refine Exec.wp_mono (Exec.wp_and (wp_appendReceived data (Turned.start hl₁))
    (Inert.unmoved (inert_appendReceived data) g₁)) (fun _ g₂ hread => ?_) fun _ g₂ hthrew => ?_
  · obtain ⟨hturned, h₂⟩ := hread
    replace h₂ : Unmoved g g₂ := h₂.trans h₁
    rw [Exec.wp_bind, wp_client]
    intro c hl
    obtain ⟨hq, hbuffer⟩ := hturned.live hl
    have hread : receivedBuffer E d data = some c.buffer := hbuffer
    have hstate : c.state = d.state := hq.state
    have hthreshold : c.compressionThreshold = d.compressionThreshold := hq.compressionThreshold
    have hnext : nextPacket E w d data = _ := nextPacket_of_received hread
    rw [← hstate, ← hthreshold] at hnext
    rw [Exec.wp_bind]
    refine Exec.wp_mono (Exec.wp_and (wp_onBuffer (Turned.start hl)) (Inert.unmoved (inert_onBuffer _) g₂))
      (fun r g₃ hdone => ?_) fun _ g₃ hthrew => ?_
    · obtain ⟨⟨⟨b, hparsed⟩, _⟩, h₃⟩ := hdone
      replace h₃ : Unmoved g g₃ := h₃.trans h₂
      rw [hparsed] at hnext
      cases r with
      | none =>
        refine Exec.wp_mono (Inert.unmoved inert_startAsyncRead g₃) (fun _ g₄ h₄ => ?_) fun _ g₄ h₄ => ?_
        all_goals exact does_nothing_of_read hd (fun _ => hnext) (h₄.trans h₃)
      | some p =>
        dsimp only
        obtain ⟨d₃, hd₃, hd₃holder⟩ := objects_of_custody (h₃ ▸ hh)
        have halive₃ : d₃.alive = true := (congrArg Holder.alive hd₃holder).trans halive
        have hallows {threw : Bool} {ops : List CustodyOp} (hasks : PacketAsks E i d.holder p threw ops) :
            g.custody.Allows ops := allows_packet hh hl₁.2 hasks
        rw [Exec.wp_bind, Exec.wp_tryCatch, Exec.wp_bind]
        have hhandled := wp_receivedMessage_custody (E := E) (w := w) (p := p) (h₃ ▸ h) hd₃ halive₃
        rw [h₃, hd₃holder] at hhandled
        refine Exec.wp_mono hhandled (fun _ g₄ hdone => ?_) fun _ g₄ hthrew => ?_
        · obtain ⟨ops, hasks, h₄⟩ := hdone
          rw [Exec.wp_pure, if_pos rfl]
          refine Exec.wp_mono (Inert.unmoved inert_startAsyncRead g₄) (fun _ g₅ h₅ => ?_) fun _ g₅ h₅ => ?_
          all_goals exact ⟨ops, asks_of_handled hd halive hnext hasks, hallows hasks, h₅.trans h₄⟩
        · obtain ⟨ops, hasks, h₄⟩ := hthrew
          rw [Exec.wp_bind]
          have hdone : ∀ g₅ : Gateway, g₅.custody = g₄.custody.disconnect i →
            Does E w g (.onLengthReceive i false data) g₅ := by
            intro g₅ h₅
            refine ⟨_, asks_of_threw hd halive hnext hasks, Custody.Along.append (hallows hasks) ⟨trivial, trivial⟩, ?_⟩
            rw [h₅, h₄, Custody.run_append]
            rfl
          refine Exec.wp_mono wp_disconnect_custody (fun _ g₅ h₅ => ?_) fun _ => hdone
          rw [Exec.wp_pure, if_neg (by simp)]
          exact hdone g₅ h₅
    · obtain ⟨⟨⟨b, hthrew⟩, _⟩, h₃⟩ := hthrew
      rw [hthrew] at hnext
      exact does_nothing_of_read hd (fun _ => hnext) (h₃.trans h₂)
  · obtain ⟨hturned, h₂⟩ := hthrew
    obtain ⟨_, -, -, hread⟩ := hturned.now hl₁.1
    replace hread : receivedBuffer E d data = none := hread
    exact does_nothing_of_read hd (fun _ => by rw [nextPacket, hread]) (h₂.trans h₁)

/-- **The session server's reply** does to the custody what the event asks for. -/
theorem wp_onHasJoinedPostComplete_custody {k length : Nat} {r : Request} {more : Bytes} {error : ReadError}
    (h : g.custody.Sound) (hl : Live g i d) (hr : stageOf g i k = some r)
    (hstage : r.stage = .readingBody length data) :
    Exec.wp (onHasJoinedPostComplete E w i k r.sharedSecret error (data ++ more) length)
      (fun _ => Does E w g (.onHasJoinedPostComplete i k error more))
      (fun _ => Does E w g (.onHasJoinedPostComplete i k error more)) g := by
  rw [onHasJoinedPostComplete, Exec.wp_bind, setStage]
  refine wp_modify_at hl.1 fun hd₁ => ?_
  have hstaged : Unmoved g (g.modify i fun c =>
      { c with requests := c.requests.modify k fun r => { r with stage := .finished } }) :=
        unmoved_modify fun _ _ => rfl
  rw [Exec.wp_ite]
  refine ⟨fun hincomplete => ?_, fun hcomplete => ?_⟩
  · refine ⟨[], .other ?_ (fun _ hf => hf) .nothing, trivial, hstaged⟩
    intro j userid name hjoins
    cases hjoins with
    | reply hr' hstage' hcomplete hreply hid =>
      obtain rfl := Option.some.inj (hr.symm.trans hr')
      obtain ⟨rfl, rfl⟩ := Stage.readingBody.inj (hstage.symm.trans hstage')
      exact hcomplete hincomplete
  rw [Exec.wp_ite]
  refine ⟨fun _ => trivial, fun _ => ?_⟩
  split
  · trivial
  · next id name hreply =>
    have hjoins : Joins E w g i (formatUUID id) name (.onHasJoinedPostComplete i k error more) :=
      .reply hr hstage hcomplete hreply rfl
    rw [Exec.wp_bind]
    refine wp_modify_at hd₁ fun hd₂ => ?_
    rw [Exec.wp_bind]
    refine wp_modify_at hd₂ fun hd₃ => ?_
    rw [Exec.wp_bind]
    refine wp_modify_at hd₃ fun hd₄ => ?_
    rw [Exec.wp_bind]
    refine wp_modify_at hd₄ fun hd₅ => ?_
    rw [Exec.wp_bind]
    refine wp_client_at hd₅ fun _ => ?_
    rw [Exec.wp_bind, record]
    generalize haction : Action.hasJoined _ _ _ = action
    have hother : action ≠ .onPlayerLogin := by simp [← haction]
    refine wp_modify_at hd₅ fun hd₆ => ?_
    have hrenamed := custody_modify (g := g.modify i fun c =>
        { c with requests := c.requests.modify k fun r => { r with stage := .finished } })
      (f := fun c => { c with userid := formatUUID id }) (k := fun c => { c with userid := formatUUID id })
      (i := i) fun _ _ => rfl
    rw [hstaged] at hrenamed
    have hplayer : ∀ g₂ : Gateway,
      Unmoved g₂ ((((g₂.modify i fun c => { c with requestedUsername := name }).modify i fun c =>
        { c with encrypted := true }).modify i fun c => { c with buffer := [] }).modify i fun c => c.logged action) :=
      fun g₂ => Unmoved.modify (.modify (.modify (.modify rfl fun _ => rfl) fun _ => rfl) fun _ => rfl)
        fun _ => holder_logged hother
    have hrenamed₆ := (hplayer _).trans hrenamed
    revert hrenamed₆ hd₆
    generalize Gateway.modify (Gateway.modify _ i fun c => { c with buffer := [] }) i _ = g₆
    intro hd₆ hrenamed₆
    obtain ⟨d₆, hd₆, huserid, hname⟩ : ∃ d₆, g₆.objects[i]? = some d₆ ∧ d₆.userid = formatUUID id ∧
        d₆.requestedUsername = name := ⟨_, hd₆, rfl, rfl⟩
    replace hrenamed₆ : g₆.custody = g.custody.apply (.rename i (formatUUID id)) := hrenamed₆
    have hsound : g₆.custody.Sound := hrenamed₆ ▸ h.apply (.rename i (formatUUID id)) trivial
    have hlogin := wp_onPlayerLogin_custody (E := E) (w := w) hsound.uncompressed hd₆
    rw [huserid, hname] at hlogin
    refine Exec.wp_mono hlogin (fun _ g' hdone => ?_) fun _ g' hthrew => ?_
    · obtain ⟨hfits, h'⟩ := hdone
      refine ⟨_, .logsIn hjoins hfits, ⟨trivial, fun c hc => ?_, trivial⟩, ?_⟩
      · rw [Custody.apply, Custody.modify_self (custody_of_live hl)] at hc
        exact Option.some.inj hc ▸ hl.2
      · rw [h', hrenamed₆]
        rfl
    · obtain ⟨hfits, h'⟩ := hthrew
      refine ⟨_, .unframed hjoins hfits (Or.inl rfl), ⟨trivial, trivial, trivial⟩, ?_⟩
      rw [h', hrenamed₆]
      rfl

/-- **A keep-alive wait** that has ended does to the custody what the event asks for. -/
theorem wp_keepAlive_custody {error expired : Bool} (h : g.custody.Sound) (hd : g.objects[i]? = some d)
    (hd₁ : g₁.objects[i]? = some { d with waitsPending := d.waitsPending - 1 })
    (h₁ : g₁.custody = g.custody.apply (.expire i)) :
    Exec.wp (keepAlive E w i error expired) (fun _ => Does E w g (.keepAlive i error expired))
      (fun _ => Does E w g (.keepAlive i error expired)) g₁ := by
  have hnojoin : ∀ j userid name, ¬ Joins E w g j userid name (.keepAlive i error expired) := by rintro _ _ _ ⟨⟩
  have hexpired : error = false → ∀ g₂, Unmoved g₁ g₂ → Does E w g (.keepAlive i error expired) g₂ := by
    rintro rfl g₂ h₂
    exact ⟨[.expire i], .other hnojoin (fun _ hf => (nomatch hf.2)) .expire, ⟨trivial, trivial⟩, h₂.trans h₁⟩
  rw [keepAlive, Exec.wp_bind]
  refine wp_client_at hd₁ fun hl₁ => ?_
  rw [Exec.wp_ite]
  refine ⟨fun hdead => ?_, fun halive => ?_⟩
  · have hdead : d.alive = false := by simpa using hdead
    cases error with
    | true =>
      refine ⟨_, .fails ⟨rfl, rfl⟩ (Or.inr rfl), ⟨trivial, trivial, trivial⟩, ?_⟩
      rw [Custody.run_append]
      exact h₁.trans (Custody.disconnect_dead (h₁ ▸ custody_of_live hl₁) hdead).symm
    | false => exact hexpired rfl g₁ rfl
  rw [Exec.wp_ite]
  refine ⟨fun herror => wp_fails ⟨rfl, herror⟩ (Or.inr rfl) h₁, fun herror => ?_⟩
  obtain rfl : error = false := by simpa using herror
  have hcancel : Exec.wp (socketCancel i) (fun _ => Does E w g (.keepAlive i false expired))
      (fun _ => Does E w g (.keepAlive i false expired)) g₁ :=
    Exec.wp_mono (Inert.unmoved inert_socketCancel g₁) (fun _ => hexpired rfl) fun _ => hexpired rfl
  rw [Exec.wp_ite]
  refine ⟨fun _ => hcancel, fun _ => ?_⟩
  split
  · rw [Exec.wp_bind]
    have huncompressed : g₁.custody.Uncompressed := h₁ ▸ (h.apply (.expire i) trivial).uncompressed
    refine Exec.wp_mono (wp_sendPacket huncompressed) (fun _ g₂ ⟨_, h₂⟩ => ?_) fun _ g₂ ⟨_, h₂⟩ => hexpired rfl g₂ h₂
    refine wp_modifyClient.mpr fun _ _ => ?_
    refine ⟨_, .other hnojoin (fun _ hf => (nomatch hf.2)) (.rearm hd (by simpa using halive)),
      ⟨trivial, trivial, trivial⟩, ?_⟩
    rw [custody_modify (k := fun c => { c with waitsPending := c.waitsPending + 1 }) fun _ _ => rfl, h₂, h₁]
    rfl
  · exact hcancel

theorem unmoved_setStage {k : Nat} {stage : Stage} : Exec.Keeps Unmoved (setStage i k stage) :=
  fun _ => wp_modifyClient.mpr fun _ _ => unmoved_modify fun _ _ => rfl

theorem unmoved_connectedToMojang {k : Nat} (isOpen : Bool) : Exec.Keeps Unmoved (connectedToMojang i k isOpen) :=
  .bind unmoved_setStage fun _ => .ite (fun _ => unmoved_setStage) fun _ => .throw _

theorem unmoved_sslHandshakeComplete {k : Nat} (error : Bool) : Exec.Keeps Unmoved (sslHandshakeComplete i k error) :=
  .bind unmoved_setStage fun _ => .ite (fun _ => .pure _) fun _ => unmoved_setStage

theorem unmoved_sendHTTPRequestDone {k : Nat} (error : Bool) : Exec.Keeps Unmoved (sendHTTPRequestDone i k error) :=
  .bind unmoved_setStage fun _ => .ite (fun _ => .pure _) fun _ => unmoved_setStage

theorem unmoved_readHTTPHeader {k : Nat} (error : Bool) (data : Bytes) :
    Exec.Keeps Unmoved (readHTTPHeader i k error data) := by
  refine .bind unmoved_setStage fun _ => .bind (Inert.unmoved inert_client) fun c => .ite (fun _ => .pure _) fun _ => ?_
  split
  · exact .throw _
  · exact .bind (Inert.unmoved inert_remoteEndpoint) fun _ => Inert.unmoved inert_socketCancel
  · split
    · exact .pure _
    · exact unmoved_setStage

/-- A null pointer put under a new key holds nothing. -/
theorem unmoved_clientAt (playerId : Bytes) : Exec.Keeps Unmoved (clientAt playerId) := by
  intro g
  rw [clientAt, Exec.wp_bind, Exec.wp_get]
  cases hp : g.clients.lookup playerId with
  | some p => exact rfl
  | none =>
    have hheld : g.custody.held (.client playerId) = none := congrArg (Option.getD · none) hp
    exact custody_insertClient.trans (Custody.write_self hheld)

theorem unmoved_handleMessage (packet : InternalComms.Message) :
    Exec.Keeps Unmoved (ClientServer.handleMessage E packet) := by
  refine .bind (unmoved_clientAt _) fun p => ?_
  cases p with
  | none => exact .pure _
  | some i =>
    exact .ite (fun _ => .bind (Inert.unmoved inert_client) fun c => .bind (.onLocal _ _) fun _ =>
      Inert.unmoved (inert_sendData _)) fun _ => .pure _

theorem unmoved_onDataReceived (datagram : Option Bytes) :
    Exec.Keeps Unmoved (ClientServer.onDataReceived E datagram) := by
  refine .bind (.modify fun _ => rfl) fun _ => ?_
  cases datagram with
  | none => exact .pure _
  | some data =>
    refine .bind (.onLocal _ _) fun packet => ?_
    cases packet with
    | none => exact .bind .undefined fun _ => .modify fun _ => rfl
    | some packet => exact .bind (unmoved_handleMessage packet) fun _ => .modify fun _ => rfl

theorem custody_acceptConstruct {handle : Word} {loopback : Bool} {verifyToken : Block 4} :
    Exec.wp (acceptConstruct handle loopback verifyToken)
      (fun _ g' => g'.custody = g.custody.construct ⟨handle, loopback, .connected⟩) (fun _ _ => False) g := by
  refine congr (congrArg Custody.mk ?_) (funext fun s => ?_)
  · simp [Gateway.custody, Client.new, Client.holder]
  · cases s <;> simp [Gateway.held, Gateway.custody]

theorem custody_accepting {p : Option ConnId} :
    Gateway.custody { g with accepting := p } = g.custody.write .accepting p := by
  refine congrArg (Custody.mk _) (funext fun s => ?_)
  cases s <;> simp [Gateway.held, Gateway.custody]

theorem wp_acceptInsert_custody :
    Exec.wp (acceptInsert i) (fun _ g' => g'.custody = g.custody.insert i) (fun _ _ => False) g := by
  rw [acceptInsert, Exec.wp_bind, wp_client]
  intro c hl
  rw [Exec.wp_bind, Exec.wp_get, Exec.wp_bind, Exec.wp_set]
  refine Exec.wp_mono (wp_free _) (fun _ g' h => h.trans ?_) fun _ _ h => h
  have hset := custody_insertPending (g := { g with accepting := none }) c.socket.native_handle (some i)
  rw [custody_accepting] at hset
  rw [Custody.insert, custody_of_live hl]
  dsimp only
  rw [Custody.replace, Custody.held_write, Function.update_of_ne (by simp)]
  exact congrArg (Custody.free · (g.custody.held (.pending c.socket.native_handle))) hset

/-- **Refinement.** Every event of the gateway is a list of operations that it asks for. -/
theorem step_custody (hs : g.custody.Sound) (h : step E g (w, e) = some g') : Does E w g e g' := by
  obtain ⟨m, hm, hwp⟩ := step_runs h
  refine hwp _ ?_
  have idle {m : M Unit} (hkeeps : Exec.Keeps Unmoved m) (hjoins : ∀ j userid name, ¬ Joins E w g j userid name e)
      (hfails : ∀ j, ¬ Fails j e) : Exec.wp m (fun _ => Does E w g e) (fun _ => Does E w g e) g := by
    have hdone : ∀ g' : Gateway, Unmoved g g' → Does E w g e g' := fun g' h' =>
      ⟨[], .other hjoins hfails .nothing, trivial, h'⟩
    exact Exec.wp_mono (hkeeps g) (fun _ => hdone) fun _ => hdone
  cases e with
  | acceptConstruct handle loopback verifyToken =>
    simp only [handler, Option.ite_none_right_eq_some, Option.some.injEq] at hm
    obtain ⟨⟨haccepting, hhandle, hnew⟩, rfl⟩ := hm
    refine Exec.wp_mono custody_acceptConstruct (fun _ g' h' => ?_) fun _ _ h' => h'.elim
    refine ⟨_, .other (by rintro _ _ _ ⟨⟩) (fun _ hf => hf) .construct, ⟨⟨haccepting, rfl, hhandle, ?_⟩, trivial⟩, h'⟩
    intro j d hd hopen
    obtain ⟨c, hc, rfl⟩ := objects_of_custody hd
    exact hnew c (List.mem_of_getElem? hc) (Bool.eq_false_iff.mp hopen.1) hopen.2
  | acceptInsert =>
    obtain ⟨i, hi, rfl⟩ := Option.map_eq_some_iff.mp hm
    refine Exec.wp_mono wp_acceptInsert_custody (fun _ g' h' => ?_) fun _ _ h' => h'.elim
    exact ⟨_, .other (by rintro _ _ _ ⟨⟩) (fun _ hf => hf) (.insert hi), ⟨hi, trivial⟩, h'⟩
  | onLengthReceive i error data =>
    simp only [handler, Option.bind_eq_bind, Option.bind_eq_some_iff, Option.ite_none_right_eq_some,
      Option.some.injEq] at hm
    obtain ⟨d, hd, -, rfl⟩ := hm
    rw [Exec.wp_bind, wp_modifyClient]
    intro c hl
    obtain rfl : d = c := Option.some.inj (hd.symm.trans hl.1)
    exact wp_onLengthReceive_custody hs hd (hl.modify rfl) (unmoved_modify fun _ _ => rfl)
  | onWriteComplete i error =>
    simp only [handler, Option.bind_eq_bind, Option.bind_eq_some_iff, Option.ite_none_right_eq_some,
      Option.some.injEq] at hm
    obtain ⟨d, hd, -, rfl⟩ := hm
    rw [Exec.wp_bind, onWriteComplete]
    refine wp_modify_at hd fun _ => ?_
    have hcounted : Unmoved g (g.modify i fun c => { c with writesPending := c.writesPending - 1 }) :=
      unmoved_modify fun _ _ => rfl
    rw [Exec.wp_ite]
    refine ⟨fun herror => wp_fails ⟨rfl, herror⟩ (Or.inl rfl) hcounted, fun herror => ?_⟩
    exact ⟨[], .other (by rintro _ _ _ ⟨⟩) (fun _ hf => herror hf.2) .nothing, trivial, hcounted⟩
  | keepAlive i error expired =>
    simp only [handler, Option.bind_eq_bind, Option.bind_eq_some_iff, Option.ite_none_right_eq_some,
      Option.some.injEq] at hm
    obtain ⟨d, hd, -, rfl⟩ := hm
    rw [Exec.wp_bind]
    exact wp_modify_at hd fun hd₁ => wp_keepAlive_custody hs hd hd₁ (custody_modify fun _ _ => rfl)
  | connectedToMojang i k isOpen =>
    simp only [handler, Option.bind_eq_bind, Option.bind_eq_some_iff, Option.ite_none_right_eq_some,
      Option.some.injEq] at hm
    obtain ⟨r, hr, hstage, rfl⟩ := hm
    exact idle (unmoved_connectedToMojang isOpen) (by rintro _ _ _ ⟨⟩) fun _ hf => hf
  | sslHandshakeComplete i k error =>
    simp only [handler, Option.bind_eq_bind, Option.bind_eq_some_iff, Option.ite_none_right_eq_some,
      Option.some.injEq] at hm
    obtain ⟨r, hr, hstage, rfl⟩ := hm
    exact idle (unmoved_sslHandshakeComplete error) (by rintro _ _ _ ⟨⟩) fun _ hf => hf
  | sendHTTPRequestDone i k error =>
    simp only [handler, Option.bind_eq_bind, Option.bind_eq_some_iff, Option.ite_none_right_eq_some,
      Option.some.injEq] at hm
    obtain ⟨r, hr, hstage, rfl⟩ := hm
    exact idle (unmoved_sendHTTPRequestDone error) (by rintro _ _ _ ⟨⟩) fun _ hf => hf
  | readHTTPHeader i k error data =>
    simp only [handler, Option.bind_eq_bind, Option.bind_eq_some_iff, Option.ite_none_right_eq_some,
      Option.some.injEq] at hm
    obtain ⟨r, hr, hstage, rfl⟩ := hm
    exact idle (unmoved_readHTTPHeader error data) (by rintro _ _ _ ⟨⟩) fun _ hf => hf
  | onHasJoinedPostComplete i k error more =>
    simp only [handler, Option.bind_eq_bind, Option.bind_eq_some_iff] at hm
    obtain ⟨r, hr, hm⟩ := hm
    split at hm
    · next length data hstage =>
      rw [Option.ite_none_right_eq_some, Option.some.injEq] at hm
      obtain ⟨-, rfl⟩ := hm
      obtain ⟨d, hd, -⟩ := stageOf_eq_some hr
      exact wp_modify_first ⟨_, _, rfl⟩ hd fun hl => wp_onHasJoinedPostComplete_custody hs hl hr hstage
    · cases hm
  | onDataReceived datagram =>
    simp only [handler, Option.ite_none_right_eq_some, Option.some.injEq] at hm
    obtain ⟨-, rfl⟩ := hm
    exact idle (unmoved_onDataReceived datagram) (by rintro _ _ _ ⟨⟩) fun _ hf => hf
  | peerReset i =>
    simp only [handler, Option.bind_eq_bind, Option.bind_eq_some_iff, Option.ite_none_right_eq_some,
      Option.some.injEq] at hm
    obtain ⟨d, hd, hconnected, rfl⟩ := hm
    refine wp_modify_at hd fun _ => ⟨_, .other (by rintro _ _ _ ⟨⟩) (fun _ hf => hf) .reset,
      ⟨fun c hc => ?_, trivial⟩, ?_⟩
    · obtain ⟨d', hd', rfl⟩ := objects_of_custody hc
      obtain rfl : d = d' := Option.some.inj (hd.symm.trans hd')
      exact hconnected
    · exact custody_modify fun _ _ => rfl

theorem sound_step (hs : g.custody.Sound) (h : step E g (w, e) = some g') : g'.custody.Sound := by
  obtain ⟨ops, -, hallows, hrun⟩ := step_custody hs h
  rw [hrun]
  exact hs.run hallows

end Events

/-- **The ownership discipline** holds in every state that a run reaches. -/
theorem allStates_sound (E : Env) (run : List (World × Event)) :
    AllStates (step E) (fun g => g.custody.Sound) Gateway.init run :=
  allStates_of_inv (C := fun _ _ => True) (fun _ _ _ hs _ h => sound_step hs h) Custody.sound_init
    (allSteps_of_forall fun _ _ => trivial)

end CeriosCluster.ClientGateway
