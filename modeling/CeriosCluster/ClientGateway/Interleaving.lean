import CeriosCluster.ClientGateway.CustodyRefinement
import CeriosCluster.ClientGateway.Turns

/-!
# Interleavings of the connections

Most events are dealt with by one client alone: what it does is told by the client itself, and no other client, no owner
and no map is touched. Such events of different connections may be taken in any order.
-/

namespace CeriosCluster.ClientGateway

open CeriosCluster.Lib CeriosCluster.MCPacket

/-- The connection whose operation the event completes. -/
def Event.connection : Event → Option ConnId
  | .onLengthReceive i _ _ => some i
  | .onWriteComplete i _ => some i
  | .keepAlive i _ _ => some i
  | .connectedToMojang i _ _ => some i
  | .sslHandshakeComplete i _ _ => some i
  | .sendHTTPRequestDone i _ _ => some i
  | .readHTTPHeader i _ _ _ => some i
  | .onHasJoinedPostComplete i _ _ _ => some i
  | .peerReset i => some i
  | .acceptConstruct _ _ _ => none
  | .acceptInsert => none
  | .onDataReceived _ => none

/-- The client deals with the event alone: nobody logs in, and `ClientServer` does not lose the client. -/
def Client.DealsAlone (E : Env) (w : World) (c : Client) : Event → Prop
  | .onLengthReceive _ error data => c.alive = true → c.ReadsAlone E w error data
  | .onWriteComplete _ error => c.alive = true → error = true → c.owner = .login
  | .keepAlive _ error _ => c.alive = true → error = true → c.owner = .login
  | .onHasJoinedPostComplete _ k error more =>
    ∀ r length data, c.requests[k]? = some r → r.stage = .readingBody length data →
      ¬ (error = .other ∨ error = .eof ∧ (data ++ more).length < length) → replyOf E (data ++ more) length = none
  | .acceptConstruct _ _ _ => False
  | .acceptInsert => False
  | .onDataReceived _ => False
  | _ => True

/-! ## One event -/

/-- The client tells which handler the event has, if any, and the handler acts on the client alone and leaves it such
that `P`. -/
def Moves (E : Env) (w : World) (i : ConnId) (e : Event) (c : Client) (P : Client → Prop) : Prop :=
  ∃ m : Option (M Unit), (∀ g : Gateway, g.objects[i]? = some c → handler E g w e = m) ∧
    ∀ n, m = some n → (connection i).Acts n (fun _ => P) (fun _ => P) c

section Moves

variable {E : Env} {w : World} {i : ConnId} {e : Event} {c d : Client} {P : Client → Prop} {m : M Unit}

/-- What the handler of an event leaves, whether it returns or throws. -/
theorem step_of_handler {g : Gateway} (h : handler E g w e = some m) : step E g (w, e) = Exec.after m g := by
  unfold step Exec.after
  cases hrun : m g <;> simp only [h, hrun]

theorem Moves.of_acts (hm : (connection i).Acts m (fun _ => P) (fun _ => P) c)
    (hhandler : ∀ g : Gateway, g.objects[i]? = some c → handler E g w e = some m) : Moves E w i e c P :=
  ⟨some m, hhandler, fun _ hn => Option.some.inj hn ▸ hm⟩

theorem Moves.of_none (hhandler : ∀ g : Gateway, g.objects[i]? = some c → handler E g w e = none) : Moves E w i e c P :=
  ⟨none, hhandler, nofun⟩

/-- What the event does, the client tells. -/
theorem Moves.stepsOn (h : Moves E w i e c P) : (connection i).StepsOn (step E) (w, e) c := by
  obtain ⟨m, hhandler, hacts⟩ := h
  cases m with
  | none => exact ⟨none, fun g hc => by rw [step, hhandler g hc]; rfl⟩
  | some n =>
    obtain ⟨r, hrun, -⟩ := hacts n rfl
    have hafter (g : Gateway) (hc : g.objects[i]? = some c) : step E g (w, e) = Exec.after n g :=
      step_of_handler (hhandler g hc)
    cases r with
    | ok a c' => exact ⟨some c', fun g hc => (hafter g hc).trans (Exec.after_of_ok (hrun g hc))⟩
    | threw e c' => exact ⟨some c', fun g hc => (hafter g hc).trans (Exec.after_of_threw (hrun g hc))⟩
    | undefined =>
      refine ⟨none, fun g hc => (hafter g hc).trans ?_⟩
      unfold Exec.after
      rw [hrun g hc]
      rfl
    | diverged =>
      refine ⟨none, fun g hc => (hafter g hc).trans ?_⟩
      unfold Exec.after
      rw [hrun g hc]
      rfl

theorem Moves.of_guard {p : Prop} [Decidable p] (hm : p → (connection i).Acts m (fun _ => P) (fun _ => P) c)
    (hhandler : ∀ g : Gateway, g.objects[i]? = some c → handler E g w e = if p then some m else none) :
      Moves E w i e c P := by
  by_cases hp : p
  · exact .of_acts (hm hp) fun g hc => by rw [hhandler g hc, if_pos hp]
  · exact .of_none fun g hc => by rw [hhandler g hc, if_neg hp]

theorem Moves.of_stage {k : Nat} {p : Request → Prop} [DecidablePred p] (hm : Followed E i m c)
    (hhandler : ∀ g : Gateway, handler E g w e = (stageOf g i k).bind fun r => if p r then some m else none) :
    Moves E w i e c (c.Follows E) := by
  have hstage (g : Gateway) (hc : g.objects[i]? = some c) : stageOf g i k = c.requests[k]? := by
    rw [stageOf, hc]
    rfl
  cases hr : c.requests[k]? with
  | none => exact .of_none fun g hc => by rw [hhandler g, hstage g hc, hr]; rfl
  | some r => exact .of_guard (p := p r) (fun _ => hm) fun g hc => by rw [hhandler g, hstage g hc, hr]; rfl

/-- **One event** of a client that deals with it alone: the client follows its line, and the rest of the gateway is as
it was. -/
theorem moves_of_dealsAlone (hthreshold : c.compressionThreshold = noCompression)
    (hopen : c.alive = true → c.socket.state ≠ .closed) (he : e.connection = some i) (halone : c.DealsAlone E w e) :
    Moves E w i e c (c.Follows E) := by
  cases e with
  | onLengthReceive j error data =>
    obtain rfl : j = i := Option.some.inj he
    refine .of_guard (p := c.readPending ∧ (error ∨ data ≠ [])) (fun _ => ?_) fun g hc => by rw [handler, hc]; rfl
    let waited : Client := { c with readPending := false }
    have hwaited : c.Follows E waited := .silent rfl rfl id rfl rfl
    refine acts_modify_bind fun _ => (followed_onLengthReceive (c := waited) hthreshold hopen fun halive =>
      ?_).after hwaited
    exact ⟨(halone halive).login, (halone halive).owner⟩
  | onWriteComplete j error =>
    obtain rfl : j = i := Option.some.inj he
    refine .of_guard (p := 0 < c.writesPending) (fun _ => ?_) fun g hc => by rw [handler, hc]; rfl
    let written : Client := { c with writesPending := c.writesPending - 1 }
    have hwritten : c.Follows E written := .silent rfl rfl id rfl rfl
    exact acts_modify_bind fun _ => (followed_onWriteComplete (c := written) halone).after hwritten
  | keepAlive j error expired =>
    obtain rfl : j = i := Option.some.inj he
    exact .of_guard (p := 0 < c.waitsPending) (fun hwaits => followed_keepAlive hthreshold hwaits halone) fun g hc => by
      rw [handler, hc]; rfl
  | connectedToMojang j k isOpen =>
    obtain rfl : j = i := Option.some.inj he
    exact .of_stage (p := fun r => r.stage = .connecting) followed_connectedToMojang fun _ => rfl
  | sslHandshakeComplete j k error =>
    obtain rfl : j = i := Option.some.inj he
    exact .of_stage (p := fun r => r.stage = .handshaking) followed_sslHandshakeComplete fun _ => rfl
  | sendHTTPRequestDone j k error =>
    obtain rfl : j = i := Option.some.inj he
    exact .of_stage (p := fun r => r.stage = .sending) followed_sendHTTPRequestDone fun _ => rfl
  | readHTTPHeader j k error data =>
    obtain rfl : j = i := Option.some.inj he
    exact .of_stage (p := fun r => r.stage = .readingHeader) followed_readHTTPHeader fun _ => rfl
  | onHasJoinedPostComplete j k error more =>
    obtain rfl : j = i := Option.some.inj he
    have hstage (g : Gateway) (hc : g.objects[j]? = some c) : stageOf g j k = c.requests[k]? := by
      rw [stageOf, hc]
      rfl
    cases hr : c.requests[k]? with
    | none => exact .of_none fun g hc => by rw [handler, hstage g hc, hr]; rfl
    | some r =>
      cases hreading : r.stage with
      | readingBody length data =>
        have hm : Followed E j (onHasJoinedPostComplete E w j k r.sharedSecret error (data ++ more) length) c :=
          followed_onHasJoinedPostComplete (halone r length data hr hreading)
        refine .of_guard (p := error = .none → more.length = length) (fun _ => hm) fun g hc => ?_
        rw [handler, hstage g hc, hr]
        simp only [Option.bind_eq_bind, Option.bind_some, hreading]
      | _ =>
        refine .of_none fun g hc => ?_
        rw [handler, hstage g hc, hr]
        simp only [Option.bind_eq_bind, Option.bind_some, hreading]
  | peerReset j =>
    obtain rfl : j = i := Option.some.inj he
    refine .of_guard (p := c.socket.state = .connected) (fun _ => acts_modify fun _ => ?_) fun g hc => by
      rw [handler, hc]; rfl
    exact .silent rfl rfl id rfl rfl
  | acceptConstruct handle loopback verifyToken => exact halone.elim
  | acceptInsert => exact halone.elim
  | onDataReceived datagram => exact halone.elim

end Moves

/-! ## Runs -/

/-- The event is about a connection whose client deals with it alone. -/
def Alone (E : Env) (g : Gateway) (e : World × Event) : Prop :=
  ∃ i c, e.2.connection = some i ∧ g.objects[i]? = some c ∧ c.DealsAlone E e.1 e.2

def partOf : Option ConnId → Part Gateway Client
  | none => .nowhere
  | some i => connection i

theorem partOf_apart {k k' : Option ConnId} (h : k ≠ k') : Part.Apart (partOf k) (partOf k') := by
  cases k with
  | none => exact (Part.apart_nowhere _).symm
  | some i =>
    cases k' with
    | none => exact Part.apart_nowhere _
    | some j => exact connection_apart fun hij => h (congrArg some hij)

section Runs

variable {E : Env} {g g' : Gateway} {i : ConnId} {c : Client} {run es es' : List (World × Event)}

/-- What a client is known to be in a state that a run reaches. -/
structure Client.Usual (c : Client) : Prop where
  uncompressed : c.compressionThreshold = noCompression
  open_of_alive : c.alive = true → c.socket.state ≠ .closed

theorem usual_of_sound (h : g.custody.Sound) (hc : g.objects[i]? = some c) : c.Usual := by
  have hholder : g.custody.holders[i]? = some c.holder := by simp [Gateway.custody, hc]
  exact ⟨h.uncompressed i _ hholder, h.sockets.open_of_alive i _ hholder⟩

/-- A run of events that their clients deal with alone, as a run on the parts. -/
theorem ownRun_of_alone (hs : g.custody.Sound) (halone : AllSteps (step E) (Alone E) g es)
    (h : runFrom (step E) g es = some g') :
    Part.OwnRun (step E) partOf (fun e => e.2.connection) (fun c e => c.Usual ∧ c.DealsAlone E e.1 e.2) g es g' := by
  induction es generalizing g with
  | nil =>
    obtain rfl : g = g' := Option.some.inj h
    exact .nil g
  | cons e es ih =>
    obtain ⟨g₁, hstep, hrest⟩ := runFrom_cons_some h
    obtain ⟨⟨i, c, he, hc, hdeals⟩, halone⟩ := halone g₁ hstep
    refine .cons ⟨c, ?_, ⟨usual_of_sound hs hc, hdeals⟩, hstep⟩ (ih (sound_step hs hstep) halone hrest)
    show (partOf e.2.connection).read g = some c
    rw [he]
    exact hc

/-- **Interleavings of the connections agree.** From a state that a run has led to, events that their clients deal with
alone lead to the same state in any order that keeps the order of each connection's. -/
theorem interleavings_agree (hrun : runFrom (step E) Gateway.init run = some g)
    (halone : AllSteps (step E) (Alone E) g es) (h : runFrom (step E) g es = some g')
    (hsame : ∀ k, es.filter (fun e => e.2.connection = k) = es'.filter (fun e => e.2.connection = k)) :
    runFrom (step E) g es' = some g' := by
  have hs : g.custody.Sound := (allStates_sound E run).last hrun
  refine (Part.OwnRun.of_same_filter ?_ ?_ (ownRun_of_alone hs halone h) hsame).runFrom
  · rintro c ⟨w, e⟩ ⟨husual, hdeals⟩
    cases he : e.connection with
    | none => exact ⟨none, fun g hc => by simp [partOf, Part.nowhere] at hc⟩
    | some i =>
      have hmoves := moves_of_dealsAlone husual.uncompressed husual.open_of_alive he hdeals
      simpa only [he, partOf] using hmoves.stepsOn
  · exact fun k k' hk => partOf_apart hk

/-! ## Two connections -/

/-- A read of a client that is not on the loopback and has not logged in. -/
def ReadsRemote (g : Gateway) (e : World × Event) : Prop :=
  match e.2 with
  | .onLengthReceive i _ _ => g.objects[i]?.any fun c => c.owner = .login ∧ c.socket.loopback = false
  | _ => False

instance (g : Gateway) : ∀ e, Decidable (ReadsRemote g e)
  | (_, .onLengthReceive i _ _) =>
    inferInstanceAs (Decidable (g.objects[i]?.any fun c => c.owner = .login ∧ c.socket.loopback = false))
  | (_, .acceptConstruct _ _ _) | (_, .acceptInsert) | (_, .onWriteComplete _ _) | (_, .keepAlive _ _ _)
  | (_, .connectedToMojang _ _ _) | (_, .sslHandshakeComplete _ _ _) | (_, .sendHTTPRequestDone _ _ _)
  | (_, .readHTTPHeader _ _ _ _) | (_, .onHasJoinedPostComplete _ _ _ _) | (_, .onDataReceived _) | (_, .peerReset _) =>
    isFalse id

theorem ReadsRemote.alone {e : World × Event} (h : ReadsRemote g e) : Alone E g e := by
  obtain ⟨w, e⟩ := e
  cases e with
  | onLengthReceive i error data =>
    obtain ⟨c, hc, hremote⟩ := (Option.any_eq_true _ _).mp h
    obtain ⟨howner, hloopback⟩ : c.owner = .login ∧ c.socket.loopback = false := by simpa using hremote
    refine ⟨i, c, rfl, hc, fun _ => ⟨fun _ p playerName _ hstart => ?_, fun _ => howner⟩⟩
    obtain ⟨-, -, -, hstart⟩ := hstart
    exact Bool.noConfusion (hloopback.symm.trans hstart)
  | _ => exact h.elim

def twoAccepted : List (World × Event) :=
  plainRun [.acceptConstruct 7 false zeroToken, .acceptInsert, .acceptConstruct 8 false zeroToken, .acceptInsert]

/-- The first asks for the status, and the second wants to log in. -/
def statusReads : List (World × Event) :=
  plainRun [.onLengthReceive 0 false [6, 0, 47, 0, 0, 0, 1], .onLengthReceive 0 false [1, 0]]

def loginReads : List (World × Event) :=
  plainRun [.onLengthReceive 1 false [6, 0, 47, 0, 0, 0, 2], .onLengthReceive 1 false (8 :: 0 :: 6 :: ascii "Player")]

/-- It does not matter who is first. -/
theorem interleavings_agree_twoAccepted :
    ∃ g g', runFrom (step .player) Gateway.init twoAccepted = some g ∧
      runFrom (step .player) g (statusReads ++ loginReads) = some g' ∧
        runFrom (step .player) g (loginReads ++ statusReads) = some g' := by
  have hruns : (runFrom (step .player) Gateway.init twoAccepted).map (fun g =>
      (decide (AllSteps (step .player) ReadsRemote g (statusReads ++ loginReads)),
        (runFrom (step .player) g (statusReads ++ loginReads)).isSome)) = some (true, true) := by
    decide +kernel
  obtain ⟨g, hg, hreads⟩ := Option.map_eq_some_iff.mp hruns
  obtain ⟨halone, hsome⟩ := Prod.mk.inj hreads
  obtain ⟨g', hg'⟩ := Option.isSome_iff_exists.mp hsome
  refine ⟨g, g', hg, hg', interleavings_agree hg ((of_decide_eq_true halone).mono fun _ _ =>
    ReadsRemote.alone) hg' fun k => ?_⟩
  have hstatus : ∀ e ∈ statusReads, e.2.connection = some 0 := by decide
  have hlogin : ∀ e ∈ loginReads, e.2.connection = some 1 := by decide
  rw [List.filter_append, List.filter_append]
  by_cases hk : k = some 0
  · have hnone : loginReads.filter (fun e => e.2.connection = k) = [] :=
      List.filter_eq_nil_iff.mpr fun e he => by simp [hlogin e he, hk]
    rw [hnone, List.append_nil, List.nil_append]
  · have hnone : statusReads.filter (fun e => e.2.connection = k) = [] :=
      List.filter_eq_nil_iff.mpr fun e he => by simp [hstatus e he, Ne.symm hk]
    rw [hnone, List.append_nil, List.nil_append]

end Runs

end CeriosCluster.ClientGateway
