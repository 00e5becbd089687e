import CeriosCluster.ClientGateway.Relaying

/-!
# The transcript of a connection

Every handler, whoever it is about, ends with every client that is still there and alive having gone on with its line,
and only one of them having said anything. So in every state that a run reaches, the log of a live connection is the
history of a line from its start.
-/

namespace CeriosCluster.ClientGateway

open CeriosCluster.Lib CeriosCluster.MCPacket

/-! ## Requests -/

/-- A client that has asked the session server is in `LOGIN`, or past it. -/
def Asked (c : Client) : Prop := c.requests ≠ [] → c.state = .LOGIN ∨ c.state = .PLAY

section Requests

variable {E : Env} {c c' : Client} {l : Label}

theorem Asked.quiet (h : Asked c) (hq : Quiet c c') : Asked c' := by
  unfold Asked
  rw [hq.requests, hq.state]
  exact h

theorem Asked.did (h : Asked c) (hdid : Did E c c' l) : Asked c' := by
  cases l with
  | quiet => exact h.quiet hdid
  | handshake n =>
    obtain ⟨hstate, hq⟩ := hdid
    have hnone : c.requests = [] := Classical.byContradiction fun hsome => by
      have hlater := h hsome
      rw [hstate] at hlater
      exact absurd hlater (by decide)
    exact Asked.quiet (c := { c with state := n }) (fun hsome => absurd hnone hsome) hq
  | loginStart name token =>
    exact Asked.quiet (c := { c with requestedUsername := name, verifyToken := token }) h hdid.2
  | loopbackLogin name userid =>
    exact Asked.quiet (c := { c with requestedUsername := name, userid := userid }.login.play)
      (fun _ => Or.inr rfl) hdid.2.2
  | loopbackLoginFailed name userid =>
    exact Asked.quiet (c := { c with requestedUsername := name, userid := userid }.login) h hdid.2.2
  | accepted token sharedSecret =>
    obtain ⟨hstate, -, key, -, hq⟩ := hdid
    exact Asked.quiet (c := c.accept token key) (fun _ => Or.inl hstate) hq
  | requested token sharedSecret text =>
    obtain ⟨hstate, -, key, -, hq⟩ := hdid
    exact Asked.quiet (c := (c.accept token key).request sharedSecret text) (fun _ => Or.inl hstate) hq
  | staged k stage =>
    obtain ⟨⟨r, hr, -⟩, hq⟩ := hdid
    exact Asked.quiet (c := c.stage k stage) (fun _ => h (List.ne_nil_of_mem (List.mem_of_getElem? hr))) hq
  | authenticated k id name =>
    obtain ⟨r, hr, -, hq⟩ := hdid
    exact Asked.quiet (c := ((c.stage k .finished).join r.sharedSecret id name).login.play) (fun _ => Or.inr rfl) hq
  | authenticatedFailed k id name =>
    obtain ⟨r, hr, -, -, hq⟩ := hdid
    exact Asked.quiet (c := ((c.stage k .finished).join r.sharedSecret id name).login)
      (fun _ => h (List.ne_nil_of_mem (List.mem_of_getElem? hr))) hq

theorem asked_step {w : World} {e : Event} {g g' : Gateway} (h : AllClients Asked g)
    (hstep : step E g (w, e) = some g') :
    AllClients Asked g' := by
  refine h.of_step (fun _ _ _ hsome => absurd rfl hsome) (fun j c c' l _ hc hconn _ => ?_) hstep
  obtain ⟨c₀, hq, hdid⟩ := hconn
  exact (hc.quiet hq).did hdid

theorem ciphered_step {w : World} {e : Event} {g g' : Gateway} (h : AllClients Ciphered g)
    (hstep : step E g (w, e) = some g') :
    AllClients Ciphered g' := by
  refine h.of_step ciphered_new (fun j c c' l _ hc hconn _ => ?_) hstep
  obtain ⟨c₀, hq, hdid⟩ := hconn
  exact (hc.quiet hq).did hdid

end Requests

/-! ## One event -/

/-- What is known of a gateway that a run has led to. -/
structure Gateway.Usual (g : Gateway) : Prop where
  sound : g.custody.Sound
  ciphered : AllClients Ciphered g
  asked : AllClients Asked g

theorem usual_init : Gateway.init.Usual := ⟨Custody.sound_init, allClients_init, allClients_init⟩

theorem Gateway.Usual.step {E : Env} {w : World} {e : Event} {g g' : Gateway} (h : g.Usual)
    (hstep : ClientGateway.step E g (w, e) = some g') : g'.Usual :=
  ⟨sound_step h.sound hstep, ciphered_step h.ciphered hstep, asked_step h.asked hstep⟩

theorem allStates_usual (E : Env) (run : List (World × Event)) : AllStates (step E) Gateway.Usual Gateway.init run :=
  allStates_of_inv (C := fun _ _ => True) (fun _ _ _ hu _ hstep => hu.step hstep) usual_init
    (allSteps_of_forall fun _ _ => trivial)

section Events

variable {E : Env} {w : World} {e : Event} {i j : ConnId} {g g' : Gateway} {c d : Client} {m : M Unit}

/-- Whom `Login` finds under the handle of a client that is there is the client itself, or dead. -/
theorem canHandOver (hs : g.custody.Sound) (hl : Live g i c) : CanHandOver g i c.socket.native_handle where
  uncompressed := fun j d hd => (usual_of_sound hs hd).uncompressed
  found := by
    intro j d hj hd hne
    by_contra halive
    have halive : d.alive = true := by simpa using halive
    obtain ⟨h, hh, hfreed, -, hhandle⟩ := hs.owned.fits _ _ (held_pending_iff.mpr hj)
    obtain ⟨d', hd', rfl⟩ := objects_of_custody hh
    obtain rfl : d = d' := Option.some.inj (hd.symm.trans hd')
    have hopen : d.socket.state ≠ .closed := (usual_of_sound hs hd).open_of_alive halive
    have hsame : c.socket.native_handle = d.socket.handle := hhandle.resolve_right fun hclosed => hopen hclosed.2
    have hc := custody_of_live hl
    have hiopen : c.socket.state ≠ .closed := fun hclosed =>
      hs.sockets.valid j _ hh (hsame.symm.trans (native_handle_of_closed hclosed))
    rw [native_handle_of_open hiopen] at hsame
    exact hne (hs.sockets.once i j _ _ hc hh ⟨hl.2, hiopen⟩ ⟨hfreed, hopen⟩ hsame).symm

/-- A client that does not deal with a read alone has failed, or logs in over the loopback. -/
theorem reads_of_not_alone {error : Bool} {data : Bytes} (hs : g.custody.Sound) (hc : g.objects[i]? = some c)
    (halive : c.alive = true) (hnot : ¬ c.ReadsAlone E w error data) :
    error = true ∨ ∃ p playerName, nextPacket E w c data = some p ∧ StartsLoopback c.holder p playerName := by
  by_contra hneither
  simp only [not_or, not_exists, not_and, Bool.not_eq_true] at hneither
  obtain ⟨herror, hno⟩ := hneither
  refine hnot ⟨fun _ p playerName hp => hno p playerName hp, fun hlost => ?_⟩
  have hstate : c.state = .LOGIN := hlost.resolve_left (by simp [herror])
  have hplay : c.owner = .clientServer → c.state = .PLAY :=
    hs.placed.play_of_alive i c.holder (by simp [Gateway.custody, hc]) halive
  cases howner : c.owner with
  | login => rfl
  | clientServer => exact absurd (hstate.symm.trans (hplay howner)) (by decide)

theorem ends_of_modify {α : Type} {f : Client → Client} {m : Unit → M α} {Q : α → Gateway → Prop}
    {F : Exn → Gateway → Prop}
    (hc : g.objects[i]? = some c) (h : c.freed = false → Exec.Ends (m ()) Q F ((connection i).write (f c) g)) :
    Exec.Ends (modifyClient i f >>= m) Q F g :=
  ends_of_write hc (.bind (Part.Acts.ends_write hc (acts_modify h)))

/-- **The handler of an event** of a connection ends, and every client that is there and alive then has gone on. -/
theorem handler_ends (hu : g.Usual) (he : e.connection = some i) (hm : handler E g w e = some m) :
    Exec.Ends m (fun _ => Led (Line.Turn E) (some i) g) (fun _ => Led (Line.Turn E) (some i) g) g := by
  have alone {c : Client} (hc : g.objects[i]? = some c) (halone : c.DealsAlone E w e) :
      Exec.Ends m (fun _ => Led (Line.Turn E) (some i) g) (fun _ => Led (Line.Turn E) (some i) g) g := by
    have husual := usual_of_sound hu.sound hc
    obtain ⟨n, hhandler, hacts⟩ := moves_of_dealsAlone husual.uncompressed husual.open_of_alive he halone
    have hdone (c' : Client) (hfollows : c.Follows E c') : Led (Line.Turn E) (some i) g ((connection i).write c' g) :=
      (Led.refl g).write hc hfollows.continues
    have hends := hacts m ((hhandler g hc).symm.trans hm)
    exact ends_of_write hc (Part.Acts.ends_write hc (hends.mono (fun _ => hdone) fun _ => hdone))
  have quietly {c c' : Client} (hc : g.objects[i]? = some c) (hfollows : c.Follows E c') :
      Led (Line.Turn E) (some i) g ((connection i).write c' g) := (Led.refl g).write hc hfollows.continues
  cases e with
  | onLengthReceive j error data =>
    obtain rfl : j = i := Option.some.inj he
    simp only [handler, Option.bind_eq_bind, Option.bind_eq_some_iff, Option.ite_none_right_eq_some,
      Option.some.injEq] at hm
    obtain ⟨c, hc, -, rfl⟩ := hm
    by_cases halone : c.DealsAlone E w (.onLengthReceive j error data)
    · exact alone hc halone
    · obtain ⟨halive, hnot⟩ := Classical.not_imp.mp halone
      have hreads := reads_of_not_alone hu.sound hc halive hnot
      have husual := usual_of_sound hu.sound hc
      let waited : Client := { c with readPending := false }
      have hled : Led (Line.Turn E) (some j) g ((connection j).write waited g) :=
        quietly hc (.silent rfl rfl id rfl rfl)
      refine ends_of_modify hc fun hfreed => ?_
      have hcan := (canHandOver hu.sound ⟨hc, hfreed⟩).write (c := waited) husual.uncompressed
      have hread := ends_onLengthReceive (E := E) (w := w) (c := waited) ((connection j).read_write g c waited hc)
        ⟨husual.uncompressed, husual.open_of_alive⟩ hcan hreads
      exact hread.mono (fun _ _ h => hled.trans h) fun _ _ h => hled.trans h
  | onWriteComplete j error =>
    obtain rfl : j = i := Option.some.inj he
    simp only [handler, Option.bind_eq_bind, Option.bind_eq_some_iff, Option.ite_none_right_eq_some,
      Option.some.injEq] at hm
    obtain ⟨c, hc, -, rfl⟩ := hm
    refine ends_of_modify hc fun _ => ?_
    have hled : Led (Line.Turn E) (some j) g ((connection j).write { c with writesPending := c.writesPending - 1 } g) :=
      quietly hc (.silent rfl rfl id rfl rfl)
    exact .ite (fun _ => ends_disconnect hled) fun _ => .pure hled
  | keepAlive j error expired =>
    obtain rfl : j = i := Option.some.inj he
    simp only [handler, Option.bind_eq_bind, Option.bind_eq_some_iff, Option.ite_none_right_eq_some,
      Option.some.injEq] at hm
    obtain ⟨c, hc, hwaits, rfl⟩ := hm
    by_cases halone : c.DealsAlone E w (.keepAlive j error expired)
    · exact alone hc halone
    · obtain ⟨-, hnot⟩ := Classical.not_imp.mp halone
      obtain ⟨herror, -⟩ := Classical.not_imp.mp hnot
      have hled : Led (Line.Turn E) (some j) g ((connection j).write { c with waitsPending := c.waitsPending - 1 } g) :=
        quietly hc (.turn rfl rfl id (List.append_nil _).symm fun _ => .expires hwaits)
      refine ends_of_modify hc fun _ =>
        .bind (Part.Acts.ends_write hc (acts_client fun _ => .ite (fun _ => .pure hled) fun _ => ?_))
      exact .ite (fun _ => ends_disconnect hled) fun hno => absurd herror hno
  | onHasJoinedPostComplete j k error more =>
    obtain rfl : j = i := Option.some.inj he
    simp only [handler, Option.bind_eq_bind, Option.bind_eq_some_iff] at hm
    obtain ⟨r, hr, hm⟩ := hm
    split at hm
    · rw [Option.ite_none_right_eq_some, Option.some.injEq] at hm
      obtain ⟨-, rfl⟩ := hm
      obtain ⟨c, hc, hrequest⟩ := stageOf_eq_some hr
      have hsome : c.requests ≠ [] := List.ne_nil_of_mem (List.mem_of_getElem? hrequest)
      obtain ⟨key, hkey⟩ := hu.ciphered j c hc (Or.inr hsome)
      have hcontext : c.encryptCipherContext.isSome := by
        obtain ⟨context, hcontext, -⟩ := Option.map_eq_some_iff.mp hkey
        simp [hcontext]
      exact ends_onHasJoinedPostComplete hc (hu.asked j c hc hsome) hcontext
        (usual_of_sound hu.sound hc).uncompressed fun hfreed =>
        canHandOver hu.sound ⟨hc, hfreed⟩
    · cases hm
  | connectedToMojang j k isOpen =>
    obtain rfl : j = i := Option.some.inj he
    obtain ⟨r, hr, -⟩ := Option.bind_eq_some_iff.mp hm
    obtain ⟨c, hc, -⟩ := stageOf_eq_some hr
    exact alone hc trivial
  | sslHandshakeComplete j k error =>
    obtain rfl : j = i := Option.some.inj he
    obtain ⟨r, hr, -⟩ := Option.bind_eq_some_iff.mp hm
    obtain ⟨c, hc, -⟩ := stageOf_eq_some hr
    exact alone hc trivial
  | sendHTTPRequestDone j k error =>
    obtain rfl : j = i := Option.some.inj he
    obtain ⟨r, hr, -⟩ := Option.bind_eq_some_iff.mp hm
    obtain ⟨c, hc, -⟩ := stageOf_eq_some hr
    exact alone hc trivial
  | readHTTPHeader j k error data =>
    obtain rfl : j = i := Option.some.inj he
    obtain ⟨r, hr, -⟩ := Option.bind_eq_some_iff.mp hm
    obtain ⟨c, hc, -⟩ := stageOf_eq_some hr
    exact alone hc trivial
  | peerReset j =>
    obtain rfl : j = i := Option.some.inj he
    obtain ⟨c, hc, -⟩ := Option.bind_eq_some_iff.mp hm
    exact alone hc trivial
  | acceptConstruct handle loopback verifyToken => cases he
  | acceptInsert => cases he
  | onDataReceived datagram => cases he

theorem ends_acceptInsert : Exec.Ends (acceptInsert i) (fun _ => Led (Line.Turn E) none g)
    (fun _ => Led (Line.Turn E) none g) g := by
  refine .bind (ends_client fun c _ =>
    .get_bind (.set_bind ((ends_free _).mono (fun _ g₁ h => ?_) fun _ _ h => h.elim)))
  exact (Led.refl g).spared (h.of_objects rfl)

/-- **One event** begins a connection, or lets one connection at most go on by itself, or is a datagram. -/
theorem step_cases (hu : g.Usual) (h : step E g (w, e) = some g') :
    (∃ handle loopback verifyToken, e = .acceptConstruct handle loopback verifyToken ∧
      g'.objects = g.objects ++ [Client.new .login ⟨handle, loopback, .connected⟩ verifyToken]) ∨
      (Led (Line.Turn E) e.connection g g' ∧ ∀ datagram, e ≠ .onDataReceived datagram) ∨
        ∃ datagram, e = .onDataReceived datagram ∧
          (datagram.bind messageOf).elim (g'.objects = g.objects) fun packet => PassedOn E packet g g' := by
  obtain ⟨m, hm, hwp⟩ := step_runs h
  cases he : e.connection with
  | some i =>
    refine Or.inr (Or.inl ⟨hwp _ (handler_ends hu he hm).2, ?_⟩)
    rintro datagram rfl
    cases he
  | none =>
    cases e with
    | acceptConstruct handle loopback verifyToken =>
      simp only [handler, Option.ite_none_right_eq_some, Option.some.injEq] at hm
      obtain ⟨-, rfl⟩ := hm
      exact Or.inl ⟨handle, loopback, verifyToken, rfl, hwp (fun g' => g'.objects = _) rfl⟩
    | acceptInsert =>
      obtain ⟨i, -, rfl⟩ := Option.map_eq_some_iff.mp hm
      exact Or.inr (Or.inl ⟨hwp _ ends_acceptInsert.2, fun _ h => by cases h⟩)
    | onDataReceived datagram =>
      simp only [handler, Option.ite_none_right_eq_some, Option.some.injEq] at hm
      obtain ⟨-, rfl⟩ := hm
      exact Or.inr (Or.inr ⟨datagram, rfl, hwp
        (fun g' => (datagram.bind messageOf).elim (g'.objects = g.objects) fun packet => PassedOn E packet g g')
        (wp_onDataReceived_passedOn hu.sound datagram)⟩)
    | _ => cases he

/-- The event is about the connection `j`: it completes one of its operations, or brings a message for its player. -/
def Concerns (g : Gateway) (e : Event) (j : ConnId) : Prop :=
  e.connection = some j ∨ ∃ datagram, e = .onDataReceived datagram ∧ SentTo g datagram j

/-- An event begins a connection, or every client that is there and alive afterwards has gone on with its line; only one
that the event is about has said anything. -/
theorem step_led (hu : g.Usual) (h : step E g (w, e) = some g') :
    (∃ handle loopback verifyToken, e = .acceptConstruct handle loopback verifyToken ∧
      g'.objects = g.objects ++ [Client.new .login ⟨handle, loopback, .connected⟩ verifyToken]) ∨
      ∃ k, Led (Line.Talks E) k g g' ∧ ∀ j, k = some j → Concerns g e j := by
  rcases step_cases hu h with haccepted | ⟨hled, -⟩ | ⟨datagram, rfl, hhandled⟩
  · exact Or.inl haccepted
  · exact Or.inr ⟨_, hled.mono fun _ _ _ => .speaks, fun j hj => Or.inl hj⟩
  · refine Or.inr ?_
    cases hpacket : datagram.bind messageOf with
    | none =>
      rw [hpacket] at hhandled
      exact ⟨none, (Led.refl g).of_objects hhandled, nofun⟩
    | some packet =>
      rw [hpacket] at hhandled
      obtain ⟨k, hled, hfor⟩ := PassedOn.led hhandled
      exact ⟨k, hled, fun j hj => Or.inr ⟨datagram, rfl, packet, hpacket, hfor j hj⟩⟩

end Events

/-! ## Runs -/

/-- The log of every live connection is the history of a line from its start. -/
def Told (E : Env) (g : Gateway) : Prop :=
  ∀ (i : ConnId) (c : Client), g.objects[i]? = some c → c.OnLine → History (Line.Talks E) .start c.log c.line

theorem told_init {E : Env} : Told E Gateway.init := fun _ _ h => by cases h

section Runs

variable {E : Env} {w : World} {e : Event} {i : ConnId} {g g' : Gateway} {c c' : Client} {run es : List (World × Event)}

theorem step_told (hu : g.Usual) (ht : Told E g) (h : step E g (w, e) = some g') : Told E g' := by
  intro i c' hc' honline
  rcases step_led hu h with ⟨handle, loopback, verifyToken, -, hobjects⟩ | ⟨k, hled, -⟩
  · rw [hobjects, List.getElem?_append] at hc'
    split at hc'
    · exact ht i c' hc' honline
    · rw [List.getElem?_singleton] at hc'
      split at hc'
      · obtain rfl := Option.some.inj hc'
        exact .nil _
      · cases hc'
  · have hlt : i < g.objects.length := hled.1 ▸ (List.getElem?_eq_some_iff.mp hc').1
    obtain ⟨c₁, hc₁, hgoes, -⟩ := hled.2 i _ (List.getElem?_eq_getElem hlt)
    obtain rfl : c₁ = c' := Option.some.inj (hc₁.symm.trans hc')
    obtain ⟨honline₀, as, hlog, hspeaks⟩ := hgoes honline
    rw [hlog]
    exact (ht i _ (List.getElem?_eq_getElem hlt) honline₀).append hspeaks

theorem allStates_told (E : Env) (run : List (World × Event)) : AllStates (step E) (Told E) Gateway.init run := by
  have hboth : AllStates (step E) (fun g => g.Usual ∧ Told E g) Gateway.init run :=
    allStates_of_inv (C := fun _ _ => True) (fun _ _ _ hI _ hstep => ⟨hI.1.step hstep, step_told hI.1 hI.2 hstep⟩)
      ⟨usual_init, told_init⟩ (allSteps_of_forall fun _ _ => trivial)
  exact hboth.mono fun _ h => h.2

/-- **The transcript.** In every state that a run reaches, what a live connection has taken in, sent and written, in
this order, is what its line may say from its start. -/
theorem transcript (E : Env) (run : List (World × Event)) : AllStates (step E) (Told E) Gateway.init run :=
  allStates_told E run

theorem continues_along (hu : g.Usual) (hrun : runFrom (step E) g es = some g') (hc : g.objects[i]? = some c)
    (hc' : g'.objects[i]? = some c') : c.Continues (Line.Talks E) c' := by
  induction es generalizing g c with
  | nil =>
    obtain rfl : g = g' := Option.some.inj hrun
    obtain rfl : c = c' := Option.some.inj (hc.symm.trans hc')
    exact .refl c
  | cons e es ih =>
    obtain ⟨g₁, hstep, hrest⟩ := runFrom_cons_some hrun
    have hstill : ∃ c₁, g₁.objects[i]? = some c₁ ∧ c.Continues (Line.Talks E) c₁ := by
      rcases step_led (w := e.1) (e := e.2) hu hstep with ⟨handle, loopback, verifyToken, -, hobjects⟩ | ⟨k, hled, -⟩
      · refine ⟨c, ?_, .refl c⟩
        rw [hobjects, List.getElem?_append_left (List.getElem?_eq_some_iff.mp hc).1, hc]
      · obtain ⟨c₁, hc₁, hgoes, -⟩ := hled.2 i c hc
        exact ⟨c₁, hc₁, hgoes⟩
    obtain ⟨c₁, hc₁, hgoes⟩ := hstill
    exact hgoes.trans (ih (hu.step hstep) hrest hc₁)

end Runs

end CeriosCluster.ClientGateway
