import CeriosCluster.ClientGateway.Reading

/-!
# The gateway refines the automaton

Every event of the gateway is a step of the automaton for each of its clients, so what the automaton's
steps keep holds of every client of every state that a run reaches.
-/

namespace CeriosCluster.ClientGateway

open CeriosCluster.Lib CeriosCluster.MCPacket

/-! ## The session-server request -/

section Request

variable {E : Env} {w : World} {i : ConnId} {g g₁ : Gateway} {d : Client} {k : Nat}

/-- The client's request has moved to another stage and nothing else has happened to its login. -/
def Restaged (k : Nat) (c c' : Client) : Prop := ∃ stage, Quiet (c.stage k stage) c'

theorem Client.stage_stage (c : Client) (k : Nat) (s t : Stage) : (c.stage k s).stage k t = c.stage k t := by
  simp only [Client.stage, List.modify_modify_eq]
  rfl

theorem wp_setStage {α : Type} {stage : Stage} {m : Unit → M α} {Q : α → Gateway → Prop} {F : Exn → Gateway → Prop}
    (h : Turned g i (· = d) g₁) (hm : ∀ g₂, Turned g i (· = d.stage k stage) g₂ → Exec.wp (m ()) Q F g₂) :
    Exec.wp (setStage i k stage >>= m) Q F g₁ := by
  rw [Exec.wp_bind]
  exact h.wp_modify_eq hm

theorem wp_setStage_again {s t : Stage} (h : Turned g i (· = d.stage k s) g₁) :
    Exec.wp (setStage i k t) (fun _ => Turned g i (Restaged k d)) (fun _ => Turned g i (Restaged k d)) g₁ :=
  h.wp_modify_eq fun _ h₂ => h₂.mono fun _ hc => ⟨t, Quiet.of_eq (hc.trans (d.stage_stage k s t))⟩

theorem Turned.restaged {s : Stage} (h : Turned g i (· = d.stage k s) g₁) : Turned g i (Restaged k d) g₁ :=
  h.mono fun _ hc => ⟨s, Quiet.of_eq hc⟩

theorem wp_connectedToMojang (isOpen : Bool) (h : Turned g i (· = d) g₁) :
    Exec.wp (connectedToMojang i k isOpen) (fun _ => Turned g i (Restaged k d))
      (fun _ => Turned g i (Restaged k d)) g₁ := by
  refine wp_setStage h fun g₂ h₂ => ?_
  rw [Exec.wp_ite]
  exact ⟨fun _ => wp_setStage_again h₂, fun _ => h₂.restaged⟩

theorem wp_sslHandshakeComplete (error : Bool) (h : Turned g i (· = d) g₁) :
    Exec.wp (sslHandshakeComplete i k error) (fun _ => Turned g i (Restaged k d))
      (fun _ => Turned g i (Restaged k d)) g₁ := by
  refine wp_setStage h fun g₂ h₂ => ?_
  rw [Exec.wp_ite]
  exact ⟨fun _ => h₂.restaged, fun _ => wp_setStage_again h₂⟩

theorem wp_sendHTTPRequestDone (error : Bool) (h : Turned g i (· = d) g₁) :
    Exec.wp (sendHTTPRequestDone i k error) (fun _ => Turned g i (Restaged k d))
      (fun _ => Turned g i (Restaged k d)) g₁ := by
  refine wp_setStage h fun g₂ h₂ => ?_
  rw [Exec.wp_ite]
  exact ⟨fun _ => h₂.restaged, fun _ => wp_setStage_again h₂⟩

theorem wp_readHTTPHeader (error : Bool) (data : Bytes) (h : Turned g i (· = d) g₁) :
    Exec.wp (readHTTPHeader i k error data) (fun _ => Turned g i (Restaged k d))
      (fun _ => Turned g i (Restaged k d)) g₁ := by
  refine wp_setStage h fun g₂ h₂ => ?_
  rw [Exec.wp_bind]
  refine h₂.wp_client_eq ?_
  rw [Exec.wp_ite]
  refine ⟨fun _ => h₂.restaged, fun _ => ?_⟩
  split
  · exact h₂.restaged
  · have hcancel : Exec.Keeps AllQuiet (remoteEndpoint i >>= fun _ => socketCancel i) :=
      .bind (Inert.quiet inert_remoteEndpoint) fun _ => Inert.quiet inert_socketCancel
    refine h₂.restaged.wp_keeps hcancel ?_ (fun _ _ h₃ => h₃) (fun _ _ h₃ => h₃)
    rintro c c' ⟨stage, hc⟩ hq
    exact ⟨stage, hc.trans hq⟩
  · split
    · exact h₂.restaged
    · exact wp_setStage_again h₂

/-- The members the body read for the request has. -/
def replyOf (E : Env) (data : Bytes) (length : Nat) : Option (Bytes × Bytes) :=
  E.parsePlayerInfo ((data.take length).takeWhile (· != 0))

/-- The session server's answer has logged the client in, or the packet that says so could not be framed. -/
def Joined (E : Env) (k : Nat) (sharedSecret id name : Bytes) (c c' : Client) : Prop :=
  Quiet (((c.stage k .finished).join sharedSecret id name).login.play) c' ∨
    Unframable E ((c.stage k .finished).join sharedSecret id name) ∧
      Quiet (((c.stage k .finished).join sharedSecret id name).login) c'

theorem wp_onHasJoinedPostComplete {sharedSecret data : Bytes} {error : ReadError} {length : Nat}
    (h : Turned g i (· = d) g₁) :
    Exec.wp (onHasJoinedPostComplete E w i k sharedSecret error data length)
      (fun _ => Turned g i fun c => Restaged k d c ∨
        ∃ id name, replyOf E data length = some (id, name) ∧ Joined E k sharedSecret id name d c)
      (fun _ => Turned g i fun c => Restaged k d c ∨
        ∃ id name, replyOf E data length = some (id, name) ∧ Joined E k sharedSecret id name d c) g₁ := by
  refine wp_setStage h fun g₂ h₂ => ?_
  rw [Exec.wp_ite]
  refine ⟨fun _ => h₂.restaged.mono fun _ => Or.inl, fun _ => ?_⟩
  rw [Exec.wp_ite]
  refine ⟨fun _ => trivial, fun _ => ?_⟩
  rw [replyOf]
  split
  · trivial
  · next id name hreply =>
    rw [Exec.wp_bind]
    refine h₂.wp_modify_eq fun g₃ h₃ => ?_
    rw [Exec.wp_bind]
    refine h₃.wp_modify_eq fun g₄ h₄ => ?_
    rw [Exec.wp_bind]
    refine h₄.wp_modify_eq fun g₅ h₅ => ?_
    rw [Exec.wp_bind]
    refine h₅.wp_modify_eq fun g₆ h₆ => ?_
    rw [Exec.wp_bind]
    refine h₆.wp_client_eq ?_
    rw [Exec.wp_bind]
    refine h₆.wp_modify_eq fun g₇ h₇ => ?_
    refine Exec.wp_mono (wp_onPlayerLogin h₇) (fun _ g₈ h₈ => h₈.mono fun c hc => ?_) fun _ g₈ h₈ =>
      h₈.mono fun c hc => ?_
    · exact Or.inr ⟨id, name, hreply, Or.inl hc⟩
    · exact Or.inr ⟨id, name, hreply, hc⟩

end Request

/-! ## Events -/

/-- The steps an event asks of the client `j`, which is `c` before it and `c'` after it. -/
def FromEvent (E : Env) (w : World) (j : ConnId) (c c' : Client) (l : Label) : Event → Prop
  | .onLengthReceive i error data => if j = i then FromRead E w error data c c' l else l = .quiet
  | .connectedToMojang i k _ => if j = i then ∃ stage, l = .staged k stage else l = .quiet
  | .sslHandshakeComplete i k _ => if j = i then ∃ stage, l = .staged k stage else l = .quiet
  | .sendHTTPRequestDone i k _ => if j = i then ∃ stage, l = .staged k stage else l = .quiet
  | .readHTTPHeader i k _ _ => if j = i then ∃ stage, l = .staged k stage else l = .quiet
  | .onHasJoinedPostComplete i k _ more =>
    if j = i then
      (∃ stage, l = .staged k stage) ∨
        ∃ r length data id name, c.requests[k]? = some r ∧ r.stage = .readingBody length data ∧
          replyOf E (data ++ more) length = some (id, name) ∧
          (l = .authenticated k id name ∨ l = .authenticatedFailed k id name)
    else l = .quiet
  | _ => l = .quiet

/-- Every client of `g` has taken a step of the automaton that the event asks for. -/
def Simulates (E : Env) (w : World) (e : Event) : Gateway → Gateway → Prop :=
  EveryClient fun j c c' => ∃ l, ConnStep E l c c' ∧ FromEvent E w j c c' l e

section Events

variable {E : Env} {w : World} {e : Event} {i : ConnId} {g g' : Gateway} {d : Client}

/-- A step runs the handler of its event, and goes on from where it returned or threw. -/
theorem step_runs (h : step E g (w, e) = some g') :
    ∃ m, handler E g w e = some m ∧ ∀ P : Gateway → Prop, Exec.wp m (fun _ => P) (fun _ => P) g → P g' := by
  unfold step at h
  split at h
  · cases h
  · next m hm =>
    refine ⟨m, hm, fun P hP => ?_⟩
    unfold Exec.wp at hP
    split at h
    · next hres => rw [hres] at hP; exact Option.some.inj h ▸ hP
    · next hres => rw [hres] at hP; exact Option.some.inj h ▸ hP
    · cases h
    · cases h

theorem Simulates.of_quiet (h : AllQuiet g g') (he : ∀ j c c', FromEvent E w j c c' .quiet e) : Simulates E w e g g' :=
  EveryClient.mono h fun j c c' hq => ⟨.quiet, .of_quiet hq, he j c c'⟩

/-- One client has taken the step, and the event asks nothing of the others. -/
theorem Simulates.of_turned {P : Client → Prop} (hd : g.objects[i]? = some d) (h : Turned g i P g')
    (hi : ∀ c', P c' → ∃ l, ConnStep E l d c' ∧ FromEvent E w i d c' l e)
    (hj : ∀ j c c', j ≠ i → FromEvent E w j c c' .quiet e) : Simulates E w e g g' := by
  refine ⟨h.1, fun j c hc => ?_⟩
  obtain ⟨c', hc', hturned⟩ := h.2 j c hc
  refine ⟨c', hc', ?_⟩
  split at hturned
  · next hji =>
    subst hji
    obtain rfl : d = c := Option.some.inj (hd.symm.trans hc)
    exact hi c' hturned
  · next hji => exact ⟨.quiet, .of_quiet hturned, hj j c c' hji⟩

theorem wp_modify_first {α : Type} {m : M α} {Q : α → Gateway → Prop} {F : Exn → Gateway → Prop}
    (hm : ∃ f n, m = (modifyClient i f >>= n)) (hd : g.objects[i]? = some d)
    (h : Live g i d → Exec.wp m Q F g) : Exec.wp m Q F g := by
  obtain ⟨f, n, rfl⟩ := hm
  rw [Exec.wp_bind, wp_modifyClient] at h ⊢
  intro c hl
  obtain rfl : d = c := Option.some.inj (hd.symm.trans hl.1)
  exact h hl d hl

theorem wp_client_first {α : Type} {m : M α} {Q : α → Gateway → Prop} {F : Exn → Gateway → Prop}
    (hm : ∃ n, m = (client i >>= n)) (hd : g.objects[i]? = some d) (h : Live g i d → Exec.wp m Q F g) :
      Exec.wp m Q F g := by
  obtain ⟨n, rfl⟩ := hm
  rw [Exec.wp_bind, wp_client] at h ⊢
  intro c hl
  obtain rfl : d = c := Option.some.inj (hd.symm.trans hl.1)
  exact h hl d hl

theorem stageOf_eq_some {k : Nat} {r : Request} (h : stageOf g i k = some r) :
    ∃ c, g.objects[i]? = some c ∧ c.requests[k]? = some r := Option.bind_eq_some_iff.mp h

theorem wp_restages {m : M Unit} {k : Nat} {r : Request} (hr : stageOf g i k = some r) (hflight : r.InFlight)
    (hfirst : ∃ f n, m = (modifyClient i f >>= n))
    (hm : ∀ c, Turned g i (· = c) g →
      Exec.wp m (fun _ => Turned g i (Restaged k c)) (fun _ => Turned g i (Restaged k c)) g)
    (he : ∀ j c c' l, FromEvent E w j c c' l e = if j = i then ∃ stage, l = .staged k stage else l = .quiet) :
    Exec.wp m (fun _ => Simulates E w e g) (fun _ => Simulates E w e g) g := by
  obtain ⟨c, hc, hcr⟩ := stageOf_eq_some hr
  refine wp_modify_first hfirst hc fun hl => ?_
  have hdone : ∀ g', Turned g i (Restaged k c) g' → Simulates E w e g g' := by
    refine fun g' h' => .of_turned hc h' ?_ fun j c c' hj => by rw [he, if_neg hj]
    rintro c' ⟨stage, hq⟩
    exact ⟨.staged k stage, .of_did ⟨⟨r, hcr, hflight⟩, hq⟩, by rw [he, if_pos rfl]; exact ⟨stage, rfl⟩⟩
  exact Exec.wp_mono (hm c (Turned.start hl)) (fun _ => hdone) fun _ => hdone

/-- **Refinement.** Every event but the construction of a client is a step of the automaton for every
client. -/
theorem step_simulates (h : step E g (w, e) = some g') :
    (∃ handle loopback verifyToken, e = .acceptConstruct handle loopback verifyToken ∧
      g'.objects = g.objects ++ [Client.new .login ⟨handle, loopback, .connected⟩ verifyToken]) ∨
      Simulates E w e g g' := by
  obtain ⟨m, hm, hwp⟩ := step_runs h
  cases e with
  | acceptConstruct handle loopback verifyToken =>
    simp only [handler, Option.ite_none_right_eq_some, Option.some.injEq] at hm
    obtain ⟨-, rfl⟩ := hm
    refine Or.inl ⟨handle, loopback, verifyToken, rfl, ?_⟩
    exact hwp (fun g' => g'.objects = _) rfl
  | acceptInsert =>
    obtain ⟨i, -, rfl⟩ := Option.map_eq_some_iff.mp hm
    exact Or.inr (.of_quiet (hwp _ (keeps_acceptInsert g)) fun _ _ _ => rfl)
  | onLengthReceive i error data =>
    simp only [handler, Option.bind_eq_bind, Option.bind_eq_some_iff, Option.ite_none_right_eq_some,
      Option.some.injEq] at hm
    obtain ⟨d, hd, -, rfl⟩ := hm
    refine Or.inr (hwp _ (wp_modify_first ⟨_, _, rfl⟩ hd fun hl => ?_))
    rw [Exec.wp_bind]
    refine (Turned.start hl).wp_modify_eq fun g₁ h₁ => ?_
    have hdone : ∀ g', Turned g i (Reads E w error data { d with readPending := false }) g' →
        Simulates E w (.onLengthReceive i error data) g g' := by
      refine fun g' h' => .of_turned hd h' ?_ fun j c c' hj => by rw [FromEvent, if_neg hj]
      rintro c' ⟨l, hstep, hfrom⟩
      have hread : Quiet d { d with readPending := false } := { Quiet.refl d with }
      exact ⟨l, hstep.quiet_before hread, by rw [FromEvent, if_pos rfl]; exact hfrom⟩
    exact Exec.wp_mono (wp_onLengthReceive h₁) (fun _ => hdone) fun _ => hdone
  | onWriteComplete i error =>
    simp only [handler, Option.bind_eq_bind, Option.bind_eq_some_iff, Option.ite_none_right_eq_some,
      Option.some.injEq] at hm
    obtain ⟨d, hd, -, rfl⟩ := hm
    refine Or.inr (.of_quiet (hwp _ ?_) fun _ _ _ => rfl)
    refine Exec.Keeps.bind (keeps_modifyClient ?_) (fun _ => keeps_onWriteComplete error) g
    exact fun c => { Quiet.refl c with }
  | keepAlive i error expired =>
    simp only [handler, Option.bind_eq_bind, Option.bind_eq_some_iff, Option.ite_none_right_eq_some,
      Option.some.injEq] at hm
    obtain ⟨d, hd, -, rfl⟩ := hm
    refine Or.inr (.of_quiet (hwp _ ?_) fun _ _ _ => rfl)
    refine Exec.Keeps.bind (keeps_modifyClient ?_) (fun _ => keeps_keepAlive error expired) g
    exact fun c => { Quiet.refl c with }
  | connectedToMojang i k isOpen =>
    simp only [handler, Option.bind_eq_bind, Option.bind_eq_some_iff, Option.ite_none_right_eq_some,
      Option.some.injEq] at hm
    obtain ⟨r, hr, hstage, rfl⟩ := hm
    have hflight : r.InFlight := by simp [Request.InFlight, hstage]
    exact Or.inr (hwp _ (wp_restages hr hflight ⟨_, _, rfl⟩ (fun c => wp_connectedToMojang isOpen) fun _ _ _ _ => rfl))
  | sslHandshakeComplete i k error =>
    simp only [handler, Option.bind_eq_bind, Option.bind_eq_some_iff, Option.ite_none_right_eq_some,
      Option.some.injEq] at hm
    obtain ⟨r, hr, hstage, rfl⟩ := hm
    have hflight : r.InFlight := by simp [Request.InFlight, hstage]
    exact Or.inr (hwp _ (wp_restages hr hflight ⟨_, _, rfl⟩ (fun c => wp_sslHandshakeComplete error) fun _ _ _ _ =>
      rfl))
  | sendHTTPRequestDone i k error =>
    simp only [handler, Option.bind_eq_bind, Option.bind_eq_some_iff, Option.ite_none_right_eq_some,
      Option.some.injEq] at hm
    obtain ⟨r, hr, hstage, rfl⟩ := hm
    have hflight : r.InFlight := by simp [Request.InFlight, hstage]
    exact Or.inr (hwp _ (wp_restages hr hflight ⟨_, _, rfl⟩ (fun c => wp_sendHTTPRequestDone error) fun _ _ _ _ => rfl))
  | readHTTPHeader i k error data =>
    simp only [handler, Option.bind_eq_bind, Option.bind_eq_some_iff, Option.ite_none_right_eq_some,
      Option.some.injEq] at hm
    obtain ⟨r, hr, hstage, rfl⟩ := hm
    have hflight : r.InFlight := by simp [Request.InFlight, hstage]
    exact Or.inr (hwp _ (wp_restages hr hflight ⟨_, _, rfl⟩ (fun c => wp_readHTTPHeader error data) fun _ _ _ _ => rfl))
  | onHasJoinedPostComplete i k error more =>
    simp only [handler, Option.bind_eq_bind, Option.bind_eq_some_iff] at hm
    obtain ⟨r, hr, hm⟩ := hm
    split at hm
    · next length data hstage =>
      rw [Option.ite_none_right_eq_some, Option.some.injEq] at hm
      obtain ⟨-, rfl⟩ := hm
      have hflight : r.InFlight := by simp [Request.InFlight, hstage]
      obtain ⟨d, hd, hdr⟩ := stageOf_eq_some hr
      refine Or.inr (hwp _ (wp_modify_first ⟨_, _, rfl⟩ hd fun hl => ?_))
      have hdone : ∀ g', Turned g i (fun c => Restaged k d c ∨
          ∃ id name, replyOf E (data ++ more) length = some (id, name) ∧ Joined E k r.sharedSecret id name d c) g' →
          Simulates E w (.onHasJoinedPostComplete i k error more) g g' := by
        refine fun g' h' => .of_turned hd h' ?_ fun j c c' hj => by rw [FromEvent, if_neg hj]
        simp only [FromEvent, if_true]
        rintro c' (⟨stage, hq⟩ | ⟨id, name, hreply, hq | ⟨hframe, hq⟩⟩)
        · exact ⟨.staged k stage, .of_did ⟨⟨r, hdr, hflight⟩, hq⟩, Or.inl ⟨stage, rfl⟩⟩
        · exact ⟨.authenticated k id name, .of_did ⟨r, hdr, hflight, hq⟩,
            Or.inr ⟨r, length, data, id, name, hdr, hstage, hreply, Or.inl rfl⟩⟩
        · exact ⟨.authenticatedFailed k id name, .of_did ⟨r, hdr, hflight, hframe, hq⟩,
            Or.inr ⟨r, length, data, id, name, hdr, hstage, hreply, Or.inr rfl⟩⟩
      exact Exec.wp_mono (wp_onHasJoinedPostComplete (Turned.start hl)) (fun _ => hdone) fun _ => hdone
    · cases hm
  | onDataReceived datagram =>
    simp only [handler, Option.ite_none_right_eq_some, Option.some.injEq] at hm
    obtain ⟨-, rfl⟩ := hm
    exact Or.inr (.of_quiet (hwp _ (keeps_onDataReceived datagram g)) fun _ _ _ => rfl)
  | peerReset i =>
    simp only [handler, Option.bind_eq_bind, Option.bind_eq_some_iff, Option.ite_none_right_eq_some,
      Option.some.injEq] at hm
    obtain ⟨d, hd, -, rfl⟩ := hm
    refine Or.inr (.of_quiet (hwp _ ?_) fun _ _ _ => rfl)
    refine keeps_modifyClient ?_ g
    exact fun c => { Quiet.refl c with }

end Events

/-! ## Steps that take a packet -/

def Label.OfPacket : Label → Prop
  | .quiet => False
  | .staged _ _ => False
  | .authenticated _ _ _ => False
  | .authenticatedFailed _ _ _ => False
  | _ => True

/-- A step on a packet is taken by a read of the client that completes the packet. -/
theorem FromEvent.ofPacket {E : Env} {w : World} {e : Event} {j : ConnId} {c c' : Client} {l : Label} (hl : l.OfPacket)
    (h : FromEvent E w j c c' l e) :
    ∃ data p, e = .onLengthReceive j false data ∧ c.alive = true ∧ nextPacket E w c data = some p ∧
      FromPacket w c p l ∧ (OnlyThrows c l → c'.alive = false) := by
  have hquiet : l ≠ .quiet := by rintro rfl; exact hl
  have hstaged : ∀ k, ¬ ∃ stage, l = .staged k stage := by rintro k ⟨stage, rfl⟩; exact hl
  have hrequest {i : ConnId} {k : Nat} {p : Prop} (h : if j = i then ∃ stage, l = .staged k stage else l = .quiet) :
    p := by
    split at h
    · exact absurd h (hstaged k)
    · exact absurd h hquiet
  cases e with
  | onLengthReceive i error data =>
    rw [FromEvent] at h
    split at h
    · next hj =>
      rw [FromRead] at h
      split at h
      · next hread =>
        obtain ⟨halive, rfl⟩ := hread
        split at h
        · exact absurd h hquiet
        · next p hp => exact ⟨data, p, by rw [hj], halive, hp, h⟩
      · exact absurd h hquiet
    · exact absurd h hquiet
  | onHasJoinedPostComplete i k error more =>
    rw [FromEvent] at h
    split at h
    · rcases h with h | ⟨_, _, _, _, _, _, _, _, rfl | rfl⟩
      · exact absurd h (hstaged k)
      · exact hl.elim
      · exact hl.elim
    · exact absurd h hquiet
  | connectedToMojang i k _ => exact hrequest h
  | sslHandshakeComplete i k _ => exact hrequest h
  | sendHTTPRequestDone i k _ => exact hrequest h
  | readHTTPHeader i k _ _ => exact hrequest h
  | acceptConstruct _ _ _ => exact absurd h hquiet
  | acceptInsert => exact absurd h hquiet
  | onWriteComplete _ _ => exact absurd h hquiet
  | keepAlive _ _ _ => exact absurd h hquiet
  | onDataReceived _ => exact absurd h hquiet
  | peerReset _ => exact absurd h hquiet

/-- A step that accepts an `EncryptionPacket` is taken by a read that completes it. -/
theorem FromEvent.ofAccepting {E : Env} {w : World} {e : Event} {j : ConnId} {c c' : Client} {l : Label}
    {token sharedSecret : Bytes} (hl : l.Accepting token sharedSecret) (h : FromEvent E w j c c' l e) :
    ∃ data p f, e = .onLengthReceive j false data ∧ c.alive = true ∧ nextPacket E w c data = some p ∧
      p.fields = .encryption f ∧ w.pkeyDecrypt f.sealedVerifyToken = some token ∧ Accepts w c f sharedSecret := by
  have hpacket : l.OfPacket := by rcases hl with rfl | ⟨text, rfl⟩ <;> trivial
  obtain ⟨data, p, he, halive, hp, hfrom, -⟩ := h.ofPacket hpacket
  have haccepts : ∃ f, p.fields = .encryption f ∧ w.pkeyDecrypt f.sealedVerifyToken = some token ∧
    Accepts w c f sharedSecret := by
    rcases hl with rfl | ⟨text, rfl⟩ <;> exact hfrom
  obtain ⟨f, hf, htoken, haccepts⟩ := haccepts
  exact ⟨data, p, f, he, halive, hp, hf, htoken, haccepts⟩

/-! ## Invariants of the clients -/

def AllClients (I : Client → Prop) (g : Gateway) : Prop := ∀ (j : ConnId) (c : Client), g.objects[j]? = some c → I c

section Invariants

variable {E : Env} {w : World} {e : Event} {g g' : Gateway} {I : Client → Prop}

theorem allClients_init : AllClients I Gateway.init := fun _ _ h => by cases h

/-- What a new client satisfies and the automaton's steps keep, the gateway's steps keep. -/
theorem AllClients.of_step (hI : AllClients I g)
    (hnew : ∀ handle loopback verifyToken, I (Client.new .login ⟨handle, loopback, .connected⟩ verifyToken))
    (hstep : ∀ j c c' l, g.objects[j]? = some c → I c → ConnStep E l c c' → FromEvent E w j c c' l e → I c')
    (h : step E g (w, e) = some g') : AllClients I g' := by
  intro j c' hc'
  rcases step_simulates h with ⟨handle, loopback, verifyToken, -, hobjects⟩ | hsim
  · rw [hobjects] at hc'
    rcases List.mem_append.mp (List.mem_of_getElem? hc') with hmem | hmem
    · obtain ⟨j', hj'⟩ := List.mem_iff_getElem?.mp hmem
      exact hI j' c' hj'
    · rw [List.mem_singleton.mp hmem]
      exact hnew handle loopback verifyToken
  · have hlt : j < g.objects.length := hsim.1 ▸ (List.getElem?_eq_some_iff.mp hc').1
    obtain ⟨c₁, hc₁, l, hconn, hfrom⟩ := hsim.2 j _ (List.getElem?_eq_getElem hlt)
    obtain rfl : c₁ = c' := Option.some.inj (hc₁.symm.trans hc')
    exact hstep j _ c₁ l (List.getElem?_eq_getElem hlt) (hI j _ (List.getElem?_eq_getElem hlt)) hconn hfrom

def clientAfter (E : Env) (run : List (World × Event)) (i : ConnId) : Option Client :=
  (runFrom (step E) Gateway.init run).bind fun g => g.objects[i]?

theorem AllClients.after {run : List (World × Event)} {i : ConnId} {c : Client}
    (h : AllStates (step E) (AllClients I) Gateway.init run) (hc : clientAfter E run i = some c) : I c := by
  obtain ⟨g, hg, hi⟩ := Option.bind_eq_some_iff.mp hc
  exact h.last hg i c hi

end Invariants

end CeriosCluster.ClientGateway
