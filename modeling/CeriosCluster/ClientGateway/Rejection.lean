import CeriosCluster.ClientGateway.SessionKey
import CeriosCluster.ClientGateway.StatusLine

/-!
# Responses that refuse a player

A request whose response is not read any further is finished, and a finished request stays finished, so its
`onHasJoinedPostComplete` never runs. A response of another code than 200 is not read further when its status line or
another line of its header is noticed, or when the header gives no length.
-/

namespace CeriosCluster.ClientGateway

open CeriosCluster.Lib CeriosCluster.MCPacket

def NotBodyOf (i : ConnId) (k : Nat) (e : World × Event) : Prop :=
  ∀ error more, e.2 ≠ .onHasJoinedPostComplete i k error more

/-! ## Finished requests -/

def HasFinished (k : Nat) (c : Client) : Prop := ∃ r, c.requests[k]? = some r ∧ r.stage = .finished

section Finished

variable {E : Env} {w : World} {e : Event} {g g' : Gateway} {i : ConnId} {c c' : Client} {k : Nat} {l : Label}

theorem HasFinished.stage {k' : Nat} {stage : Stage} (h : HasFinished k c) (hk : k' ≠ k) :
    HasFinished k (c.stage k' stage) := by
  obtain ⟨r, hr, hstage⟩ := h
  refine ⟨r, ?_, hstage⟩
  unfold Client.stage
  rw [List.getElem?_modify_ne _ _ hk, hr]

/-- The step of the automaton is not one of the finished request. -/
theorem HasFinished.ne_of_inFlight {k' : Nat} {r : Request} (h : HasFinished k c) (hr : c.requests[k']? = some r)
    (hflight : r.InFlight) : k' ≠ k := by
  rintro rfl
  obtain ⟨r', hr', hstage⟩ := h
  obtain rfl := Option.some.inj (hr.symm.trans hr')
  exact hflight hstage

theorem HasFinished.quiet (h : HasFinished k c) (hq : Quiet c c') : HasFinished k c' := by
  unfold HasFinished
  rw [hq.requests]
  exact h

theorem HasFinished.did (h : HasFinished k c) (hdid : Did E c c' l) : HasFinished k c' := by
  cases l with
  | quiet => exact h.quiet hdid
  | handshake n => exact HasFinished.quiet (c := { c with state := n }) h hdid.2
  | loginStart name token =>
    exact HasFinished.quiet (c := { c with requestedUsername := name, verifyToken := token }) h hdid.2
  | loopbackLogin name userid =>
    exact HasFinished.quiet (c := { c with requestedUsername := name, userid := userid }.login.play) h hdid.2.2
  | loopbackLoginFailed name userid =>
    exact HasFinished.quiet (c := { c with requestedUsername := name, userid := userid }.login) h hdid.2.2
  | accepted token sharedSecret =>
    obtain ⟨-, -, key, -, hq⟩ := hdid
    exact HasFinished.quiet (c := c.accept token key) h hq
  | requested token sharedSecret text =>
    obtain ⟨-, -, key, -, hq⟩ := hdid
    refine HasFinished.quiet (c := (c.accept token key).request sharedSecret text) ?_ hq
    obtain ⟨r, hr, hstage⟩ := h
    exact ⟨r, (List.getElem?_append_left (List.getElem?_eq_some_iff.mp hr).1).trans hr, hstage⟩
  | staged k' stage =>
    obtain ⟨⟨r, hr, hflight⟩, hq⟩ := hdid
    exact (h.stage (h.ne_of_inFlight hr hflight)).quiet hq
  | authenticated k' id name =>
    obtain ⟨r, hr, hflight, hq⟩ := hdid
    have hfinished : HasFinished k (c.stage k' .finished) := h.stage (h.ne_of_inFlight hr hflight)
    exact HasFinished.quiet (c := ((c.stage k' .finished).join r.sharedSecret id name).login.play) hfinished hq
  | authenticatedFailed k' id name =>
    obtain ⟨r, hr, hflight, -, hq⟩ := hdid
    have hfinished : HasFinished k (c.stage k' .finished) := h.stage (h.ne_of_inFlight hr hflight)
    exact HasFinished.quiet (c := ((c.stage k' .finished).join r.sharedSecret id name).login) hfinished hq

def Finished (i : ConnId) (k : Nat) (g : Gateway) : Prop := ∃ c, g.objects[i]? = some c ∧ HasFinished k c

theorem Finished.step (h : Finished i k g) (hstep : step E g (w, e) = some g') : Finished i k g' := by
  obtain ⟨c, hc, hfinished⟩ := h
  rcases step_simulates hstep with ⟨handle, loopback, verifyToken, -, hobjects⟩ | hsim
  · refine ⟨c, ?_, hfinished⟩
    rw [hobjects]
    exact (List.getElem?_append_left (List.getElem?_eq_some_iff.mp hc).1).trans hc
  · obtain ⟨c', hc', l, ⟨c₀, hq, hdid⟩, -⟩ := hsim.2 i c hc
    exact ⟨c', hc', (hfinished.quiet hq).did hdid⟩

theorem Finished.notBodyOf (h : Finished i k g) (hstep : ClientGateway.step E g (w, e) = some g') :
    NotBodyOf i k (w, e) := by
  rintro error more rfl
  obtain ⟨c, hc, r, hr, hstage⟩ := h
  obtain ⟨m, hm, -⟩ := step_runs hstep
  have hof : stageOf g i k = some r := by
    unfold stageOf
    rw [hc]
    exact hr
  simp only [handler, hof, hstage, Option.bind_eq_bind, Option.bind_some] at hm
  cases hm

/-- **Finished for good.** -/
theorem Finished.run (h : Finished i k g) (run : List (World × Event)) :
    AllSteps (ClientGateway.step E) (fun _ => NotBodyOf i k) g run :=
  allSteps_of_inv (I := Finished i k) (C := fun _ _ => True) (fun _ _ _ hI _ hstep => hI.step hstep)
    (fun _ _ _ hI _ hstep => hI.notBodyOf hstep) h (allSteps_of_forall fun _ _ => trivial)

end Finished

/-! ## Reading the header -/

/-- Whatever it is in, the response is not read any further. -/
def Unread (data : Bytes) : Prop :=
  (∃ line ∈ headerBlock data, Noticed line) ∨
    ∃ e, stoul (headerField (ascii "Content-Length") (headerFields (headerBlock data))) = .error e

section Header

variable {E : Env} {w : World} {g g' : Gateway} {i : ConnId} {c : Client} {k : Nat} {r : Request} {data : Bytes}

theorem run_setStage (hl : Live g i c) (stage : Stage) : setStage i k stage g = .ok () (g.modify i (·.stage k stage)) :=
  run_modifyClient hl

theorem finished_modify (hl : Live g i c) (hr : c.requests[k]? = some r) :
    Finished i k (g.modify i (·.stage k .finished)) := by
  exact ⟨c.stage k .finished, (hl.modify (f := (·.stage k .finished)) rfl).1, { r with stage := .finished },
    getElem?_stage_self hr .finished, rfl⟩

/-- A response that is not read further leaves its request finished. -/
theorem wp_readHTTPHeader_unread (hl : Live g i c) (hr : c.requests[k]? = some r) (h : c.alive = false ∨ Unread data) :
    Exec.wp (readHTTPHeader i k false data) (fun _ => Finished i k) (fun _ => Finished i k) g := by
  have hfinished := finished_modify (k := k) hl hr
  have hl₁ := hl.modify (f := (·.stage k .finished)) rfl
  rw [readHTTPHeader, Exec.wp_bind, Exec.wp_of_ok (run_setStage hl _), Exec.wp_bind, Exec.wp_of_ok (run_client hl₁),
    Exec.wp_ite]
  refine ⟨fun _ => hfinished, fun halive => ?_⟩
  have hunread : Unread data := by
    rcases h with hdead | hunread
    · exact absurd (by simp [Client.stage, hdead]) halive
    · exact hunread
  by_cases hnoticed : ∃ line ∈ headerBlock data, Noticed line
  · rcases headerLines_noticed hnoticed with hlines | ⟨e, hlines⟩
    · rw [hlines]
      dsimp only
      rw [Exec.wp_bind, remoteEndpoint, Exec.wp_bind, Exec.wp_of_ok (run_client hl₁), Exec.wp_ite]
      refine ⟨fun _ => ?_, fun _ => hfinished⟩
      rw [Exec.wp_pure, socketCancel, Exec.wp_bind, Exec.wp_of_ok (run_client hl₁), Exec.wp_ite]
      exact ⟨fun _ => hfinished, fun _ => hfinished⟩
    · rw [hlines]
      exact hfinished
  · obtain ⟨rest, hlines⟩ := headerLines_fields hnoticed
    obtain ⟨e, hlength⟩ := hunread.resolve_left hnoticed
    rw [hlines]
    dsimp only
    rw [hlength]
    exact hfinished

theorem run_readHTTPHeader_read (hl : Live g i c) (halive : c.alive = true) (h : ¬ Unread data) :
    ∃ contentLength rest, readHTTPHeader i k false data g =
      .ok () ((g.modify i (·.stage k .finished)).modify i (·.stage k (.readingBody contentLength rest))) := by
  have hl₁ := hl.modify (f := (·.stage k .finished)) rfl
  obtain ⟨hnoticed, hlength⟩ := not_or.mp h
  obtain ⟨rest, hlines⟩ := headerLines_fields hnoticed
  rw [readHTTPHeader, Exec.run_bind_ok (run_setStage hl _), Exec.run_bind_ok (run_client hl₁),
    if_neg (by simp [Client.stage, halive]), hlines]
  dsimp only
  cases hstoul : stoul (headerField (ascii "Content-Length") (headerFields (headerBlock data))) with
  | error e => exact absurd ⟨e, hstoul⟩ hlength
  | ok contentLength => exact ⟨contentLength, rest, run_setStage hl₁ _⟩

/-- The event of a body whose reading fails can follow. -/
theorem body_can_fail (contentLength : Nat) (rest : Bytes) (hl : Live g i c) (hr : c.requests[k]? = some r)
    (hstage : r.stage = .readingBody contentLength rest) :
      ∃ g', step E g (w, .onHasJoinedPostComplete i k .other []) = some g' := by
  have hof : stageOf g i k = some r := by
    unfold stageOf
    rw [hl.1]
    exact hr
  have hhandler : handler E g w (.onHasJoinedPostComplete i k .other []) =
      some (onHasJoinedPostComplete E w i k r.sharedSecret .other (rest ++ []) contentLength) := by
    simp only [handler, hof, hstage, Option.bind_eq_bind, Option.bind_some]
    rfl
  refine ⟨g.modify i (·.stage k .finished), ?_⟩
  unfold step
  rw [hhandler]
  dsimp only
  rw [onHasJoinedPostComplete, Exec.run_bind_ok (run_setStage hl _), if_pos (Or.inl rfl)]
  rfl

end Header

/-- The response is refused: its status line or a line after it is noticed, or it gives no length. -/
def Response.Rejected (r : Response) : Prop :=
  StatusNoticed r.reason ∨ (∃ line ∈ headerBlock r.rest, Noticed line) ∨
    ∃ e, stoul (headerField (ascii "Content-Length") (headerFields (headerBlock r.bytes))) = .error e

theorem Response.unread_iff (r : Response) : Unread r.bytes ↔ r.Rejected := by
  have hlines : (∃ line ∈ headerBlock r.bytes, Noticed line) ↔
      StatusNoticed r.reason ∨ ∃ line ∈ headerBlock r.rest, Noticed line := by
    rw [headerBlock_bytes, ← noticed_statusLine]
    simp
  unfold Unread Rejected
  rw [hlines, or_assoc]

/-- **Refused players.** After a response of another code than 200, `onHasJoinedPostComplete` never runs for its
request, whatever comes, exactly when the client is no longer alive or the response is refused. -/
theorem neverJoins_iff (E : Env) (w : World) (g g' : Gateway) (i : ConnId) (k : Nat) (c : Client)
    (hc : g.objects[i]? = some c) (response : Response)
    (hstep : step E g (w, .readHTTPHeader i k false response.bytes) = some g') :
    (∀ run, AllSteps (step E) (fun _ => NotBodyOf i k) g' run) ↔ c.alive = false ∨ response.Rejected := by
  rw [← response.unread_iff]
  obtain ⟨m, hm, hwp⟩ := step_runs hstep
  simp only [handler, Option.bind_eq_bind, Option.bind_eq_some_iff, Option.ite_none_right_eq_some,
    Option.some.injEq] at hm
  obtain ⟨r, hr, -, rfl⟩ := hm
  obtain ⟨c', hc', hr⟩ := stageOf_eq_some hr
  obtain rfl := Option.some.inj (hc.symm.trans hc')
  have hl : Live g i c := by
    refine hwp (fun _ => Live g i c) (wp_modify_first ⟨_, _, rfl⟩ hc fun hl => ?_)
    exact Exec.wp_mono (Exec.wp_true _ g) (fun _ _ _ => hl) fun _ _ _ => hl
  constructor
  · intro hnever
    by_contra hread
    obtain ⟨halive, hread⟩ := not_or.mp hread
    obtain ⟨contentLength, rest, hreturn⟩ := run_readHTTPHeader_read (k := k) hl (by simpa using halive) hread
    have hg' := hwp (fun g' => (g.modify i (·.stage k .finished)).modify i
      (·.stage k (.readingBody contentLength rest)) = g') ((Exec.wp_of_ok hreturn).mpr rfl)
    subst hg'
    have hl₂ := (hl.modify (f := (·.stage k .finished)) rfl).modify
      (f := (·.stage k (.readingBody contentLength rest))) rfl
    obtain ⟨g'', hbody⟩ := body_can_fail (E := E) (w := w) (k := k) contentLength rest hl₂
      (getElem?_stage_self (getElem?_stage_self hr .finished) (.readingBody contentLength rest)) rfl
    exact (hnever [(w, .onHasJoinedPostComplete i k .other [])] g'' hbody).1 .other [] rfl
  · intro hunread run
    exact (hwp _ (wp_readHTTPHeader_unread hl hr hunread)).run run

/-- The session server refuses the player, and its reason has a colon in it. -/
def forbidden : Response where
  code := ascii "403"
  reason := ascii "Forbidden: no such session"
  rest := ascii "Content-Length: 57\r\n\r\n"
  three_digits := by decide
  not_ok := by decide
  one_line := by decide

/-- The player's request is sent, and answered so. -/
def refusedRun : List (World × Event) :=
  plainRun (loginStarts ++ [secretArrives 5, .connectedToMojang 0 0 true, .sslHandshakeComplete 0 0 false,
    .sendHTTPRequestDone 0 0 false])

/-- The body that comes with the refusal logs the player in. -/
theorem refusedRun_joins :
    ∃ g g' g'' c, runFrom (step .player) Gateway.init refusedRun = some g ∧ g.objects[0]? = some c ∧
      step .player g (.plain, .readHTTPHeader 0 0 false forbidden.bytes) = some g' ∧
        step .player g' (.plain, .onHasJoinedPostComplete 0 0 .none playerInfo) = some g'' ∧
          ∃ c', g''.objects[0]? = some c' ∧ .onPlayerLogin ∈ c'.log := by
  have hjoined : (runFrom (step .player) Gateway.init (refusedRun ++
      [(.plain, .readHTTPHeader 0 0 false forbidden.bytes),
        (.plain, .onHasJoinedPostComplete 0 0 .none playerInfo)])).map
        (fun g => g.objects[0]?.map (·.log.contains .onPlayerLogin)) = some (some true) := by
    decide +kernel
  obtain ⟨g'', hg'', hclient⟩ := Option.map_eq_some_iff.mp hjoined
  obtain ⟨c', hc', hlog⟩ := Option.map_eq_some_iff.mp hclient
  rw [runFrom_append] at hg''
  obtain ⟨g, hg, hrest⟩ := Option.bind_eq_some_iff.mp hg''
  obtain ⟨g', hg', hrest⟩ := runFrom_cons_some hrest
  obtain ⟨g₂, hg₂, hlast⟩ := runFrom_cons_some hrest
  obtain rfl := Option.some.inj hlast
  obtain ⟨m, hm, -⟩ := step_runs hg'
  simp only [handler, Option.bind_eq_bind, Option.bind_eq_some_iff] at hm
  obtain ⟨r, hr, -⟩ := hm
  obtain ⟨c, hc, -⟩ := stageOf_eq_some hr
  exact ⟨g, g', g₂, c, hg, hc, hg', hg₂, c', hc', List.contains_iff_mem.mp hlog⟩

theorem neverJoins_refusedRun :
    ∃ g g' c, runFrom (step .player) Gateway.init refusedRun = some g ∧ g.objects[0]? = some c ∧
      step .player g (.plain, .readHTTPHeader 0 0 false forbidden.bytes) = some g' ∧
        ((∀ run, AllSteps (step .player) (fun _ => NotBodyOf 0 0) g' run) ↔ c.alive = false ∨ forbidden.Rejected) := by
  obtain ⟨g, g', -, c, hg, hc, hg', -⟩ := refusedRun_joins
  exact ⟨g, g', c, hg, hc, hg', neverJoins_iff .player .plain g g' 0 0 c hc forbidden hg'⟩

/-- A refusal with a colon in its reason is not noticed. -/
theorem refused_player_joins :
    ¬ ∀ (E : Env) (w : World) (run : List (World × Event)) (g g' : Gateway) (i : ConnId) (k : Nat)
      (response : Response), runFrom (step E) Gateway.init run = some g →
        step E g (w, .readHTTPHeader i k false response.bytes) = some g' →
        ∀ run', AllSteps (step E) (fun _ => NotBodyOf i k) g' run' := by
  intro h
  obtain ⟨g, g', g'', -, hg, -, hg', hg'', -⟩ := refusedRun_joins
  have hnever := h .player .plain refusedRun g g' 0 0 forbidden hg hg'
    [(.plain, .onHasJoinedPostComplete 0 0 .none playerInfo)]
  exact (hnever g'' hg'').1 .none playerInfo rfl

end CeriosCluster.ClientGateway
