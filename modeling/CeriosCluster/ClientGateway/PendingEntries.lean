import CeriosCluster.ClientGateway.CustodyRefinement
import CeriosCluster.ClientGateway.SessionKey

/-!
# Disconnecting a pending client

`Client::disconnect` shuts the socket before it tells the owner, and `Login::clientDisconnected` starts
with the endpoint of that socket, which throws unless it is connected. So `Login` never comes to the line
that erases the client: every entry of `pendingClients` outlives the disconnection of its client.
-/

namespace CeriosCluster.ClientGateway

open CeriosCluster.Lib CeriosCluster.MCPacket

/-- Once `disconnect` has run, no entry of `pendingClients` owns the client. -/
def Releases (w : World) (i : ConnId) (g : Gateway) : Prop :=
  ∀ g' handle, (disconnect w i).after g = some g' → g'.pendingClients.lookup handle ≠ some (some i)

/-- A client as `disconnect` leaves it before it tells the owner. -/
def Client.shut (c : Client) : Client := { c with alive := false, socket := c.socket.shut }

section Disconnect

variable {w : World} {g : Gateway} {i : ConnId} {c : Client}

/-- `cancel`, `shutdown` and `close`, up to the first that throws. -/
theorem run_shut (hl : Live g i c) :
    Exec.tryCatch (do
        socketCancel i
        socketShutdown i
        socketClose i) (fun _ => pure ()) g = .ok () (g.modify i fun c => { c with socket := c.socket.shut }) := by
  have hsame (hstate : c.socket.state ≠ .connected) : g.modify i (fun c => { c with socket := c.socket.shut }) = g := by
    have hshut : c.socket.shut = c.socket := if_neg hstate
    have hid : { c with socket := c.socket.shut } = id c := by rw [hshut, id]
    rw [Gateway.modify_congr id hl.1 hid, g.modify_id]
  unfold Exec.tryCatch
  cases hstate : c.socket.state with
  | connected =>
    have hcancel : socketCancel i g = .ok () g := by
      unfold socketCancel
      rw [Exec.run_bind_ok (run_client hl), if_neg (by simp [hstate])]
      rfl
    have hshutdown : socketShutdown i g = .ok () g := by
      unfold socketShutdown
      rw [Exec.run_bind_ok (run_client hl), if_pos hstate]
      rfl
    have hshut : c.socket.shut = { c.socket with state := .closed } := if_pos hstate
    rw [Exec.run_bind_ok hcancel, Exec.run_bind_ok hshutdown, socketClose, run_modifyClient hl,
      Gateway.modify_congr (fun c => { c with socket := c.socket.shut }) hl.1 (by rw [hshut])]
  | reset =>
    have hcancel : socketCancel i g = .ok () g := by
      unfold socketCancel
      rw [Exec.run_bind_ok (run_client hl), if_neg (by simp [hstate])]
      rfl
    have hshutdown : socketShutdown i g = .threw .systemError g := by
      unfold socketShutdown
      rw [Exec.run_bind_ok (run_client hl), if_neg (by simp [hstate])]
      rfl
    rw [Exec.run_bind_ok hcancel, Exec.run_bind_threw hshutdown, hsame (by simp [hstate])]
    rfl
  | closed =>
    have hcancel : socketCancel i g = .threw .systemError g := by
      unfold socketCancel
      rw [Exec.run_bind_ok (run_client hl), if_pos hstate]
      rfl
    rw [Exec.run_bind_threw hcancel, hsame (by simp [hstate])]
    rfl

theorem run_disconnect_alive (hl : Live g i c) (halive : c.alive = true) :
    disconnect w i g = clientDisconnected w c.owner i (g.modify i Client.shut) := by
  have hdead : Live (g.modify i fun c => { c with alive := false }) i { c with alive := false } := hl.modify rfl
  have hshut : (g.modify i fun c => { c with alive := false }).modify i (fun c => { c with socket := c.socket.shut }) =
      g.modify i Client.shut := g.modify_modify i _ _
  have hl' : Live (g.modify i Client.shut) i c.shut := hl.modify rfl
  unfold disconnect
  rw [Exec.run_bind_ok (run_client hl), if_neg (by simp [halive]), Exec.run_bind_ok (run_modifyClient hl),
    Exec.run_bind_ok (run_shut hdead), hshut, Exec.run_bind_ok (run_client hl')]
  rfl

theorem run_disconnect_dead (hl : Live g i c) (hdead : c.alive = false) : disconnect w i g = .ok () g := by
  unfold disconnect
  rw [Exec.run_bind_ok (run_client hl), if_pos (by simp [hdead])]
  rfl

/-- `Login` throws before it erases a client whose socket is shut. -/
theorem run_loginClientDisconnected (hl : Live g i c) (hshut : c.socket.state ≠ .connected) :
    Login.clientDisconnected i g = .threw .systemError g := by
  have hendpoint : remoteEndpoint i g = .threw .systemError g := by
    unfold remoteEndpoint
    rw [Exec.run_bind_ok (run_client hl), if_neg hshut]
    rfl
  unfold Login.clientDisconnected
  rw [Exec.run_bind_threw hendpoint]

/-- `disconnect` runs on a client of `Login`, and leaves every entry of `pendingClients`. -/
theorem run_disconnect (hl : Live g i c) (howner : c.owner = .login) :
    ∃ g', (disconnect w i).after g = some g' ∧ g'.pendingClients = g.pendingClients := by
  cases halive : c.alive with
  | false => exact ⟨g, Exec.after_of_ok (run_disconnect_dead hl halive), rfl⟩
  | true =>
    have hl' : Live (g.modify i Client.shut) i c.shut := hl.modify rfl
    refine ⟨g.modify i Client.shut, Exec.after_of_threw (e := .systemError) ?_, rfl⟩
    rw [run_disconnect_alive hl halive, howner]
    exact run_loginClientDisconnected hl' (Socket.shut_ne_connected _)

end Disconnect

/-- **Pending entries are not released.** In every state that a run reaches, `disconnect` leaves a client that
an entry of `pendingClients` owns in that entry. -/
theorem pending_not_released (E : Env) (run : List (World × Event)) (g : Gateway) (handle : Word) (i : ConnId)
    (w : World) (hrun : runFrom (step E) Gateway.init run = some g)
    (hpending : g.pendingClients.lookup handle = some (some i)) :
    ¬ Releases w i g := by
  intro hreleases
  have hsound : g.custody.Sound := (allStates_sound E run).last hrun
  have hheld : g.custody.held (.pending handle) = some i := congrArg (Option.getD · none) hpending
  obtain ⟨h, hh, hfreed, howner, -⟩ := hsound.owned.fits _ _ hheld
  obtain ⟨c, hc, rfl⟩ := objects_of_custody hh
  obtain ⟨g', hafter, hsame⟩ := run_disconnect (w := w) ⟨hc, hfreed⟩ howner
  apply hreleases g' handle hafter
  rw [hsame, hpending]

def accepted : List (World × Event) := plainRun [.acceptConstruct 7 false zeroToken, .acceptInsert]

theorem pending_not_released_accepted :
    ∃ g, runFrom (step .player) Gateway.init accepted = some g ∧ ¬ Releases .plain 0 g := by
  have hpending : (runFrom (step .player) Gateway.init accepted).map (·.pendingClients.lookup 7) =
    some (some (some 0)) := by
    decide +kernel
  obtain ⟨g, hg, hlookup⟩ := Option.map_eq_some_iff.mp hpending
  exact ⟨g, hg, pending_not_released .player accepted g 7 0 .plain hg hlookup⟩

/-- The client just accepted is still in its entry after `disconnect`. -/
theorem accepted_client_stays_pending :
    ¬ ∀ (E : Env) (run : List (World × Event)) (g : Gateway) (handle : Word) (i : ConnId) (w : World),
      runFrom (step E) Gateway.init run = some g → g.pendingClients.lookup handle = some (some i) → Releases w i g := by
  intro h
  have hstays : (runFrom (step .player) Gateway.init accepted).map (fun g =>
      (g.pendingClients.lookup 7, ((disconnect .plain 0).after g).map (·.pendingClients.lookup 7))) =
        some (some (some 0), some (some (some 0))) := by
    decide +kernel
  obtain ⟨g, hg, hlookup⟩ := Option.map_eq_some_iff.mp hstays
  obtain ⟨hpending, hafter⟩ := Prod.mk.inj hlookup
  obtain ⟨g', hg', hstill⟩ := Option.map_eq_some_iff.mp hafter
  exact h .player accepted g 7 0 .plain hg hpending g' 7 hg' hstill

end CeriosCluster.ClientGateway
