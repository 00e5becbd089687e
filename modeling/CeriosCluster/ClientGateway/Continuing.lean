import CeriosCluster.ClientGateway.Interleaving

/-!
# Clients that go on

What the owners do where a handler reaches beyond its own client: they free clients, and they hand one over that has
logged in. A client that is still there and alive afterwards has gone on with its line, and if it is not the one whose
handler has run, it is as it was. None of it runs forever.
-/

namespace CeriosCluster.ClientGateway

open CeriosCluster.Lib CeriosCluster.MCPacket

structure Client.OnLine (c : Client) : Prop where
  there : c.freed = false
  alive : c.alive = true

/-- If the client is still there and alive, it was before, and has gone on since in turns. -/
def Client.Continues (T : Line → List Action → Line → Prop) (c c' : Client) : Prop :=
  c'.OnLine → c.OnLine ∧ ∃ as, c'.log = c.log ++ as ∧ History T c.line as c'.line

/-- Every client that is still there and alive has gone on with its line, and only `k` has said anything. -/
abbrev Led (T : Line → List Action → Line → Prop) (k : Option ConnId) : Gateway → Gateway → Prop :=
  EveryClient fun j c c' => c.Continues T c' ∧ (k ≠ some j → c'.OnLine → c' = c)

/-- Clients may have been freed, and nothing else has happened to any. -/
abbrev Spared : Gateway → Gateway → Prop := EveryClient fun _ c c' => c' = c ∨ c'.freed = true

section Relations

variable {E : Env} {T T' : Line → List Action → Line → Prop} {k : Option ConnId} {i : ConnId} {g g₁ g₂ : Gateway}
  {c c' c'' : Client}

theorem Client.Continues.refl (c : Client) : c.Continues T c := fun h => ⟨h, [], (List.append_nil _).symm, .nil _⟩

theorem Client.Continues.trans (h : c.Continues T c') (h' : c'.Continues T c'') : c.Continues T c'' := by
  intro honline
  obtain ⟨honline', as', hlog', hspeaks'⟩ := h' honline
  obtain ⟨honline₀, as, hlog, hspeaks⟩ := h honline'
  exact ⟨honline₀, as ++ as', by rw [hlog', hlog, List.append_assoc], hspeaks.append hspeaks'⟩

theorem Client.Continues.mono (hT : ∀ l as l', T l as l' → T' l as l') (h : c.Continues T c') : c.Continues T' c' :=
  fun honline => by
  obtain ⟨honline₀, as, hlog, hspeaks⟩ := h honline
  exact ⟨honline₀, as, hlog, hspeaks.mono hT⟩

theorem Client.Follows.continues (h : c.Follows E c') : c.Continues (Line.Turn E) c' := fun honline =>
  ⟨⟨h.freed.symm.trans honline.there, h.alive honline.alive⟩, h.speaks honline.alive⟩

theorem Client.Continues.of_gone (h : ¬ c'.OnLine) : c.Continues T c' := fun honline => absurd honline h

theorem Led.refl (g : Gateway) : Led T k g g := ⟨rfl, fun _ c hc => ⟨c, hc, .refl c, fun _ _ => rfl⟩⟩

theorem Led.mono (hT : ∀ l as l', T l as l' → T' l as l') (h : Led T k g g₁) : Led T' k g g₁ :=
  EveryClient.mono h fun _ _ _ hc => ⟨hc.1.mono hT, hc.2⟩

theorem Led.trans (h : Led T k g g₁) (h' : Led T k g₁ g₂) : Led T k g g₂ := by
  refine EveryClient.trans h h' fun j c c' c'' hc hc' => ⟨hc.1.trans hc'.1, fun hj honline => ?_⟩
  have hsame : c'' = c' := hc'.2 hj honline
  rw [hsame] at honline ⊢
  exact hc.2 hj honline

theorem Led.spared (h : Led T k g g₁) (h' : Spared g₁ g₂) : Led T k g g₂ := by
  refine EveryClient.trans h h' fun j c c' c'' hc hc' => ?_
  rcases hc' with rfl | hfreed
  · exact hc
  · have hgone : ¬ c''.OnLine := fun honline => by simp [honline.there] at hfreed
    exact ⟨.of_gone hgone, fun _ honline => absurd honline hgone⟩

theorem Led.of_objects (h : Led T k g g₁) (hobjects : g₂.objects = g₁.objects) : Led T k g g₂ := by
  refine ⟨hobjects ▸ h.1, ?_⟩
  rw [hobjects]
  exact h.2

theorem getElem?_write_other {j : ConnId} (h : i ≠ j) : ((connection i).write c g).objects[j]? = g.objects[j]? := by
  simp [connection, h]

theorem Led.write_of (h : Led T k g g₁)
    (hc : ∀ c, g.objects[i]? = some c → c.Continues T c' ∧ (k ≠ some i → c'.OnLine → c' = c)) :
    Led T k g ((connection i).write c' g₁) := by
  refine ⟨by simpa [connection] using h.1, fun j d hd => ?_⟩
  by_cases hij : i = j
  · subst hij
    obtain ⟨d', hd', -⟩ := h.2 i d hd
    exact ⟨c', (connection i).read_write g₁ d' c' hd', hc d hd⟩
  · rw [getElem?_write_other hij]
    exact h.2 j d hd

theorem Led.write (h : Led T (some i) g g₁) (hc : g.objects[i]? = some c) (hgoes : c.Continues T c') :
    Led T (some i) g ((connection i).write c' g₁) := by
  refine h.write_of fun d hd => ⟨?_, fun hi => absurd rfl hi⟩
  obtain rfl : c = d := Option.some.inj (hc.symm.trans hd)
  exact hgoes

theorem Led.write_gone (h : Led T k g g₁) (hgone : ¬ c'.OnLine) : Led T k g ((connection i).write c' g₁) :=
  h.write_of fun _ _ => ⟨.of_gone hgone, fun _ honline => absurd honline hgone⟩

theorem Spared.refl (g : Gateway) : Spared g g := ⟨rfl, fun _ c hc => ⟨c, hc, Or.inl rfl⟩⟩

theorem Spared.of_objects (hobjects : g₁.objects = g.objects) (h : Spared g₁ g₂) : Spared g g₂ := by
  refine ⟨hobjects ▸ h.1, ?_⟩
  rw [← hobjects]
  exact h.2

end Relations

/-! ## Freeing -/

section Owners

variable {E : Env} {w : World} {k : Option ConnId} {i : ConnId} {g g₁ : Gateway} {c c₁ d : Client} {f : Client → Client}

theorem client_halts (i : ConnId) : (client i).Halts := by
  refine .bind .get fun g => ?_
  cases g.objects[i]? with
  | none => exact .undefined
  | some c => exact .ite .undefined (.pure c)

theorem modifyClient_halts (i : ConnId) (f : Client → Client) : (modifyClient i f).Halts :=
  .bind (client_halts i) fun _ _ h => nomatch h

theorem ends_client {Q : Client → Gateway → Prop} {F : Exn → Gateway → Prop} (h : ∀ c, Live g i c → Q c g) :
    Exec.Ends (client i) Q F g := ⟨client_halts i g, wp_client.mpr h⟩

theorem ends_modifyClient {Q : Unit → Gateway → Prop} {F : Exn → Gateway → Prop}
    (h : ∀ c, Live g i c → Q () (g.modify i f)) :
    Exec.Ends (modifyClient i f) Q F g :=
  ⟨modifyClient_halts i f g, wp_modifyClient.mpr h⟩

theorem ends_free (p : Option ConnId) : Exec.Ends (free p) (fun _ => Spared g) (fun _ _ => False) g := by
  cases p with
  | none => exact .pure (.refl g)
  | some i => exact ends_modifyClient fun _ _ => everyClient_modify (fun _ _ => Or.inr rfl) fun _ _ _ => Or.inl rfl

theorem ends_erasePendingClient (handle : Word) :
    Exec.Ends (erasePendingClient handle) (fun _ => Spared g) (fun _ _ => False) g :=
  .get_bind (.set_bind ((ends_free _).mono (fun _ _ h => h.of_objects rfl) fun _ _ h => h))

theorem ends_setClient (userid : Bytes) : Exec.Ends (setClient userid i) (fun _ => Spared g) (fun _ _ => False) g :=
  .get_bind (.set_bind ((ends_free _).mono (fun _ _ h => h.of_objects rfl) fun _ _ h => h))

theorem ends_remoteEndpoint {Q : Unit → Gateway → Prop} {F : Exn → Gateway → Prop} (h : Q () g)
    (h' : F .systemError g) :
    Exec.Ends (remoteEndpoint i) Q F g :=
  .bind (ends_client fun _ _ => .ite (fun _ => .pure h) fun _ => .throw h')

/-- Whoever the owner is, it frees what it has under its key for the client, if anything. -/
theorem ends_clientDisconnected (owner : OwnerRef) :
    Exec.Ends (clientDisconnected w owner i) (fun _ => Spared g) (fun _ => Spared g) g := by
  cases owner with
  | login =>
    refine .bind (ends_remoteEndpoint ?_ (.refl g))
    exact .bind (ends_client fun c _ => (ends_erasePendingClient _).mono (fun _ _ h => h) fun _ _ h => h.elim)
  | clientServer =>
    refine .bind (ends_client fun c _ =>
      .get_bind (.set_bind (.bind ((ends_free _).mono (fun _ g₁ h => ?_) fun _ _ h => h.elim))))
    have hspared : Spared g g₁ := h.of_objects rfl
    exact .ite (fun _ => .pure hspared) fun _ => .tryCatch (ends_remoteEndpoint hspared (.pure hspared))

/-- **`disconnect`** ends one connection, and its owner may free a client. -/
theorem ends_disconnect (h : Led (Line.Turn E) k g g₁) :
    Exec.Ends (disconnect w i) (fun _ => Led (Line.Turn E) k g) (fun _ => Led (Line.Turn E) k g) g₁ := by
  refine .bind (ends_client fun c hl => .ite (fun _ => .pure h) fun _ => .bind (ends_modifyClient fun _ _ => ?_))
  have hgone {c' : Client} (hdead : c'.alive = false) : ¬ c'.OnLine := fun honline => by simp [honline.alive] at hdead
  rw [modify_eq_write hl.1]
  refine .bind (Part.Acts.ends_write hl.1 (acts_shut (.bind (Part.Acts.ends_write hl.1 (acts_client fun _ => ?_)))))
  have hdied : Led (Line.Turn E) k g ((connection i).write { c with alive := false, socket := c.socket.shut } g₁) :=
    h.write_gone (hgone rfl)
  exact (ends_clientDisconnected _).mono (fun _ _ hspared => hdied.spared hspared) fun _ _ hspared =>
    hdied.spared hspared

/-! ## Handing over -/

/-- What is known of every client where a client logs in: no compression, and whom `Login` finds under the client's
handle is the client itself, or dead. -/
structure CanHandOver (g : Gateway) (i : ConnId) (handle : Word) : Prop where
  uncompressed : ∀ (j : ConnId) (d : Client), g.objects[j]? = some d → d.compressionThreshold = noCompression
  found : ∀ (j : ConnId) (d : Client), g.pendingClients.lookup handle = some (some j) → g.objects[j]? = some d → j ≠ i →
    d.alive = false

theorem CanHandOver.write {handle : Word} (h : CanHandOver g i handle)
    (hthreshold : c.compressionThreshold = noCompression) :
    CanHandOver ((connection i).write c g) i handle where
  uncompressed := by
    intro j d hd
    by_cases hij : i = j
    · subst hij
      rw [show ((connection i).write c g).objects = g.objects.set i c from rfl, List.getElem?_set_self'] at hd
      obtain ⟨-, -, rfl⟩ := Option.map_eq_some_iff.mp hd
      exact hthreshold
    · exact h.uncompressed j d ((getElem?_write_other hij).symm.trans hd)
  found := fun j d hj hd hne => h.found j d hj ((getElem?_write_other (Ne.symm hne)).symm.trans hd) hne

/-- **The hand-off.** The client that is found is sent the packets of the join, unless it is dead. -/
theorem ends_loginHandoffClient (hc : g.objects[i]? = some c) (hled : Led (Line.Turn E) (some i) g g₁)
    (hc₁ : g₁.objects[i]? = some c₁) (hcan : CanHandOver g₁ i c₁.socket.native_handle)
    (hjoins : ∀ c₂, Client.Says (Line.SendsFresh E w.ambient joinIds) { c₁ with owner := .clientServer } c₂ →
      c.Continues (Line.Turn E) c₂) :
    Exec.Ends (Login.handoffClient E w i) (fun _ => Led (Line.Turn E) (some i) g)
      (fun _ => Led (Line.Turn E) (some i) g) g₁ := by
  refine .bind (ends_client fun c₁' hl => ?_)
  obtain rfl : c₁ = c₁' := Option.some.inj (hc₁.symm.trans hl.1)
  refine .get_bind (.set_bind ?_)
  have hled₂ : Led (Line.Turn E) (some i) g
    { g₁ with pendingClients := g₁.pendingClients.insert c₁.socket.native_handle none } :=
    hled.of_objects rfl
  cases hlookup : (g₁.pendingClients.lookup c₁.socket.native_handle).getD none with
  | none => exact .pure hled₂
  | some j =>
    have hj : g₁.pendingClients.lookup c₁.socket.native_handle = some (some j) := by
      cases hp : g₁.pendingClients.lookup c₁.socket.native_handle with
      | none => simp [hp] at hlookup
      | some p => rw [hp, Option.getD_some] at hlookup; rw [hlookup]
    refine .bind (ends_client fun d hlj => .bind ((ends_erasePendingClient _).mono (fun _ g₃ hspared => ?_) fun _ _ h =>
      h.elim))
    refine .bind (ends_modifyClient fun d₃ hl₃ => ?_)
    -- nobody has freed the client that was found
    obtain ⟨d', hd', hsame⟩ := hspared.2 j d hlj.1
    obtain rfl : d' = d₃ := Option.some.inj (hd'.symm.trans hl₃.1)
    obtain rfl : d' = d := hsame.resolve_right (by simp [hl₃.2])
    have hthreshold : d'.compressionThreshold = noCompression := hcan.uncompressed j d' hlj.1
    let adopted : Client := { d' with owner := .clientServer }
    rw [modify_eq_write hl₃.1, addClient_eq]
    have hadded : Exec.Ends (sendJoin E w.ambient j joinIds >>= fun _ => client j >>= fun c => setClient c.userid j)
        (fun _ => Led (Line.Turn E) (some i) g) (fun _ _ => False) ((connection j).write adopted g₃) := by
      refine .bind (Part.Acts.ends_write hl₃.1
        ((acts_sendJoin (c := adopted) hthreshold).mono (fun _ d₂ hspeaks => ?_) fun _ _ h => h))
      have hled₃ : Led (Line.Turn E) (some i) g ((connection j).write d₂ g₃) := by
        by_cases hji : j = i
        · subst hji
          obtain rfl : c₁ = d' := Option.some.inj (hc₁.symm.trans hlj.1)
          exact (hled₂.spared hspared).write hc (hjoins d₂ hspeaks)
        · have hdead : d'.alive = false := hcan.found j d' hj hlj.1 hji
          obtain ⟨_, _, _, rfl, -⟩ := hspeaks
          exact (hled₂.spared hspared).write_gone fun honline => Bool.noConfusion (hdead.symm.trans honline.alive)
      exact .bind (ends_client fun _ _ => (ends_setClient _).mono (fun _ _ h => hled₃.spared h) fun _ _ h => h)
    exact .tryCatch (hadded.mono (fun _ _ h => h) fun _ _ h => h.elim)

/-! ## Logging in -/

/-- **`onPlayerLogin`** admits the player, or hands its client over, or throws on a packet that is too large. -/
theorem ends_onPlayerLogin (hc : g.objects[i]? = some c) (hfollows : c.Follows E d)
    (hstate : d.alive = true → d.state = .LOGIN ∨ d.state = .PLAY) (hthreshold : d.compressionThreshold = noCompression)
    (hcan : CanHandOver g i d.socket.native_handle) :
    Exec.Ends (onPlayerLogin E w i) (fun _ => Led (Line.Turn E) (some i) g) (fun _ => Led (Line.Turn E) (some i) g)
      ((connection i).write d g) := by
  unfold onPlayerLogin
  rw [newPacket_loginSuccess]
  let begun : Client := d.logged .onPlayerLogin
  refine .bind (Part.Acts.ends_write hc
    (acts_modify fun _ => .bind (Part.Acts.ends_write hc (acts_client fun _ => ?_))))
  refine .bind (Part.Acts.ends_write hc
    ((acts_sendPacket (c := begun) hthreshold).mono (fun _ c₁ hspeaks => ?_) fun _ c₁ hlarge => ?_))
  · obtain ⟨as, context, writes, rfl, hsends⟩ := hspeaks
    let playing : Client := { begun.said as context writes with state := .PLAY, waitsPending := d.waitsPending + 1 }
    have hlog : playing.log = d.log ++ .onPlayerLogin :: as := by simp [playing, begun, Client.said, Client.logged]
    have hadmits : c.Follows E playing :=
      hfollows.trans (.turn rfl rfl id hlog fun halive => .admits (hstate halive) rfl (hsends halive))
    have hled : Led (Line.Turn E) (some i) g ((connection i).write playing g) := (Led.refl g).write hc hadmits.continues
    refine .bind (Part.Acts.ends_write hc
      (acts_modify fun _ => .bind (Part.Acts.ends_write hc (acts_modify fun _ => ?_))))
    refine .bind (Part.Acts.ends_write hc (acts_client fun _ => ?_))
    show Exec.Ends (handoffClient E w d.owner i) _ _ ((connection i).write playing g)
    cases howner : d.owner with
    | clientServer => exact .pure hled
    | login =>
      refine ends_loginHandoffClient hc hled ((connection i).read_write g c playing hc)
        (hcan.write hthreshold) fun c₂ hjoin => ?_
      obtain ⟨as', context', writes', rfl, hjoins⟩ := hjoin
      refine hfollows.continues.trans fun honline => ⟨⟨?_, honline.alive⟩, .onPlayerLogin :: (as ++ as'), ?_,
        .single ?_⟩
      · exact honline.there
      · simp [Client.said, hlog]
      · exact .joins (hstate honline.alive) rfl (by simp [Client.line, howner]) (hsends honline.alive)
          (hjoins honline.alive)
  · obtain ⟨rfl, hframe⟩ := hlarge
    have hrefuses : c.Follows E (begun.logged (.sendPacket (loginSuccessPacket d))) := by
      refine hfollows.trans (.turn rfl rfl id (List.append_assoc ..) fun halive => ?_)
      exact .refuses (hstate halive) rfl hframe
    exact (Led.refl g).write hc hrefuses.continues

theorem ends_of_write {α : Type} {m : M α} {Q : α → Gateway → Prop} {F : Exn → Gateway → Prop}
    (hc : g.objects[i]? = some c) (h : Exec.Ends m Q F ((connection i).write c g)) : Exec.Ends m Q F g := by
  rwa [(connection i).write_read g c hc] at h

/-- **A loopback login**: the player is logged in under an id made from its name. -/
theorem ends_receivedMessage_loopback {p : Packet} {playerName : Bytes} (hc : g.objects[i]? = some c)
    (hfollows : c.Follows E d) (hstart : StartsLoopback d.holder p playerName)
    (hthreshold : d.compressionThreshold = noCompression) (hcan : CanHandOver g i d.socket.native_handle) :
    Exec.Ends (receivedMessage E w i p) (fun _ => Led (Line.Turn E) (some i) g) (fun _ => Led (Line.Turn E) (some i) g)
      ((connection i).write d g) := by
  obtain ⟨hp, hstate, hconnected, hloopback⟩ := hstart
  have hlogin : d.state = .LOGIN := hstate
  have hnoted : c.Follows E (d.logged (.receivedMessage p)) :=
    hfollows.trans (.turn rfl rfl id rfl fun _ => .ignores fun f hf => by simp [hp] at hf)
  unfold receivedMessage
  rw [hp]
  refine .bind (Part.Acts.ends_write hc
    (acts_modify fun _ => .bind (Part.Acts.ends_write hc (acts_client fun _ => ?_))))
  rw [onPacketReceived_then]
  refine .ite (fun _ => ?_) fun hother => absurd hlogin hother
  unfold receivedLoginStart
  refine .bind (Part.Acts.ends_write hc
    (acts_modify fun _ => .bind (Part.Acts.ends_write hc (acts_remoteEndpoint (fun _ => ?_) ?_))))
  · refine .bind (Part.Acts.ends_write hc (acts_client fun _ => .ite (fun _ => ?_) fun hremote =>
      absurd hloopback hremote))
    refine .bind (Part.Acts.ends_write hc
      (acts_modify fun _ => .bind (Part.Acts.ends_write hc (acts_modify fun _ => ?_))))
    refine ends_onPlayerLogin hc (hnoted.trans ?_) (fun _ => Or.inl hlogin) hthreshold hcan
    exact .silent rfl rfl id rfl rfl
  · exact fun hreset => absurd hconnected hreset

/-- **The session server's reply**: encryption is switched on and the player is logged in. -/
theorem ends_onHasJoinedPostComplete {k length : Nat} {sharedSecret data : Bytes} {error : ReadError}
    (hc : g.objects[i]? = some c) (hstate : c.state = .LOGIN ∨ c.state = .PLAY) (hkey : c.encryptCipherContext.isSome)
    (hthreshold : c.compressionThreshold = noCompression)
    (hcan : c.freed = false → CanHandOver g i c.socket.native_handle) :
    Exec.Ends (onHasJoinedPostComplete E w i k sharedSecret error data length) (fun _ => Led (Line.Turn E) (some i) g)
      (fun _ => Led (Line.Turn E) (some i) g) g := by
  refine ends_of_write hc (.bind (Part.Acts.ends_write hc (acts_modify fun hfreed => ?_)))
  have hstaged : c.Follows E (c.stage k .finished) := .staged
  have hincomplete : Led (Line.Turn E) (some i) g ((connection i).write (c.stage k .finished) g) :=
    (Led.refl g).write hc hstaged.continues
  refine .ite (fun _ => .pure hincomplete) fun _ => .ite (fun _ => .undefined) fun _ => ?_
  split
  · exact .undefined
  · next id name _ =>
    refine .bind (Part.Acts.ends_write hc
      (acts_modify fun _ => .bind (Part.Acts.ends_write hc (acts_modify fun _ => ?_))))
    refine .bind (Part.Acts.ends_write hc
      (acts_modify fun _ => .bind (Part.Acts.ends_write hc (acts_modify fun _ => ?_))))
    refine .bind (Part.Acts.ends_write hc
      (acts_client fun _ => .bind (Part.Acts.ends_write hc (acts_modify fun _ => ?_))))
    let joined : Client := (c.stage k .finished).join sharedSecret id name
    have hjoined : c.Follows E joined :=
      hstaged.trans (.turn rfl rfl (fun h => h) rfl fun _ => .encrypts sharedSecret c.decryptCipherContext hkey hstate)
    exact ends_onPlayerLogin (d := joined) hc hjoined (fun _ => hstate) hthreshold (hcan hfreed)

theorem ends_startAsyncRead (h : Led (Line.Turn E) (some i) g g₁) :
    Exec.Ends (startAsyncRead i) (fun _ => Led (Line.Turn E) (some i) g)
      (fun _ => Led (Line.Turn E) (some i) g) g₁ := by
  refine ends_modifyClient fun d hl => ?_
  rw [modify_eq_write hl.1]
  refine h.write_of fun c hc => ⟨?_, fun hi => absurd rfl hi⟩
  obtain ⟨d', hd', hgoes, -⟩ := h.2 i c hc
  obtain rfl : d' = d := Option.some.inj (hd'.symm.trans hl.1)
  have hreads : d'.Follows E { d' with readPending := true } := .silent rfl rfl id rfl rfl
  exact hgoes.trans hreads.continues

/-- **A completed read** of a client that logs in over the loopback, or loses its connection. -/
theorem ends_onLengthReceive {error : Bool} {data : Bytes} (hc : g.objects[i]? = some c) (husual : c.Usual)
    (hcan : CanHandOver g i c.socket.native_handle)
    (hnot : error = true ∨ ∃ p playerName, nextPacket E w c data = some p ∧ StartsLoopback c.holder p playerName) :
    Exec.Ends (onLengthReceive E w i error data) (fun _ => Led (Line.Turn E) (some i) g)
      (fun _ => Led (Line.Turn E) (some i) g) g := by
  refine ends_of_write hc (.bind (Part.Acts.ends_write hc (acts_client fun _ => ?_)))
  have hsame : Led (Line.Turn E) (some i) g ((connection i).write c g) := (Led.refl g).write hc (.refl c)
  refine .ite (fun _ => .pure hsame) fun _ => .ite (fun _ => ends_disconnect hsame) fun herror => ?_
  obtain ⟨p, playerName, hp, hstart⟩ := hnot.resolve_left (by simpa using herror)
  refine .bind (Part.Acts.ends_write hc ((acts_appendReceived data).mono (fun _ c₁ htaken => ?_) fun _ c₁ hthrew => ?_))
  · obtain ⟨hfollows, buffer, encryptedBuffer, context, log, hbuffer, rfl⟩ := htaken
    have hclear : decide (0 ≤ c.compressionThreshold.toInt) = false := by
      rw [husual.uncompressed]
      decide
    have hends : parseReceived E w c.state (0 ≤ c.compressionThreshold.toInt) buffer ≠ .diverged := by
      rw [hclear]
      exact parseReceived_halts E w c.state buffer
    refine .bind (Part.Acts.ends_write hc
      (acts_client fun _ => .bind (Part.Acts.ends_write hc (acts_onBuffer hends (fun r b hparsed => ?_)
      fun e b _ => ?_))))
    · let taken : Client := { c with buffer := b, encryptedBuffer, decryptCipherContext := context, log }
      have hfollows₂ : c.Follows E taken := hfollows.trans (.silent rfl rfl id rfl rfl)
      have hnext : nextPacket E w c data = r := by
        rw [nextPacket_of_received hbuffer]
        simp only [show parseReceived E w c.state (0 ≤ c.compressionThreshold.toInt) buffer = .ok r b from hparsed]
      obtain rfl : r = some p := hnext.symm.trans hp
      have hhandled := ends_receivedMessage_loopback (w := w) (d := taken) hc hfollows₂ hstart husual.uncompressed hcan
      refine .bind (.tryCatch (.bind (hhandled.mono (fun _ g₁ h₁ => .pure (ends_startAsyncRead h₁)) fun _ g₁ h₁ => ?_)))
      exact .bind ((ends_disconnect h₁).mono (fun _ _ h₂ => .pure (.pure h₂)) fun _ _ h₂ => h₂)
    · have hleft : c.Follows E { c with buffer := b, encryptedBuffer, decryptCipherContext := context, log } :=
        hfollows.trans (.silent rfl rfl id rfl rfl)
      exact (Led.refl g).write hc hleft.continues
  · exact (Led.refl g).write hc hthrew.1.continues

end Owners

end CeriosCluster.ClientGateway
