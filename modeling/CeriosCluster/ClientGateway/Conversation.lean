import CeriosCluster.ClientGateway.AsyncWrites
import CeriosCluster.Lib.Trace

/-!
# The conversation with a client

The abstract machine of the protocol, seen from the gateway: a phase is the state of the protocol, the number of
keep-alive waits that are running, and whether the player has joined; what it says is which packets `sendPacket` is
called for. A packet that turns out too large for a frame counts: it is on record, and an exception follows. Every line
is such a machine with the bytes and the cipher left out, so what `sendPacket` has been called for on a live connection
is one of its histories.
-/

namespace CeriosCluster.ClientGateway

open CeriosCluster.Lib CeriosCluster.MCPacket

structure Phase where
  state : ClientState
  timers : Nat
  joined : Bool
  deriving DecidableEq

def joinBlock : List PacketClass := [.joinGame, .spawnPosition, .playerPositionAndLook, .playerAbilities]

namespace Phase

def start : Phase := ⟨.HANDSHAKE, 0, false⟩

def play (s : Phase) : Phase := { s with state := .PLAY, timers := s.timers + 1 }

/-- One turn of the protocol, with the classes of the packets that go out in it. -/
inductive Does : Phase → List PacketClass → Phase → Prop
  | idle (s : Phase) : Does s [] s
  | handshake {s : Phase} (requestedNextState : ClientState) (hstate : s.state = .HANDSHAKE) :
    Does s [] { s with state := requestedNextState }
  | answers {s : Phase} {k : PacketClass} (hstate : s.state = .STATUS) (hk : k = .serverStatus ∨ k = .ping) :
    Does s [k] s
  | asks {s : Phase} (hstate : s.state = .LOGIN) : Does s [.encryption] s
  | refuses {s : Phase} (hstate : s.state = .LOGIN ∨ s.state = .PLAY) : Does s [.loginSuccess] s
  | admits {s : Phase} (hstate : s.state = .LOGIN ∨ s.state = .PLAY) : Does s [.loginSuccess] s.play
  | joins {s : Phase} (hstate : s.state = .LOGIN ∨ s.state = .PLAY) (hlogin : s.joined = false) :
      Does s (.loginSuccess :: joinBlock) { s.play with joined := true }
  | keepsAlive {s : Phase} (hstate : s.state = .PLAY) (hwaits : 0 < s.timers) : Does s [.keepAlive] s
  | expires {s : Phase} (hwaits : 0 < s.timers) : Does s [] { s with timers := s.timers - 1 }

end Phase

def Line.phase (l : Line) : Phase := ⟨l.state, l.timers, l.joined⟩

def Action.packetSent : Action → Option PacketClass
  | .sendPacket p => some p.fields.packetClass
  | _ => none

/-- The classes of the packets that `sendPacket` has been called for. -/
def packetsSent (log : List Action) : List PacketClass := log.filterMap Action.packetSent

/-! ## The line as a phase -/

section Lines

variable {E : Env} {l l' : Line} {as : List Action} {p : Packet} {data payload : Bytes} {a : Ambient} {ids : List Word}
  {k : PacketClass}

theorem carries_phase (h : Line.Carries E data l as l') : packetsSent as = [] ∧ l'.phase = l.phase := by
  cases h <;> exact ⟨rfl, rfl⟩

theorem sends_phase (h : Line.Sends E p l as l') : packetsSent as = [p.fields.packetClass] ∧ l'.phase = l.phase := by
  obtain ⟨-, hcarries⟩ := h
  obtain ⟨hsent, hphase⟩ := carries_phase hcarries
  exact ⟨congrArg (p.fields.packetClass :: ·) hsent, hphase⟩

theorem packetsSent_append {bs : List Action} : packetsSent (as ++ bs) = packetsSent as ++ packetsSent bs :=
  List.filterMap_append

theorem sendsFresh_phase (h : Line.SendsFresh E a ids l as l') :
    (packetsSent as).map some = ids.map (lookupClass .clientBound .PLAY) ∧ l'.phase = l.phase := by
  induction h with
  | nil l => exact ⟨rfl, rfl⟩
  | cons hp hsends hrest ih =>
    obtain ⟨hsent, hphase⟩ := sends_phase hsends
    refine ⟨?_, ih.2.trans hphase⟩
    rw [packetsSent_append, List.map_append, ih.1, hsent]
    exact congrArg (· :: _) (newPacket_packetClass hp).symm

/-- The classes that are registered for the packets of `addClient`. -/
theorem joinIds_classes : joinIds.map (lookupClass .clientBound .PLAY) = joinBlock.map some := by decide

theorem packetsSent_login : packetsSent (.onPlayerLogin :: as) = packetsSent as := rfl

theorem play_phase : l.play.phase = l.phase.play := rfl

theorem join_phase : Line.phase { l.play with joined := true } = { l.phase.play with joined := true } := rfl

/-- **The simulation**, for one turn. -/
theorem talks_phase (h : Line.Talks E l as l') : Phase.Does l.phase (packetsSent as) l'.phase := by
  have sends {p : Packet} {l l' : Line} {as : List Action} (hsends : Line.Sends E p l as l')
      (hdoes : Phase.Does l.phase [p.fields.packetClass] l.phase) : Phase.Does l.phase (packetsSent as) l'.phase := by
    obtain ⟨hsent, hphase⟩ := sends_phase hsends
    rwa [hsent, hphase]
  cases h with
  | relays payload h =>
    obtain ⟨-, -, hcarries⟩ := h
    obtain ⟨hsent, hphase⟩ := carries_phase hcarries
    rw [hsent, hphase]
    exact .idle _
  | speaks h =>
    cases h with
    | hears bytes | ignores hother | agrees key hstate | encrypts sharedSecret decryptContext hkey hstate =>
      exact .idle _
    | handshake hp hstate => exact .handshake _ hstate
    | answers hstate hp hsends => exact sends hsends (.answers hstate hp)
    | asks hstate hp hsends => exact sends hsends (hp ▸ .asks hstate)
    | keepsAlive hstate hwaits hp hsends => exact sends hsends (hp ▸ .keepsAlive hstate hwaits)
    | expires hwaits => exact .expires hwaits
    | refuses hstate hp hlarge =>
      have hsent {p : Packet} : packetsSent [.onPlayerLogin, .sendPacket p] = [p.fields.packetClass] := rfl
      rw [hsent, hp]
      exact .refuses hstate
    | admits hstate hp hsends =>
      obtain ⟨hsent, hphase⟩ := sends_phase hsends
      rw [packetsSent_login, hsent, hp, play_phase, hphase]
      exact .admits hstate
    | joins hstate hp hlogin hsends hjoin =>
      obtain ⟨hsent, hphase⟩ := sends_phase hsends
      obtain ⟨hjoined, hlast⟩ := sendsFresh_phase hjoin
      have hblock := List.map_injective_iff.mpr (Option.some_injective _) (hjoined.trans joinIds_classes)
      rw [packetsSent_login, packetsSent_append, hsent, hp, hblock, hlast, join_phase, hphase]
      exact .joins hstate hlogin

end Lines

/-! ## What the machine can have said -/

namespace Phase

/-- A packet that can have been sent by the time a client is in a state. -/
def MaySay (state : ClientState) (k : PacketClass) : Prop :=
  state = .STATUS ∧ (k = .serverStatus ∨ k = .ping) ∨ state = .LOGIN ∧ (k = .encryption ∨ k = .loginSuccess) ∨
    state = .PLAY ∧ (k = .encryption ∨ k = .loginSuccess ∨ k = .keepAlive ∨ k ∈ joinBlock)

/-- The state is still the same, or the handshake has chosen it, or the login has completed. -/
def Forward (s t : Phase) : Prop :=
  (t.state = s.state ∨ s.state = .HANDSHAKE ∨ s.state = .LOGIN ∧ t.state = .PLAY) ∧ (s.joined = true → t.joined = true)

/-- None of the packets for a new player, or all of them once, in one go and right after a `LoginSuccess`, if it has
joined. -/
def Welcomed (ks : List PacketClass) (s : Phase) : Prop :=
  if s.joined then
    ∃ before after, ks = before ++ .loginSuccess :: joinBlock ++ after ∧ (∀ k ∈ before, k ∉ joinBlock) ∧
      ∀ k ∈ after, k ∉ joinBlock
  else ∀ k ∈ ks, k ∉ joinBlock

variable {s t u : Phase} {k : PacketClass} {ks : List PacketClass}

theorem Forward.refl (s : Phase) : Forward s s := ⟨Or.inl rfl, id⟩

theorem Forward.trans (h : Forward s t) (h' : Forward t u) : Forward s u := by
  refine ⟨?_, fun hs => h'.2 (h.2 hs)⟩
  rcases h.1 with hsame | hstart | ⟨hlogin, hplay⟩
  · rcases h'.1 with hsame' | hstart | ⟨hlogin, hplay⟩
    · exact Or.inl (hsame'.trans hsame)
    · exact Or.inr (Or.inl (hsame.symm.trans hstart))
    · exact Or.inr (Or.inr ⟨hsame.symm.trans hlogin, hplay⟩)
  · exact Or.inr (Or.inl hstart)
  · rcases h'.1 with hsame | hstart | ⟨hlogin', -⟩
    · exact Or.inr (Or.inr ⟨hlogin, hsame.trans hplay⟩)
    · exact absurd (hplay.symm.trans hstart) (by decide)
    · exact absurd (hplay.symm.trans hlogin') (by decide)

theorem Does.forward (h : Does s ks t) : Forward s t := by
  have play (hstate : s.state = .LOGIN ∨ s.state = .PLAY) : ClientState.PLAY = s.state ∨ s.state = .HANDSHAKE ∨
      s.state = .LOGIN ∧ ClientState.PLAY = .PLAY :=
    hstate.elim (fun hlogin => Or.inr (Or.inr ⟨hlogin, rfl⟩)) fun hplay => Or.inl hplay.symm
  cases h with
  | handshake n hstate => exact ⟨Or.inr (Or.inl hstate), id⟩
  | admits hstate => exact ⟨play hstate, id⟩
  | joins hstate hlogin => exact ⟨play hstate, fun _ => rfl⟩
  | idle | answers hstate hk | asks hstate | refuses hstate | keepsAlive hstate hwaits | expires hwaits =>
    exact ⟨Or.inl rfl, id⟩

theorem MaySay.forward (h : MaySay s.state k) (hforward : Forward s t) : MaySay t.state k := by
  rcases hforward.1 with hsame | hstart | ⟨hlogin, hplay⟩
  · rwa [hsame]
  · unfold MaySay at h
    rw [hstart] at h
    rcases h with ⟨h, -⟩ | ⟨h, -⟩ | ⟨h, -⟩ <;> exact absurd h (by decide)
  · unfold MaySay at h
    rw [hlogin] at h
    rcases h with ⟨h, -⟩ | ⟨-, hk⟩ | ⟨h, -⟩
    · exact absurd h (by decide)
    · exact Or.inr (Or.inr ⟨hplay, hk.elim Or.inl fun hk => Or.inr (Or.inl hk)⟩)
    · exact absurd h (by decide)

theorem Does.maySay (h : Does s ks t) (hk : k ∈ ks) : MaySay t.state k := by
  have login (hstate : s.state = .LOGIN ∨ s.state = .PLAY) : MaySay s.state .loginSuccess :=
    hstate.elim (fun hlogin => Or.inr (Or.inl ⟨hlogin, Or.inr rfl⟩)) fun hplay =>
      Or.inr (Or.inr ⟨hplay, Or.inr (Or.inl rfl)⟩)
  cases h with
  | idle | handshake n hstate | expires hwaits => cases hk
  | answers hstate hclass =>
    obtain rfl := List.mem_singleton.mp hk
    exact Or.inl ⟨hstate, hclass⟩
  | asks hstate =>
    obtain rfl := List.mem_singleton.mp hk
    exact Or.inr (Or.inl ⟨hstate, Or.inl rfl⟩)
  | refuses hstate =>
    obtain rfl := List.mem_singleton.mp hk
    exact login hstate
  | admits hstate =>
    obtain rfl := List.mem_singleton.mp hk
    exact Or.inr (Or.inr ⟨rfl, Or.inr (Or.inl rfl)⟩)
  | keepsAlive hstate hwaits =>
    obtain rfl := List.mem_singleton.mp hk
    exact Or.inr (Or.inr ⟨hstate, Or.inr (Or.inr (Or.inl rfl))⟩)
  | joins hstate hlogin =>
    rcases List.mem_cons.mp hk with rfl | hk
    · exact Or.inr (Or.inr ⟨rfl, Or.inr (Or.inl rfl)⟩)
    · exact Or.inr (Or.inr ⟨rfl, Or.inr (Or.inr (Or.inr hk))⟩)

theorem says_history (h : History Does .start ks s) : ∀ k ∈ ks, MaySay s.state k := by
  refine h.keeps_nil (I := fun ks s => ∀ k ∈ ks, MaySay s.state k) (fun done s as t hdone hdoes k hk => ?_) fun k hk =>
    by cases hk
  rcases List.mem_append.mp hk with hk | hk
  · exact (hdone k hk).forward hdoes.forward
  · exact hdoes.maySay hk

/-! ## The welcome -/

theorem Welcomed.quiet (h : Welcomed ks s) {ks' : List PacketClass} (hquiet : ∀ k ∈ ks', k ∉ joinBlock)
    (hjoined : t.joined = s.joined) :
    Welcomed (ks ++ ks') t := by
  unfold Welcomed at h ⊢
  rw [hjoined]
  split at h
  · next hs =>
    obtain ⟨before, after, rfl, hbefore, hafter⟩ := h
    rw [if_pos hs]
    exact ⟨before, after ++ ks', by simp, hbefore, List.forall_mem_append.mpr ⟨hafter, hquiet⟩⟩
  · next hs =>
    rw [if_neg hs]
    exact List.forall_mem_append.mpr ⟨h, hquiet⟩

theorem Welcomed.join (h : Welcomed ks s) (hlogin : s.joined = false) (hjoined : t.joined = true) :
    Welcomed (ks ++ .loginSuccess :: joinBlock) t := by
  unfold Welcomed at h ⊢
  rw [if_neg (by simp [hlogin])] at h
  rw [if_pos hjoined]
  exact ⟨ks, [], (List.append_nil _).symm, h, nofun⟩

theorem Welcomed.does (h : Welcomed ks s) {ks' : List PacketClass} (hdoes : Does s ks' t) : Welcomed (ks ++ ks') t := by
  cases hdoes with
  | idle | handshake n hstate | asks hstate | refuses hstate | admits hstate | keepsAlive hstate hwaits
  | expires hwaits =>
    exact h.quiet (by decide) rfl
  | answers hstate hk => rcases hk with rfl | rfl <;> exact h.quiet (by decide) rfl
  | joins hstate hlogin => exact h.join hlogin rfl

theorem welcomed_history (h : History Does .start ks s) : Welcomed ks s :=
  h.keeps_nil (I := Welcomed) (fun _ _ _ _ hdone hdoes => hdone.does hdoes) (by simp [Welcomed, start])

/-! ## Keep-alive -/

/-- There are no more waits running than logins have been told, and a `KeepAlive` has one before it. -/
structure Timed (ks : List PacketClass) (s : Phase) : Prop where
  timers : s.timers ≤ ks.count .loginSuccess
  marked : Marked (· = PacketClass.keepAlive) (PacketClass.loginSuccess ∈ ·) (fun _ => True) ks

theorem Timed.quiet (h : Timed ks s) {ks' : List PacketClass} (hquiet : .keepAlive ∉ ks')
    (htimers : t.timers ≤ s.timers + ks'.count .loginSuccess) : Timed (ks ++ ks') t where
  timers := by
    rw [List.count_append]
    exact htimers.trans (Nat.add_le_add_right h.timers _)
  marked := h.marked.append (fun k hk hkeep => hquiet (hkeep ▸ hk)) fun _ _ _ => trivial

theorem Timed.does (h : Timed ks s) {ks' : List PacketClass} (hdoes : Does s ks' t) : Timed (ks ++ ks') t := by
  cases hdoes with
  | idle | handshake n hstate | asks hstate | refuses hstate => exact h.quiet (by simp) (Nat.le_add_right ..)
  | answers hstate hk => rcases hk with rfl | rfl <;> exact h.quiet (by simp) (Nat.le_add_right ..)
  | expires hwaits => exact h.quiet (by simp) (Nat.sub_le ..)
  | admits hstate => exact h.quiet (by simp) (le_refl (s.timers + 1))
  | joins hstate hlogin => exact h.quiet (by decide) (le_refl (s.timers + 1))
  | keepsAlive hstate hwaits =>
    have hlogin : .loginSuccess ∈ ks := List.count_pos_iff.mp (Nat.lt_of_lt_of_le hwaits h.timers)
    refine ⟨?_, h.marked.snoc (fun _ => hlogin) fun _ => trivial⟩
    rw [List.count_append]
    exact h.timers.trans (Nat.le_add_right ..)

theorem timed_history (h : History Does .start ks s) : Timed ks s :=
  h.keeps_nil (I := Timed) (fun _ _ _ _ hdone hdoes => hdone.does hdoes) ⟨Nat.zero_le _, .nil⟩

end Phase

/-! ## Runs -/

def Client.phase (c : Client) : Phase := c.line.phase

section Runs

variable {E : Env} {g g' : Gateway} {i : ConnId} {c c' : Client} {run es : List (World × Event)}

/-- What holds of the phase and the packets of every live client. -/
def Conversed (P : List PacketClass → Phase → Prop) (g : Gateway) : Prop :=
  ∀ (i : ConnId) (c : Client), g.objects[i]? = some c → c.OnLine → P (packetsSent c.log) c.phase

theorem conversed_told (h : Told E g) : Conversed (History Phase.Does .start) g := fun i c hc honline =>
  (h i c hc honline).filterMap Line.phase Action.packetSent fun _ _ _ => talks_phase

theorem allStates_conversed (E : Env) (run : List (World × Event)) :
    AllStates (step E) (Conversed (History Phase.Does .start)) Gateway.init run :=
  (allStates_told E run).mono fun _ => conversed_told

/-- **The conversation.** In every state that a run reaches, the packets that `sendPacket` was called for on a live
client, by class and in order, are a history of the protocol's machine from its start to the client's phase. -/
theorem conversation (E : Env) (run : List (World × Event)) :
    AllStates (step E) (Conversed (History Phase.Does .start)) Gateway.init run := allStates_conversed E run

/-- **Nothing out of place.** `sendPacket` was called for nothing on a live client in `HANDSHAKE`, or in a state that is
none of the protocol's; on one in `STATUS` only for answers, on one in `LOGIN` only for what belongs to the login, and
only on one in `PLAY` for anything else. -/
theorem says_by_state (E : Env) (run : List (World × Event)) :
    AllStates (step E) (Conversed fun ks s => ∀ k ∈ ks, Phase.MaySay s.state k) Gateway.init run :=
  (allStates_conversed E run).mono fun _ h i c hc honline => Phase.says_history (h i c hc honline)

/-- **One welcome.** On a live client of `ClientServer`, `sendPacket` was called for the four packets of a new player
exactly once, in order and right after the call for a `LoginSuccess`, and on a client of `Login` for none of them. -/
theorem welcomed_once (E : Env) (run : List (World × Event)) :
    AllStates (step E) (Conversed Phase.Welcomed) Gateway.init run :=
  (allStates_conversed E run).mono fun _ h i c hc honline => Phase.welcomed_history (h i c hc honline)

/-- **Keep-alive.** A live client never has more keep-alive waits than `sendPacket` was called for `LoginSuccess`
packets, and is not kept alive before the first of these calls. -/
theorem keepAlive_after_login (E : Env) (run : List (World × Event)) :
    AllStates (step E) (Conversed Phase.Timed) Gateway.init run :=
  (allStates_conversed E run).mono fun _ h i c hc honline => Phase.timed_history (h i c hc honline)

/-- **No way back.** Between two states of a run a live client keeps its state, unless it leaves `HANDSHAKE` or goes
from `LOGIN` to `PLAY`; it stays with `ClientServer`, stays encrypted, and its log grows. -/
theorem goes_forward (E : Env) (run es : List (World × Event)) (g g' : Gateway) (i : ConnId) (c c' : Client)
    (hrun : runFrom (step E) Gateway.init run = some g) (hes : runFrom (step E) g es = some g')
    (hc : g.objects[i]? = some c) (hc' : g'.objects[i]? = some c') (honline : c'.OnLine) :
    c.phase.Forward c'.phase ∧ (c.encrypted = true → c'.encrypted = true) ∧ c.log <+: c'.log := by
  obtain ⟨-, as, hlog, htalks⟩ := continues_along ((allStates_usual E run).last hrun) hes hc hc' honline
  refine ⟨?_, fun hencrypted => ?_, ⟨as, hlog.symm⟩⟩
  · exact htalks.relates (R := fun l l' => Phase.Forward l.phase l'.phase) (fun l => .refl l.phase)
      (fun _ _ _ => .trans) fun _ _ _ h => (talks_phase h).forward
  · by_contra hclear
    have hbefore := ((handsFrames_history htalks).clear (Bool.eq_false_of_not_eq_true hclear)).1
    exact Bool.noConfusion (hencrypted.symm.trans hbefore)

/-- A client that has just connected asks for the status. -/
theorem goes_forward_statusReads :
    ∃ (g g' : Gateway) (c c' : Client), runFrom (step .player) Gateway.init twoAccepted = some g ∧
      runFrom (step .player) g statusReads = some g' ∧ g.objects[0]? = some c ∧ g'.objects[0]? = some c' ∧
        c.phase.Forward c'.phase ∧ (c.encrypted = true → c'.encrypted = true) ∧ c.log <+: c'.log := by
  have hruns : (runFrom (step .player) Gateway.init twoAccepted).bind
    (fun g => (runFrom (step .player) g statusReads).bind fun g' =>
      g.objects[0]?.bind fun _ => g'.objects[0]?.map fun c' => (c'.freed, c'.alive)) = some (false, true) := by
    decide +kernel
  obtain ⟨g, hg, hruns⟩ := Option.bind_eq_some_iff.mp hruns
  obtain ⟨g', hg', hruns⟩ := Option.bind_eq_some_iff.mp hruns
  obtain ⟨c, hc, hruns⟩ := Option.bind_eq_some_iff.mp hruns
  obtain ⟨c', hc', hfields⟩ := Option.map_eq_some_iff.mp hruns
  obtain ⟨hfreed, halive⟩ := Prod.mk.inj hfields
  exact ⟨g, g', c, c', hg, hg', hc, hc', goes_forward .player twoAccepted statusReads g g' 0 c c' hg hg' hc hc'
    ⟨hfreed, halive⟩⟩

end Runs

end CeriosCluster.ClientGateway
