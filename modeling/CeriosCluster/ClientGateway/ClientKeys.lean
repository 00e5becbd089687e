import CeriosCluster.ClientGateway.LostClients
import CeriosCluster.ClientGateway.NullEntries

/-!
# The keys of `clients`

`addClient` copies the id of the client it is given into the key, and the id stays a field that a reply of
the session server writes. A key and the id of the client under it come apart exactly when a reply renames a
client that is there already; the other way to spoil an entry is the null pointer.
-/

namespace CeriosCluster.ClientGateway

open CeriosCluster.Lib CeriosCluster.MCPacket

def Client.getClientId (c : Client) : Bytes := c.userid

/-- Every entry of `clients` is a client under its own id. -/
def KeyedById (g : Gateway) : Prop :=
  ∀ userid p, g.clients.lookup userid = some p → ∃ i c, p = some i ∧ g.objects[i]? = some c ∧ c.getClientId = userid

/-- Disconnecting a client that has an entry removes that entry and no other. -/
def RemovesOwn (g : Gateway) : Prop :=
  ∀ (w : World) userid i g', g.clients.lookup userid = some (some i) →
    (ClientServer.clientDisconnected w i).after g = some g' → g'.clients = g.clients.erase userid

/-- A datagram is about a player that `clients` knows, and a client that joins is under no key but its new
id. -/
def KeepsKeys (E : Env) (g : Gateway) (e : World × Event) : Prop :=
  DatagramKnown g e.2 ∧
    ∀ i joined name, Joins E e.1 g i joined name e.2 → ∀ userid, g.clients.lookup userid = some (some i) →
      userid = joined

namespace Custody

/-- A client in a slot of `ClientServer` has the id of the slot. -/
def Keyed (o : Custody) : Prop :=
  ∀ (userid : Bytes) (i : ConnId) (c : Holder), o.held (.client userid) = some i → o.holders[i]? = some c →
    c.userid = userid

/-- No client is given another id than that of the slot it is in. -/
def RenamesFitly (o : Custody) : CustodyOp → Prop
  | .rename i joined => ∀ userid, o.held (.client userid) = some i → userid = joined
  | _ => True

section Operations

variable {o : Custody} {i j k : ConnId} {f : Holder → Holder} {c : Holder} {userid joined : Bytes}

theorem Keyed.modify (h : Keyed o) (hf : ∀ c, (f c).userid = c.userid) : Keyed (o.modify i f) := by
  intro userid k c hheld hc
  obtain ⟨d, hd, ⟨rfl, rfl⟩ | ⟨-, rfl⟩⟩ := modify_inv hc
  · exact (hf d).trans (h userid _ d hheld hd)
  · exact h userid k c hheld hd

theorem Keyed.of_fewer {o' : Custody} (h : Keyed o)
    (hheld : ∀ userid k, o'.held (.client userid) = some k → o.held (.client userid) = some k)
    (hids : ∀ (k : ConnId) (c : Holder), o'.holders[k]? = some c → ∃ d : Holder, o.holders[k]? = some d ∧
      c.userid = d.userid) : Keyed o' := by
  intro userid k c hk hc
  obtain ⟨d, hd, hid⟩ := hids k c hc
  exact hid.trans (h userid k d (hheld userid k hk) hd)

theorem Keyed.insert (h : Keyed o) : Keyed (o.insert i) := by
  apply h.of_fewer
  · intro userid k hk
    rw [held_client_insert] at hk
    exact hk
  · intro k c hc
    obtain ⟨d, hd, heq⟩ := insert_inv hc
    exact ⟨d, hd, by rw [heq]⟩

theorem Keyed.disconnect (h : Keyed o) : Keyed (o.disconnect i) := by
  apply h.of_fewer
  · intro userid k hk
    exact held_of_disconnect hk
  · intro k c hc
    obtain ⟨d, hd, ⟨heq, -⟩ | ⟨-, heq⟩⟩ := disconnect_inv hc
    · exact ⟨d, hd, by rw [heq]⟩
    · exact ⟨d, hd, by rw [heq]⟩

theorem Keyed.login (hs : Sound o) (h : Keyed o) : Keyed (o.login i) := by
  intro userid k c hk hc
  obtain ⟨d, hd, hid⟩ : ∃ d : Holder, o.holders[k]? = some d ∧ c.userid = d.userid := by
    obtain ⟨d, hd, ⟨-, heq⟩ | ⟨-, heq⟩, -⟩ := login_inv hc
    · exact ⟨d, hd, by rw [heq]⟩
    · refine ⟨d, hd, ?_⟩
      rw [heq]
      rfl
  rcases held_of_login hs.owned hk with hk | htakes
  · exact hid.trans (h userid k d hk hd)
  · obtain ⟨-, d', -, -, -, hd', hjoined⟩ := htakes
    obtain rfl := Option.some.inj (hd.symm.trans hd')
    exact hid.trans hjoined

/-- **An operation that renames fitly** keeps the keys. -/
theorem Keyed.apply (hs : Sound o) (h : Keyed o) (op : CustodyOp) (hfitly : RenamesFitly o op) :
    Keyed (o.apply op) := by
  cases op with
  | construct socket =>
    intro userid k c hk hc
    have hk : o.held (.client userid) = some k := by
      show o.held _ = _
      rw [← Function.update_of_ne (show Slot.client userid ≠ .accepting by simp) (some o.holders.length) o.held]
      exact hk
    obtain ⟨d, hd, -⟩ := hs.owned.fits _ _ hk
    rcases construct_inv hc with hc | ⟨rfl, -⟩
    · exact h userid k c hk hc
    · exact absurd (List.getElem?_eq_some_iff.mp hd).1 (Nat.lt_irrefl _)
  | insert i => exact h.insert
  | rename i joined =>
    intro userid k c hk hc
    obtain ⟨d, hd, ⟨rfl, rfl⟩ | ⟨-, rfl⟩⟩ := modify_inv hc
    · exact (hfitly userid hk).symm
    · exact h userid k c hk hd
  | login i => exact h.login hs
  | disconnect i => exact h.disconnect
  | _ => exact h.modify fun _ => rfl

/-- A client of `ClientServer` that is given another id than its key spoils the entry, whether its login then
succeeds or not. -/
theorem not_keyed_of_rename (hs : Sound o) (hheld : o.held (.client userid) = some i) (hne : userid ≠ joined) :
    ¬ Keyed ((o.apply (.rename i joined)).apply (.login i)) ∧
      ¬ Keyed ((o.apply (.rename i joined)).apply (.failLogin i)) := by
  obtain ⟨c, hc, -, howner⟩ := hs.owned.fits _ _ hheld
  have hc' : (o.apply (.rename i joined)).holders[i]? = some { c with userid := joined } := modify_self hc
  have hspoilt (f : Holder → Holder) (hf : ∀ c, (f c).userid = c.userid) :
    ¬ Keyed ((o.apply (.rename i joined)).modify i f) := by
    intro h
    have hid := h userid i _ hheld (modify_self hc')
    exact hne (hid.symm.trans (hf _))
  refine ⟨?_, hspoilt _ fun _ => rfl⟩
  show ¬ Keyed ((o.apply (.rename i joined)).login i)
  rw [login_clientServer hc' howner]
  exact hspoilt _ fun _ => rfl

end Operations

end Custody

section Events

variable {E : Env} {w : World} {e : Event} {g g' : Gateway} {ops : List CustodyOp}

theorem NoNull.of_keyedById (h : KeyedById g) : NoNull g := by
  intro userid hnull
  obtain ⟨i, c, hsome, -⟩ := h userid none hnull
  cases hsome

theorem keyed_of_keyedById (h : KeyedById g) : g.custody.Keyed := by
  intro userid i c hheld hc
  obtain ⟨d, hd, rfl⟩ := objects_of_custody hc
  obtain ⟨j, d', hj, hd', hid⟩ := h userid (some i) (held_client_iff.mp hheld)
  obtain rfl := Option.some.inj hj
  obtain rfl := Option.some.inj (hd.symm.trans hd')
  exact hid

theorem KeyedById.of_keyed (hs : g.custody.Sound) (h : g.custody.Keyed) (hnull : NoNull g) : KeyedById g := by
  intro userid p hlookup
  cases p with
  | none => exact absurd hlookup (hnull userid)
  | some i =>
    have hheld := held_client_iff.mpr hlookup
    obtain ⟨c, hc, -⟩ := hs.owned.fits _ _ hheld
    obtain ⟨d, hd, rfl⟩ := objects_of_custody hc
    exact ⟨i, d, rfl, hd, h userid i d.holder hheld hc⟩

theorem clients_free (p : Option ConnId) :
    Exec.wp (free p) (fun _ g' => g'.clients = g.clients) (fun _ g' => g'.clients = g.clients) g := by
  cases p with
  | none => exact rfl
  | some i => exact wp_modifyClient.mpr fun _ _ => rfl

/-- **Removal.** Where every client is under its own id, `clientDisconnected` removes the client's own entry. -/
theorem RemovesOwn.of_keyedById (h : KeyedById g) : RemovesOwn g := by
  intro w userid i g' hlookup hafter
  have hclients : Exec.wp (ClientServer.clientDisconnected w i) (fun _ g' => g'.clients = g.clients.erase userid)
      (fun _ g' => g'.clients = g.clients.erase userid) g := by
    unfold ClientServer.clientDisconnected
    rw [Exec.wp_bind, wp_client]
    intro c hl
    obtain ⟨j, d, hj, hd, hid⟩ := h userid (some i) hlookup
    obtain rfl := Option.some.inj hj
    obtain rfl := Option.some.inj (hl.1.symm.trans hd)
    obtain rfl : c.userid = userid := hid
    rw [Exec.wp_bind, Exec.wp_get, Exec.wp_bind, Exec.wp_set, Exec.wp_bind]
    refine Exec.wp_mono (clients_free _) (fun _ g₁ h₁ => ?_) fun _ _ h₁ => h₁
    rw [Exec.wp_ite]
    refine ⟨fun _ => h₁, fun _ => ?_⟩
    rw [Exec.wp_tryCatch]
    exact Exec.wp_mono (inert_remoteEndpoint g₁) (fun _ _ h₂ => h₂.clients.trans h₁) fun _ _ h₂ => h₂.clients.trans h₁
  exact Exec.wp.of_after (P := fun g' => g'.clients = g.clients.erase userid) hclients hafter

theorem fitly_of_asks (hkeeps : KeepsKeys E g (w, e)) (hasks : Asks E w g e ops) :
    Custody.Along Custody.RenamesFitly g.custody ops := by
  have hrename {i : ConnId} {joined name : Bytes} (hjoins : Joins E w g i joined name e) :
      Custody.RenamesFitly g.custody (.rename i joined) :=
    fun userid hheld => hkeeps.2 i joined name hjoins userid (held_client_iff.mp hheld)
  cases hasks with
  | logsIn hjoins hfits => exact ⟨hrename hjoins, trivial, trivial⟩
  | unframed hjoins hfits hops =>
    rcases hops with rfl | ⟨rfl, -⟩
    · exact ⟨hrename hjoins, trivial, trivial⟩
    · exact ⟨hrename hjoins, trivial, trivial, trivial⟩
  | fails hfails hops =>
    rcases hops with rfl | rfl
    · exact ⟨trivial, trivial⟩
    · exact ⟨trivial, trivial, trivial⟩
  | other hjoins hfails hminor =>
    cases hminor with
    | nothing => trivial
    | rearm hc halive => exact ⟨trivial, trivial, trivial⟩
    | _ => exact ⟨trivial, trivial⟩

theorem keyed_step (hs : g.custody.Sound) (h : g.custody.Keyed) (hkeeps : KeepsKeys E g (w, e))
    (hstep : step E g (w, e) = some g') : g'.custody.Keyed := by
  obtain ⟨ops, hasks, hallows, hrun⟩ := step_custody hs hstep
  rw [hrun]
  have hboth := Custody.Along.and hallows (fitly_of_asks hkeeps hasks)
  refine (Custody.Along.run (P := fun o => o.Sound ∧ o.Keyed) (fun o op ho hop => ?_) ⟨hs, h⟩ hboth).2
  exact ⟨ho.1.apply op hop.1, ho.2.apply ho.1 op hop.2⟩

/-- A step that does not keep the keys leaves an entry that is not its client's. -/
theorem not_keyedById_of_step (hs : g.custody.Sound) (hkeeps : ¬ KeepsKeys E g (w, e))
    (hstep : step E g (w, e) = some g') :
    ¬ KeyedById g' := by
  intro h
  by_cases hknown : DatagramKnown g e
  · apply hkeeps
    refine ⟨hknown, fun i joined name hjoins userid hlookup => ?_⟩
    by_contra hne
    have hheld := held_client_iff.mpr hlookup
    have hspoilt := Custody.not_keyed_of_rename hs hheld hne
    have hkeyed := keyed_of_keyedById h
    obtain ⟨ops, hasks, hallows, hrun⟩ := step_custody hs hstep
    rw [hrun] at hkeyed
    cases hasks with
    | logsIn hjoins' hfits =>
      obtain ⟨rfl, rfl, -⟩ := hjoins.unique hjoins'
      exact hspoilt.1 hkeyed
    | unframed hjoins' hfits hops =>
      obtain ⟨rfl, rfl, -⟩ := hjoins.unique hjoins'
      rcases hops with rfl | ⟨-, c, hc, halive, hstate⟩
      · exact hspoilt.2 hkeyed
      · -- a live client of `ClientServer` is not in `LOGIN`
        obtain ⟨c', hc', -, howner⟩ := hs.owned.fits _ _ hheld
        obtain rfl := Option.some.inj ((holder_of_object hc).symm.trans hc')
        have hplay := hs.placed.play_of_alive i c.holder hc' halive howner
        exact absurd (hstate.symm.trans hplay) (by decide)
    | fails hfails hops => exact hjoins.not_fails hfails
    | other hno hfails hminor => exact hno _ _ _ hjoins
  · exact null_of_step hknown hstep (.of_keyedById h)

end Events

/-- **The keys.** Along a run every entry of `clients` is a client under its own id, and is what disconnecting the
client removes, exactly when every datagram is about a player that `clients` knows and no client that is there
is given another id. -/
theorem keyedById_iff_keepsKeys (E : Env) (run : List (World × Event)) :
    AllStates (step E) (fun g => KeyedById g ∧ RemovesOwn g) Gateway.init run ↔
      AllSteps (step E) (KeepsKeys E) Gateway.init run := by
  refine allStates_iff_allSteps (I := fun g => g.custody.Sound ∧ g.custody.Keyed ∧
    NoNull g) ?_ ?_ ?_ ⟨Custody.sound_init, ?_, ?_⟩
  · intro g e g' ⟨hs, hkeyed, hnull⟩ hkeeps hstep
    exact ⟨sound_step hs hstep, keyed_step hs hkeyed hkeeps hstep, hnull.of_noNewNull (noNewNull_step hkeeps.1 hstep)⟩
  · intro g ⟨hs, hkeyed, hnull⟩
    have h := KeyedById.of_keyed hs hkeyed hnull
    exact ⟨h, .of_keyedById h⟩
  · intro g e g' ⟨hs, _⟩ hkeeps hstep h
    exact not_keyedById_of_step hs hkeeps hstep h.1
  · intro userid i c hheld
    cases hheld
  · intro userid hnull
    cases hnull

/-! ## A run -/

def secondInfo : Bytes := ascii "\x7b\"id\":\"fedcba9876543210fedcba9876543210\",\"name\":\"Second\"\x7d"

def Env.twoPlayers : Env :=
  { Env.player with
    parsePlayerInfo := fun text =>
      if text = secondInfo then some (ascii "fedcba9876543210fedcba9876543210", ascii "Second")
      else Env.player.parsePlayerInfo text }

/-- A client asks to log in as one player and then as another, and both requests complete. -/
def twoNames : List (World × Event) :=
  plainRun (loginStarts ++ [secretArrives 5, .onLengthReceive 0 false (8 :: 0 :: 6 :: ascii "Second"),
    secretArrives 6] ++
    requestCompletes 0 ++ (requestCompletes 1).dropLast ++ [.onHasJoinedPostComplete 0 1 .none secondInfo])

/-- The second reply renames the client under the key of the first. -/
theorem second_reply_renames :
    ¬ ∀ (E : Env) (run : List (World × Event)),
      AllStates (step E) (fun g => KeyedById g ∧ RemovesOwn g) Gateway.init run := by
  intro h
  have hkeys : (runFrom (step .twoPlayers) Gateway.init twoNames).map (fun g =>
      (g.clients.lookup (ascii "01234567-89ab-cdef-0123-456789abcdef"), g.objects[0]?.map Client.getClientId)) =
        some (some (some 0), some (ascii "fedcba98-7654-3210-fedc-ba9876543210")) := by
    decide +kernel
  obtain ⟨g, hg, hstate⟩ := Option.map_eq_some_iff.mp hkeys
  obtain ⟨hlookup, hclient⟩ := Prod.mk.inj hstate
  obtain ⟨i, c, hi, hc, hid⟩ := ((h .twoPlayers twoNames).last hg).1 _ _ hlookup
  obtain rfl := Option.some.inj hi
  rw [hc, Option.map_some, hid, Option.some.injEq] at hclient
  exact absurd hclient (by decide +kernel)

end CeriosCluster.ClientGateway
