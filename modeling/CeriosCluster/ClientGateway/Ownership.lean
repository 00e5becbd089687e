import CeriosCluster.ClientGateway.Custody

/-!
# The ownership discipline

What every sequence of operations keeps, whatever the packets, the replies and the datagrams are. No
client is in two slots and none in a slot is freed; a client under a key of `pendingClients` belongs to
`Login` and one under a key of `clients` to `ClientServer`. Open sockets have different handles, and the
socket of a live client is open, so a live client of `Login` lies under its own handle.
-/

namespace CeriosCluster.ClientGateway

open CeriosCluster.Lib CeriosCluster.MCPacket

def invalidHandle : Word := BitVec.ofInt 32 (-1)

theorem native_handle_of_open {s : Socket} (h : s.state ≠ .closed) : s.native_handle = s.handle := if_neg h

theorem native_handle_of_closed {s : Socket} (h : s.state = .closed) : s.native_handle = invalidHandle := if_pos h

/-- The client may be in the slot. The key of a pending client is the handle its socket had when it was
accepted, or the invalid one if it was closed before. -/
def Holder.Fits (c : Holder) : Slot → Prop
  | .pending handle => c.owner = .login ∧ (handle = c.socket.handle ∨ handle = invalidHandle ∧ c.socket.state = .closed)
  | .client _ => c.owner = .clientServer
  | .accepting => c.owner = .login

def Holder.Open (c : Holder) : Prop := c.freed = false ∧ c.socket.state ≠ .closed

namespace Custody

/-- Slots hold different clients, that are there and may be in them. -/
structure Owned (o : Custody) : Prop where
  exclusive : Exclusive o.held
  fits : ∀ s i, o.held s = some i → ∃ c, o.holders[i]? = some c ∧ c.freed = false ∧ c.Fits s

structure Sockets (o : Custody) : Prop where
  open_of_alive : ∀ (i : ConnId) (c : Holder), o.holders[i]? = some c → c.alive = true → c.socket.state ≠ .closed
  valid : ∀ (i : ConnId) (c : Holder), o.holders[i]? = some c → c.socket.handle ≠ invalidHandle
  once : ∀ (i j : ConnId) (c d : Holder), o.holders[i]? = some c → o.holders[j]? = some d → c.Open → d.Open →
    c.socket.handle = d.socket.handle → i = j

/-- A live client of `Login` is where `handoffClient` will look for it, and one of `ClientServer` is in
`PLAY`. -/
structure Placed (o : Custody) : Prop where
  pending_of_alive : ∀ (i : ConnId) (c : Holder), o.holders[i]? = some c → c.freed = false → c.alive = true →
    c.owner = .login →
    o.held .accepting = some i ∨ o.held (.pending c.socket.handle) = some i
  play_of_alive : ∀ (i : ConnId) (c : Holder), o.holders[i]? = some c → c.alive = true → c.owner = .clientServer →
    c.state = .PLAY

def Uncompressed (o : Custody) : Prop :=
  ∀ (i : ConnId) (c : Holder), o.holders[i]? = some c → c.compressionThreshold = noCompression

structure Sound (o : Custody) : Prop where
  uncompressed : Uncompressed o
  owned : Owned o
  sockets : Sockets o
  placed : Placed o

/-! ## Reading a client after a change -/

section Reading

variable {o : Custody} {i j : ConnId} {f : Holder → Holder} {c : Holder} {p : Option ConnId} {s : Slot}

theorem getElem?_modify : (o.modify i f).holders[j]? = (fun c => if i = j then f c else c) <$> o.holders[j]? :=
  List.getElem?_modify f i o.holders j

theorem modify_self (h : o.holders[i]? = some c) : (o.modify i f).holders[i]? = some (f c) := by
  rw [getElem?_modify, h]
  simp

theorem modify_other (h : i ≠ j) : (o.modify i f).holders[j]? = o.holders[j]? := by
  rw [getElem?_modify]
  simp [h]

theorem modify_inv (h : (o.modify i f).holders[j]? = some c) :
    ∃ d, o.holders[j]? = some d ∧ (i = j ∧ c = f d ∨ i ≠ j ∧ c = d) := by
  rw [getElem?_modify] at h
  obtain ⟨d, hd, rfl⟩ := Option.map_eq_some_iff.mp h
  refine ⟨d, hd, ?_⟩
  split
  · next hij => exact Or.inl ⟨hij, rfl⟩
  · next hij => exact Or.inr ⟨hij, rfl⟩

theorem modify_eq_self (h : ∀ c, o.holders[i]? = some c → f c = c) : o.modify i f = o := by
  refine congrArg (Custody.mk · o.held) (List.ext_getElem? fun j => ?_)
  rw [List.getElem?_modify]
  cases hj : o.holders[j]? with
  | none => rfl
  | some d =>
    by_cases hij : i = j
    · subst hij
      simp [h d hj]
    · simp [hij]

theorem modify_modify {f' : Holder → Holder} : (o.modify i f).modify i f' = o.modify i (f' ∘ f) :=
  congrArg (Custody.mk · o.held) (List.modify_modify_eq f f' i o.holders)

@[simp] theorem held_modify : (o.modify i f).held = o.held := rfl

@[simp] theorem held_write : (o.write s p).held = Function.update o.held s p := rfl

@[simp] theorem held_construct {socket : Socket} :
    (o.construct socket).held = Function.update o.held .accepting (some o.holders.length) := rfl

@[simp] theorem held_free : (o.free p).held = o.held := by cases p <;> rfl

@[simp] theorem held_replace : (o.replace s p).held = Function.update o.held s p := by rw [replace, held_free]; rfl

theorem free_other (h : p ≠ some j) : (o.free p).holders[j]? = o.holders[j]? := by
  cases p with
  | none => rfl
  | some i => exact modify_other fun hij => h (congrArg some hij)

theorem free_inv (h : (o.free p).holders[j]? = some c) (hfreed : c.freed = false) :
    o.holders[j]? = some c ∧ p ≠ some j := by
  cases p with
  | none => exact ⟨h, by simp⟩
  | some i =>
    obtain ⟨d, hd, ⟨-, rfl⟩ | ⟨hij, rfl⟩⟩ := modify_inv h
    · cases hfreed
    · exact ⟨hd, fun heq => hij (Option.some.inj heq)⟩

theorem free_fields (h : (o.free p).holders[j]? = some c) :
    ∃ d, o.holders[j]? = some d ∧ c = { d with freed := c.freed } := by
  cases p with
  | none => exact ⟨c, h, rfl⟩
  | some i =>
    obtain ⟨d, hd, ⟨-, rfl⟩ | ⟨-, rfl⟩⟩ := modify_inv h
    · exact ⟨d, hd, rfl⟩
    · exact ⟨c, hd, rfl⟩

end Reading

/-! ## The slots -/

section Slots

variable {o : Custody} {i : ConnId} {f : Holder → Holder} {c : Holder} {s : Slot}

theorem Owned.write_none (h : Owned o) : Owned (o.write s none) where
  exclusive := h.exclusive.update_none
  fits := by
    intro t i ht
    rcases held_of_update ht with ⟨-, hnone⟩ | ⟨-, ht⟩
    · cases hnone
    · exact h.fits t i ht

/-- What no slot holds may change in any way. -/
theorem Owned.modify_unheld (h : Owned o) (hi : Unheld o.held i) : Owned (o.modify i f) where
  exclusive := h.exclusive
  fits := by
    intro s j hj
    obtain ⟨c, hc, hrest⟩ := h.fits s j hj
    exact ⟨c, by rw [modify_other fun hij => hi s (hj.trans (congrArg some hij.symm)), hc], hrest⟩

theorem Owned.free_unheld {p : Option ConnId} (h : Owned o) (hp : ∀ i, p = some i → Unheld o.held i) :
    Owned (o.free p) := by
  cases p with
  | none => exact h
  | some i => exact h.modify_unheld (hp i rfl)

theorem Owned.replace_none (h : Owned o) : Owned (o.replace s none) :=
  (h.write_none (s := s)).free_unheld fun _ hi => h.exclusive.unheld_of_update hi (by simp)

/-- A client that no slot holds is put into one that it fits. -/
theorem Owned.replace_some (h : Owned o) (hi : Unheld o.held i) (hc : o.holders[i]? = some c) (hfreed : c.freed = false)
    (hfits : c.Fits s) : Owned (o.replace s (some i)) := by
  have hwrite : Owned (o.write s (some i)) := by
    refine ⟨h.exclusive.update_some hi, fun t j hj => ?_⟩
    rcases held_of_update hj with ⟨rfl, hij⟩ | ⟨-, hj⟩
    · exact ⟨c, Option.some.inj hij ▸ hc, hfreed, hfits⟩
    · exact h.fits t j hj
  refine hwrite.free_unheld fun j hj => h.exclusive.unheld_of_update hj fun hij => ?_
  exact hi s (hj.trans hij.symm)


end Slots

/-! ## A client changes where it is -/

/-- A change that does not open a socket, and closes none that is alive. -/
structure SocketKept (c c' : Holder) : Prop where
  freed : c'.freed = c.freed
  handle : c'.socket.handle = c.socket.handle
  closed : c.socket.state = .closed → c'.socket.state = .closed
  alive : c'.alive = true → c.alive = true
  open_of_alive : c'.alive = true → c.socket.state ≠ .closed → c'.socket.state ≠ .closed

/-- A change that no slot has to notice. -/
structure Kept (c c' : Holder) : Prop extends SocketKept c c' where
  compressionThreshold : c'.compressionThreshold = c.compressionThreshold
  owner : c'.owner = c.owner
  play : c'.alive = true → c.owner = .clientServer → c.state = .PLAY → c'.state = .PLAY

section Changes

variable {o : Custody} {i : ConnId} {f : Holder → Holder} {p : Option ConnId}

theorem Kept.refl (c : Holder) : Kept c c := ⟨⟨rfl, rfl, id, id, fun _ h => h⟩, rfl, rfl, fun _ _ h => h⟩

theorem kept_of_modify (hf : ∀ c, o.holders[i]? = some c → Kept c (f c)) {j : ConnId} {c' : Holder}
    (h : (o.modify i f).holders[j]? = some c') : ∃ c, o.holders[j]? = some c ∧ Kept c c' := by
  obtain ⟨c, hc, ⟨rfl, rfl⟩ | ⟨-, rfl⟩⟩ := modify_inv h
  · exact ⟨c, hc, hf c hc⟩
  · exact ⟨c', hc, .refl c'⟩

theorem Kept.fits {c c' : Holder} {s : Slot} (h : Kept c c') (hs : c.Fits s) : c'.Fits s := by
  cases s with
  | pending handle => exact ⟨h.owner.trans hs.1, hs.2.imp (·.trans h.handle.symm) fun hc => ⟨hc.1, h.closed hc.2⟩⟩
  | client userid => exact h.owner.trans hs
  | accepting => exact h.owner.trans hs

theorem Owned.modify (h : Owned o) (hf : ∀ c, o.holders[i]? = some c → Kept c (f c)) : Owned (o.modify i f) where
  exclusive := h.exclusive
  fits := by
    intro s j hj
    obtain ⟨c, hc, hfreed, hfits⟩ := h.fits s j hj
    by_cases hij : i = j
    · subst hij
      exact ⟨f c, modify_self hc, (hf c hc).freed.trans hfreed, (hf c hc).fits hfits⟩
    · exact ⟨c, by rw [modify_other hij, hc], hfreed, hfits⟩

theorem SocketKept.open {c c' : Holder} (h : SocketKept c c') (hopen : c'.Open) : c.Open :=
  ⟨h.freed.symm.trans hopen.1, fun hc => hopen.2 (h.closed hc)⟩

theorem Sockets.modify (h : Sockets o) (hf : ∀ c, o.holders[i]? = some c → SocketKept c (f c)) :
    Sockets (o.modify i f) := by
  have hinv : ∀ {j : ConnId} {c' : Holder}, (o.modify i f).holders[j]? = some c' → ∃ c, o.holders[j]? = some c ∧
    SocketKept c c' := by
    intro j c' h
    obtain ⟨c, hc, ⟨rfl, rfl⟩ | ⟨-, rfl⟩⟩ := modify_inv h
    · exact ⟨c, hc, hf c hc⟩
    · exact ⟨c', hc, (Kept.refl c').toSocketKept⟩
  refine ⟨?_, ?_, ?_⟩
  · intro j c' hc' halive
    obtain ⟨c, hc, hkept⟩ := hinv hc'
    exact hkept.open_of_alive halive (h.open_of_alive j c hc (hkept.alive halive))
  · intro j c' hc'
    obtain ⟨c, hc, hkept⟩ := hinv hc'
    rw [hkept.handle]
    exact h.valid j c hc
  · intro j k c' d' hc' hd' hopen hopen' hhandle
    obtain ⟨c, hc, hkept⟩ := hinv hc'
    obtain ⟨d, hd, hkept'⟩ := hinv hd'
    rw [hkept.handle, hkept'.handle] at hhandle
    exact h.once j k c d hc hd (hkept.open hopen) (hkept'.open hopen') hhandle

theorem Placed.modify (h : Placed o) (hf : ∀ c, o.holders[i]? = some c → Kept c (f c)) : Placed (o.modify i f) where
  pending_of_alive := by
    intro j c' hc' hfreed halive howner
    obtain ⟨c, hc, hkept⟩ := kept_of_modify hf hc'
    rw [hkept.handle]
    exact h.pending_of_alive j c hc (hkept.freed.symm.trans hfreed) (hkept.alive halive) (hkept.owner.symm.trans howner)
  play_of_alive := by
    intro j c' hc' halive howner
    obtain ⟨c, hc, hkept⟩ := kept_of_modify hf hc'
    have howner := hkept.owner.symm.trans howner
    exact hkept.play halive howner (h.play_of_alive j c hc (hkept.alive halive) howner)

theorem Uncompressed.modify (h : Uncompressed o)
    (hf : ∀ c, o.holders[i]? = some c → (f c).compressionThreshold = c.compressionThreshold) :
      Uncompressed (o.modify i f) := by
  intro j c' hc'
  obtain ⟨c, hc, ⟨rfl, rfl⟩ | ⟨-, rfl⟩⟩ := modify_inv hc'
  · exact (hf c hc).trans (h _ c hc)
  · exact h j _ hc

theorem Sound.modify (h : Sound o) (hf : ∀ c, o.holders[i]? = some c → Kept c (f c)) : Sound (o.modify i f) :=
  ⟨h.uncompressed.modify fun c hc => (hf c hc).compressionThreshold, h.owned.modify hf, h.sockets.modify fun c hc =>
    (hf c hc).toSocketKept, h.placed.modify hf⟩

theorem Uncompressed.replace {s : Slot} (h : Uncompressed o) : Uncompressed (o.replace s p) := by
  intro j c hc
  obtain ⟨d, hd, heq⟩ := free_fields hc
  rw [heq]
  exact h j d hd

theorem Sockets.replace {s : Slot} (h : Sockets o) : Sockets (o.replace s p) where
  open_of_alive := by
    intro j c hc halive
    obtain ⟨d, hd, heq⟩ := free_fields hc
    rw [heq] at halive ⊢
    exact h.open_of_alive j d hd halive
  valid := by
    intro j c hc
    obtain ⟨d, hd, heq⟩ := free_fields hc
    rw [heq]
    exact h.valid j d hd
  once := by
    intro j k c d hc hd hopen hopen' hhandle
    exact h.once j k c d (free_inv hc hopen.1).1 (free_inv hd hopen'.1).1 hopen hopen' hhandle

end Changes

/-! ## The operations keep the discipline -/

section Operations

variable {o : Custody} {i : ConnId} {c : Holder}

theorem held_init (s : Slot) : Gateway.init.custody.held s = none := by cases s <;> rfl

theorem sound_init : Sound Gateway.init.custody where
  uncompressed := fun _ _ h => by cases h
  owned :=
    { exclusive := fun s _ _ h => by rw [held_init] at h; cases h
      fits := fun s _ h => by rw [held_init] at h; cases h }
  sockets :=
    { open_of_alive := fun _ _ h => by cases h
      valid := fun _ _ h => by cases h
      once := fun _ _ _ _ h => by cases h }
  placed :=
    { pending_of_alive := fun _ _ h => by cases h
      play_of_alive := fun _ _ h => by cases h }

theorem construct_inv {socket : Socket} {j : ConnId} (h : (o.construct socket).holders[j]? = some c) :
    o.holders[j]? = some c ∨ j = o.holders.length ∧ c = (Client.new .login socket zeroToken).holder := by
  rw [construct, List.getElem?_append] at h
  split at h
  · exact Or.inl h
  · next hj =>
    rw [List.getElem?_singleton] at h
    split at h
    · next hzero => exact Or.inr ⟨Nat.le_antisymm (Nat.sub_eq_zero_iff_le.mp hzero) (Nat.not_lt.mp hj),
        (Option.some.inj h).symm⟩
    · cases h

theorem Sound.construct {socket : Socket} (h : Sound o) (hfree : o.held .accepting = none)
    (hstate : socket.state = .connected) (hvalid : socket.handle ≠ invalidHandle)
    (hnew : ∀ (j : ConnId) (d : Holder), o.holders[j]? = some d → d.Open → d.socket.handle ≠ socket.handle) :
    Sound (o.construct socket) := by
  have hlt : ∀ s j, o.held s = some j → j < o.holders.length := by
    intro s j hj
    obtain ⟨d, hd, -⟩ := h.owned.fits s j hj
    exact (List.getElem?_eq_some_iff.mp hd).1
  refine ⟨?_, ⟨?_, ?_⟩, ⟨?_, ?_, ?_⟩, ⟨?_, ?_⟩⟩
  · intro j d hd
    rcases construct_inv hd with hd | ⟨-, rfl⟩
    · exact h.uncompressed j d hd
    · rfl
  · exact h.owned.exclusive.update_some fun s hs => Nat.lt_irrefl _ (hlt s _ hs)
  · intro s j hj
    rcases held_of_update hj with ⟨rfl, hlast⟩ | ⟨-, hj⟩
    · obtain rfl := Option.some.inj hlast
      exact ⟨_, List.getElem?_concat_length, rfl, rfl⟩
    · obtain ⟨d, hd, hrest⟩ := h.owned.fits s j hj
      exact ⟨d, (List.getElem?_append_left (hlt s j hj)).trans hd, hrest⟩
  · intro j d hd halive
    rcases construct_inv hd with hd | ⟨-, rfl⟩
    · exact h.sockets.open_of_alive j d hd halive
    · exact fun hclosed => SocketState.noConfusion (hstate.symm.trans hclosed)
  · intro j d hd
    rcases construct_inv hd with hd | ⟨-, rfl⟩
    · exact h.sockets.valid j d hd
    · exact hvalid
  · intro j k d e hd he hopen hopen' hhandle
    rcases construct_inv hd with hd | ⟨hj, rfl⟩ <;> rcases construct_inv he with he | ⟨hk, rfl⟩
    · exact h.sockets.once j k d e hd he hopen hopen' hhandle
    · exact absurd hhandle (hnew j d hd hopen)
    · exact absurd hhandle.symm (hnew k e he hopen')
    · exact hj.trans hk.symm
  · intro j d hd hfreed halive howner
    rcases construct_inv hd with hd | ⟨rfl, rfl⟩
    · rcases h.placed.pending_of_alive j d hd hfreed halive howner with haccepting | hpending
      · rw [hfree] at haccepting
        cases haccepting
      · refine Or.inr ?_
        rw [held_construct, Function.update_of_ne (by simp), hpending]
    · refine Or.inl ?_
      rw [held_construct, Function.update_self]
  · intro j d hd halive howner
    rcases construct_inv hd with hd | ⟨-, rfl⟩
    · exact h.placed.play_of_alive j d hd halive howner
    · cases howner

theorem Holder.fits_native (howner : c.owner = .login) : c.Fits (.pending c.socket.native_handle) := by
  by_cases hclosed : c.socket.state = .closed
  · exact ⟨howner, Or.inr ⟨native_handle_of_closed hclosed, hclosed⟩⟩
  · exact ⟨howner, Or.inl (native_handle_of_open hclosed)⟩

theorem Placed.replace_none {s : Slot} (h : Placed o) : Placed (o.replace s none) where
  pending_of_alive := by
    intro j d hd hfreed halive howner
    obtain ⟨hd, hne⟩ := free_inv hd hfreed
    rw [held_replace]
    refine (h.pending_of_alive j d hd hfreed halive howner).imp (fun hj => ?_) (fun hj => ?_)
    all_goals
      rw [Function.update_of_ne, hj]
      rintro rfl
      exact hne hj
  play_of_alive := by
    intro j d hd halive howner
    obtain ⟨e, he, heq⟩ := free_fields hd
    rw [heq] at halive howner ⊢
    exact h.play_of_alive j e he halive howner

theorem Sound.replace_none {s : Slot} (h : Sound o) : Sound (o.replace s none) :=
  ⟨h.uncompressed.replace, h.owned.replace_none, h.sockets.replace, h.placed.replace_none⟩

theorem Sound.insert (h : Sound o) (hi : o.held .accepting = some i) : Sound (o.insert i) := by
  obtain ⟨c, hc, hfreed, howner⟩ := h.owned.fits _ _ hi
  have hunheld : Unheld (o.write .accepting none).held i := h.owned.exclusive.unheld_of_update hi (by simp)
  have hwrite : Sockets (o.write .accepting none) := ⟨h.sockets.open_of_alive, h.sockets.valid, h.sockets.once⟩
  rw [Custody.insert, hc]
  have huncompressed : Uncompressed (o.write .accepting none) := h.uncompressed
  refine ⟨huncompressed.replace, h.owned.write_none.replace_some hunheld hc hfreed (Holder.fits_native howner),
    hwrite.replace, ⟨?_, ?_⟩⟩
  · intro j d hd hfreed halive howner
    obtain ⟨hd, hne⟩ := free_inv hd hfreed
    rw [held_replace]
    rcases h.placed.pending_of_alive j d hd hfreed halive howner with haccepting | hpending
    · obtain rfl : i = j := Option.some.inj (hi.symm.trans haccepting)
      obtain rfl : c = d := Option.some.inj (hc.symm.trans hd)
      rw [native_handle_of_open (h.sockets.open_of_alive _ _ hc halive)]
      exact Or.inr (Function.update_self _ _ _)
    · have hheld : (o.write .accepting none).held (.pending d.socket.handle) = some j := by
        rw [held_write, Function.update_of_ne (by simp), hpending]
      refine Or.inr ?_
      rw [Function.update_of_ne, hheld]
      intro heq
      exact hne (heq ▸ hheld)
  · intro j d hd halive howner
    obtain ⟨e, he, heq⟩ := free_fields hd
    rw [heq] at halive howner ⊢
    exact h.placed.play_of_alive j e he halive howner

theorem Sound.disconnect (h : Sound o) : Sound (o.disconnect i) := by
  rw [Custody.disconnect]
  split
  · exact h
  · next c hc =>
    split
    · have hkept : Sound (o.modify i fun c => { c with alive := false, socket := c.socket.shut }) := by
        refine h.modify fun d _ => ⟨⟨rfl, ?_, fun hclosed => ?_, nofun, nofun⟩, rfl, rfl, nofun⟩
        · dsimp only [Socket.shut]
          split <;> rfl
        · dsimp only [Socket.shut]
          rw [if_neg (by simp [hclosed])]
          exact hclosed
      dsimp only
      split
      · exact hkept
      · exact hkept.replace_none
    · exact h

/-- The client that `Login` finds and hands over is in `PLAY` if it is alive. -/
theorem Sound.handoff {handle : Word} (h : Sound o)
    (hplay : ∀ (j : ConnId) (d : Holder), o.held (.pending handle) = some j → o.holders[j]? = some d → d.alive = true →
      d.state = .PLAY) : Sound (o.handoff handle) := by
  rw [Custody.handoff]
  split
  · exact h
  · next j hj =>
    obtain ⟨c, hc, hfreed, howner, -⟩ := h.owned.fits _ _ hj
    rw [hc]
    dsimp only [adopt]
    -- the client is taken out of its slot, and another key may be erased
    have hunheld : Unheld (o.write (.pending handle) none).held j := h.owned.exclusive.unheld_of_update hj (by simp)
    have hother : (o.write (.pending handle) none).held (.pending c.socket.native_handle) ≠ some j := hunheld _
    revert hunheld hother
    generalize hs : Slot.pending c.socket.native_handle = s
    generalize ho₁ : o.write (.pending handle) none = o₁
    intro hunheld hother
    have howned : Owned o₁ := ho₁ ▸ h.owned.write_none
    have hsockets : Sockets o₁ := ho₁ ▸ ⟨h.sockets.open_of_alive, h.sockets.valid, h.sockets.once⟩
    have hholders : ∀ k : ConnId, o₁.holders[k]? = o.holders[k]? := fun k => by rw [← ho₁]; rfl
    have hunheld₂ : Unheld (o₁.replace s none).held j := by
      rw [held_replace]
      exact hunheld.update (by simp)
    have hc₂ : (o₁.replace s none).holders[j]? = some c := by
      rw [Custody.replace, free_other hother]
      exact (hholders j).trans hc
    have howned₃ : Owned ((o₁.replace s none).modify j fun c => { c with owner := .clientServer }) :=
      howned.replace_none.modify_unheld hunheld₂
    have hc₃ := modify_self (f := fun c => { c with owner := .clientServer }) hc₂
    have hsockets₃ : Sockets ((o₁.replace s none).modify j fun c => { c with owner := .clientServer }) :=
      hsockets.replace.modify fun _ _ => ⟨rfl, rfl, id, id, fun _ hopen => hopen⟩
    have huncompressed : Uncompressed o₁ := fun k d hd => h.uncompressed k d ((hholders k).symm.trans hd)
    have huncompressed₃ : Uncompressed ((o₁.replace s none).modify j fun c => { c with owner := .clientServer }) :=
      huncompressed.replace.modify fun _ _ => rfl
    refine ⟨huncompressed₃.replace, howned₃.replace_some hunheld₂ hc₃ hfreed rfl, hsockets₃.replace, ⟨?_, ?_⟩⟩
    · intro k d hd hfreed halive howner
      obtain ⟨hd, -⟩ := free_inv hd hfreed
      obtain ⟨e, he, ⟨-, rfl⟩ | ⟨hjk, rfl⟩⟩ := modify_inv hd
      · cases howner
      obtain ⟨he, hne⟩ := free_inv he hfreed
      have hheld : ∀ t : Slot, t ≠ .client c.userid → t ≠ s → (((o₁.replace s none).modify j fun c =>
          { c with owner := .clientServer }).replace (.client c.userid) (some j)).held t = o₁.held t :=
            fun t ht hts => by
        rw [held_replace, held_modify, held_replace, Function.update_of_ne ht, Function.update_of_ne hts]
      refine (h.placed.pending_of_alive k d ((hholders k).symm.trans he) hfreed halive howner).imp (fun hk => ?_)
        (fun hk => ?_)
      · rw [hheld _ (by simp) (by simp [← hs]), ← ho₁, held_write, Function.update_of_ne (by simp), hk]
      · have hk₁ : o₁.held (.pending d.socket.handle) = some k := by
          rw [← ho₁, held_write, Function.update_of_ne, hk]
          intro heq
          exact hjk (Option.some.inj (hj.symm.trans (heq ▸ hk)))
        rw [hheld _ (by simp), hk₁]
        rintro rfl
        exact hne hk₁
    · intro k d hd halive howner
      obtain ⟨e, he, heq⟩ := free_fields hd
      rw [heq] at halive howner ⊢
      obtain ⟨e', he', ⟨rfl, rfl⟩ | ⟨-, rfl⟩⟩ := modify_inv he
      · obtain rfl : c = e' := Option.some.inj (hc₂.symm.trans he')
        exact hplay j c hj hc halive
      · obtain ⟨e'', he'', heq'⟩ := free_fields he'
        rw [heq'] at halive howner ⊢
        exact h.placed.play_of_alive k e'' ((hholders k).symm.trans he'') halive howner

theorem Sound.login (h : Sound o) (hi : ∀ c, o.holders[i]? = some c → c.freed = false) : Sound (o.login i) := by
  rw [Custody.login]
  split
  · exact h
  · next c hc =>
    have hplayed : Sound (o.modify i fun c =>
        { c with state := .PLAY, waitsPending := c.waitsPending + 1, logins := c.logins + 1 }) :=
      h.modify fun _ _ => ⟨⟨rfl, rfl, id, id, fun _ hopen => hopen⟩, rfl, rfl, fun _ _ _ => rfl⟩
    have hc' := modify_self (f := fun c =>
      { c with state := .PLAY, waitsPending := c.waitsPending + 1, logins := c.logins + 1 }) hc
    dsimp only
    split
    · refine hplayed.handoff fun j d hj hd halive => ?_
      -- only a live client's own handle leads to it
      obtain ⟨d', hd', hfreed, -, hhandle⟩ := hplayed.owned.fits _ _ hj
      obtain rfl : d = d' := Option.some.inj (hd.symm.trans hd')
      have hopen := hplayed.sockets.open_of_alive j d hd halive
      have hhandle := hhandle.resolve_right fun hclosed => hopen hclosed.2
      have hiopen : c.socket.state ≠ .closed := fun hclosed =>
        hplayed.sockets.valid j d hd (hhandle.symm.trans (native_handle_of_closed hclosed))
      rw [native_handle_of_open hiopen] at hhandle
      obtain rfl : i = j := hplayed.sockets.once i j _ d hc' hd ⟨hi c hc, hiopen⟩ ⟨hfreed, hopen⟩ hhandle
      obtain rfl := Option.some.inj (hc'.symm.trans hd)
      rfl
    · exact hplayed

end Operations

end Custody

/-- The operation can happen: what it is about is there, and its guard holds. -/
def CustodyOp.Allowed (o : Custody) : CustodyOp → Prop
  | .construct socket =>
    o.held .accepting = none ∧ socket.state = .connected ∧ socket.handle ≠ invalidHandle ∧
      ∀ (j : ConnId) (d : Holder), o.holders[j]? = some d → d.Open → d.socket.handle ≠ socket.handle
  | .insert i => o.held .accepting = some i
  | .reset i => ∀ c, o.holders[i]? = some c → c.socket.state = .connected
  | .handshake i _ => ∀ c, o.holders[i]? = some c → c.state = .HANDSHAKE
  | .login i => ∀ c, o.holders[i]? = some c → c.freed = false
  | .expire _ | .arm _ | .rename _ _ | .failLogin _ | .disconnect _ => True

namespace Custody

/-- **Every operation keeps the discipline.** -/
theorem Sound.apply {o : Custody} (h : Sound o) (op : CustodyOp) (hop : op.Allowed o) : Sound (o.apply op) := by
  have kept {i : ConnId} {f : Holder → Holder} (hf : ∀ c, o.holders[i]? = some c → Kept c (f c)) :
    Sound (o.modify i f) :=
    h.modify hf
  cases op with
  | construct socket => exact h.construct hop.1 hop.2.1 hop.2.2.1 hop.2.2.2
  | insert i => exact h.insert hop
  | reset i =>
    refine kept fun c hc => ⟨⟨rfl, rfl, fun hclosed => ?_, id, fun _ _ => by simp⟩, rfl, rfl, fun _ _ h => h⟩
    exact SocketState.noConfusion ((hop c hc).symm.trans hclosed)
  | expire i => exact kept fun _ _ => ⟨⟨rfl, rfl, id, id, fun _ h => h⟩, rfl, rfl, fun _ _ h => h⟩
  | arm i => exact kept fun _ _ => ⟨⟨rfl, rfl, id, id, fun _ h => h⟩, rfl, rfl, fun _ _ h => h⟩
  | handshake i n =>
    refine kept fun c hc => ⟨⟨rfl, rfl, id, id, fun _ h => h⟩, rfl, rfl, fun _ _ hplay => ?_⟩
    exact absurd ((hop c hc).symm.trans hplay) (by decide)
  | rename i userid => exact kept fun _ _ => ⟨⟨rfl, rfl, id, id, fun _ h => h⟩, rfl, rfl, fun _ _ h => h⟩
  | login i => exact h.login hop
  | failLogin i => exact kept fun _ _ => ⟨⟨rfl, rfl, id, id, fun _ h => h⟩, rfl, rfl, fun _ _ h => h⟩
  | disconnect i => exact h.disconnect

/-! ## Runs of operations -/

def run (o : Custody) (ops : List CustodyOp) : Custody := ops.foldl Custody.apply o

/-- Every operation meets the condition when it is reached. -/
def Along (C : Custody → CustodyOp → Prop) : Custody → List CustodyOp → Prop
  | _, [] => True
  | o, op :: ops => C o op ∧ Along C (o.apply op) ops

abbrev Allows : Custody → List CustodyOp → Prop := Along fun o op => op.Allowed o

variable {o : Custody} {ops ops' : List CustodyOp} {C : Custody → CustodyOp → Prop} {P : Custody → Prop}

theorem run_append : o.run (ops ++ ops') = (o.run ops).run ops' := List.foldl_append

theorem Along.append (h : Along C o ops) (h' : Along C (o.run ops) ops') : Along C o (ops ++ ops') := by
  induction ops generalizing o with
  | nil => exact h'
  | cons op ops ih => exact ⟨h.1, ih h.2 h'⟩

theorem Along.and {D : Custody → CustodyOp → Prop} (h : Along C o ops) (h' : Along D o ops) :
    Along (fun o op => C o op ∧ D o op) o ops := by
  induction ops generalizing o with
  | nil => trivial
  | cons op ops ih => exact ⟨⟨h.1, h'.1⟩, ih h.2 h'.2⟩

/-- What every operation that meets the condition preserves, a run of them preserves. -/
theorem Along.run (hstep : ∀ o op, P o → C o op → P (o.apply op)) (hP : P o) (h : Along C o ops) : P (o.run ops) := by
  induction ops generalizing o with
  | nil => exact hP
  | cons op ops ih => exact ih (hstep o op hP h.1) h.2

/-- **Every run of operations keeps the discipline.** -/
theorem Sound.run (h : o.Sound) (hops : o.Allows ops) : (o.run ops).Sound :=
  Along.run (fun _ op hs hop => hs.apply op hop) h hops

end Custody

end CeriosCluster.ClientGateway
