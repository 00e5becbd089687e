import CeriosCluster.ClientGateway.Connection
import CeriosCluster.MCPacket.Isolation

/-!
# What the handlers make a connection say

Every handler that leaves its client with its owner acts on that connection alone, and while the client is alive, what
it adds to the log is turns of the line.
-/

namespace CeriosCluster.ClientGateway

open CeriosCluster.Lib CeriosCluster.MCPacket

/-- The client stays with its owner, and if it is alive afterwards, it was alive before and has said what its line may
say. -/
structure Client.Follows (E : Env) (c c' : Client) : Prop where
  freed : c'.freed = c.freed
  owner : c'.owner = c.owner
  alive : c'.alive = true → c.alive = true
  speaks : c'.alive = true → ∃ as, c'.log = c.log ++ as ∧ History (Line.Turn E) c.line as c'.line

section Follows

variable {E : Env} {c c' c'' : Client} {R : Line → List Action → Line → Prop}

theorem Client.Follows.trans (h : c.Follows E c') (h' : c'.Follows E c'') : c.Follows E c'' where
  freed := h'.freed.trans h.freed
  owner := h'.owner.trans h.owner
  alive := fun halive => h.alive (h'.alive halive)
  speaks := fun halive => by
    obtain ⟨as, hlog, hspeaks⟩ := h.speaks (h'.alive halive)
    obtain ⟨as', hlog', hspeaks'⟩ := h'.speaks halive
    exact ⟨as ++ as', by rw [hlog', hlog, List.append_assoc], hspeaks.append hspeaks'⟩

theorem Client.Follows.silent (hfreed : c'.freed = c.freed) (howner : c'.owner = c.owner)
    (halive : c'.alive = true → c.alive = true) (hlog : c'.log = c.log) (hline : c'.line = c.line) :
      c.Follows E c' where
  freed := hfreed
  owner := howner
  alive := halive
  speaks := fun _ => ⟨[], by rw [hlog, List.append_nil], hline ▸ .nil _⟩

theorem Client.Follows.refl (c : Client) : c.Follows E c := .silent rfl rfl id rfl rfl

theorem Client.Follows.turn {as : List Action} (hfreed : c'.freed = c.freed) (howner : c'.owner = c.owner)
    (halive : c'.alive = true → c.alive = true) (hlog : c'.log = c.log ++ as)
    (hturn : c.alive = true → Line.Turn E c.line as c'.line) : c.Follows E c' where
  freed := hfreed
  owner := howner
  alive := halive
  speaks := fun halive' => ⟨as, hlog, .single (hturn (halive halive'))⟩

theorem Client.Follows.of_speaking (h : c.Says R c') (hR : ∀ as l', R c.line as l' → Line.Turn E c.line as l') :
    c.Follows E c' := by
  obtain ⟨as, context, writes, rfl, hspeaks⟩ := h
  exact .turn rfl rfl id rfl fun halive => hR _ _ (hspeaks halive)

theorem Client.Follows.of_dead (hfreed : c'.freed = c.freed) (howner : c'.owner = c.owner) (hdead : c'.alive = false) :
    c.Follows E c' where
  freed := hfreed
  owner := howner
  alive := fun halive => by simp [hdead] at halive
  speaks := fun halive => by simp [hdead] at halive

end Follows

/-! ## The class of a packet that was received -/

section Registered

variable {E : Env} {w : World} {side : Side} {state : ClientState} {id : Word} {a : Ambient} {packetClass : PacketClass}

theorem registered_of_lookup (h : lookupClass side state id = some packetClass) :
    ∃ r ∈ registry, r.state = state ∧ r.packetId = id ∧ r.packetClass = packetClass := by
  have hfound {side' : Side} (h : findClass side' state id = some packetClass) :
      ∃ r ∈ registry, r.state = state ∧ r.packetId = id ∧ r.packetClass = packetClass := by
    obtain ⟨r, hr, rfl⟩ := Option.map_eq_some_iff.mp h
    have hkey := List.find?_some hr
    simp only [decide_eq_true_eq] at hkey
    exact ⟨r, List.mem_of_find?_eq_some hr, hkey.2.1, hkey.2.2, rfl⟩
  unfold lookupClass at h
  split at h
  · next hc => exact hfound (hc.trans h)
  · exact hfound h

theorem state_of_ping (h : lookupClass side state id = some .ping) : state = .STATUS := by
  obtain ⟨r, hmem, rfl, -, hclass⟩ := registered_of_lookup h
  have hall : ∀ r ∈ registry, r.packetClass = .ping → r.state = .STATUS := by decide
  exact hall r hmem hclass

theorem state_of_keepAlive (h : lookupClass side state id = some .keepAlive) : state = .PLAY := by
  obtain ⟨r, hmem, rfl, -, hclass⟩ := registered_of_lookup h
  have hall : ∀ r ∈ registry, r.packetClass = .keepAlive → r.state = .PLAY := by decide
  exact hall r hmem hclass

theorem wp_parse_class {b : Bytes} {F : Exn → Bytes → Prop} (hF : ∀ e b, F e b) :
    Exec.wp (packetClass.parse side a) (fun f _ => f.packetClass = packetClass) F b := by
  have hwrap {α : Type} (m : BufferM α) (wrap : α → Fields) (hwrap : ∀ x, (wrap x).packetClass = packetClass) :
      Exec.wp (m >>= fun x => pure (wrap x)) (fun f _ => f.packetClass = packetClass) F b := by
    rw [Exec.wp_bind]
    exact Exec.wp_mono (Exec.wp_true m b) (fun x _ _ => hwrap x) fun e b' _ => hF e b'
  cases packetClass <;> exact hwrap _ _ fun _ => rfl

/-- A packet is of a class that is registered for the state it was received in. -/
theorem registered_of_parse {compressed : Bool} {buffer buffer' : Bytes} {p : Packet}
    (h : parseReceived E w state compressed buffer = .ok (some p) buffer') :
    ∃ id, lookupClass .serverBound state id = some p.fields.packetClass := by
  have hinstantiate (q : PacketInProgress) (b : Bytes) :
      Exec.wp (instantiateFromData .serverBound state w.ambient q)
        (fun r _ => ∀ p, r = some p → ∃ id, lookupClass .serverBound state id = some p.fields.packetClass)
          (fun _ _ => True) b := by
    unfold instantiateFromData
    cases hclass : lookupClass .serverBound state q.packetId with
    | none => exact fun p hp => by cases hp
    | some packetClass =>
      rw [Exec.wp_bind, PacketClass.parsePacket, Exec.wp_onLocal, Exec.wp_bind]
      refine Exec.wp_mono (wp_parse_class fun _ _ => trivial) (fun f _ hf => ?_) fun _ _ _ => trivial
      rintro p hp
      obtain rfl := Option.some.inj hp
      exact ⟨q.packetId, by rw [hclass, hf]⟩
  have hparse : Exec.wp (parseReceived E w state compressed)
      (fun r _ => ∀ p, r = some p → ∃ id, lookupClass .serverBound state id = some p.fields.packetClass)
        (fun _ _ => True) buffer := by
    rw [parseReceived, Exec.wp_bind]
    refine Exec.wp_mono (Exec.wp_true _ _) (fun length _ _ => ?_) fun _ _ _ => trivial
    rw [Exec.wp_bind, Exec.wp_get, Exec.wp_ite]
    refine ⟨fun _ => ?_, fun _ p hp => by cases hp⟩
    rw [Exec.wp_bind, Exec.wp_set, parsePacket, Exec.wp_bind]
    refine Exec.wp_mono (Exec.wp_true _ _) (fun r b _ => ?_) fun _ _ _ => trivial
    cases r with
    | none => exact fun p hp => by cases hp
    | some q => exact hinstantiate q b
  exact hparse.of_ok h p rfl

end Registered

/-! ## Parsing ends -/

theorem readVarIntFromBuffer_halts (consume : Bool) : (readVarIntFromBuffer consume).Halts := by
  refine .bind .get fun b => ?_
  cases scanVarInt b with
  | none => exact .throw _
  | some r =>
    cases consume with
    | false => exact .pure _
    | true => exact .bind (.set _) fun _ => .pure _

/-- The loop that inflates a packet is not reached without compression. -/
theorem parseReceived_halts (E : Env) (w : World) (state : ClientState) : (parseReceived E w state false).Halts := by
  have hconstruct {length : Nat} : (Packet.construct length true).Halts :=
    .bind (readVarIntFromBuffer_halts _) fun _ => .bind .get fun _ => .ite (.bind (.set _) fun _ => .pure _) .undefined
  have hread {length : Nat} : (readPacket E.zlib E.fuel length false true).Halts :=
    .bind .get fun _ => .ite (.pure _) (.bind hconstruct fun _ => .pure _)
  refine .bind (readVarIntFromBuffer_halts _) fun _ => .bind .get fun _ => .ite ?_ (.pure _)
  refine .bind (.set _) fun _ => .bind hread fun r => ?_
  cases r with
  | none => exact .pure _
  | some p =>
    dsimp only
    unfold instantiateFromData
    split
    · exact .pure _
    · next packetClass _ =>
      refine .bind (.onLocal ?_ _) fun _ => .pure _
      exact .bind (parse_halts packetClass) fun _ => .bind .get fun _ => .pure _

end CeriosCluster.ClientGateway
