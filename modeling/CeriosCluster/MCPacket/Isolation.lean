import CeriosCluster.MCPacket.Safety

/-!
# Which frames are parsed in isolation

The packet id is read from the whole receive buffer, not from the frame. A frame is parsed without
looking past its end exactly when its own bytes hold a complete id (and the constructor its id
selects stays inside the payload): a frame that is empty or ends inside its id is completed, or not,
by whatever follows it.
-/

namespace CeriosCluster.MCPacket

open CeriosCluster.Lib

variable (z : Zlib) (fuel : Nat) (side : Side) (state : ClientState) (a : Ambient)

def leaving {α : Type} (tail : Bytes) : Except Exn α → Res Exn Bytes α
  | .ok x => .ok x tail
  | .error e => .threw e tail

/-- Whatever follows the frame, `parsePacket` consumes exactly the frame, its outcome is the same, and a
base object has its id wholly inside the frame and the rest of the frame as its payload. -/
structure Isolated (frame : Bytes) : Prop where
  outcome : ∃ o : Except Exn (Option Packet), ∀ tail,
    parsePacket z fuel side frame.length state a false true (frame ++ tail) = leaving tail o
  inside : ∀ tail p b', readPacket z fuel frame.length false true (frame ++ tail) = .ok (some p) b' →
    ∃ size, 0 < size ∧ scanVarInt frame = some ⟨size, p.packetId⟩ ∧ p.rawPayload = frame.drop size

/-- The frame holds its id, and the lengths the class registered for it declares fit in the rest. -/
def HoldsItsId (side : Side) (state : ClientState) (frame : Bytes) : Prop :=
  ∃ size id, 0 < size ∧ scanVarInt frame = some ⟨size, id⟩ ∧
    ∀ c, lookupClass side state id = some c → LengthsFit side (frame.drop size) c

variable {z fuel side state a} {frame tail : Bytes} {size : Nat} {id : Word}

/-! ## The base object -/

theorem construct_of_scan {b : Bytes} {length : Nat} {r : VarIntRead} (h : scanVarInt b = some r)
    (hsize : r.size ≤ length) (hlen : length ≤ b.length) :
    Packet.construct length true b = .ok ⟨r.value, (b.take length).drop r.size⟩ (b.drop length) := by
  rw [Packet.construct, Exec.run_bind_ok (readVarIntFromBuffer_eq_ok.mpr ⟨h, rfl⟩),
    Exec.run_bind_ok (Exec.run_get _)]
  simp only [Bool.false_eq_true, if_false]
  rw [if_pos ⟨hsize, hlen⟩]
  rfl

theorem construct_short {b : Bytes} {length : Nat} {r : VarIntRead} (h : scanVarInt b = some r)
    (hsize : length < r.size) : Packet.construct length true b = .undefined := by
  rw [Packet.construct, Exec.run_bind_ok (readVarIntFromBuffer_eq_ok.mpr ⟨h, rfl⟩),
    Exec.run_bind_ok (Exec.run_get _), if_neg (by omega)]
  rfl

theorem construct_threw {b : Bytes} {length : Nat} (h : scanVarInt b = none) :
    Packet.construct length true b = .threw (.runtimeError "VarInt too big") b := by
  rw [Packet.construct]
  refine Exec.run_bind_threw ?_
  rw [readVarIntFromBuffer, Exec.run_bind_ok (Exec.run_get b), h]
  rfl

theorem readPacket_of_ne_nil {b : Bytes} {length : Nat} (hb : b ≠ []) :
    readPacket z fuel length false true b =
      (Packet.construct length true >>= fun p => pure (some p)) b := by
  rw [readPacket, Exec.run_bind_ok (Exec.run_get b), if_neg (by simpa using hb)]
  rfl

/-- A frame that holds its id gives the same base object in front of every tail. -/
theorem readPacket_of_complete (h : scanVarInt frame = some ⟨size, id⟩) (hsize : 0 < size) :
    readPacket z fuel frame.length false true (frame ++ tail) = .ok (some ⟨id, frame.drop size⟩) tail := by
  have hle : size ≤ frame.length := (scanVarInt_size_le h).2
  have hne : frame ++ tail ≠ [] := by
    rw [← List.length_pos_iff, List.length_append]
    omega
  have hscan : scanVarInt (frame ++ tail) = some ⟨size, id⟩ := scanVarInt_append h hsize tail
  rw [readPacket_of_ne_nil hne, Exec.run_bind_ok (construct_of_scan hscan hle (by simp))]
  simp

/-- A frame that ends inside its id is completed, or made too long, by a last byte behind it. -/
theorem readPacket_of_truncated (z : Zlib) (fuel : Nat) {value : Word} (h : scanVarInt frame = some ⟨0, value⟩) :
    readPacket z fuel frame.length false true (frame ++ [0]) = .undefined ∨
      ∃ e, readPacket z fuel frame.length false true (frame ++ [0]) = .threw e (frame ++ [0]) := by
  rw [readPacket_of_ne_nil (by simp)]
  rcases readVarIntLoop_truncated h rfl 0 (by decide) [] with hnone | ⟨v, hsome⟩
  · exact Or.inr ⟨_, Exec.run_bind_threw (construct_threw hnone)⟩
  · exact Or.inl (Exec.run_bind_undefined (construct_short hsome (by simp)))

theorem readPacket_of_tooBig (z : Zlib) (fuel : Nat) (h : scanVarInt frame = none) :
    readPacket z fuel frame.length false true frame = .threw (.runtimeError "VarInt too big") frame := by
  have hne : frame ≠ [] := by
    rintro rfl
    cases h
  rw [readPacket_of_ne_nil hne]
  exact Exec.run_bind_threw (construct_threw h)

/-! ## The packet -/

theorem parse_halts (c : PacketClass) : (c.parse side a).Halts := by
  have hread {consume : Bool} : (readVarIntFromBuffer consume).Halts := by
    refine .bind .get fun b => ?_
    cases scanVarInt b with
    | none => exact .throw _
    | some r =>
      cases consume with
      | false => exact .pure _
      | true => exact .bind (.set _) fun _ => .pure _
  have hpod {n w : Nat} {v : BitVec w} : (readPODFromBuffer n w v).Halts :=
    .bind .get fun _ => .ite (.pure _) (.bind (.set _) fun _ => .pure _)
  have hcopy {n : Word} : (copyPrefix n).Halts := .bind .get fun _ => .ite (.pure _) .undefined
  have herase {n : Word} : (erasePrefix n).Halts := .bind .get fun _ => .ite (.set _) .undefined
  have hguarded {n : Word} : (copyGuarded n).Halts := .bind .get fun _ => .ite hcopy (.pure _)
  have htake {n : Word} : (takeGuarded n).Halts :=
    .bind .get fun _ => .ite (.bind hcopy fun _ => .bind herase fun _ => .pure _) (.pure _)
  -- a constructor is a chain of these with at most one branch
  cases c <;>
    (simp only [PacketClass.parse, HandshakePacket.parse, ServerStatusPacket.parse, PingPacket.parse,
      LoginStartPacket.parse, EncryptionPacket.parse, LoginSuccessPacket.parse, SetCompressionPacket.parse,
      KeepAlivePacket.parse, JoinGamePacket.parse, ChatMessagePacket.parse, SpawnPositionPacket.parse,
      PlayerPositionAndLookPacket.parse, PlayerAbilitiesPacket.parse, clear]
     with_reducible repeat' first
      | exact hread | exact hpod | exact hcopy | exact herase | exact hguarded | exact htake
      | exact .set _ | exact .pure _ | exact .get
      | refine .bind ?_ fun _ => ?_
      | refine .ite ?_ ?_)

theorem run_instantiate {p : PacketInProgress} {c : PacketClass} (hc : lookupClass side state p.packetId = some c)
    (b : Bytes) :
    instantiateFromData side state a p b =
      match c.parse side a p.rawPayload with
      | .ok fields rawPayload => .ok (some ⟨p.packetId, rawPayload, false, fields⟩) b
      | .threw e _ => .threw e b
      | .undefined => .undefined
      | .diverged => .diverged := by
  rw [instantiateFromData, hc]
  simp only [PacketClass.parsePacket, Exec.run_bind, Exec.onLocal]
  cases c.parse side a p.rawPayload <;> rfl

theorem run_instantiate_ok {p : PacketInProgress} {c : PacketClass} {fields : Fields} {rawPayload : Bytes}
    (hc : lookupClass side state p.packetId = some c) (hparse : c.parse side a p.rawPayload = .ok fields rawPayload)
    (b : Bytes) :
    instantiateFromData side state a p b = .ok (some ⟨p.packetId, rawPayload, false, fields⟩) b := by
  rw [run_instantiate hc, hparse]

theorem run_instantiate_none {p : PacketInProgress} (hc : lookupClass side state p.packetId = none) (b : Bytes) :
    instantiateFromData side state a p b = .ok none b := by
  rw [instantiateFromData, hc]
  rfl

theorem instantiate_leaves {p : PacketInProgress} (hlen : p.rawPayload.length ≤ maxSize)
    (hfit : ∀ c, lookupClass side state p.packetId = some c → LengthsFit side p.rawPayload c) :
    ∃ o : Except Exn (Option Packet), ∀ b, instantiateFromData side state a p b = leaving b o := by
  cases hc : lookupClass side state p.packetId with
  | none => exact ⟨.ok none, run_instantiate_none hc⟩
  | some c =>
    have hdef : c.parse side a p.rawPayload ≠ .undefined := fun h => (parse_undefined c hlen).mp h (hfit c hc)
    cases hparse : c.parse side a p.rawPayload with
    | ok fields rawPayload => exact ⟨.ok (some ⟨p.packetId, rawPayload, false, fields⟩), run_instantiate_ok hc hparse⟩
    | threw e _ => exact ⟨.error e, fun b => by rw [run_instantiate hc, hparse]; rfl⟩
    | undefined => exact absurd hparse hdef
    | diverged => exact absurd hparse (parse_halts c p.rawPayload)

theorem instantiate_of_ok {p : PacketInProgress} {q : Option Packet} {b b' : Bytes}
    (h : instantiateFromData side state a p b = .ok q b') (x : Bytes) :
      instantiateFromData side state a p x = .ok q x ∧ b' = b := by
  cases hc : lookupClass side state p.packetId with
  | none =>
    rw [run_instantiate_none hc] at h ⊢
    cases h
    exact ⟨rfl, rfl⟩
  | some c =>
    rw [run_instantiate hc] at h ⊢
    cases hparse : c.parse side a p.rawPayload with
    | ok fields rawPayload =>
      rw [hparse] at h
      cases h
      exact ⟨rfl, rfl⟩
    | threw e _ =>
      rw [hparse] at h
      cases h
    | undefined =>
      rw [hparse] at h
      cases h
    | diverged =>
      rw [hparse] at h
      cases h

theorem instantiate_undefined {p : PacketInProgress} {c : PacketClass} (hlen : p.rawPayload.length ≤ maxSize)
    (hc : lookupClass side state p.packetId = some c) (hfit : ¬ LengthsFit side p.rawPayload c) (b : Bytes) :
    instantiateFromData side state a p b = .undefined := by
  rw [instantiateFromData, hc]
  refine Exec.run_bind_undefined ?_
  rw [PacketClass.parsePacket, Exec.onLocal, Exec.run_bind_undefined ((parse_undefined c hlen).mpr hfit)]

theorem parsePacket_of_ok {p : PacketInProgress} {b b' : Bytes} {length : Nat}
    (h : readPacket z fuel length false true b = .ok (some p) b') :
    parsePacket z fuel side length state a false true b = instantiateFromData side state a p b' := by
  rw [parsePacket, Exec.run_bind_ok h]

theorem parsePacket_of_threw {e : Exn} {b b' : Bytes} {length : Nat}
    (h : readPacket z fuel length false true b = .threw e b') :
    parsePacket z fuel side length state a false true b = .threw e b' := by
  rw [parsePacket, Exec.run_bind_threw h]

/-- **Frame isolation.** A frame is parsed in isolation exactly when it holds its id. -/
theorem isolated_iff (z : Zlib) (fuel : Nat) (side : Side) (state : ClientState) (a : Ambient) (frame : Payload) :
    Isolated z fuel side state a frame.val ↔ HoldsItsId side state frame.val := by
  obtain ⟨frame, hmax⟩ := frame
  have hdrop : ∀ size, (frame.drop size).length ≤ maxSize := fun size => by rw [List.length_drop]; omega
  constructor
  · rintro ⟨⟨o, ho⟩, -⟩
    have not_undefined {t : Bytes} (h : parsePacket z fuel side frame.length state a false true (frame ++ t)
        = .undefined) : False := by
      rw [ho] at h
      cases o <;> cases h
    have consumed {e : Exn} {t b : Bytes} (h : parsePacket z fuel side frame.length state a false true (frame ++ t)
        = .threw e b) : b = t := by
      rw [ho] at h
      cases o <;> cases h
      rfl
    cases hscan : scanVarInt frame with
    | none =>
      obtain rfl : frame = [] :=
        consumed (t := []) (by rw [List.append_nil]; exact parsePacket_of_threw (readPacket_of_tooBig z fuel hscan))
      cases hscan
    | some r =>
      obtain ⟨size, id⟩ := r
      rcases Nat.eq_zero_or_pos size with rfl | hsize
      · rcases readPacket_of_truncated z fuel hscan with hu | ⟨e, he⟩
        · exact (not_undefined (Exec.run_bind_undefined hu)).elim
        · obtain rfl : frame = [] := by simpa using consumed (parsePacket_of_threw he)
          rw [readPacket_of_ne_nil (by simp),
            Exec.run_bind_undefined (construct_short (r := ⟨1, 0⟩) rfl (by simp))] at he
          cases he
      · refine ⟨size, id, hsize, hscan, fun c hc => ?_⟩
        by_contra hfit
        refine not_undefined (t := []) ?_
        rw [parsePacket_of_ok (readPacket_of_complete hscan hsize)]
        exact instantiate_undefined (hdrop size) hc hfit []
  · rintro ⟨size, id, hsize, hscan, hfit⟩
    refine ⟨?_, ?_⟩
    · obtain ⟨o, ho⟩ := instantiate_leaves (a := a) (p := ⟨id, frame.drop size⟩) (hdrop size) hfit
      exact ⟨o, fun tail => by rw [parsePacket_of_ok (readPacket_of_complete hscan hsize), ho]⟩
    · intro tail p b' h
      rw [readPacket_of_complete hscan hsize] at h
      cases h
      exact ⟨size, hsize, hscan, rfl⟩

/-- An empty frame is no packet in front of nothing, and a handshake in front of a lone `0x80`. -/
theorem empty_frame_not_isolated :
    ¬ ∀ (z : Zlib) (fuel : Nat) (state : ClientState) (a : Ambient) (frame : Payload),
      Isolated z fuel .serverBound state a frame.val := by
  intro h
  obtain ⟨o, ho⟩ := (h .unusable 0 .HANDSHAKE Ambient.zero ⟨[], by decide⟩).outcome
  have hnothing : parsePacket .unusable 0 .serverBound 0 .HANDSHAKE Ambient.zero false true [] = .ok none [] := by
    decide
  have hmore : parsePacket .unusable 0 .serverBound 0 .HANDSHAKE Ambient.zero false true [0x80] =
      .ok (some ⟨0, [], false, .handshake ⟨0, [], 25565, .HANDSHAKE⟩⟩) [0x80] := by
    decide
  have h₁ := hnothing.symm.trans (ho [])
  have h₂ := hmore.symm.trans (ho [0x80])
  cases o <;> simp [leaving] at h₁ h₂
  rw [← h₁] at h₂
  cases h₂

end CeriosCluster.MCPacket
