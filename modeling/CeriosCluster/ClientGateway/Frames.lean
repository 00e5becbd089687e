import CeriosCluster.ClientGateway.Receive
import CeriosCluster.Lib.Deframe
import CeriosCluster.MCPacket.Isolation

/-!
# The frames of a stream

A buffer begins with a complete frame when `onLengthReceive` would take one off it. Which frames a stream has
does not depend on how it arrives, and neither does the packet of a frame that holds its own id, or behind
which nothing has arrived yet.
-/

namespace CeriosCluster.ClientGateway

open CeriosCluster.Lib CeriosCluster.MCPacket

/-- A frame without its length; `none` is a negative length that passes the test that the frame is complete. -/
abbrev Frame := Option Bytes

/-- The complete frame at the front of a buffer, and what follows it. -/
def nextFrame (b : Bytes) : Option (Frame × Bytes) :=
  match scanVarInt b with
  | none => none
  | some r =>
    if completeLength b r then
      if 0 ≤ r.value.toInt then some (some ((b.drop r.size).take (asSize r.value)),
        (b.drop r.size).drop (asSize r.value))
      else some (none, b.drop r.size)
    else none

section NextFrame

variable {b x rest : Bytes} {f : Frame} {r : VarIntRead}

theorem scanVarInt_of_nextFrame (h : nextFrame b = some (f, rest)) :
    ∃ r, scanVarInt b = some r ∧ completeLength b r := by
  unfold nextFrame at h
  split at h
  · cases h
  · next r hscan =>
    split at h
    · next hcomplete => exact ⟨r, hscan, hcomplete⟩
    · cases h

theorem nextFrame_of_scan (hscan : scanVarInt b = some r) (hcomplete : completeLength b r) :
    nextFrame b =
      if 0 ≤ r.value.toInt then some (some ((b.drop r.size).take (asSize r.value)),
        (b.drop r.size).drop (asSize r.value))
      else some (none, b.drop r.size) := by
  unfold nextFrame
  rw [hscan]
  dsimp only
  rw [if_pos hcomplete]

/-- A length that is not negative is not lost in the sum. -/
theorem completeLength_nonneg (hscan : scanVarInt b = some r) (hnonneg : 0 ≤ r.value.toInt)
    (hcomplete : completeLength b r) :
    asSize r.value + r.size ≤ b.length := by
  obtain ⟨-, hle⟩ := hcomplete
  have hsize := (scanVarInt_size_le hscan).1
  have hvalue : asSize r.value < 2 ^ 32 := by
    rw [asSize_of_nonneg hnonneg]
    exact r.value.isLt
  rwa [Nat.mod_eq_of_lt (by omega)] at hle

theorem nextFrame_append (h : nextFrame b = some (f, rest)) (x : Bytes) : nextFrame (b ++ x) = some (f, rest ++ x) := by
  obtain ⟨r, hscan, hcomplete⟩ := scanVarInt_of_nextFrame h
  have hsize := (scanVarInt_size_le hscan).2
  have hscan' := scanVarInt_append hscan hcomplete.1 x
  have hcomplete' : completeLength (b ++ x) r := by
    refine ⟨hcomplete.1, Nat.le_trans hcomplete.2 ?_⟩
    simp
  rw [nextFrame_of_scan hscan hcomplete] at h
  rw [nextFrame_of_scan hscan' hcomplete', List.drop_append_of_le_length hsize]
  split at h
  · next hnonneg =>
    have hle := completeLength_nonneg hscan hnonneg hcomplete
    cases h
    rw [if_pos hnonneg, List.take_append_of_le_length (by simp; omega), List.drop_append_of_le_length (by simp; omega)]
  · next hneg =>
    cases h
    rw [if_neg hneg]

theorem nextFrame_shorter (h : nextFrame b = some (f, rest)) : rest.length < b.length := by
  obtain ⟨r, hscan, hcomplete⟩ := scanVarInt_of_nextFrame h
  have hsize := (scanVarInt_size_le hscan).2
  have hpos := hcomplete.1
  rw [nextFrame_of_scan hscan hcomplete] at h
  split at h
  · cases h
    simp
    omega
  · cases h
    simp
    omega

theorem nextFrame_nil : nextFrame [] = none := rfl

end NextFrame

/-- How a stream falls into frames. -/
def framing : Framing Byte Frame where
  next := nextFrame
  next_append := nextFrame_append
  next_shorter := nextFrame_shorter

/-! ## One frame -/

def HoldsId (frame : Bytes) : Prop := ∃ size id, 0 < size ∧ scanVarInt frame = some ⟨size, id⟩

instance (frame : Bytes) : Decidable (HoldsId frame) :=
  match h : scanVarInt frame with
  | none => isFalse (by rintro ⟨size, id, -, hscan⟩; rw [h] at hscan; cases hscan)
  | some ⟨size, id⟩ =>
    decidable_of_iff (0 < size)
      ⟨fun hsize => ⟨size, id, hsize, h⟩, fun ⟨size', id', hsize, hscan⟩ =>
        by rw [h] at hscan; cases hscan; exact hsize⟩

/-- At most one complete frame lies at the front of the buffer, and if anything follows it, it holds its id. -/
def OneFrame (b : Bytes) : Prop :=
  ∀ f rest, nextFrame b = some (f, rest) → rest = [] ∨ nextFrame rest = none ∧ ∃ frame, f = some frame ∧ HoldsId frame

instance (b : Bytes) : Decidable (OneFrame b) :=
  match h : nextFrame b with
  | none => isTrue fun f rest hnext => by rw [h] at hnext; cases hnext
  | some (none, rest) =>
    decidable_of_iff (rest = [])
      ⟨fun hnil f rest' hnext => by rw [h] at hnext; cases hnext; exact Or.inl hnil, fun hone => by
        rcases hone none rest h with hnil | ⟨-, frame, hf, -⟩
        · exact hnil
        · cases hf⟩
  | some (some frame, rest) =>
    decidable_of_iff (rest = [] ∨ nextFrame rest = none ∧ HoldsId frame)
      ⟨fun hframe f rest' hnext => by
        rw [h] at hnext
        cases hnext
        exact hframe.imp_right fun hlast => ⟨hlast.1, frame, rfl, hlast.2⟩, fun hone => by
        refine (hone _ rest h).imp_right fun hlast => ?_
        obtain ⟨hlast, frame', hf, hid⟩ := hlast
        obtain rfl := Option.some.inj hf
        exact ⟨hlast, hid⟩⟩

def parsedFrame (E : Env) (state : ClientState) (a : Ambient) (frame : Bytes) : Option Packet :=
  match parsePacket E.zlib E.fuel .serverBound frame.length state a false true frame with
  | .ok p _ => p
  | _ => none

section Parse

variable {E : Env} {w : World} {state : ClientState} {a : Ambient} {b b' frame rest : Bytes} {p : Option Packet}

theorem OneFrame.frames (h : OneFrame b) {f : Frame} (hnext : nextFrame b = some (f, rest)) :
    framing.frames b = [f] ∧ framing.rest b = rest := by
  have hlast : nextFrame rest = none := by
    rcases h f rest hnext with rfl | ⟨hlast, -⟩
    · exact nextFrame_nil
    · exact hlast
  rw [Framing.frames_of_some (F := framing) hnext, Framing.rest_of_some (F := framing) hnext,
    Framing.frames_of_none (F := framing) hlast, Framing.rest_of_none (F := framing) hlast]
  exact ⟨rfl, rfl⟩

/-- A base object read from the frame has taken the frame and no more. -/
theorem readPacket_alone (hne : frame ≠ []) {q : Option PacketInProgress}
    (h : readPacket E.zlib E.fuel frame.length false true frame = .ok q b') : b' = [] := by
  rw [readPacket_of_ne_nil hne] at h
  cases hscan : scanVarInt frame with
  | none =>
    rw [Exec.run_bind_threw (construct_threw hscan)] at h
    cases h
  | some r =>
    rw [Exec.run_bind_ok (construct_of_scan hscan (scanVarInt_size_le hscan).2 le_rfl)] at h
    cases h
    exact List.drop_length

theorem readPacket_of_parsePacket {length : Nat}
    (h : parsePacket E.zlib E.fuel .serverBound length state a false true b = .ok p b') :
    ∃ q, readPacket E.zlib E.fuel length false true b = .ok q b' := by
  obtain ⟨q, b₁, hread, hrest⟩ := Exec.bind_eq_ok.mp h
  cases q with
  | none =>
    cases hrest
    exact ⟨none, hread⟩
  | some q =>
    obtain ⟨-, rfl⟩ := instantiate_of_ok hrest b₁
    exact ⟨some q, hread⟩

/-- A frame behind which nothing has arrived, or that holds its id, gives its own packet and leaves the rest. -/
theorem parsePacket_frame (hframe : rest = [] ∨ HoldsId frame)
    (h : parsePacket E.zlib E.fuel .serverBound frame.length state a false true (frame ++ rest) = .ok p b') :
    p = parsedFrame E state a frame ∧ b' = rest := by
  rcases hframe with rfl | ⟨size, id, hsize, hscan⟩
  · rw [List.append_nil] at h
    refine ⟨by rw [parsedFrame, h], ?_⟩
    obtain ⟨q, hread⟩ := readPacket_of_parsePacket h
    by_cases hne : frame = []
    · subst hne
      cases hread
      rfl
    · exact readPacket_alone hne hread
  · have hread : ∀ x, readPacket E.zlib E.fuel frame.length false true (frame ++ x) =
      .ok (some ⟨id, frame.drop size⟩) x :=
      fun x => readPacket_of_complete hscan hsize
    rw [parsePacket_of_ok (hread rest)] at h
    refine ⟨?_, (instantiate_of_ok h rest).2⟩
    have halone : parsePacket E.zlib E.fuel .serverBound frame.length state a false true (frame ++ []) = _ :=
      parsePacket_of_ok (hread [])
    rw [List.append_nil, (instantiate_of_ok h []).1] at halone
    rw [parsedFrame, halone]

/-- **One call of the parser** takes the frame at the front of the buffer, if it returns. -/
theorem parseReceived_of_ok (hone : OneFrame b) (h : parseReceived E w state false b = .ok p b') :
    match nextFrame b with
    | none => p = none ∧ b' = b
    | some (f, rest) => p = f.bind (parsedFrame E state w.ambient) ∧ b' = rest := by
  obtain ⟨r, b₀, hread, hrest⟩ := Exec.bind_eq_ok.mp h
  obtain ⟨hscan, hb₀⟩ := readVarIntFromBuffer_eq_ok.mp hread
  obtain rfl : b₀ = b := hb₀
  rw [Exec.run_bind_ok (Exec.run_get b₀)] at hrest
  by_cases hcomplete : completeLength b₀ r
  · rw [if_pos hcomplete, Exec.run_bind_ok (Exec.run_set _ b₀)] at hrest
    have hnext := nextFrame_of_scan hscan hcomplete
    split at hnext
    · next hnonneg =>
      rw [hnext]
      have hle := completeLength_nonneg hscan hnonneg hcomplete
      have hlength : ((b₀.drop r.size).take (asSize r.value)).length = asSize r.value := by
        rw [List.length_take, List.length_drop]
        omega
      have hframe : (b₀.drop r.size).drop (asSize r.value) = [] ∨ HoldsId ((b₀.drop r.size).take (asSize r.value)) := by
        rcases hone _ _ hnext with hnil | ⟨-, frame, hf, hid⟩
        · exact Or.inl hnil
        · exact Or.inr (Option.some.inj hf ▸ hid)
      refine parsePacket_frame hframe ?_
      rw [hlength, List.take_append_drop]
      exact hrest
    · rw [hnext]
      have hnil : b₀.drop r.size = [] := by
        rcases hone _ _ hnext with hnil | ⟨-, frame, hf, -⟩
        · exact hnil
        · cases hf
      rw [hnil] at hrest ⊢
      cases hrest
      exact ⟨rfl, rfl⟩
  · rw [if_neg hcomplete] at hrest
    have hnext : nextFrame b₀ = none := by
      unfold nextFrame
      rw [hscan]
      exact if_neg hcomplete
    rw [hnext]
    cases hrest
    exact ⟨rfl, rfl⟩

end Parse

end CeriosCluster.ClientGateway
