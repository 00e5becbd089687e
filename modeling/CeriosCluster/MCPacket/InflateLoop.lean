import CeriosCluster.Lib.Until
import CeriosCluster.MCPacket.CompressedRoundTrip

/-!
# When the inflate loop ends

The loop of `parsePacket` waits for a count of inflated bytes that nothing advances. Each call goes
on with the stream, the input and the room that the last one left, and writes to the front of the
buffer; so nothing is written outside it, and only `Z_STREAM_ERROR` ends the loop.
-/

namespace CeriosCluster.MCPacket

open CeriosCluster.Lib

/-! ## Calls one after the other -/

/-- A stream between two calls, with the input and the room that are left. -/
structure Window (S : Type) where
  stream : S
  input : Bytes
  room : Nat

section Window

variable {S : Type} (f : S → Bytes → Nat → ZCall S)

def Window.call (w : Window S) : ZCall S := f w.stream w.input w.room

def Window.next (w : Window S) : Window S :=
  ⟨(w.call f).stream, w.input.drop (w.call f).consumed, w.room - (w.call f).output.length⟩

/-- A call consumes of the input it is given and emits into the room it is given. -/
def Progresses : Prop :=
  ∀ stream input room, (f stream input room).consumed ≤ input.length ∧ (f stream input room).output.length ≤ room

end Window

/-- One of the calls of `inflate`, made one after the other, returns `Z_STREAM_ERROR`. -/
def Fails (z : Zlib) (w : Window z.Inflater) : Prop :=
  ∃ n, (Window.call z.inflate ((Window.next z.inflate)^[n] w)).returnCode = .Z_STREAM_ERROR

variable {z : Zlib}

/-! ## One turn -/

def Inflating.start (stream : z.Inflater) (buffer : Bytes) (inflatedPacketLength : Word) : Inflating z :=
  ⟨stream, buffer.take (buffer.length % 2 ^ 32), inflatedPacketLength.toNat, 0,
    List.replicate inflatedPacketLength.toNat 0⟩

def Inflating.window (s : Inflating z) : Window z.Inflater := ⟨s.stream, s.input, s.availOut⟩

def Inflating.next (s : Inflating z) : Inflating z :=
  let call := s.window.call z.inflate
  ⟨call.stream, s.input.drop call.consumed, s.availOut - call.output.length, s.inflatedData,
    s.inflatedPacketBuffer.take s.inflatedData ++ call.output ++
      s.inflatedPacketBuffer.drop (s.inflatedData + call.output.length)⟩

/-- Nothing has been counted, and there is no more room than the buffer has. -/
structure Inflating.InRoom (s : Inflating z) : Prop where
  uncounted : s.inflatedData = 0
  room : s.availOut ≤ s.inflatedPacketBuffer.length

section Turn

variable {s : Inflating z} {inflatedPacketLength : Word} {fuel : Nat}

theorem Inflating.window_next (s : Inflating z) : s.next.window = s.window.next z.inflate := rfl

theorem Inflating.inRoom_start (stream : z.Inflater) (buffer : Bytes) (inflatedPacketLength : Word) :
    (Inflating.start stream buffer inflatedPacketLength).InRoom where
  uncounted := rfl
  room := by
    show inflatedPacketLength.toNat ≤ (List.replicate inflatedPacketLength.toNat (0 : Byte)).length
    rw [List.length_replicate]

theorem Inflating.InRoom.next (hz : Progresses z.inflate) (h : s.InRoom) : s.next.InRoom := by
  obtain ⟨huncounted, hroom⟩ := h
  have hout := (hz s.stream s.input s.availOut).2
  refine ⟨huncounted, ?_⟩
  simp only [Inflating.next, Window.call, Inflating.window, huncounted, List.length_append, List.length_take,
    List.length_drop]
  omega

/-- A turn writes inside the buffer, and then ends the loop or goes on. -/
theorem inflateLoop_turn (hz : Progresses z.inflate) (hlength : 0 < inflatedPacketLength.toInt) (h : s.InRoom) :
    inflateLoop z inflatedPacketLength (fuel + 1) s =
      if (s.window.call z.inflate).returnCode = .Z_STREAM_ERROR then .ok none s
      else inflateLoop z inflatedPacketLength fuel s.next := by
  obtain ⟨huncounted, hroom⟩ := h
  have hout := (hz s.stream s.input s.availOut).2
  have hwaits : s.inflatedData < asSize inflatedPacketLength := by
    have := toNat_eq_of_nonneg (Int.le_of_lt hlength)
    rw [huncounted, asSize_of_nonneg (Int.le_of_lt hlength)]
    omega
  rw [inflateLoop, Exec.run_bind_ok (Exec.run_get s)]
  dsimp only
  rw [if_neg (by omega), if_pos hwaits]
  split
  · next herror => exact (if_pos herror).symm
  · next hgoes =>
    rw [Exec.run_bind_ok (Exec.run_set _ s)]
    exact (if_neg hgoes).symm

end Turn

/-! ## The loop -/

section Loop

variable {s : Inflating z} {inflatedPacketLength : Word}

/-- Whatever the calls return, nothing is written outside the buffer. -/
theorem inflateLoop_defined (hz : Progresses z.inflate) (hlength : 0 < inflatedPacketLength.toInt) (h : s.InRoom)
    (fuel : Nat) :
    inflateLoop z inflatedPacketLength fuel s ≠ .undefined := by
  induction fuel generalizing s with
  | zero => exact fun h => nomatch h
  | succ fuel ih =>
    rw [inflateLoop_turn hz hlength h]
    split
    · exact fun h => nomatch h
    · exact ih (h.next hz)

/-- The loop comes back exactly when one of its calls returns `Z_STREAM_ERROR`. -/
theorem inflateLoop_returns_iff (hz : Progresses z.inflate) (hlength : 0 < inflatedPacketLength.toInt) (h : s.InRoom) :
    (∃ fuel, inflateLoop z inflatedPacketLength fuel s ≠ .diverged) ↔ Fails z s.window := by
  have hturn : ∀ fuel (s : Inflating z), s.InRoom →
      (inflateLoop z inflatedPacketLength (fuel + 1) s ≠ .diverged ↔
        (s.window.call z.inflate).returnCode = .Z_STREAM_ERROR ∨ True ∧
          inflateLoop z inflatedPacketLength fuel s.next ≠ .diverged) := by
    intro fuel s hs
    rw [inflateLoop_turn hz hlength hs]
    split
    · next herror => simp [herror]
    · next hgoes => simp [hgoes]
  calc (∃ fuel, inflateLoop z inflatedPacketLength fuel s ≠ .diverged)
      ↔ Until Inflating.next (fun _ => True) (fun s => (s.window.call z.inflate).returnCode = .Z_STREAM_ERROR) s :=
        exists_returns_iff (fun fuel s => inflateLoop z inflatedPacketLength fuel s ≠ .diverged)
          (fun _ => not_not_intro rfl) hturn
          (fun s hs _ => hs.next hz) h
    _ ↔ Until (Window.next z.inflate) (fun _ => True) (fun w => (w.call z.inflate).returnCode =
      .Z_STREAM_ERROR) s.window :=
        until_map Inflating.window_next (fun _ => True) (fun w => (w.call z.inflate).returnCode = .Z_STREAM_ERROR) s
    _ ↔ Fails z s.window := until_true_iff

end Loop

/-- The inflate loop stays inside the buffer and comes back. -/
def InflateLoopEnds (z : Zlib) (stream : z.Inflater) (buffer : Bytes) (inflatedPacketLength : Word) : Prop :=
  (∀ fuel, inflateLoop z inflatedPacketLength fuel (.start stream buffer inflatedPacketLength) ≠ .undefined) ∧
    ∃ fuel, inflateLoop z inflatedPacketLength fuel (.start stream buffer inflatedPacketLength) ≠ .diverged

/-- **The inflate loop**: from the locals with which it is entered, it ends exactly when a call returns
`Z_STREAM_ERROR`. -/
theorem inflateLoopEnds_iff (hz : Progresses z.inflate) (stream : z.Inflater) (buffer : Bytes)
    {inflatedPacketLength : Word}
    (hlength : 0 < inflatedPacketLength.toInt) :
    InflateLoopEnds z stream buffer inflatedPacketLength ↔
      Fails z ⟨stream, buffer.take (buffer.length % 2 ^ 32), inflatedPacketLength.toNat⟩ := by
  have hstart := Inflating.inRoom_start stream buffer inflatedPacketLength
  exact (and_iff_right (inflateLoop_defined hz hlength hstart)).trans (inflateLoop_returns_iff hz hlength hstart)

/-- A zlib whose `inflate` takes what it is given and reports `returnCode`. -/
def Zlib.reporting (returnCode : ZCode) : Zlib :=
  { Zlib.stored with inflate := fun _ input _ => ⟨(), returnCode, input.length, []⟩ }

theorem Zlib.reporting_progresses (returnCode : ZCode) : Progresses (Zlib.reporting returnCode).inflate :=
  fun _ _ room => ⟨Nat.le_refl _, Nat.zero_le room⟩

/-- `parsePacket` of `01 2a` with a stream that is reported to be corrupt. -/
theorem inflateLoopEnds_reporting :
    0 < (1 : Word).toInt ∧ Progresses (Zlib.reporting .Z_STREAM_ERROR).inflate ∧
      InflateLoopEnds (.reporting .Z_STREAM_ERROR) () [0x01, 0x2a] 1 :=
  ⟨by decide, Zlib.reporting_progresses _,
    (inflateLoopEnds_iff (Zlib.reporting_progresses _) () [0x01, 0x2a] (by decide)).mpr ⟨0, rfl⟩⟩

/-- `01 2a` does not begin as a stream does, so every call reports `Z_DATA_ERROR`; the byte that the length announces is
waited for ever after. -/
theorem bad_header_waited_for :
    ¬ ∀ (z : Zlib) (stream : z.Inflater) (buffer : Bytes) (inflatedPacketLength : Word), Progresses z.inflate →
      0 < inflatedPacketLength.toInt → InflateLoopEnds z stream buffer inflatedPacketLength := by
  intro h
  have hz := Zlib.reporting_progresses .Z_DATA_ERROR
  obtain ⟨-, hreturns⟩ := h (.reporting .Z_DATA_ERROR) () [0x01, 0x2a] 1 hz (by decide)
  obtain ⟨n, herror⟩ := (inflateLoop_returns_iff hz (by decide) (Inflating.inRoom_start () [0x01, 0x2a] 1)).mp hreturns
  cases herror

/-- Where no call of `inflate` returns `Z_STREAM_ERROR`, `parsePacket` does not come back from a data length that is
positive. -/
theorem readPacket_diverges {b : Bytes} {r : VarIntRead} {stream : z.Inflater} (hz : Progresses z.inflate)
    (hscan : scanVarInt b = some r) (hlength : 0 < r.value.toInt) (hinit : z.inflateInit = some stream)
    (hfails : ¬ Fails z ⟨stream, b.take (b.length % 2 ^ 32), r.value.toNat⟩) (fuel length : Nat) (consumeData : Bool) :
    readPacket z fuel length true consumeData b = .diverged := by
  have hne : b.length ≠ 0 := by
    rintro hb
    rw [List.length_eq_zero_iff.mp hb, scanVarInt_nil] at hscan
    cases hscan
    cases hlength
  have hstart := Inflating.inRoom_start stream b r.value
  have hloop : inflateLoop z r.value fuel (.start stream b r.value) = .diverged := by
    by_contra hreturns
    exact hfails ((inflateLoop_returns_iff hz hlength hstart).mp ⟨fuel, hreturns⟩)
  rw [readPacket, Exec.run_bind_ok (Exec.run_get b), if_neg hne, if_pos rfl,
    Exec.run_bind_ok (readVarIntFromBuffer_eq_ok.mpr ⟨hscan, rfl⟩), if_pos hlength]
  simp only [hinit]
  exact Exec.run_bind_diverged (Exec.run_onLocal_diverged hloop)

example (fuel length : Nat) : readPacket (.reporting .Z_DATA_ERROR) fuel length true true [0x01, 0x2a] = .diverged :=
  have hscan : scanVarInt [0x01, 0x2a] = some ⟨1, 1⟩ := by decide
  readPacket_diverges (Zlib.reporting_progresses _) hscan (by decide) rfl (fun ⟨_, herror⟩ =>
    by cases herror) fuel length true

end CeriosCluster.MCPacket
