import CeriosCluster.MCPacket.FrontWriter
import CeriosCluster.MCPacket.InflateLoop

/-!
# When `compressData` leaves a complete stream

The loop of `compressData` hands `deflate` one window after the other, each as large as the data, but
its buffer has the size of the first only. A stream that does not end in the first window is written
past the end of the buffer, or it is cut off because the loop stops when the input is used up. With
no data there is no input from the start, and the one call has no room.
-/

namespace CeriosCluster.MCPacket

open CeriosCluster.Lib

/-! ## The oracle -/

/-- What `deflate` with `Z_FINISH` does on streams that have `Reached` a point: they have taken some of the data and
given some of its stream. `inflates` says of which data a stream is the complete one. -/
structure Deflates (z : Zlib) (inflates : Bytes → Bytes → Prop) (Reached : z.Deflater → Bytes → Bytes → Prop) :
    Prop where
  progresses : Progresses z.deflate
  not_empty : ∀ data, ¬ inflates [] data
  init : ∀ stream, z.deflateInit = some stream → Reached stream [] []
  goes : ∀ stream taken given input room, Reached stream taken given →
    (z.deflate stream input room).returnCode ≠ .Z_STREAM_ERROR →
      (z.deflate stream input room).returnCode ≠ .Z_STREAM_END →
      Reached (z.deflate stream input room).stream (taken ++ input.take (z.deflate stream input room).consumed)
        (given ++ (z.deflate stream input room).output)
  ends : ∀ stream taken given input room, Reached stream taken given →
    ((z.deflate stream input room).returnCode = .Z_STREAM_END ↔
      inflates (given ++ (z.deflate stream input room).output) (taken ++ input))

def Ends (z : Zlib) (w : Window z.Deflater) : Prop := (w.call z.deflate).returnCode = .Z_STREAM_END

instance (z : Zlib) (w : Window z.Deflater) : Decidable (Ends z w) := inferInstanceAs (Decidable (_ = _))

/-- The call neither fails nor ends the stream, and leaves input to consume and room to emit into. -/
def GoesOn (z : Zlib) (w : Window z.Deflater) : Prop :=
  (w.call z.deflate).returnCode ≠ .Z_STREAM_ERROR ∧ ¬ Ends z w ∧ (w.next z.deflate).input ≠ [] ∧
    0 < (w.next z.deflate).room

/-- The stream ends in the window: in a call before which every call has gone on. -/
def EndsInWindow (z : Zlib) (w : Window z.Deflater) : Prop := Until (Window.next z.deflate) (GoesOn z) (Ends z) w

/-- `compressData` stays inside its buffer and, if `deflateInit` succeeds, leaves the size of the data and the complete
stream of it. -/
def Compresses (z : Zlib) (inflates : Bytes → Bytes → Prop) (data : Bytes) : Prop :=
  (∀ fuel, compressData z fuel data ≠ .undefined) ∧
    (z.deflateInit ≠ none → ∃ fuel stream,
      compressData z fuel data = .ok () (writeVarIntToBuffer (BitVec.ofNat 32 data.length) ++ stream) ∧
        inflates stream data)

variable {z : Zlib} {inflates : Bytes → Bytes → Prop} {Reached : z.Deflater → Bytes → Bytes → Prop}

/-! ## One turn -/

def Deflating.window (s : Deflating z) : Window z.Deflater := ⟨s.stream, s.input, s.availOut⟩

/-- The locals when `deflate` is called: without room, the window is the next one. -/
def Deflating.refilled (inflatedSize : Nat) (s : Deflating z) : Deflating z :=
  if 0 < s.input.length ∧ s.availOut = 0 then { s with availOut := inflatedSize % 2 ^ 32, nextOut := s.offset } else s

def Deflating.next (s : Deflating z) : Deflating z :=
  let call := s.window.call z.deflate
  ⟨call.stream, s.input.drop call.consumed, s.availOut - call.output.length, s.nextOut + call.output.length, s.offset,
    s.output ++ call.output⟩

/-- The offset is advanced when there is input left but no room. -/
def Deflating.advanced (inflatedSize : Nat) (s : Deflating z) : Deflating z :=
  { s with offset := if 0 < s.input.length ∧ s.availOut = 0 then s.offset + inflatedSize else s.offset }

def Deflating.start (stream : z.Deflater) (data : Bytes) : Deflating z := ⟨stream, data, data.length, 0, 0, []⟩

/-- The call has failed or ended the stream, or nothing is left to consume. -/
def Deflating.Stops (s : Deflating z) : Prop :=
  (s.window.call z.deflate).returnCode = .Z_STREAM_ERROR ∨ s.next.input = [] ∨ Ends z s.window

/-- The call writes past the end of the buffer. -/
def Deflating.Overruns (inflatedSize : Nat) (s : Deflating z) : Prop :=
  (s.window.call z.deflate).output ≠ [] ∧ inflatedSize < s.next.nextOut

instance (s : Deflating z) : Decidable s.Stops := inferInstanceAs (Decidable (_ ∨ _))

instance (inflatedSize : Nat) (s : Deflating z) : Decidable (s.Overruns inflatedSize) :=
  inferInstanceAs (Decidable (_ ∧ _))

section Turn

variable {s t : Deflating z} {inflatedSize fuel : Nat}

theorem Deflating.window_next (s : Deflating z) : s.next.window = s.window.next z.deflate := rfl

theorem Deflating.refilled_of_room (h : 0 < s.availOut) : s.refilled inflatedSize = s :=
  if_neg fun hnone => by omega

def afterCall (inflatedSize fuel : Nat) (s : Deflating z) : Exec Exn (Deflating z) Bytes :=
  if s.Overruns inflatedSize then Exec.undefined
  else if (s.window.call z.deflate).returnCode ≠ .Z_STREAM_ERROR ∧ 0 < s.next.input.length ∧ ¬ Ends z s.window then do
    Exec.set (s.next.advanced inflatedSize)
    compressLoop z inflatedSize fuel
  else pure s.next.output

theorem compressLoop_eq (s : Deflating z) :
    compressLoop z inflatedSize (fuel + 1) s = afterCall inflatedSize fuel (s.refilled inflatedSize) s := by
  rw [compressLoop, Exec.run_bind_ok (Exec.run_get s)]
  by_cases hfill : 0 < s.input.length ∧ s.availOut = 0
  · rw [Deflating.refilled, if_pos hfill]
    simp only [hfill, if_true, true_and]
    rfl
  · rw [Deflating.refilled, if_neg hfill]
    simp only [if_neg hfill]
    rfl

theorem afterCall_overruns (h : s.Overruns inflatedSize) : afterCall inflatedSize fuel s t = .undefined := by
  rw [afterCall, if_pos h]
  rfl

theorem afterCall_stops (hinside : ¬ s.Overruns inflatedSize) (h : s.Stops) :
    afterCall inflatedSize fuel s t = .ok s.next.output t := by
  rw [afterCall, if_neg hinside, if_neg]
  · rfl
  · rintro ⟨hcode, hinput, hend⟩
    rcases h with herror | hnil | hends
    · exact hcode herror
    · rw [hnil] at hinput
      exact absurd hinput (by decide)
    · exact hend hends

theorem afterCall_goes (hinside : ¬ s.Overruns inflatedSize) (h : ¬ s.Stops) :
    afterCall inflatedSize fuel s t = compressLoop z inflatedSize fuel (s.next.advanced inflatedSize) := by
  obtain ⟨hcode, hinput, hend⟩ : _ ∧ _ ∧ _ := by simpa only [Deflating.Stops, not_or] using h
  rw [afterCall, if_neg hinside, if_pos ⟨hcode, List.length_pos_iff.mpr hinput, hend⟩,
    Exec.run_bind_ok (Exec.run_set _ _)]

end Turn

/-! ## What the stream has taken and given -/

/-- The stream has taken the data that is not left, and given the output so far. -/
def Deflating.History (Reached : z.Deflater → Bytes → Bytes → Prop) (data : Bytes) (s : Deflating z) : Prop :=
  ∃ taken, taken ++ s.input = data ∧ Reached s.stream taken s.output

section History

variable {s : Deflating z} {data : Bytes}

theorem Deflating.History.next (hz : Deflates z inflates Reached) (h : s.History Reached data) (hgoes : ¬ s.Stops) :
    s.next.History Reached data := by
  obtain ⟨taken, hdata, hreached⟩ := h
  obtain ⟨hcode, -, hend⟩ : _ ∧ _ ∧ _ := by simpa only [Deflating.Stops, not_or] using hgoes
  refine ⟨taken ++ s.input.take (s.window.call z.deflate).consumed, ?_, hz.goes _ _ _ _ _ hreached hcode hend⟩
  show taken ++ s.input.take (s.window.call z.deflate).consumed ++
    s.input.drop (s.window.call z.deflate).consumed = data
  rw [List.append_assoc, List.take_append_drop, hdata]

theorem Deflating.History.ends_iff (hz : Deflates z inflates Reached) (h : s.History Reached data) :
    Ends z s.window ↔ inflates s.next.output data := by
  obtain ⟨taken, rfl, hreached⟩ := h
  exact hz.ends _ _ _ _ _ hreached

theorem Deflating.history_start (hz : Deflates z inflates Reached) {stream : z.Deflater}
    (hinit : z.deflateInit = some stream) (data : Bytes) : (Deflating.start stream data).History Reached data :=
  ⟨[], rfl, hz.init stream hinit⟩

end History

/-! ## Past the first window -/

/-- The next call writes past the end of the buffer, if it writes, and the stream is not complete. -/
structure Deflating.PastWindow (inflates : Bytes → Bytes → Prop) (Reached : z.Deflater → Bytes → Bytes → Prop)
    (data : Bytes) (s : Deflating z) : Prop where
  room : 0 < (s.refilled data.length).availOut
  position : data.length ≤ (s.refilled data.length).nextOut
  incomplete : ¬ inflates s.output data
  history : s.History Reached data

section PastWindow

variable {s t : Deflating z} {data output : Bytes} {fuel : Nat}

theorem Deflating.refilled_output (n : Nat) (s : Deflating z) : (s.refilled n).output = s.output := by
  unfold Deflating.refilled
  split <;> rfl

theorem Deflating.History.refilled (n : Nat) (h : s.History Reached data) : (s.refilled n).History Reached data := by
  unfold Deflating.refilled
  split <;> exact h

/-- What is returned past the first window is not the complete stream. -/
theorem compressLoop_past (hz : Deflates z inflates Reached) (h : s.PastWindow inflates Reached data)
    (hrun : compressLoop z data.length fuel s = .ok output t) : ¬ inflates output data := by
  induction fuel generalizing s with
  | zero => cases hrun
  | succ fuel ih =>
    obtain ⟨hroom, hposition, hincomplete, hhistory⟩ := h
    rw [compressLoop_eq] at hrun
    have hhistory' := hhistory.refilled data.length
    have hout := Deflating.refilled_output data.length s
    generalize s.refilled data.length = r at *
    by_cases hover : r.Overruns data.length
    · rw [afterCall_overruns hover] at hrun
      cases hrun
    · have hnothing : (r.window.call z.deflate).output = [] := by
        by_contra hwrites
        have hpos := List.length_pos_iff.mpr hwrites
        refine hover ⟨hwrites, ?_⟩
        show data.length < r.nextOut + (r.window.call z.deflate).output.length
        omega
      have hsame : r.next.output = s.output := by
        show r.output ++ (r.window.call z.deflate).output = s.output
        rw [hnothing, List.append_nil, hout]
      by_cases hstops : r.Stops
      · rw [afterCall_stops hover hstops] at hrun
        cases hrun
        rwa [hsame]
      · rw [afterCall_goes hover hstops] at hrun
        have hleft : (r.next.advanced data.length).availOut = r.availOut := by
          show r.availOut - (r.window.call z.deflate).output.length = r.availOut
          rw [hnothing]
          rfl
        have hplace : (r.next.advanced data.length).nextOut = r.nextOut := by
          show r.nextOut + (r.window.call z.deflate).output.length = r.nextOut
          rw [hnothing]
          rfl
        have hrefilled : (r.next.advanced data.length).refilled data.length = r.next.advanced data.length :=
          Deflating.refilled_of_room (by omega)
        have hpast : (r.next.advanced data.length).PastWindow inflates Reached data :=
          { room := by rw [hrefilled]; omega
            position := by rw [hrefilled]; omega
            incomplete := fun hinflates => hincomplete (hsame ▸ hinflates)
            history := hhistory'.next hz hstops }
        exact ih hpast hrun

end PastWindow

/-! ## In the first window -/

/-- The rest of the buffer is the room that is left, and there is input to consume. -/
structure Deflating.InWindow (Reached : z.Deflater → Bytes → Bytes → Prop) (data : Bytes) (s : Deflating z) : Prop where
  room : 0 < s.availOut
  position : s.nextOut + s.availOut = data.length
  offset : s.offset = 0
  history : s.History Reached data

def Deflating.Completes (inflates : Bytes → Bytes → Prop) (data : Bytes) (fuel : Nat) (s : Deflating z) : Prop :=
  ∃ output t, compressLoop z data.length fuel s = .ok output t ∧ inflates output data

section InWindow

variable {s : Deflating z} {data : Bytes} {fuel : Nat}

theorem Deflating.InWindow.inside (hz : Deflates z inflates Reached) (h : s.InWindow Reached data) :
    ¬ s.Overruns data.length := by
  rintro ⟨-, hover⟩
  have hout : (s.window.call z.deflate).output.length ≤ s.availOut := (hz.progresses s.stream s.input s.availOut).2
  have hposition := h.position
  have hnext : s.next.nextOut = s.nextOut + (s.window.call z.deflate).output.length := rfl
  omega

/-- As long as room is left, the next call is in the window too. -/
theorem Deflating.InWindow.next (hz : Deflates z inflates Reached) (h : s.InWindow Reached data) (hgoes : ¬ s.Stops)
    (hroom : 0 < s.next.availOut) : s.next.InWindow Reached data where
  room := hroom
  position := by
    have hout : (s.window.call z.deflate).output.length ≤ s.availOut := (hz.progresses s.stream s.input s.availOut).2
    have hposition := h.position
    show s.nextOut + (s.window.call z.deflate).output.length + (s.availOut - (s.window.call z.deflate).output.length) =
      data.length
    omega
  offset := h.offset
  history := h.history.next hz hgoes

theorem Deflating.advanced_of_room (n : Nat) (h : 0 < s.availOut) : s.advanced n = s := by
  unfold Deflating.advanced
  rw [if_neg fun hnone => by omega]

/-- When the window is used up, what follows lies past it. -/
theorem Deflating.InWindow.past (hz : Deflates z inflates Reached) (h : s.InWindow Reached data) (hgoes : ¬ s.Stops)
    (hfull : s.next.availOut = 0) (hsize : data.length < 2 ^ 32) :
    (s.next.advanced data.length).PastWindow inflates Reached data := by
  have hinput : 0 < s.next.input.length := List.length_pos_iff.mpr fun hnil => hgoes (Or.inr (Or.inl hnil))
  have hpos : 0 < data.length := by
    have := h.room
    have := h.position
    omega
  have hrefill : (s.next.advanced data.length).refilled data.length =
      { s.next.advanced data.length with
        availOut := data.length % 2 ^ 32, nextOut := (s.next.advanced data.length).offset } := if_pos ⟨hinput, hfull⟩
  have hoffset : (s.next.advanced data.length).offset = s.offset + data.length := if_pos ⟨hinput, hfull⟩
  refine ⟨?_, ?_, ?_, h.history.next hz hgoes⟩
  · rw [hrefill]
    show 0 < data.length % 2 ^ 32
    omega
  · rw [hrefill]
    show data.length ≤ (s.next.advanced data.length).offset
    omega
  · exact fun hinflates => hgoes (Or.inr (Or.inr ((h.history.ends_iff hz).mpr hinflates)))

theorem goesOn_iff (s : Deflating z) : GoesOn z s.window ↔ ¬ s.Stops ∧ 0 < s.next.availOut := by
  constructor
  · rintro ⟨hcode, hend, hinput, hroom⟩
    refine ⟨?_, hroom⟩
    rintro (herror | hnil | hends)
    · exact hcode herror
    · exact hinput hnil
    · exact hend hends
  · rintro ⟨hgoes, hroom⟩
    obtain ⟨hcode, hinput, hend⟩ : _ ∧ _ ∧ _ := by simpa only [Deflating.Stops, not_or] using hgoes
    exact ⟨hcode, hend, hinput, hroom⟩

theorem Deflating.InWindow.completes_succ (hz : Deflates z inflates Reached) (h : s.InWindow Reached data)
    (hsize : data.length < 2 ^ 32) :
    s.Completes inflates data (fuel + 1) ↔
      Ends z s.window ∨ GoesOn z s.window ∧ s.next.Completes inflates data fuel := by
  have hinside := h.inside hz
  have hends := h.history.ends_iff hz
  unfold Deflating.Completes
  rw [compressLoop_eq, Deflating.refilled_of_room h.room]
  by_cases hstops : s.Stops
  · rw [afterCall_stops hinside hstops]
    constructor
    · rintro ⟨output, t, hrun, hinflates⟩
      cases hrun
      exact Or.inl (hends.mpr hinflates)
    · rintro (hend | ⟨hgoes, hcompletes⟩)
      · exact ⟨_, _, rfl, hends.mp hend⟩
      · exact absurd hstops ((goesOn_iff s).mp hgoes).1
  · rw [afterCall_goes hinside hstops]
    by_cases hroom : 0 < s.next.availOut
    · rw [Deflating.advanced_of_room _ hroom]
      constructor
      · exact fun hcompletes => Or.inr ⟨(goesOn_iff s).mpr ⟨hstops, hroom⟩, hcompletes⟩
      · rintro (hend | ⟨-, hcompletes⟩)
        · exact absurd (Or.inr (Or.inr hend)) hstops
        · exact hcompletes
    · have hpast := h.past hz hstops (by omega) hsize
      constructor
      · rintro ⟨output, t, hrun, hinflates⟩
        exact absurd hinflates (compressLoop_past hz hpast hrun)
      · rintro (hend | ⟨hgoes, -⟩)
        · exact absurd (Or.inr (Or.inr hend)) hstops
        · exact absurd ((goesOn_iff s).mp hgoes).2 hroom

theorem Deflating.InWindow.defined (hz : Deflates z inflates Reached) (h : s.InWindow Reached data)
    (hends : EndsInWindow z s.window) (fuel : Nat) : compressLoop z data.length fuel s ≠ .undefined := by
  induction fuel generalizing s with
  | zero => exact fun h => nomatch h
  | succ fuel ih =>
    have hinside := h.inside hz
    rw [compressLoop_eq, Deflating.refilled_of_room h.room]
    by_cases hstops : s.Stops
    · rw [afterCall_stops hinside hstops]
      exact fun h => nomatch h
    · rw [afterCall_goes hinside hstops]
      rcases until_iff.mp hends with hend | ⟨hgoes, hends⟩
      · exact absurd (Or.inr (Or.inr hend)) hstops
      · have hroom := ((goesOn_iff s).mp hgoes).2
        rw [Deflating.advanced_of_room _ hroom]
        exact ih (h.next hz hstops hroom) hends

/-- The loop completes the stream exactly when it ends in the window. -/
theorem Deflating.InWindow.completes_iff (hz : Deflates z inflates Reached) (h : s.InWindow Reached data)
    (hsize : data.length < 2 ^ 32) : (∃ fuel, s.Completes inflates data fuel) ↔ EndsInWindow z s.window := by
  have hkeeps : ∀ s : Deflating z, s.InWindow Reached data → GoesOn z s.window → s.next.InWindow Reached data := by
    intro s hs hgoes
    obtain ⟨hstops, hroom⟩ := (goesOn_iff s).mp hgoes
    exact hs.next hz hstops hroom
  have hzero : ∀ s : Deflating z, ¬ s.Completes inflates data 0 := by
    rintro s ⟨output, t, hrun, -⟩
    cases hrun
  calc (∃ fuel, s.Completes inflates data fuel)
      ↔ Until Deflating.next (fun s => GoesOn z s.window) (fun s => Ends z s.window) s :=
        exists_returns_iff (fun fuel s => s.Completes inflates data fuel) hzero (fun _ _ hs =>
          hs.completes_succ hz hsize) hkeeps h
    _ ↔ EndsInWindow z s.window := until_map Deflating.window_next (GoesOn z) (Ends z) s

theorem Deflating.inWindow_start (hz : Deflates z inflates Reached) {stream : z.Deflater}
    (hinit : z.deflateInit = some stream) (hne : data ≠ []) : (Deflating.start stream data).InWindow Reached data where
  room := List.length_pos_iff.mpr hne
  position := Nat.zero_add _
  offset := rfl
  history := Deflating.history_start hz hinit data

end InWindow

/-! ## `compressData` -/

section CompressData

variable {data : Bytes} {stream : z.Deflater} {fuel : Nat}

theorem Deflating.refilled_refilled (n : Nat) (s : Deflating z) : (s.refilled n).refilled n = s.refilled n := by
  unfold Deflating.refilled
  split
  · split <;> rfl
  · rfl

/-- The loop starts with a refill, so that it does not matter whether that has been made. -/
theorem onLocal_refilled (n : Nat) (s : Deflating z) (b : Bytes) :
    (Exec.onLocal s (compressLoop z n fuel) : BufferM Bytes) b = Exec.onLocal (s.refilled n)
    (compressLoop z n fuel) b := by
  cases fuel with
  | zero => rfl
  | succ fuel =>
    unfold Exec.onLocal
    rw [compressLoop_eq, compressLoop_eq, Deflating.refilled_refilled]
    by_cases hover : (s.refilled n).Overruns n
    · rw [afterCall_overruns hover, afterCall_overruns hover]
    · by_cases hstops : (s.refilled n).Stops
      · rw [afterCall_stops hover hstops, afterCall_stops hover hstops]
      · rw [afterCall_goes hover hstops, afterCall_goes hover hstops]

theorem Deflating.start_eq (stream : z.Deflater) (hsize : data.length < 2 ^ 31) :
    (⟨stream, data.take (data.length % 2 ^ 32), 0, 0, 0, []⟩ : Deflating z).refilled data.length =
      Deflating.start stream data := by
  have hmod : data.length % 2 ^ 32 = data.length := by omega
  rw [hmod, List.take_length]
  unfold Deflating.refilled Deflating.start
  dsimp only
  split
  · rw [hmod]
  · next hempty =>
    have hzero : data.length = 0 := by omega
    rw [hzero]

theorem compressData_run (hinit : z.deflateInit = some stream) (hsize : data.length < 2 ^ 31) :
    compressData z fuel data =
      (do
        let output ← Exec.onLocal (Deflating.start stream data) (compressLoop z data.length fuel)
        Exec.set output
        writeVarIntToFront (BitVec.ofNat 32 data.length) : BufferM Unit) data := by
  rw [compressData, Exec.run_bind_ok (Exec.run_get data), hinit]
  dsimp only
  rw [Exec.run_bind, Exec.run_bind, onLocal_refilled, Deflating.start_eq stream hsize]

theorem run_sizeInFront (hsize : data.length < 2 ^ 31) (output b : Bytes) :
    (do
      Exec.set output
      writeVarIntToFront (BitVec.ofNat 32 data.length) : BufferM Unit) b =
      .ok () (writeVarIntToBuffer (BitVec.ofNat 32 data.length) ++ output) := by
  have hnn : 0 ≤ (BitVec.ofNat 32 data.length).toInt := by
    rw [toInt_ofNat_size hsize]
    omega
  rw [Exec.run_bind_ok (Exec.run_set output b)]
  exact writeVarIntToFront_nonneg _ hnn output

theorem compressData_completes_iff (hinit : z.deflateInit = some stream) (hsize : data.length < 2 ^ 31) :
    (∃ output, compressData z fuel data = .ok () (writeVarIntToBuffer (BitVec.ofNat 32 data.length) ++ output) ∧
      inflates output data) ↔ (Deflating.start stream data).Completes inflates data fuel := by
  rw [compressData_run hinit hsize]
  constructor
  · rintro ⟨output, hrun, hinflates⟩
    obtain ⟨output', b, hloop, hwrite⟩ := Exec.bind_eq_ok.mp hrun
    obtain ⟨t, hloop, rfl⟩ := Exec.onLocal_eq_ok.mp hloop
    rw [run_sizeInFront hsize] at hwrite
    simp only [Res.ok.injEq, true_and, List.append_cancel_left_eq] at hwrite
    subst hwrite
    exact ⟨output', t, hloop, hinflates⟩
  · rintro ⟨output, t, hloop, hinflates⟩
    refine ⟨output, ?_, hinflates⟩
    rw [Exec.run_bind_ok (Exec.run_onLocal_ok hloop), run_sizeInFront hsize]

theorem compressData_undefined_iff (hinit : z.deflateInit = some stream) (hsize : data.length < 2 ^ 31) :
    compressData z fuel data = .undefined ↔ compressLoop z data.length fuel (.start stream data) = .undefined := by
  rw [compressData_run hinit hsize, Exec.bind_eq_undefined, Exec.onLocal_eq_undefined, or_iff_left]
  rintro ⟨output, b, -, hwrite⟩
  rw [run_sizeInFront hsize] at hwrite
  cases hwrite

theorem not_completes_nil (hz : Deflates z inflates Reached) :
    ¬ (Deflating.start stream []).Completes inflates [] fuel := by
  rintro ⟨output, t, hrun, hinflates⟩
  have hnothing : ((Deflating.start stream ([] : Bytes)).window.call z.deflate).output = [] :=
    List.length_eq_zero_iff.mp (Nat.le_zero.mp (hz.progresses stream [] 0).2)
  have hinside : ¬ (Deflating.start stream ([] : Bytes)).Overruns 0 := fun hover => hover.1 hnothing
  have hstops : (Deflating.start stream ([] : Bytes)).Stops := Or.inr (Or.inl List.drop_nil)
  cases fuel with
  | zero => cases hrun
  | succ fuel =>
    rw [compressLoop_eq] at hrun
    have hrefilled : (Deflating.start stream ([] : Bytes)).refilled 0 = Deflating.start stream [] := rfl
    rw [List.length_nil, hrefilled, afterCall_stops hinside hstops] at hrun
    cases hrun
    refine hz.not_empty [] ?_
    have hempty : (Deflating.start stream ([] : Bytes)).next.output = [] := hnothing
    rwa [hempty] at hinflates

theorem compresses_iff_of_init (hz : Deflates z inflates Reached) (hinit : z.deflateInit = some stream)
    (hsize : data.length < 2 ^ 31) :
    Compresses z inflates data ↔ data ≠ [] ∧ EndsInWindow z ⟨stream, data, data.length⟩ := by
  constructor
  · rintro ⟨-, hcompletes⟩
    obtain ⟨fuel, hrun⟩ := hcompletes (by rw [hinit]; exact Option.some_ne_none stream)
    have hloop := (compressData_completes_iff hinit hsize).mp hrun
    have hne : data ≠ [] := by
      rintro rfl
      exact not_completes_nil hz hloop
    exact ⟨hne, ((Deflating.inWindow_start hz hinit hne).completes_iff hz (by omega)).mp ⟨fuel, hloop⟩⟩
  · rintro ⟨hne, hwindow⟩
    have hstart := Deflating.inWindow_start hz hinit hne
    refine ⟨fun fuel hundefined => ?_, fun _ => ?_⟩
    · exact hstart.defined hz hwindow fuel ((compressData_undefined_iff hinit hsize).mp hundefined)
    · obtain ⟨fuel, hloop⟩ := (hstart.completes_iff hz (by omega)).mpr hwindow
      exact ⟨fuel, (compressData_completes_iff hinit hsize).mpr hloop⟩

theorem compresses_of_none (hinit : z.deflateInit = none) : Compresses z inflates data := by
  refine ⟨fun fuel => ?_, fun hne => absurd hinit hne⟩
  rw [compressData_failed hinit]
  exact fun h => nomatch h

end CompressData

/-! ## Data whose stream is longer than itself -/

/-- A zlib that takes all the input at once and emits what is still missing of `encode` of what it has taken. -/
def Zlib.encoding (encode : Bytes → Bytes) : Zlib :=
  ⟨Bytes × Bytes, Unit, some ([], []),
    fun (taken, given) input room =>
      let output := ((encode (taken ++ input)).drop given.length).take room
      ⟨(taken ++ input, given ++ output), if given ++ output = encode (taken ++ input) then .Z_STREAM_END else .Z_OK,
        input.length, output⟩,
    none, fun _ _ _ => ⟨(), .Z_STREAM_ERROR, 0, []⟩⟩

section Encoding

variable {encode : Bytes → Bytes}

theorem Zlib.encoding_deflates (hne : ∀ data, encode data ≠ []) :
    Deflates (.encoding encode) (fun stream data => stream = encode data) (fun stream taken given => stream =
      (taken, given)) where
  progresses := by
    rintro ⟨taken, given⟩ input room
    exact ⟨Nat.le_refl _, List.length_take_le ..⟩
  not_empty := fun data h => hne data h.symm
  init := fun _ hinit => (Option.some.inj hinit).symm
  goes := by
    rintro _ taken given input room rfl - -
    refine Prod.ext ?_ rfl
    show taken ++ input = taken ++ input.take input.length
    rw [List.take_length]
  ends := by
    rintro _ taken given input room rfl
    have hcode : ((Zlib.encoding encode).deflate (taken, given) input room).returnCode =
        if given ++ ((Zlib.encoding encode).deflate (taken, given) input room).output = encode (taken ++ input)
        then .Z_STREAM_END else .Z_OK := rfl
    rw [hcode]
    split
    · next hcomplete => exact iff_of_true rfl hcomplete
    · next hincomplete => exact iff_of_false (fun h => nomatch h) hincomplete

/-- Where all the input is taken at once, `compressData` leaves a complete stream exactly when that is not longer than
the data. -/
theorem compresses_encoding_iff (hne : ∀ data, encode data ≠ []) {data : Bytes} (hsize : data.length < 2 ^ 31) :
    Compresses (.encoding encode) (fun stream data => stream = encode data) data ↔
      data ≠ [] ∧ (encode data).length ≤ data.length := by
  have hends : Ends (.encoding encode) ⟨([], []), data, data.length⟩ ↔ (encode data).length ≤ data.length := by
    show (if [] ++ (encode ([] ++ data)).take data.length =
      encode ([] ++ data) then ZCode.Z_STREAM_END else ZCode.Z_OK) = .Z_STREAM_END ↔ _
    rw [List.nil_append, List.nil_append, ← List.take_eq_self_iff]
    split <;> simp_all
  have hgoes : ¬ GoesOn (.encoding encode) ⟨([], []), data, data.length⟩ :=
    fun hgoes => hgoes.2.2.1 (List.drop_length ..)
  rw [compresses_iff_of_init (Zlib.encoding_deflates hne) rfl hsize, EndsInWindow, until_iff, hends]
  simp [hgoes]

end Encoding

/-- **Compression**: `compressData` leaves the size and the complete stream of the data, inside its buffer, exactly when
`deflateInit` fails or there is data and its stream ends in the first window. -/
theorem compresses_iff (hz : Deflates z inflates Reached) {data : Bytes} (hsize : data.length < 2 ^ 31) :
    Compresses z inflates data ↔
      ∀ stream, z.deflateInit = some stream → data ≠ [] ∧ EndsInWindow z ⟨stream, data, data.length⟩ := by
  cases hinit : z.deflateInit with
  | none => exact iff_of_true (compresses_of_none hinit) fun _ h => nomatch h
  | some stream =>
    rw [compresses_iff_of_init hz hinit hsize]
    simp

/-- The zlib streams of 32 zeros and of an asterisk; of other data, only the first byte is that of a stream. -/
def sampleStream (data : Bytes) : Bytes :=
  if data = List.replicate 32 0 then [0x78, 0x9c, 0x63, 0x60, 0xc0, 0x0f, 0x00, 0x00, 0x20, 0x00, 0x01]
  else if data = [0x2a] then [0x78, 0x9c, 0xd3, 0x02, 0x00, 0x00, 0x2b, 0x00, 0x2b]
  else 0x78 :: data

theorem sampleStream_ne_nil (data : Bytes) : sampleStream data ≠ [] := by
  unfold sampleStream
  split_ifs <;> simp

theorem compresses_sample :
    (List.replicate 32 (0 : Byte)).length < 2 ^ 31 ∧
      (Compresses (.encoding sampleStream) (fun stream data => stream = sampleStream data) (List.replicate 32 0) ↔
        ∀ stream, (Zlib.encoding sampleStream).deflateInit = some stream →
          List.replicate 32 (0 : Byte) ≠ [] ∧
            EndsInWindow (.encoding sampleStream) ⟨stream, List.replicate 32 0,
              (List.replicate 32 (0 : Byte)).length⟩) :=
  ⟨by decide, compresses_iff (Zlib.encoding_deflates sampleStream_ne_nil) (by decide)⟩

/-- Nine bytes do not fit where one does: this zlib, which hands out its stream in one portion, is cut off after the
first byte. One that is asked again with no room left goes on into memory behind the buffer, which is no compression
either. -/
theorem asterisk_cut_off :
    ¬ ∀ (z : Zlib) (inflates : Bytes → Bytes → Prop) (Reached : z.Deflater → Bytes → Bytes → Prop) (data : Bytes),
      Deflates z inflates Reached → data.length < 2 ^ 31 → Compresses z inflates data := by
  intro h
  have hcompresses := h _ _ _ [0x2a] (Zlib.encoding_deflates sampleStream_ne_nil) (by decide)
  have hshort := ((compresses_encoding_iff sampleStream_ne_nil (by decide)).mp hcompresses).2
  exact absurd hshort (by decide)

end CeriosCluster.MCPacket
