import CeriosCluster.MCPacket.DeflateLoop

/-!
# What the operations of a packet object leave in it

A packet object keeps its buffer and its `compressed` flag between calls. Every operation leaves the id
and the fields alone. `compressPacket` sets the flag whether `compressData` has compressed anything or
not: it reports nothing, and a `deflateInit` that fails leaves the buffer as it was.
-/

namespace CeriosCluster.MCPacket

open CeriosCluster.Lib

/-- An operation on a packet object, with the zlib it finds; `sendPacket` is what `Client::sendPacket` does to the
object. -/
inductive Call : Type 1
  | serializePacket (side : Side)
  | compressPacket (z : Zlib)
  | compressIfLargerThan (z : Zlib) (lengthBytes : Nat)
  | framePacket
  | serializeToBuffer (side : Side) (buffer : Bytes)
  | sendPacket (z : Zlib) (side : Side) (compressionThreshold : Word)

/-- `serializeToBuffer`: the packet is serialized, and its bytes go to the end of the buffer. -/
def serializeToBuffer (side : Side) (buffer : Bytes) : PacketM Bytes := do
  Exec.modify (Packet.serializePacket side)
  let p ← Exec.get
  pure (buffer ++ p.rawPayload)

def Call.run (fuel : Nat) : Call → PacketM Unit
  | .serializePacket side => Exec.modify (Packet.serializePacket side)
  | .compressPacket z => MCPacket.compressPacket z fuel
  | .compressIfLargerThan z lengthBytes => MCPacket.compressIfLargerThan z fuel lengthBytes
  | .framePacket => MCPacket.framePacket
  | .serializeToBuffer side buffer => do let _ ← MCPacket.serializeToBuffer side buffer
  | .sendPacket z side compressionThreshold => Packet.toWire z fuel side compressionThreshold

def runCalls (fuel : Nat) : List Call → PacketM Unit
  | [] => pure ()
  | call :: calls => do
    call.run fuel
    runCalls fuel calls

/-- What a call is made of: a change of the buffer or of the flag, with the zlib that a compression finds. -/
inductive Operation : Type 1
  | serializePacket (side : Side)
  | compressPacket (z : Zlib)
  | compressIfLargerThan (z : Zlib) (lengthBytes : Nat)
  | framePacket

def Operation.run (fuel : Nat) : Operation → PacketM Unit
  | .serializePacket side => Exec.modify (Packet.serializePacket side)
  | .compressPacket z => MCPacket.compressPacket z fuel
  | .compressIfLargerThan z lengthBytes => MCPacket.compressIfLargerThan z fuel lengthBytes
  | .framePacket => MCPacket.framePacket

def runOperations (fuel : Nat) : List Operation → PacketM Unit
  | [] => pure ()
  | op :: ops => do
    op.run fuel
    runOperations fuel ops

/-- The operations of a call on a packet of the class of `p`: `sendPacket` serializes, compresses if the connection and
the class want it, and frames. -/
def Call.operations (p : Packet) : Call → List Operation
  | .serializePacket side => [.serializePacket side]
  | .compressPacket z => [.compressPacket z]
  | .compressIfLargerThan z lengthBytes => [.compressIfLargerThan z lengthBytes]
  | .framePacket => [.framePacket]
  | .serializeToBuffer side _ => [.serializePacket side]
  | .sendPacket z side compressionThreshold =>
    if 0 ≤ compressionThreshold.toInt ∧ p.fields.packetClass ≠ .setCompression then
      [.serializePacket side, .compressIfLargerThan z (asSize compressionThreshold), .framePacket]
    else [.serializePacket side, .framePacket]

/-! ## The id and the fields -/

def Packet.SameContent (p q : Packet) : Prop := q.packetId = p.packetId ∧ q.fields = p.fields

instance : Std.Refl Packet.SameContent := ⟨fun _ => ⟨rfl, rfl⟩⟩

instance : IsTrans Packet Packet.SameContent := ⟨fun _ _ _ h h' => ⟨h'.1.trans h.1, h'.2.trans h.2⟩⟩

section Content

variable {z : Zlib} {fuel : Nat}

theorem onRawPayload_keeps {α : Type} (m : BufferM α) : (Packet.onRawPayload m).Keeps Packet.SameContent :=
  .zoom (fun _ _ => ⟨rfl, rfl⟩) m

theorem compressPacket_keeps : (compressPacket z fuel).Keeps Packet.SameContent :=
  .bind .get fun _ => .ite (fun _ => .pure ()) fun _ => .bind (onRawPayload_keeps _) fun _ => .modify fun _ =>
    ⟨rfl, rfl⟩

theorem compressIfLargerThan_keeps {lengthBytes : Nat} :
    (compressIfLargerThan z fuel lengthBytes).Keeps Packet.SameContent :=
  .bind .get fun _ => .ite (fun _ => compressPacket_keeps) fun _ => .pure ()

theorem serializePacket_keeps (side : Side) :
    (Exec.modify (Packet.serializePacket side) : PacketM Unit).Keeps Packet.SameContent := .modify fun _ => ⟨rfl, rfl⟩

/-- No operation changes the id or a field. -/
theorem Call.run_keeps (call : Call) : (call.run fuel).Keeps Packet.SameContent := by
  cases call with
  | serializePacket side => exact serializePacket_keeps side
  | compressPacket z => exact compressPacket_keeps
  | compressIfLargerThan z lengthBytes => exact compressIfLargerThan_keeps
  | framePacket => exact onRawPayload_keeps _
  | serializeToBuffer side buffer =>
    exact .bind (.bind (serializePacket_keeps side) fun _ => .bind .get fun _ => .pure _) fun _ => .pure _
  | sendPacket z side compressionThreshold =>
    exact .bind (serializePacket_keeps side) fun _ => .bind .get fun _ =>
      .ite (fun _ => .bind compressIfLargerThan_keeps fun _ => onRawPayload_keeps _) fun _ => onRawPayload_keeps _

theorem runCalls_keeps (calls : List Call) : (runCalls fuel calls).Keeps Packet.SameContent := by
  induction calls with
  | nil => exact .pure ()
  | cons call calls ih => exact .bind call.run_keeps fun _ => ih

/-- The operations of a call do what the call does. -/
theorem Call.run_operations (call : Call) (p : Packet) :
    runOperations fuel (call.operations p) p = call.run fuel p := by
  cases call with
  | serializePacket side => rfl
  | compressPacket z => exact congrFun (Exec.bind_pure_unit _) p
  | compressIfLargerThan z lengthBytes => exact congrFun (Exec.bind_pure_unit _) p
  | framePacket => exact congrFun (Exec.bind_pure_unit _) p
  | serializeToBuffer side buffer => rfl
  | sendPacket z side compressionThreshold =>
    show _ = Packet.toWire z fuel side compressionThreshold p
    rw [Packet.toWire, Exec.run_bind_ok (Exec.run_modify _ p), Exec.run_bind_ok (Exec.run_get _), Call.operations]
    by_cases hcompress : 0 ≤ compressionThreshold.toInt ∧ p.fields.packetClass ≠ .setCompression
    · have hserialized : 0 ≤ compressionThreshold.toInt ∧
        (p.serializePacket side).fields.packetClass ≠ .setCompression := hcompress
      rw [if_pos hcompress, if_pos hserialized]
      exact Exec.run_bind_ok (Exec.run_modify _ p)
        |>.trans (by simp only [runOperations, Operation.run, Exec.bind_pure_unit])
    · have hserialized : ¬ (0 ≤ compressionThreshold.toInt ∧
        (p.serializePacket side).fields.packetClass ≠ .setCompression) := hcompress
      rw [if_neg hcompress, if_neg hserialized]
      exact Exec.run_bind_ok (Exec.run_modify _ p)
        |>.trans (by simp only [runOperations, Operation.run, Exec.bind_pure_unit])

theorem runOperations_append (ops ops' : List Operation) :
    runOperations fuel (ops ++ ops') = runOperations fuel ops >>= fun _ => runOperations fuel ops' := by
  induction ops with
  | nil => rfl
  | cons op ops ih =>
    show (op.run fuel >>= fun _ => runOperations fuel (ops ++ ops')) = _
    rw [ih, runOperations, Exec.bind_assoc]

/-- The class of a packet does not change, so the operations of all the calls are known from the beginning. -/
theorem runCalls_operations (calls : List Call) (p : Packet) :
    runOperations fuel (calls.flatMap (Call.operations p)) p = runCalls fuel calls p := by
  induction calls generalizing p with
  | nil => rfl
  | cons call calls ih =>
    rw [List.flatMap_cons, runOperations_append, runCalls, Exec.run_bind, Exec.run_bind, call.run_operations]
    cases hrun : call.run fuel p with
    | ok u q =>
      have hsame : p.SameContent q := Exec.wp.of_ok (Q := fun _ => p.SameContent) (call.run_keeps p) hrun
      have hoperations : Call.operations p = Call.operations q := by
        funext call
        cases call <;> simp only [Call.operations, hsame.2]
      show runOperations fuel (calls.flatMap (Call.operations p)) q = runCalls fuel calls q
      rw [hoperations, ih q]
    | threw e q => rfl
    | undefined => rfl
    | diverged => rfl

end Content

/-! ## The flag -/

/-- `data` is the size of `held` as a VarInt, and a complete deflate stream of it. -/
def Compressed (inflates : Bytes → Bytes → Prop) (held data : Bytes) : Prop :=
  ∃ (size : Word) (stream : Bytes), size.toNat = held.length ∧ inflates stream held ∧
    data = writeVarIntToBuffer size ++ stream

/-- A packet object and the bytes it held before it was first compressed. -/
structure Tracked where
  packet : Packet
  held : Bytes
  uncompressed : packet.compressed = false → held = packet.rawPayload

/-- The object after an operation: unless it is marked, it holds bytes that have not been compressed. -/
def Tracked.after (t : Tracked) (packet : Packet) : Tracked where
  packet := packet
  held := if packet.compressed then t.held else packet.rawPayload
  uncompressed h := by rw [h]; rfl

def Operation.Leaves (op : Operation) (p p' : Packet) : Prop := ∃ fuel, op.run fuel p = .ok () p'

/-- The operation has defined behaviour and returns. -/
def Operation.Returns (op : Operation) (p : Packet) : Prop :=
  (∀ fuel, op.run fuel p ≠ .undefined) ∧ ∃ p', op.Leaves p p'

/-- The zlib with which the operation is, or ends in, a call of `compressPacket`. -/
def Operation.compresses (p : Packet) : Operation → Option Zlib
  | .compressPacket z => some z
  | .compressIfLargerThan z lengthBytes => if lengthBytes < p.rawPayload.length then some z else none
  | _ => none

/-- The flag is set exactly on a buffer that is compressed, and where zlib could not be initialised nothing has
changed. -/
def Truthful (inflates : Bytes → Bytes → Prop) (z : Zlib) (before after : Tracked) : Prop :=
  (after.packet.compressed = true ↔ Compressed inflates after.held after.packet.rawPayload) ∧
    (z.deflateInit = none → before.packet.compressed = false →
      after.packet.rawPayload = before.packet.rawPayload ∧ after.packet.compressed = false)

/-- The call of `compressPacket` that `op` makes, if any, returns and leaves the flag truthful. -/
def Operation.TellsTruth (inflates : Bytes → Bytes → Prop) (op : Operation) (t : Tracked) : Prop :=
  ∀ z, op.compresses t.packet = some z →
    op.Returns t.packet ∧ ∀ p', op.Leaves t.packet p' → Truthful inflates z t (t.after p')

/-- It does so in every operation of a sequence. -/
def Truthfully (inflates : Bytes → Bytes → Prop) : List Operation → Tracked → Prop
  | [], _ => True
  | op :: ops, t => op.TellsTruth inflates t ∧ ∀ p', op.Leaves t.packet p' → Truthfully inflates ops (t.after p')

/-- The flag tells the truth after every call of `compressPacket` that the calls make. -/
def TruthfulAlong (inflates : Bytes → Bytes → Prop) (calls : List Call) (t : Tracked) : Prop :=
  Truthfully inflates (calls.flatMap (Call.operations t.packet)) t

/-- A packet that is not marked finds a zlib that can be initialised and ends the stream of its bytes in the first
window; one that is marked still holds what the compression left. -/
def Operation.Meets (inflates : Bytes → Bytes → Prop) (op : Operation) (t : Tracked) : Prop :=
  ∀ z, op.compresses t.packet = some z →
    if t.packet.compressed then Compressed inflates t.held t.packet.rawPayload
    else ∃ stream, z.deflateInit = some stream ∧ t.packet.rawPayload ≠ [] ∧ t.packet.rawPayload.length < 2 ^ 31 ∧
      EndsInWindow z ⟨stream, t.packet.rawPayload, t.packet.rawPayload.length⟩

def Meeting (inflates : Bytes → Bytes → Prop) : List Operation → Tracked → Prop
  | [], _ => True
  | op :: ops, t => op.Meets inflates t ∧ ∀ p', op.Leaves t.packet p' → Meeting inflates ops (t.after p')

def MeetsAlong (inflates : Bytes → Bytes → Prop) (calls : List Call) (t : Tracked) : Prop :=
  Meeting inflates (calls.flatMap (Call.operations t.packet)) t

def Call.zlib : Call → Option Zlib
  | .compressPacket z => some z
  | .compressIfLargerThan z _ => some z
  | .sendPacket z _ _ => some z
  | _ => none

def Call.Deflates (inflates : Bytes → Bytes → Prop) (call : Call) : Prop :=
  ∀ z, call.zlib = some z → ∃ Reached, MCPacket.Deflates z inflates Reached

theorem Call.zlib_of_operation {call : Call} {op : Operation} {p q : Packet} {z : Zlib} (hop : op ∈ call.operations p)
    (h : op.compresses q = some z) : call.zlib = some z := by
  have hlarge : ∀ {z' : Zlib} {lengthBytes : Nat}, (Operation.compressIfLargerThan z' lengthBytes).compresses q =
    some z → z' = z := by
    intro z' lengthBytes h
    rw [Operation.compresses] at h
    split at h
    · exact Option.some.inj h
    · cases h
  cases call with
  | compressPacket z' =>
    cases List.mem_singleton.mp hop
    exact h
  | compressIfLargerThan z' lengthBytes =>
    cases List.mem_singleton.mp hop
    exact congrArg some (hlarge h)
  | sendPacket z' side compressionThreshold =>
    rw [Call.operations] at hop
    split at hop
    · rcases List.mem_cons.mp hop with rfl | hop
      · cases h
      · rcases List.mem_pair.mp hop with rfl | rfl
        · exact congrArg some (hlarge h)
        · cases h
    · rcases List.mem_pair.mp hop with rfl | rfl <;> cases h
  | _ =>
    cases List.mem_singleton.mp hop
    cases h

section Flag

variable {z : Zlib} {inflates : Bytes → Bytes → Prop} {Reached : z.Deflater → Bytes → Bytes → Prop}

theorem compressLoop_more {n fuel : Nat} {s t : Deflating z} {output : Bytes}
    (h : compressLoop z n fuel s = .ok output t) (more : Nat) :
    compressLoop z n (fuel + more) s = .ok output t := by
  induction fuel generalizing s with
  | zero => cases h
  | succ fuel ih =>
    rw [Nat.add_right_comm, compressLoop_eq]
    rw [compressLoop_eq] at h
    generalize s.refilled n = r at h ⊢
    by_cases hover : r.Overruns n
    · rw [afterCall_overruns hover] at h
      cases h
    · by_cases hstops : r.Stops
      · rw [afterCall_stops hover hstops] at h ⊢
        exact h
      · rw [afterCall_goes hover hstops] at h ⊢
        exact ih h

/-- What `compressData` leaves does not depend on how long it may run. -/
theorem compressData_unique {fuel fuel' : Nat} {b b₁ b₂ : Bytes} (h : compressData z fuel b = .ok () b₁)
    (h' : compressData z fuel' b = .ok () b₂) : b₁ = b₂ := by
  cases hinit : z.deflateInit with
  | none =>
    rw [compressData_failed hinit] at h h'
    cases h
    cases h'
    rfl
  | some stream =>
    rw [compressData, Exec.run_bind_ok (Exec.run_get b), hinit] at h h'
    obtain ⟨output, c, hloop, hwrite⟩ := Exec.bind_eq_ok.mp h
    obtain ⟨output', c', hloop', hwrite'⟩ := Exec.bind_eq_ok.mp h'
    obtain ⟨t, hloop, rfl⟩ := Exec.onLocal_eq_ok.mp hloop
    obtain ⟨t', hloop', rfl⟩ := Exec.onLocal_eq_ok.mp hloop'
    have hlong := compressLoop_more hloop fuel'
    have hlong' := compressLoop_more hloop' fuel
    rw [Nat.add_comm, hlong] at hlong'
    cases hlong'
    rw [hwrite] at hwrite'
    cases hwrite'
    rfl

/-! ### One operation -/

section OneOperation

variable {fuel : Nat} {p p' : Packet}

theorem compressPacket_marked (h : p.compressed = true) : compressPacket z fuel p = .ok () p := by
  rw [compressPacket, Exec.run_bind_ok (Exec.run_get p), h]
  rfl

theorem compressPacket_eq_ok (h : p.compressed = false) :
    compressPacket z fuel p = .ok () p' ↔
      ∃ b, compressData z fuel p.rawPayload = .ok () b ∧ p' = { p with rawPayload := b, compressed := true } := by
  rw [compressPacket, Exec.run_bind_ok (Exec.run_get p), h]
  simp only [Bool.false_eq_true, if_false, Exec.run_bind, Packet.onRawPayload, Exec.zoom]
  cases compressData z fuel p.rawPayload <;> simp [eq_comm]

theorem compressPacket_eq_undefined (h : p.compressed = false) :
    compressPacket z fuel p = .undefined ↔ compressData z fuel p.rawPayload = .undefined := by
  rw [compressPacket, Exec.run_bind_ok (Exec.run_get p), h]
  simp only [Bool.false_eq_true, if_false, Exec.run_bind, Packet.onRawPayload, Exec.zoom]
  cases compressData z fuel p.rawPayload <;> simp

theorem Operation.run_of_compresses {op : Operation} (h : op.compresses p = some z) :
    op.run fuel p = MCPacket.compressPacket z fuel p := by
  cases op with
  | compressPacket z' =>
    cases h
    rfl
  | compressIfLargerThan z' lengthBytes =>
    rw [Operation.compresses] at h
    split at h
    · next hlarge =>
      cases h
      show MCPacket.compressIfLargerThan z fuel lengthBytes p = _
      rw [MCPacket.compressIfLargerThan, Exec.run_bind_ok (Exec.run_get p), if_pos hlarge]
    · cases h
  | _ => cases h

end OneOperation

/-- A size that is written as a VarInt after the compression is below `2 ^ 31`. -/
theorem size_lt_of_compressed {fuel : Nat} {b data : Bytes} {stream : z.Deflater} (hinit : z.deflateInit = some stream)
    (hrun : compressData z fuel b = .ok () data) (h : Compressed inflates b data) : b.length < 2 ^ 31 := by
  obtain ⟨size, -, hsize, -, -⟩ := h
  have hlt := size.isLt
  rw [compressData, Exec.run_bind_ok (Exec.run_get b), hinit] at hrun
  obtain ⟨output, c, -, hrun⟩ := Exec.bind_eq_ok.mp hrun
  rw [Exec.run_bind_ok (Exec.run_set output c), writeVarIntToFront] at hrun
  by_contra hlarge
  -- the front writer does not return on a negative size
  have hneg : (BitVec.ofNat 32 b.length).toInt < 0 := by
    rw [BitVec.toInt_eq_toNat_cond, BitVec.toNat_ofNat]
    split <;> omega
  rw [writeVarIntToFrontLoop_neg 6 _ hneg] at hrun
  cases hrun

theorem compressed_iff {b data : Bytes} (hsize : b.length < 2 ^ 31) :
    Compressed inflates b data ↔
      ∃ stream, data = writeVarIntToBuffer (BitVec.ofNat 32 b.length) ++ stream ∧ inflates stream b := by
  constructor
  · rintro ⟨size, stream, hlength, hinflates, rfl⟩
    exact ⟨stream, by rw [← hlength, BitVec.ofNat_toNat, BitVec.setWidth_eq], hinflates⟩
  · rintro ⟨stream, rfl, hinflates⟩
    refine ⟨BitVec.ofNat 32 b.length, stream, ?_, hinflates, rfl⟩
    rw [BitVec.toNat_ofNat]
    omega

/-- The first compression of a packet leaves the flag truthful exactly when the stream ends in the first window. -/
theorem tellsTruth_unmarked (hz : Deflates z inflates Reached) {t : Tracked} (hnew : t.packet.compressed = false) :
    ((Operation.compressPacket z).Returns t.packet ∧ ∀ p', (Operation.compressPacket z).Leaves t.packet p' →
      Truthful inflates z t (t.after p')) ↔
      ∃ stream, z.deflateInit = some stream ∧ t.packet.rawPayload ≠ [] ∧ t.packet.rawPayload.length < 2 ^ 31 ∧
        EndsInWindow z ⟨stream, t.packet.rawPayload, t.packet.rawPayload.length⟩ := by
  have hheld := t.uncompressed hnew
  constructor
  · rintro ⟨⟨hdefined, p', fuel, hrun⟩, htruthful⟩
    obtain ⟨hflag, hfailed⟩ := htruthful p' ⟨fuel, hrun⟩
    obtain ⟨data, hdata, rfl⟩ := (compressPacket_eq_ok hnew).mp hrun
    cases hinit : z.deflateInit with
    | none =>
      have hmark : true = false := (hfailed hinit hnew).2
      cases hmark
    | some stream =>
      have hcompressed : Compressed inflates t.packet.rawPayload data := hheld ▸ hflag.mp rfl
      have hsize := size_lt_of_compressed hinit hdata hcompressed
      obtain ⟨output, rfl, hinflates⟩ := (compressed_iff hsize).mp hcompressed
      have hcompresses : Compresses z inflates t.packet.rawPayload :=
        ⟨fun fuel hundefined => hdefined fuel ((compressPacket_eq_undefined hnew).mpr hundefined),
          fun _ => ⟨fuel, output, hdata, hinflates⟩⟩
      obtain ⟨hne, hends⟩ := (compresses_iff_of_init hz hinit hsize).mp hcompresses
      exact ⟨stream, rfl, hne, hsize, hends⟩
  · rintro ⟨stream, hinit, hne, hsize, hends⟩
    obtain ⟨hdefined, hcompletes⟩ := (compresses_iff_of_init hz hinit hsize).mpr ⟨hne, hends⟩
    obtain ⟨fuel, output, hdata, hinflates⟩ := hcompletes (by rw [hinit]; exact Option.some_ne_none stream)
    refine ⟨⟨fun fuel h => hdefined fuel ((compressPacket_eq_undefined hnew).mp h), _, fuel,
      (compressPacket_eq_ok hnew).mpr ⟨_, hdata, rfl⟩⟩, ?_⟩
    rintro p' ⟨fuel', hrun⟩
    obtain ⟨data, hdata', rfl⟩ := (compressPacket_eq_ok hnew).mp hrun
    obtain rfl := compressData_unique hdata hdata'
    refine ⟨iff_of_true rfl ?_, fun hnone => ?_⟩
    · show Compressed inflates t.held _
      rw [hheld]
      exact (compressed_iff hsize).mpr ⟨output, rfl, hinflates⟩
    · rw [hinit] at hnone
      cases hnone

theorem tellsTruth_marked {t : Tracked} (h : t.packet.compressed = true) :
    ((Operation.compressPacket z).Returns t.packet ∧ ∀ p', (Operation.compressPacket z).Leaves t.packet p' →
      Truthful inflates z t (t.after p')) ↔
      Compressed inflates t.held t.packet.rawPayload := by
  have hrun : ∀ fuel, (Operation.compressPacket z).run fuel t.packet = .ok () t.packet :=
    fun fuel => compressPacket_marked h
  have hheld : (t.after t.packet).held = t.held := if_pos h
  have htruthful : Truthful inflates z t (t.after t.packet) ↔ Compressed inflates t.held t.packet.rawPayload := by
    have hpacket : (t.after t.packet).packet = t.packet := rfl
    rw [Truthful, hheld, hpacket]
    simp [h]
  constructor
  · rintro ⟨-, hall⟩
    exact htruthful.mp (hall t.packet ⟨0, hrun 0⟩)
  · intro hcompressed
    refine ⟨⟨fun fuel hundefined => ?_, t.packet, 0, hrun 0⟩, ?_⟩
    · rw [hrun fuel] at hundefined
      cases hundefined
    · rintro p' ⟨fuel, hleaves⟩
      rw [hrun fuel] at hleaves
      cases hleaves
      exact htruthful.mpr hcompressed

theorem Operation.tellsTruth_iff {op : Operation} {t : Tracked}
    (hz : ∀ z, op.compresses t.packet = some z → ∃ Reached, Deflates z inflates Reached) :
    op.TellsTruth inflates t ↔ op.Meets inflates t := by
  refine forall_congr' fun z => imp_congr_right fun hcompresses => ?_
  obtain ⟨Reached, hdeflates⟩ := hz z hcompresses
  have hsame : ∀ fuel, op.run fuel t.packet = (Operation.compressPacket z).run fuel t.packet := fun fuel =>
    Operation.run_of_compresses hcompresses
  have hop : (op.Returns t.packet ∧ ∀ p', op.Leaves t.packet p' → Truthful inflates z t (t.after p')) ↔
      ((Operation.compressPacket z).Returns t.packet ∧
        ∀ p', (Operation.compressPacket z).Leaves t.packet p' → Truthful inflates z t (t.after p')) := by
    unfold Operation.Returns Operation.Leaves
    simp only [hsame]
  rw [hop]
  cases hflag : t.packet.compressed with
  | true => exact tellsTruth_marked hflag
  | false => exact tellsTruth_unmarked hdeflates hflag

theorem truthfully_iff (ops : List Operation)
    (hz : ∀ op ∈ ops, ∀ (p : Packet) (z : Zlib), op.compresses p = some z → ∃ Reached, Deflates z inflates Reached)
    (t : Tracked) :
    Truthfully inflates ops t ↔ Meeting inflates ops t := by
  induction ops generalizing t with
  | nil => exact Iff.rfl
  | cons op ops ih =>
    obtain ⟨hop, hops⟩ := List.forall_mem_cons.mp hz
    exact and_congr (Operation.tellsTruth_iff (hop t.packet)) (forall_congr' fun p' => imp_congr_right fun _ =>
      ih hops (t.after p'))

end Flag

/-- **The flag**: after every call of `compressPacket`, in every sequence of calls, it tells the truth exactly when each
call of `compressPacket` finds a zlib that ends the stream of an unmarked packet's bytes in the first window, and in a
marked packet what the compression left. -/
theorem truthfulAlong_iff {inflates : Bytes → Bytes → Prop} (calls : List Call) (t : Tracked)
    (hz : ∀ call ∈ calls, call.Deflates inflates) : TruthfulAlong inflates calls t ↔ MeetsAlong inflates calls t := by
  refine truthfully_iff _ (fun op hop p z hcompresses => ?_) t
  obtain ⟨call, hcall, hop⟩ := List.mem_flatMap.mp hop
  exact hz call hcall z (Call.zlib_of_operation hop hcompresses)

/-- A status of forty spaces, framed; `sendPacket` is going to serialize it again. -/
def blankStatus : Tracked where
  packet := ⟨0, [2, 0, 0], false, .serverStatus ⟨List.replicate 40 0x20⟩⟩
  held := [2, 0, 0]
  uncompressed _ := rfl

/-- The zlib stream of its bytes; of other data, only the first byte is that of a stream. -/
def blankStream (data : Bytes) : Bytes :=
  if data = 0 :: 40 :: List.replicate 40 0x20 then [0x78, 0x9c, 0x63, 0xd0, 0x50, 0x20, 0x12, 0x00, 0x6d,
    0x12, 0x05, 0x29]
  else 0x78 :: data

theorem blankStream_ne_nil (data : Bytes) : blankStream data ≠ [] := by
  unfold blankStream
  split_ifs <;> simp

/-- Sent twice, the second time framed in between. -/
def blankSends : List Call :=
  [.sendPacket (.encoding blankStream) .clientBound 16, .framePacket,
    .sendPacket (.encoding blankStream) .clientBound 16]

theorem blankSends_deflate : ∀ call ∈ blankSends, call.Deflates fun stream data => stream = blankStream data := by
  intro call hcall z hz
  have hzlib : z = .encoding blankStream := by
    fin_cases hcall <;> cases hz <;> rfl
  subst hzlib
  exact ⟨_, Zlib.encoding_deflates blankStream_ne_nil⟩

section Blank

variable {ops : List Operation} {t : Tracked}

theorem meeting_framePacket (hsame : blankStatus.packet.SameContent t.packet)
    (h : ∀ t' : Tracked, blankStatus.packet.SameContent t'.packet →
      Meeting (fun stream data => stream = blankStream data) ops t') :
    Meeting (fun stream data => stream = blankStream data) (.framePacket :: ops) t := by
  refine ⟨fun z hz => (by cases hz), ?_⟩
  rintro p' ⟨fuel, hrun⟩
  exact h _ (Exec.wp.of_ok (Q := fun _ => blankStatus.packet.SameContent)
    (Exec.Keeps.wp_after hsame (onRawPayload_keeps _)) hrun)

/-- A compression that follows `serializePacket` finds the packet unmarked, and a stream that fits the window. -/
theorem meeting_blank (hsame : blankStatus.packet.SameContent t.packet)
    (h : ∀ t' : Tracked, blankStatus.packet.SameContent t'.packet →
      Meeting (fun stream data => stream = blankStream data) ops t') :
    Meeting (fun stream data => stream = blankStream data)
      (.serializePacket .clientBound :: .compressIfLargerThan (.encoding blankStream) 16 :: ops) t := by
  refine ⟨fun z hz => (by cases hz), ?_⟩
  rintro p' ⟨fuel, hrun⟩
  cases hrun
  have hserialized : t.packet.serializePacket .clientBound = blankStatus.packet.serializePacket .clientBound := by
    rw [Packet.serializePacket, hsame.1, hsame.2]
    rfl
  generalize hafter : t.after (t.packet.serializePacket .clientBound) = t'
  have hpacket : t'.packet = blankStatus.packet.serializePacket .clientBound := by rw [← hserialized, ← hafter]; rfl
  have hfits : (blankStream (blankStatus.packet.serialized .clientBound)).length ≤
    (blankStatus.packet.serialized .clientBound).length := by
    decide
  refine ⟨fun z hz => ?_, ?_⟩
  · rw [hpacket] at hz ⊢
    cases hz
    have hcompresses := (compresses_encoding_iff blankStream_ne_nil (by decide)).mpr ⟨by decide, hfits⟩
    obtain ⟨hne, hends⟩ := (compresses_iff_of_init (Zlib.encoding_deflates blankStream_ne_nil) rfl
      (by decide)).mp hcompresses
    exact ⟨_, rfl, hne, by decide, hends⟩
  · rintro p' ⟨fuel, hrun⟩
    have hsame' : blankStatus.packet.SameContent t'.packet := by
      rw [hpacket]
      exact ⟨rfl, rfl⟩
    exact h _ (Exec.wp.of_ok (Q := fun _ => blankStatus.packet.SameContent)
      (Exec.Keeps.wp_after hsame' compressIfLargerThan_keeps) hrun)

end Blank

theorem truthfulAlong_blankSends :
    (∀ call ∈ blankSends, call.Deflates fun stream data => stream = blankStream data) ∧
      TruthfulAlong (fun stream data => stream = blankStream data) blankSends blankStatus :=
  ⟨blankSends_deflate, (truthfulAlong_iff blankSends blankStatus blankSends_deflate).mpr
    (meeting_blank (refl _) fun _ h => meeting_framePacket h fun _ h => meeting_framePacket h fun _ h =>
      meeting_blank h fun _ h => meeting_framePacket h fun _ _ => trivial)⟩

/-- `Zlib.encoding`, when it cannot allocate a stream. -/
def Zlib.outOfMemory (encode : Bytes → Bytes) : Zlib := { Zlib.encoding encode with deflateInit := none }

theorem Zlib.outOfMemory_deflates {encode : Bytes → Bytes} (hne : ∀ data, encode data ≠ []) :
    Deflates (.outOfMemory encode) (fun stream data => stream = encode data) (fun stream taken given => stream =
      (taken, given)) :=
  have h := Zlib.encoding_deflates hne
  ⟨h.progresses, h.not_empty, fun _ hinit => (nomatch hinit), h.goes, h.ends⟩

def zerosPacket : Tracked :=
  ⟨⟨0, List.replicate 32 0, false, .serverStatus .new⟩, List.replicate 32 0, fun _ => rfl⟩

/-- Two attempts, for the first of which there is no memory. -/
def twoAttempts : List Call := [.compressPacket (.outOfMemory sampleStream), .compressPacket (.encoding sampleStream)]

theorem twoAttempts_deflate : ∀ call ∈ twoAttempts, call.Deflates fun stream data => stream = sampleStream data := by
  rintro call hcall z hz
  rcases List.mem_pair.mp hcall with rfl | rfl
  · cases hz
    exact ⟨_, Zlib.outOfMemory_deflates sampleStream_ne_nil⟩
  · cases hz
    exact ⟨_, Zlib.encoding_deflates sampleStream_ne_nil⟩

/-- After the first attempt the zeros are marked as compressed, and the second does nothing. -/
theorem failed_attempt_marks :
    ¬ ∀ (inflates : Bytes → Bytes → Prop) (calls : List Call) (t : Tracked), (∀ call ∈ calls, call.Deflates inflates) →
      TruthfulAlong inflates calls t := by
  intro h
  obtain ⟨hfirst, -⟩ := h _ twoAttempts zerosPacket twoAttempts_deflate
  have hattempt := hfirst (.outOfMemory sampleStream) rfl
  obtain ⟨stream, hinit, -⟩ := (tellsTruth_unmarked (Zlib.outOfMemory_deflates sampleStream_ne_nil) rfl).mp hattempt
  cases hinit

end CeriosCluster.MCPacket
