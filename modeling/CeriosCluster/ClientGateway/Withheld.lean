import CeriosCluster.ClientGateway.Decryption
import CeriosCluster.ClientGateway.Frames

/-!
# Ciphertext that is withheld

The cipher of a connection works byte by byte, but `onLengthReceive` decrypts whole blocks of sixteen bytes: of a
frame that arrives alone, what is left over by the last block waits for the next chunk.
-/

namespace CeriosCluster.ClientGateway

open CeriosCluster.Lib CeriosCluster.MCPacket

/-- The bytes are one frame: its length, and all of `frame`, which starts with a complete number. -/
def IsFrame (bytes frame : Bytes) : Prop := nextFrame bytes = some (some frame, []) ∧ HoldsId frame

instance (bytes frame : Bytes) : Decidable (IsFrame bytes frame) := inferInstanceAs (Decidable (_ ∧ _))

/-- The parser is called on the frame, and unless the connection compresses, the class registered for its id on the rest
of it. -/
def HandsOn (E : Env) (w : World) (c : Client) (frame : Bytes) : Prop :=
  parseReceived E w c.state (0 ≤ c.compressionThreshold.toInt) c.buffer =
      parsePacket E.zlib E.fuel .serverBound frame.length c.state w.ambient
        (0 ≤ c.compressionThreshold.toInt) true frame ∧
    (c.compressionThreshold.toInt < 0 → ∀ size id packetClass, scanVarInt frame = some ⟨size, id⟩ →
      lookupClass .serverBound c.state id = some packetClass →
        parseReceived E w c.state (0 ≤ c.compressionThreshold.toInt) c.buffer =
          (packetClass.parsePacket .serverBound w.ambient ⟨id, frame.drop size⟩ >>= fun p => pure (some p) :
            BufferM (Option Packet)) [])

/-- The call decrypts all of `bytes`, and parses `frame`. -/
def DecryptsAndParses (E : Env) (w : World) (i : ConnId) (g : Gateway) (c : Client) (data bytes frame : Bytes) : Prop :=
  ∃ g' c', appendReceived E i data g = .ok () g' ∧ Live g' i c' ∧ c'.cleartext = c.cleartext ++ bytes ∧
    onLengthReceive E w i false data g = parseAndHandle E w i g' ∧ HandsOn E w c' frame

section Frames

variable {E : Env} {w : World} {decryptByte : Block 16 → Bytes → Byte → Byte} {i : ConnId} {g : Gateway} {c : Client}
  {context : CipherContext} {data bytes frame : Bytes}

/-- The parser takes the length off a frame that is alone in the buffer. -/
theorem parseReceived_of_isFrame (h : IsFrame bytes frame) (state : ClientState) (compressed : Bool) :
    parseReceived E w state compressed bytes =
      parsePacket E.zlib E.fuel .serverBound frame.length state w.ambient compressed true frame := by
  obtain ⟨hnext, -⟩ := h
  obtain ⟨r, hscan, hcomplete⟩ := scanVarInt_of_nextFrame hnext
  have hframe := nextFrame_of_scan hscan hcomplete
  rw [hnext] at hframe
  split at hframe
  · next hnonneg =>
    obtain ⟨hframe, hrest⟩ := Prod.mk.inj (Option.some.inj hframe)
    have hall := List.drop_eq_nil_iff.mp hrest.symm
    rw [List.take_of_length_le hall] at hframe
    obtain rfl := Option.some.inj hframe
    have hlength : (bytes.drop r.size).length = asSize r.value := by
      have hle := completeLength_nonneg hscan hnonneg hcomplete
      rw [List.length_drop] at hall ⊢
      omega
    have hread : readVarIntFromBuffer false bytes = .ok r bytes := readVarIntFromBuffer_eq_ok.mpr ⟨hscan, rfl⟩
    unfold parseReceived
    rw [Exec.run_bind_ok hread, Exec.run_bind_ok (Exec.run_get bytes), if_pos hcomplete,
      Exec.run_bind_ok (Exec.run_set _ bytes), hlength]
  · cases hframe

theorem handsOn_of_isFrame (h : IsFrame c.buffer frame) : HandsOn E w c frame := by
  refine ⟨parseReceived_of_isFrame h _ _, fun hplain size id packetClass hid hclass => ?_⟩
  obtain ⟨size', id', hsize, hscan⟩ := h.2
  obtain ⟨rfl, rfl⟩ : size' = size ∧ id' = id := by
    have heq := Option.some.inj (hscan.symm.trans hid)
    exact ⟨congrArg VarIntRead.size heq, congrArg VarIntRead.value heq⟩
  have hread : readPacket E.zlib E.fuel frame.length false true (frame ++ []) = .ok (some ⟨id', frame.drop size'⟩) [] :=
    readPacket_of_complete hscan hsize
  rw [List.append_nil] at hread
  rw [parseReceived_of_isFrame h, decide_eq_false (Int.not_le.mpr hplain), parsePacket_of_ok hread, instantiateFromData,
    hclass]

theorem length_ciphertextOf_nil (hempty : c.encryptedBuffer = []) (data : Bytes) :
    (ciphertextOf c data).length = 16 * (data.length / 16) := by
  rw [length_ciphertextOf, hempty, List.nil_append]

theorem cleartext_decrypted (cleartext : Bytes) :
    (c.decrypted data context cleartext).cleartext = c.cleartext ++ cleartext := by
  unfold Client.decrypted Client.cleartext
  rw [List.flatMap_append]
  simp

/-- The call decrypts as many blocks as the chunk has. -/
theorem appendReceived_blocks (hE : StreamCipher E decryptByte) (h : Live g i c) (hencrypted : c.encrypted = true)
    (hcontext : c.decryptCipherContext = some context) (hlength : (ciphertextOf c data).length < 2 ^ 31) :
    ∃ g', appendReceived E i data g = .ok () g' ∧
      Live g' i (c.decrypted data context
        (transduce (decryptByte context.key) context.processed (ciphertextOf c data))) := by
  obtain ⟨cleartext, hupdate, hcleartext⟩ := Option.map_eq_some_iff.mp (hE context (ciphertextOf c data))
  obtain ⟨g', hrun, hl⟩ := run_appendDecrypted_ok h hcontext hlength hupdate
  refine ⟨g', ?_, hcleartext ▸ hl⟩
  unfold appendReceived
  rw [Exec.run_bind_ok (run_client h), if_pos hencrypted, hrun]

theorem decryptsAndParses_of_blocks (hE : StreamCipher E decryptByte) (h : Live g i c) (halive : c.alive = true)
    (hencrypted : c.encrypted = true) (hbuffer : c.buffer = []) (hempty : c.encryptedBuffer = [])
    (hcontext : c.decryptCipherContext = some context)
    (hdata : transduce (decryptByte context.key) context.processed data = bytes) (hframe : IsFrame bytes frame)
    (hblocks : bytes.length % 16 = 0) (hlength : bytes.length < 2 ^ 31) :
      DecryptsAndParses E w i g c data bytes frame := by
  have hsize : data.length = bytes.length := by rw [← hdata, length_transduce]
  have hall : ciphertextOf c data = data := by
    have hprefix := ciphertextOf_prefix c data
    rw [hempty, List.nil_append] at hprefix
    refine hprefix.eq_of_length ?_
    rw [length_ciphertextOf_nil hempty]
    omega
  have hwhole : (ciphertextOf c data).length < 2 ^ 31 := by
    rw [hall]
    omega
  obtain ⟨g', hrun, hl⟩ := appendReceived_blocks hE h hencrypted hcontext hwhole
  rw [hall, hdata] at hl
  refine ⟨g', _, hrun, hl, ?_, ?_, handsOn_of_isFrame ?_⟩
  · exact cleartext_decrypted bytes
  · rw [onLengthReceive_live h halive, Exec.run_bind_ok hrun]
  · show IsFrame (c.buffer ++ bytes) frame
    rwa [hbuffer]

theorem blocks_of_decryptsAndParses (hE : StreamCipher E decryptByte) (h : Live g i c) (hencrypted : c.encrypted = true)
    (hempty : c.encryptedBuffer = []) (hcontext : c.decryptCipherContext = some context)
    (hparses : DecryptsAndParses E w i g c data bytes frame) : bytes.length % 16 = 0 ∧ bytes.length < 2 ^ 31 := by
  obtain ⟨g', c', hrun, hl, hcleartext, -⟩ := hparses
  have hblocks := length_ciphertextOf_nil hempty data
  by_cases hlength : (ciphertextOf c data).length < 2 ^ 31
  · obtain ⟨g₁, hrun₁, hl₁⟩ := appendReceived_blocks hE h hencrypted hcontext hlength
    obtain ⟨-, rfl⟩ := Res.ok.inj (hrun.symm.trans hrun₁)
    obtain rfl := Option.some.inj (hl.1.symm.trans hl₁.1)
    rw [cleartext_decrypted] at hcleartext
    have hwhole := congrArg List.length (List.append_cancel_left hcleartext)
    rw [length_transduce] at hwhole
    omega
  · have hundefined : appendReceived E i data g = .undefined :=
      appendReceived_undefined h fun hdefined => hlength (hdefined hencrypted).2
    exact absurd (hrun.symm.trans hundefined) (by simp)

end Frames

/-- **Withheld ciphertext.** A frame whose encryption arrives in one chunk is decrypted and parsed at once exactly when
its length is a multiple of sixteen, and one that an `int` holds. -/
theorem decryptsAndParses_iff (E : Env) (decryptByte : Block 16 → Bytes → Byte → Byte) (hE : StreamCipher E decryptByte)
    (w : World) (i : ConnId) (g : Gateway) (c : Client) (context : CipherContext) (data bytes frame : Bytes)
    (h : Live g i c)
    (halive : c.alive = true) (hencrypted : c.encrypted = true) (hbuffer : c.buffer = [])
    (hempty : c.encryptedBuffer = []) (hcontext : c.decryptCipherContext = some context)
    (hdata : transduce (decryptByte context.key) context.processed data = bytes) (hframe : IsFrame bytes frame) :
    DecryptsAndParses E w i g c data bytes frame ↔ bytes.length % 16 = 0 ∧ bytes.length < 2 ^ 31 :=
  ⟨blocks_of_decryptsAndParses hE h hencrypted hempty hcontext, fun ⟨hblocks, hlength⟩ =>
    decryptsAndParses_of_blocks hE h halive hencrypted hbuffer hempty hcontext hdata hframe hblocks hlength⟩

/-! ## Two frames of a player -/

theorem live_playing : Live playingGateway 0 playing := ⟨rfl, rfl⟩

def encryptedFirst (key : Block 16) (bytes : Bytes) : Bytes := transduce (addKeystream key) [] bytes

/-- A chat message of sixteen bytes in all. -/
def chatFrame : Bytes := [15, 1, 13] ++ ascii "\x7b\"text\":\"Hi\"\x7d"

theorem isFrame_chatFrame : IsFrame chatFrame (chatFrame.drop 1) := by decide

/-- An answer to a `KeepAlivePacket`. -/
def keepAliveFrame : Bytes := [2, 0, 5]

theorem isFrame_keepAliveFrame : IsFrame keepAliveFrame [0, 5] := by decide

theorem decryptsAndParses_chatFrame :
    DecryptsAndParses .cfb8 .plain 0 playingGateway playing
      (encryptedFirst ⟨List.replicate 16 5, rfl⟩ chatFrame) chatFrame
      (chatFrame.drop 1) :=
  (decryptsAndParses_iff .cfb8 addKeystream streamCipher_cfb8 .plain 0 playingGateway playing
    ⟨⟨List.replicate 16 5, rfl⟩, []⟩
    (encryptedFirst ⟨List.replicate 16 5, rfl⟩ chatFrame) chatFrame (chatFrame.drop 1) live_playing rfl rfl rfl rfl rfl
    (by decide)
    isFrame_chatFrame).mpr (by decide)

/-- The three bytes of an answer are less than a block. -/
theorem keepAlive_is_withheld :
    ¬ ∀ (E : Env) (decryptByte : Block 16 → Bytes → Byte → Byte), StreamCipher E decryptByte →
      ∀ (w : World) (i : ConnId) (g : Gateway) (c : Client) (context : CipherContext) (data bytes frame : Bytes),
        Live g i c →
        c.alive = true → c.encrypted = true → c.buffer = [] → c.encryptedBuffer = [] →
          c.decryptCipherContext = some context →
          transduce (decryptByte context.key) context.processed data = bytes → IsFrame bytes frame →
            DecryptsAndParses E w i g c data bytes frame := by
  intro h
  have hdata : transduce (addKeystream ⟨List.replicate 16 5, rfl⟩) []
    (encryptedFirst ⟨List.replicate 16 5, rfl⟩ keepAliveFrame) =
      keepAliveFrame := by decide
  have hparses := h .cfb8 addKeystream streamCipher_cfb8 .plain 0 playingGateway playing 
    ⟨⟨List.replicate 16 5, rfl⟩, []⟩ _ _ _ live_playing rfl rfl rfl rfl rfl hdata isFrame_keepAliveFrame
  obtain ⟨hblocks, -⟩ := blocks_of_decryptsAndParses streamCipher_cfb8 live_playing rfl rfl rfl hparses
  exact absurd hblocks (by decide)

end CeriosCluster.ClientGateway
