import CeriosCluster.ClientGateway.Decryption
import CeriosCluster.ClientGateway.Delivery
import CeriosCluster.ClientGateway.Frames
import Mathlib.Data.Set.List

/-!
# What is handed to `async_write`

Everything that a live connection gives to `sendData` is one frame, and what goes to `async_write` is that, as it is or
encrypted in one run. So the buffers of its writes, one after the other and with the bytes they had when the writes were
called, split into frames as the gateway's own reader splits them, once they are decrypted from where the encryption
begins: the contents are those that were sent, in order, and nothing is left over. Whether the socket gets the bytes so
is another matter: `WriteQueue` says when.
-/

namespace CeriosCluster.ClientGateway

open CeriosCluster.Lib CeriosCluster.MCPacket

/-- The cipher encrypts byte by byte: what it gives for a byte depends on the key and the bytes before it. -/
def EncryptsByByte (E : Env) (encryptByte : Block 16 → Bytes → Byte → Byte) : Prop :=
  ∀ context input, (E.cipher.encryptUpdate context input).map (·.val) =
    some (transduce (encryptByte context.key) context.processed input)

def Action.asyncWritten : Action → Bytes
  | .write _ bytes => bytes
  | _ => []

/-- The bytes of the buffers that were handed to `async_write`, as they were when it was called. -/
def asyncWritten (log : List Action) : Bytes := log.flatMap Action.asyncWritten

def dataSent (log : List Action) : List Bytes := log.filterMap Action.dataSent

def Action.agreesOnKey : Action → Bool
  | .tokenMatched _ _ => true
  | _ => false

/-- What a piece of a log hands over: frames, as they are or encrypted. -/
structure HandsFrames (E : Env) (l : Line) (as : List Action) (l' : Line) : Prop where
  framed : ∀ data ∈ dataSent as, ∃ b, frame b = some data
  clear : l'.encrypted = false → l.encrypted = false ∧ asyncWritten as = (dataSent as).flatten
  ciphered : ∀ encryptByte context, EncryptsByByte E encryptByte → l.encrypted = true → l.context = some context →
    as.any Action.agreesOnKey = false →
    l'.encrypted = true ∧ l'.context = some { context with processed := context.processed ++ (dataSent as).flatten } ∧
      asyncWritten as = transduce (encryptByte context.key) context.processed (dataSent as).flatten

section Hands

variable {E : Env} {l l' l'' : Line} {as bs : List Action} {p : Packet} {data payload : Bytes} {a : Ambient}
  {ids : List Word}

@[simp] theorem asyncWritten_append : asyncWritten (as ++ bs) = asyncWritten as ++ asyncWritten bs :=
  List.flatMap_append

@[simp] theorem dataSent_append : dataSent (as ++ bs) = dataSent as ++ dataSent bs := List.filterMap_append

theorem HandsFrames.append (h : HandsFrames E l as l') (h' : HandsFrames E l' bs l'') :
    HandsFrames E l (as ++ bs) l'' where
  framed := fun data hdata => by
    rw [dataSent_append, List.mem_append] at hdata
    exact hdata.elim (h.framed data) (h'.framed data)
  clear := fun hclear => by
    obtain ⟨hclear', hwritten'⟩ := h'.clear hclear
    obtain ⟨hclear, hwritten⟩ := h.clear hclear'
    exact ⟨hclear, by rw [asyncWritten_append, dataSent_append, List.flatten_append, hwritten, hwritten']⟩
  ciphered := fun encryptByte context hE hencrypted hcontext hkey => by
    rw [List.any_append, Bool.or_eq_false_iff] at hkey
    obtain ⟨hencrypted, hcontext, hwritten⟩ := h.ciphered encryptByte context hE hencrypted hcontext hkey.1
    obtain ⟨hencrypted, hcontext, hwritten'⟩ := h'.ciphered encryptByte _ hE hencrypted hcontext hkey.2
    refine ⟨hencrypted, ?_, ?_⟩
    · rw [hcontext, dataSent_append, List.flatten_append, List.append_assoc]
    · rw [asyncWritten_append, dataSent_append, List.flatten_append, transduce_append, hwritten, hwritten']

theorem HandsFrames.congr (h : HandsFrames E l as l') (hencrypted : l''.encrypted = l'.encrypted)
    (hcontext : l''.context = l'.context) :
    HandsFrames E l as l'' where
  framed := h.framed
  clear := by
    rw [hencrypted]
    exact h.clear
  ciphered := by
    rw [hencrypted, hcontext]
    exact h.ciphered

theorem HandsFrames.quiet (hdata : dataSent as = []) (hwritten : asyncWritten as = [])
    (hclear : l'.encrypted = false → l.encrypted = false)
    (hsame : l.encrypted = true → as.any Action.agreesOnKey = false → l'.encrypted = true ∧ l'.context = l.context) :
      HandsFrames E l as l' where
  framed := fun data h => by simp [hdata] at h
  clear := fun h => ⟨hclear h, by rw [hwritten, hdata]; rfl⟩
  ciphered := fun encryptByte context _ hencrypted hcontext hkey => by
    obtain ⟨hencrypted, hsame⟩ := hsame hencrypted hkey
    refine ⟨hencrypted, ?_, by rw [hwritten, hdata]; rfl⟩
    rw [hsame, hcontext, hdata, List.flatten_nil, List.append_nil]

theorem HandsFrames.silent (hdata : dataSent as = []) (hwritten : asyncWritten as = [])
    (hencrypted : l'.encrypted = l.encrypted) (hcontext : l'.context = l.context) : HandsFrames E l as l' :=
  .quiet hdata hwritten (fun h => hencrypted.symm.trans h) fun h _ => ⟨hencrypted.trans h, hcontext⟩

theorem EncryptsByByte.never_fails {encryptByte : Block 16 → Bytes → Byte → Byte} {context : CipherContext}
    (hE : EncryptsByByte E encryptByte) : E.cipher.encryptUpdate context data ≠ none := by
  intro hupdate
  have hbytes := hE context data
  rw [hupdate] at hbytes
  cases hbytes

theorem dataSent_carried {encrypted : Bool} {vector : SendVector} {bytes : Bytes} :
    dataSent [.sendData data encrypted, .write vector bytes] = [data] := rfl

theorem asyncWritten_carried {encrypted : Bool} {vector : SendVector} {bytes : Bytes} :
    asyncWritten [.sendData data encrypted, .write vector bytes] = bytes := by
  simp [asyncWritten, Action.asyncWritten]

theorem handsFrames_carries (hframe : frame payload = some data) (h : Line.Carries E data l as l') :
    HandsFrames E l as l' := by
  have hframed : ∀ d ∈ [data], ∃ b, frame b = some d := fun d hd => ⟨payload, by rw [hframe, List.mem_singleton.mp hd]⟩
  cases h with
  | clear hclear =>
    refine ⟨hframed, fun _ => ⟨hclear, ?_⟩, fun _ _ _ hencrypted => ?_⟩
    · rw [asyncWritten_carried, dataSent_carried, List.flatten_singleton]
    · rw [hclear] at hencrypted
      cases hencrypted
  | encrypted hencrypted hcontext hupdate =>
    refine ⟨hframed, fun hclear => ?_, fun encryptByte context hE _ hcontext' _ => ?_⟩
    · rw [Line.advance, hencrypted] at hclear
      cases hclear
    · obtain rfl := Option.some.inj (hcontext'.symm.trans hcontext)
      have hbytes := hE context data
      rw [hupdate] at hbytes
      rw [dataSent_carried, List.flatten_singleton, asyncWritten_carried]
      exact ⟨hencrypted, rfl, Option.some.inj hbytes⟩
  | failed hencrypted hcontext hupdate =>
    refine ⟨hframed, fun hclear => ?_, fun encryptByte context hE _ _ _ => ?_⟩
    · rw [hencrypted] at hclear
      cases hclear
    · exact absurd hupdate hE.never_fails

theorem handsFrames_sends (h : Line.Sends E p l as l') : HandsFrames E l as l' := by
  obtain ⟨hframe, hcarries⟩ := h
  have hsent : HandsFrames E l [.sendPacket p] l := .silent rfl rfl rfl rfl
  exact hsent.append (handsFrames_carries hframe hcarries)

theorem handsFrames_sendsFresh (h : Line.SendsFresh E a ids l as l') : HandsFrames E l as l' := by
  induction h with
  | nil l => exact .silent rfl rfl rfl rfl
  | cons hp hsends hrest ih => exact (handsFrames_sends hsends).append ih

theorem handsFrames_turn (h : Line.Turn E l as l') : HandsFrames E l as l' := by
  have hlogin {l : Line} : HandsFrames E l [.onPlayerLogin] l := .silent rfl rfl rfl rfl
  cases h with
  | hears bytes | ignores hother | handshake hp hstate | refuses hstate hp hlarge | expires hwaits =>
    exact .silent rfl rfl rfl rfl
  | answers hstate hp hsends | asks hstate hp hsends | keepsAlive hstate hwaits hp hsends =>
    exact handsFrames_sends hsends
  | agrees key hstate htoken => exact .quiet rfl rfl id fun _ hkey => absurd hkey (by simp [Action.agreesOnKey])
  | encrypts sharedSecret decryptContext hkey hstate => exact .quiet rfl rfl (fun h => by cases h) fun _ _ => ⟨rfl, rfl⟩
  | admits hstate hp hsends => exact (hlogin.append (handsFrames_sends hsends)).congr rfl rfl
  | joins hstate hp howner hsends hjoin =>
    have hjoins := handsFrames_sendsFresh hjoin
    exact hlogin.append ((handsFrames_sends hsends).append ⟨hjoins.framed, hjoins.clear, hjoins.ciphered⟩)

theorem handsFrames_talks (h : Line.Talks E l as l') : HandsFrames E l as l' := by
  cases h with
  | speaks h => exact handsFrames_turn h
  | relays payload h =>
    obtain ⟨-, hframe, hcarries⟩ := h
    exact handsFrames_carries hframe hcarries

/-- **A whole conversation.** -/
theorem handsFrames_history (h : History (Line.Talks E) l as l') : HandsFrames E l as l' :=
  h.collects (R := HandsFrames E) (fun _ => .silent rfl rfl rfl rfl) (fun _ _ _ _ _ => HandsFrames.append) fun _ _ _ =>
    handsFrames_talks

end Hands

/-! ## Frames -/

theorem nextFrame_frame {b framed : Bytes} (hframe : frame b = some framed) (hmax : framed.length ≤ maxSize)
    (x : Bytes) :
    nextFrame (framed ++ x) = some (some b, x) := by
  have hfits : FitsFrame b.length := by
    by_contra hlarge
    rw [frame_large hlarge] at hframe
    cases hframe
  rw [frame_fits hfits] at hframe
  obtain rfl := Option.some.inj hframe
  have hlength : b.length < 2 ^ 21 := by
    rw [List.length_append] at hmax
    unfold maxSize at hmax
    exact (fitsFrame_iff (by omega)).mp hfits
  have hvalue := toInt_ofNat_size (show b.length < 2 ^ 31 by omega)
  have hsize : asSize (BitVec.ofNat 32 b.length) = b.length := by
    rw [asSize_of_nonneg (by omega), BitVec.toNat_ofNat]
    omega
  rw [List.append_assoc]
  have hscan := scanVarInt_write (BitVec.ofNat 32 b.length) (b ++ x)
  have hcomplete : completeLength (writeVarIntToBuffer (BitVec.ofNat 32 b.length) ++ (b ++ x))
      ⟨(writeVarIntToBuffer (BitVec.ofNat 32 b.length)).length, BitVec.ofNat 32 b.length⟩ := by
    refine ⟨length_writeVarIntToBuffer_pos _, ?_⟩
    have hprefix := length_writeVarIntToBuffer_le (BitVec.ofNat 32 b.length)
    simp only [hsize, List.length_append]
    omega
  rw [nextFrame_of_scan hscan hcomplete]
  dsimp only
  rw [if_pos (by omega), hsize, List.drop_left, List.take_left, List.drop_left]

/-- What is in a frame, as the gateway's own reader takes it apart. -/
theorem frames_of_framed {datas : List Bytes} (hframed : ∀ data ∈ datas, ∃ b, frame b = some data)
    (hmax : ∀ data ∈ datas, data.length ≤ maxSize) :
    ∃ contents : List Bytes, contents.map frame = datas.map some ∧ framing.frames datas.flatten = contents.map some ∧
      framing.rest datas.flatten = [] := by
  have hcontents : datas.map some ∈ Set.range (List.map frame) := by
    rw [Set.range_list_map]
    intro d hd
    obtain ⟨data, hdata, rfl⟩ := List.mem_map.mp hd
    exact hframed data hdata
  obtain ⟨contents, hcontents⟩ := hcontents
  have hencode : ∀ f ∈ contents.map some, ∀ x, framing.next ((f.bind frame).getD [] ++ x) = some (f, x) := by
    intro f hf x
    obtain ⟨b, hb, rfl⟩ := List.mem_map.mp hf
    have hmem : frame b ∈ datas.map some := hcontents ▸ List.mem_map_of_mem hb
    obtain ⟨data, hdata, hframe⟩ := List.mem_map.mp hmem
    show nextFrame ((frame b).getD [] ++ x) = some (some b, x)
    rw [← hframe]
    exact nextFrame_frame hframe.symm (hmax data hdata) x
  have hstream : ((contents.map some).map fun f => (f.bind frame).getD []) = datas := by
    calc (contents.map some).map (fun f => (f.bind frame).getD [])
        = (contents.map frame).map (·.getD []) := by simp
      _ = datas := by rw [hcontents]; simp
  have hsplit := framing.frames_flatten hencode []
  have hnil : framing.next [] = none := nextFrame_nil
  rw [hstream, List.append_nil, Framing.frames_of_none hnil, Framing.rest_of_none hnil, List.append_nil] at hsplit
  exact ⟨contents, hcontents, hsplit⟩

/-! ## Runs -/

section Runs

variable {E : Env} {i : ConnId} {g g' : Gateway} {c c' : Client} {run es : List (World × Event)}

/-- **Clear text.** What a live connection has handed to `async_write` so far, as long as it is not encrypted, falls
into frames without a rest, and these are what `sendData` was called with, in order. -/
theorem asyncWritten_clear (E : Env) (run : List (World × Event)) (g : Gateway) (i : ConnId) (c : Client)
    (hrun : runFrom (step E) Gateway.init run = some g) (hc : g.objects[i]? = some c) (honline : c.OnLine)
    (hclear : c.encrypted = false) (hmax : ∀ data ∈ c.sent, data.length ≤ maxSize) :
    ∃ contents : List Bytes, contents.map frame = c.sent.map some ∧
      framing.frames (asyncWritten c.log) = contents.map some ∧ framing.rest (asyncWritten c.log) = [] := by
  have hhands := handsFrames_history ((allStates_told E run).last hrun i c hc honline)
  rw [(hhands.clear hclear).2]
  exact frames_of_framed hhands.framed hmax

/-- **Encryption.** What an encrypted connection hands to `async_write`, until it agrees on a new key, is decrypted from
where its cipher context stands to frames without a rest, and these are what `sendData` was called with, in order. -/
theorem asyncWritten_encrypted (E : Env) (encryptByte decryptByte : Block 16 → Bytes → Byte → Byte)
    (hE : EncryptsByByte E encryptByte)
    (hinv : ∀ key, Inverts (encryptByte key) (decryptByte key)) (run es : List (World × Event)) (g g' : Gateway)
    (i : ConnId) (c c' : Client) (context : CipherContext) (as : List Action)
    (hrun : runFrom (step E) Gateway.init run = some g)
    (hes : runFrom (step E) g es = some g') (hc : g.objects[i]? = some c) (hc' : g'.objects[i]? = some c')
    (honline : c'.OnLine) (hencrypted : c.encrypted = true) (hcontext : c.encryptCipherContext = some context)
    (hlog : c'.log = c.log ++ as) (hkey : as.any Action.agreesOnKey = false)
    (hmax : ∀ data ∈ dataSent as, data.length ≤ maxSize) :
    ∃ contents : List Bytes, contents.map frame = (dataSent as).map some ∧
      let cleartext := transduce (decryptByte context.key) (transduce (encryptByte context.key) [] context.processed)
        (asyncWritten as)
      framing.frames cleartext = contents.map some ∧ framing.rest cleartext = [] := by
  obtain ⟨-, as', hlog', htalks⟩ := continues_along ((allStates_usual E run).last hrun) hes hc hc' honline
  obtain rfl : as = as' := List.append_cancel_left (hlog.symm.trans hlog')
  have hhands := handsFrames_history htalks
  obtain ⟨-, -, hwritten⟩ := hhands.ciphered encryptByte context hE hencrypted hcontext hkey
  obtain ⟨contents, hcontents, hframes⟩ := frames_of_framed hhands.framed hmax
  refine ⟨contents, hcontents, ?_⟩
  dsimp only
  rw [hwritten, (hinv context.key).continue]
  exact hframes

/-- The first of two clients asks for the status. -/
theorem asyncWritten_clear_statusReads :
    ∃ g c, runFrom (step .player) Gateway.init (twoAccepted ++ statusReads) = some g ∧ g.objects[0]? = some c ∧
      ∃ contents : List Bytes, contents.map frame = c.sent.map some ∧
        framing.frames (asyncWritten c.log) = contents.map some ∧
        framing.rest (asyncWritten c.log) = [] := by
  have hafter : (clientAfter .player (twoAccepted ++ statusReads) 0).map (fun c =>
      decide (c.freed = false ∧ c.alive = true ∧ c.encrypted = false ∧ ∀ data ∈ c.sent, data.length ≤ maxSize)) =
        some true := by
    decide +kernel
  obtain ⟨c, hclient, hfields⟩ := Option.map_eq_some_iff.mp hafter
  obtain ⟨hfreed, halive, hclear, hmax⟩ := of_decide_eq_true hfields
  obtain ⟨g, hg, hc⟩ := Option.bind_eq_some_iff.mp hclient
  exact ⟨g, c, hg, hc, asyncWritten_clear .player _ g 0 c hg hc ⟨hfreed, halive⟩ hclear hmax⟩

end Runs

/-! ## A player -/

/-- What AES-128 in CFB8 mode adds to what is sent to the player of `oneSecret` and in `keptAlive`, with sixteen bytes
`5` for the key and the initialisation vector. -/
def loginKeystream : Bytes :=
  [29, 10, 44, 39, 127, 224, 94, 240, 83, 10, 223, 195, 80, 90, 163, 44, 232, 125, 243, 130, 126, 223, 222, 43, 193,
    183, 233, 238, 162, 68, 110, 197, 94, 245, 43, 141, 111, 241, 108, 152, 153, 118, 0, 38, 81, 115, 201, 43, 96, 197,
    31, 109, 252, 26, 191, 160, 141, 76, 65, 88, 45, 84, 221, 93, 110, 10, 213, 10, 238, 108, 103, 104, 49, 188, 69,
    139, 186, 58, 48, 78, 12, 88, 76, 136, 254, 9, 191, 130, 30, 32, 224, 215, 137, 217, 198, 221, 23, 226, 175, 208,
    155, 247, 221, 192, 84, 172, 87, 124, 213, 79, 83, 8, 11, 111, 108, 5, 37, 105, 145, 29, 125, 49, 50, 199]

def addLoginKeystream (_key : Block 16) (history : Bytes) (byte : Byte) : Byte :=
  byte ^^^ loginKeystream.getD history.length 0

def Env.encrypting : Env :=
  { Env.player with
    cipher.encryptUpdate := fun context input =>
      some ⟨transduce (addLoginKeystream context.key) context.processed input, length_transduce⟩ }

theorem encryptsByByte_encrypting : EncryptsByByte .encrypting addLoginKeystream := fun _ _ => rfl

theorem inverts_addLoginKeystream (key : Block 16) : Inverts (addLoginKeystream key) (addLoginKeystream key) := by
  have hinv (xs history history' : Bytes) (hlength : history.length = history'.length) :
      transduce (addLoginKeystream key) history' (transduce (addLoginKeystream key) history xs) = xs := by
    induction xs generalizing history history' with
    | nil => rfl
    | cons x xs ih =>
      rw [transduce, transduce, ih _ _ (by simp [hlength])]
      simp [addLoginKeystream, hlength]
  exact fun xs => hinv xs [] [] rfl

def keptAlive : List (World × Event) := plainRun [.keepAlive 0 false false]

/-- A player is kept alive. -/
theorem asyncWritten_encrypted_keptAlive :
    ∃ (g g' : Gateway) (c c' : Client) (context : CipherContext) (as : List Action) (contents : List Bytes),
      runFrom (step .encrypting) Gateway.init oneSecret = some g ∧ runFrom (step .encrypting) g keptAlive = some g' ∧
        g.objects[0]? = some c ∧ g'.objects[0]? = some c' ∧ c.encryptCipherContext = some context ∧
          c'.log = c.log ++ as ∧
          contents.map frame = (dataSent as).map some ∧
            let cleartext := transduce (addLoginKeystream context.key)
              (transduce (addLoginKeystream context.key) [] context.processed) (asyncWritten as)
            framing.frames cleartext = contents.map some ∧ framing.rest cleartext = [] := by
  have hruns : (runFrom (step .encrypting) Gateway.init oneSecret).bind
    (fun g => (runFrom (step .encrypting) g keptAlive).bind fun g' =>
      g.objects[0]?.bind fun c => g'.objects[0]?.map fun c' =>
        decide (c'.freed = false ∧ c'.alive = true ∧ c.encrypted = true ∧ c.encryptCipherContext.isSome ∧
          (c'.log.drop c.log.length).any Action.agreesOnKey = false ∧ ∀ data ∈ dataSent (c'.log.drop c.log.length),
            data.length ≤ maxSize)) = some true := by
    decide +kernel
  obtain ⟨g, hg, hruns⟩ := Option.bind_eq_some_iff.mp hruns
  obtain ⟨g', hg', hruns⟩ := Option.bind_eq_some_iff.mp hruns
  obtain ⟨c, hc, hruns⟩ := Option.bind_eq_some_iff.mp hruns
  obtain ⟨c', hc', hfields⟩ := Option.map_eq_some_iff.mp hruns
  obtain ⟨hfreed, halive, hencrypted, hsome, hkey, hmax⟩ := of_decide_eq_true hfields
  obtain ⟨context, hcontext⟩ := Option.isSome_iff_exists.mp hsome
  have hu := (allStates_usual .encrypting oneSecret).last hg
  obtain ⟨-, as, hlog, -⟩ := continues_along hu hg' hc hc' ⟨hfreed, halive⟩
  rw [hlog, List.drop_left] at hkey hmax
  obtain ⟨contents, hcontents, hread⟩ :=
    asyncWritten_encrypted .encrypting addLoginKeystream addLoginKeystream encryptsByByte_encrypting
    inverts_addLoginKeystream oneSecret keptAlive g g' 0 c c' context as hg hg' hc hc'
      ⟨hfreed, halive⟩ hencrypted hcontext hlog hkey hmax
  exact ⟨g, g', c, c', context, as, contents, hg, hg', hc, hc', hcontext, hlog, hcontents, hread⟩

end CeriosCluster.ClientGateway
