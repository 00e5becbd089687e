import CeriosCluster.ClientGateway.Input
import CeriosCluster.ClientGateway.ReadLoop
import CeriosCluster.Lib.Transducer

/-!
# The decryption of a connection

`onLengthReceive` collects the ciphertext in `encryptedBuffer` and decrypts its whole blocks. It never takes
them off again, so a later call decrypts them a second time: the plaintexts of the calls make up one decryption
of all that has arrived only as long as no call finds a whole block there.
-/

namespace CeriosCluster.ClientGateway

open CeriosCluster.Lib CeriosCluster.MCPacket

/-- The cipher decrypts byte by byte: what it gives for a byte depends on the key and the bytes before it. -/
def StreamCipher (E : Env) (decryptByte : Block 16 → Bytes → Byte → Byte) : Prop :=
  ∀ context input, (E.cipher.decryptUpdate context input).map (·.val) =
    some (transduce (decryptByte context.key) context.processed input)

def arrive (E : Env) (i : ConnId) (g : Gateway) (call : World × Bytes) : Option Gateway := do
  let c ← g.objects[i]?
  if c.alive then (onLengthReceive E call.1 i false call.2).after g else none

def ciphertexts (calls : List (World × Bytes)) : Bytes := calls.flatMap (·.2)

/-- What has been appended to the buffer since `c` is the beginning of one decryption of `ciphertext` with this key,
and less than a block is held back. -/
def DecryptsInOrder (decryptByte : Block 16 → Bytes → Byte → Byte) (key : Block 16) (ciphertext : Bytes)
    (c c' : Client) : Prop :=
  ∃ plaintext, c'.cleartext = c.cleartext ++ plaintext ∧ plaintext <+: transduce (decryptByte key) [] ciphertext ∧
    16 * (ciphertext.length / 16) ≤ plaintext.length

/-- The client has less than a block of ciphertext, and its context decrypts what arrives like a new one with this
key. -/
def DecryptsAfresh (decryptByte : Block 16 → Bytes → Byte → Byte) (key : Block 16) (i : ConnId) (g : Gateway)
    (call : World × Bytes) : Prop :=
  ∀ c context, g.objects[i]? = some c → c.decryptCipherContext = some context → c.encryptedBuffer.length < 16 ∧
    transduce (decryptByte context.key) context.processed (ciphertextOf c call.2) =
      transduce (decryptByte key) [] (ciphertextOf c call.2)

/-! ## One call -/

abbrev CiphertextKept : Gateway → Gateway → Prop := EveryClient fun _ => SameCiphertext

instance : Std.Refl CiphertextKept := ⟨fun _ => ⟨rfl, fun _ c hc => ⟨c, hc, .refl c⟩⟩⟩

instance : IsTrans Gateway CiphertextKept := ⟨fun _ _ _ h h' => h.trans h' fun _ _ _ _ => SameCiphertext.trans⟩

theorem ciphertextKept_modify {g : Gateway} {i : ConnId} {f : Client → Client} (hf : ∀ c, SameCiphertext c (f c)) :
    CiphertextKept g (g.modify i f) :=
  everyClient_modify (fun c _ => hf c) fun _ c _ => .refl c

theorem routine_ciphertextKept : Routine CiphertextKept where
  modify := fun hf _ _ => ciphertextKept_modify fun c => (hf c).toSameCiphertext
  pendingClients := fun _ _ => ⟨rfl, fun _ c hc => ⟨c, hc, .refl c⟩⟩
  insert := fun _ _ _ => ⟨rfl, fun _ c hc => ⟨c, hc, .refl c⟩⟩
  erase := fun _ _ => ⟨rfl, fun _ c hc => ⟨c, hc, .refl c⟩⟩

theorem ciphertextKept_receivedMessage {E : Env} {w : World} {i : ConnId} (packet : Packet) :
    Exec.Keeps CiphertextKept (receivedMessage E w i packet) := by
  obtain ⟨rest, heq, hrest⟩ := routine_ciphertextKept.receivedMessage (E := E) (w := w) (i := i) packet
  rw [heq]
  refine .bind (fun g => ?_) fun _ => hrest
  exact wp_modifyClient.mpr fun _ _ => ciphertextKept_modify fun _ => .received packet

/-- Once the call has appended what it decrypts, it decrypts no more. -/
theorem ciphertextKept_parseAndHandle {E : Env} {w : World} {i : ConnId} :
    Exec.Keeps CiphertextKept (parseAndHandle E w i) := by
  refine .bind Routine.client fun c => .bind (.bind Routine.client fun _ => .zoom (fun g b => ?_) _) fun r => ?_
  · exact ciphertextKept_modify (f := fun c => { c with buffer := b }) fun c => { SameCiphertext.refl c with }
  · cases r with
    | none => exact routine_ciphertextKept.startAsyncRead
    | some packet =>
      refine .bind (.tryCatch ?_ fun _ => .bind routine_ciphertextKept.disconnect fun _ => .pure _) fun _ => ?_
      · exact .bind (ciphertextKept_receivedMessage packet) fun _ => .pure _
      · exact .ite (fun _ => routine_ciphertextKept.startAsyncRead) fun _ => .pure _

section Calls

variable {E : Env} {decryptByte : Block 16 → Bytes → Byte → Byte} {i : ConnId} {g g' : Gateway} {c c' : Client}
  {context : CipherContext} {call : World × Bytes} {calls : List (World × Bytes)} {key : Block 16}

theorem length_ciphertextOf (c : Client) (data : Bytes) :
    (ciphertextOf c data).length = 16 * ((c.encryptedBuffer ++ data).length / 16) := by
  unfold ciphertextOf
  rw [List.length_take, Nat.shiftRight_eq_div_pow, Nat.shiftLeft_eq]
  omega

theorem ciphertextOf_prefix (c : Client) (data : Bytes) : ciphertextOf c data <+: c.encryptedBuffer ++ data :=
  List.take_prefix _ _

/-- A call decrypts the blocks of all that has arrived, and goes on with its context or with a new one. -/
structure Arrives (decryptByte : Block 16 → Bytes → Byte → Byte) (context : CipherContext) (data : Bytes)
    (c c' : Client) : Prop where
  encrypted : c'.encrypted = c.encrypted
  encryptedBuffer : c'.encryptedBuffer = c.encryptedBuffer ++ data
  cleartext : c'.cleartext =
    c.cleartext ++ transduce (decryptByte context.key) context.processed (ciphertextOf c data)
  context : c'.decryptCipherContext = some { context with processed := context.processed ++ ciphertextOf c data } ∨
    ∃ key, c'.decryptCipherContext = some ⟨key, []⟩

theorem arrives_of_arrive (hE : StreamCipher E decryptByte) (hc : g.objects[i]? = some c)
    (hencrypted : c.encrypted = true) (hcontext : c.decryptCipherContext = some context)
    (h : arrive E i g call = some g') :
    ∃ c', g'.objects[i]? = some c' ∧ Arrives decryptByte context call.2 c c' := by
  obtain ⟨d, hd, hafter⟩ := Option.bind_eq_some_iff.mp h
  obtain rfl := Option.some.inj (hc.symm.trans hd)
  obtain ⟨halive, hafter⟩ := Option.ite_none_right_eq_some.mp hafter
  have hwp : Exec.wp (onLengthReceive E call.1 i false call.2)
      (fun _ g' => ∃ c', g'.objects[i]? = some c' ∧ Arrives decryptByte context call.2 c c')
      (fun _ g' => ∃ c', g'.objects[i]? = some c' ∧ Arrives decryptByte context call.2 c c') g := by
    refine wp_client_first ⟨_, rfl⟩ hc fun hl => ?_
    unfold Exec.wp
    rw [onLengthReceive_live hl halive]
    by_cases hlength : (ciphertextOf c call.2).length < 2 ^ 31
    · obtain ⟨cleartext, hupdate, hcleartext⟩ := Option.map_eq_some_iff.mp (hE context (ciphertextOf c call.2))
      obtain ⟨g₁, hrun, hl₁⟩ := run_appendDecrypted_ok hl hcontext hlength hupdate
      have happend : appendReceived E i call.2 g = .ok () g₁ := by
        unfold appendReceived
        rw [Exec.run_bind_ok (run_client hl), if_pos hencrypted, hrun]
      refine (congrArg (Exec.Sat _ _) (Exec.run_bind_ok happend)).mpr ?_
      have hdone : ∀ g', CiphertextKept g₁ g' → ∃ c', g'.objects[i]? = some c' ∧
        Arrives decryptByte context call.2 c c' := by
        intro g' hkept
        obtain ⟨c', hc', hsame⟩ := hkept.2 i _ hl₁.1
        refine ⟨c', hc', hsame.encrypted, hsame.encryptedBuffer, ?_, hsame.context⟩
        rw [hsame.cleartext, ← hcleartext]
        exact cleartext_logged (c := { c with encryptedBuffer := _, decryptCipherContext := _, buffer := _ })
          cleartext.val
      exact Exec.wp_mono (ciphertextKept_parseAndHandle g₁) (fun _ => hdone) fun _ => hdone
    · have hundefined : appendReceived E i call.2 g = .undefined :=
        appendReceived_undefined hl fun hdefined => hlength (hdefined hencrypted).2
      refine (congrArg (Exec.Sat _ _) (Exec.run_bind_undefined hundefined)).mpr trivial
  exact hwp.of_after hafter

/-! ## A run -/

theorem ciphertexts_cons : ciphertexts (call :: calls) = call.2 ++ ciphertexts calls := List.flatMap_cons

/-- What comes out of a call is as long as the blocks it decrypts. -/
theorem Arrives.length_cleartext {data : Bytes} (h : Arrives decryptByte context data c c') :
    c'.cleartext.length = c.cleartext.length + 16 * ((c.encryptedBuffer ++ data).length / 16) := by
  rw [h.cleartext, List.length_append, length_transduce, length_ciphertextOf]

theorem Arrives.context_some {data : Bytes} (h : Arrives decryptByte context data c c') :
    ∃ context', c'.decryptCipherContext = some context' := by
  rcases h.context with hcontext | ⟨key, hcontext⟩
  · exact ⟨_, hcontext⟩
  · exact ⟨_, hcontext⟩

/-- The last call alone decrypts the blocks of all that has arrived. -/
theorem length_cleartext_of_run (hE : StreamCipher E decryptByte) (hc : g.objects[i]? = some c)
    (hencrypted : c.encrypted = true) (hcontext : c.decryptCipherContext = some context)
    (hrun : runFrom (arrive E i) g (call :: calls) = some g') (hc' : g'.objects[i]? = some c') :
    c.cleartext.length + 16 * ((c.encryptedBuffer ++ ciphertexts (call :: calls)).length / 16) ≤
      c'.cleartext.length := by
  induction calls generalizing g c context call with
  | nil =>
    obtain ⟨g₁, hstep, hrest⟩ := runFrom_cons_some hrun
    obtain rfl := Option.some.inj hrest
    obtain ⟨c₁, hc₁, harrives⟩ := arrives_of_arrive hE hc hencrypted hcontext hstep
    obtain rfl := Option.some.inj (hc₁.symm.trans hc')
    rw [harrives.length_cleartext, ciphertexts_cons]
    simp [ciphertexts]
  | cons call' calls ih =>
    obtain ⟨g₁, hstep, hrest⟩ := runFrom_cons_some hrun
    obtain ⟨c₁, hc₁, harrives⟩ := arrives_of_arrive hE hc hencrypted hcontext hstep
    obtain ⟨context₁, hcontext₁⟩ := harrives.context_some
    have hlater := ih hc₁ (harrives.encrypted.trans hencrypted) hcontext₁ hrest
    rw [harrives.encryptedBuffer, List.append_assoc, ← ciphertexts_cons] at hlater
    have hfirst := harrives.length_cleartext
    omega

/-- If a call before the last one has decrypted a block, there is too much plaintext in the end. -/
theorem not_decryptsInOrder_of_block (hE : StreamCipher E decryptByte) (hc : g.objects[i]? = some c)
    (hencrypted : c.encrypted = true) (hcontext : c.decryptCipherContext = some context) {d : Client}
    (hd : d.cleartext.length + 16 ≤ c.cleartext.length) (hrun : runFrom (arrive E i) g (call :: calls) = some g')
    (hc' : g'.objects[i]? = some c') :
    ¬ DecryptsInOrder decryptByte key (c.encryptedBuffer ++ ciphertexts (call :: calls)) d c' := by
  rintro ⟨plaintext, hplaintext, hprefix, -⟩
  have hlong := length_cleartext_of_run hE hc hencrypted hcontext hrun hc'
  have hshort := hprefix.length_le
  rw [length_transduce] at hshort
  have hsum : c'.cleartext.length = d.cleartext.length + plaintext.length := by rw [hplaintext, List.length_append]
  omega

theorem decryptsInOrder_of_blocks {blocks ciphertext out : Bytes} {d : Client} (hblocks : blocks <+: ciphertext)
    (hlength : blocks.length = 16 * (ciphertext.length / 16)) (hout : out.length = blocks.length)
    (hd : c'.cleartext = d.cleartext ++ out) :
    DecryptsInOrder decryptByte key ciphertext d c' ↔ out = transduce (decryptByte key) [] blocks := by
  have hbegin : transduce (decryptByte key) [] blocks <+: transduce (decryptByte key) [] ciphertext :=
    transduce_prefix hblocks
  constructor
  · rintro ⟨plaintext, hplaintext, hprefix, -⟩
    obtain rfl : out = plaintext := List.append_cancel_left (hd.symm.trans hplaintext)
    refine (List.prefix_of_prefix_length_le hprefix hbegin ?_).eq_of_length ?_
    · rw [hout, length_transduce]
    · rw [hout, length_transduce]
  · rintro rfl
    refine ⟨_, hd, hbegin, ?_⟩
    rw [length_transduce, hlength]

/-- From a client with less than a block of ciphertext and a new context. By induction on the calls: while less than a
block has arrived, a call changes nothing but the ciphertext that is kept. -/
theorem decryptsInOrder_iff_of_partial {key' : Block 16} (hE : StreamCipher E decryptByte) (hc : g.objects[i]? = some c)
    (hencrypted : c.encrypted = true) (hcontext : c.decryptCipherContext = some ⟨key', []⟩)
    (hshort : c.encryptedBuffer.length < 16) (hrun : runFrom (arrive E i) g calls = some g')
    (hc' : g'.objects[i]? = some c') :
    DecryptsInOrder decryptByte key (c.encryptedBuffer ++ ciphertexts calls) c c' ↔
      AllSteps (arrive E i) (DecryptsAfresh decryptByte key i) g calls := by
  induction calls generalizing g c key' with
  | nil =>
    obtain rfl := Option.some.inj hrun
    obtain rfl := Option.some.inj (hc.symm.trans hc')
    refine ⟨fun _ => trivial, fun _ => ⟨[], by simp, List.nil_prefix, ?_⟩⟩
    simp only [ciphertexts, List.flatMap_nil, List.append_nil, List.length_nil]
    omega
  | cons call calls ih =>
    obtain ⟨g₁, hstep, hrest⟩ := runFrom_cons_some hrun
    obtain ⟨c₁, hc₁, harrives⟩ := arrives_of_arrive hE hc hencrypted hcontext hstep
    have hencrypted₁ := harrives.encrypted.trans hencrypted
    have hsteps : AllSteps (arrive E i) (DecryptsAfresh decryptByte key i) g (call :: calls) ↔
        transduce (decryptByte key') [] (ciphertextOf c call.2) =
          transduce (decryptByte key) [] (ciphertextOf c call.2) ∧
          AllSteps (arrive E i) (DecryptsAfresh decryptByte key i) g₁ calls := by
      constructor
      · intro hall
        obtain ⟨hafresh, hlater⟩ := hall g₁ hstep
        exact ⟨(hafresh c _ hc hcontext).2, hlater⟩
      · rintro ⟨hsame, hlater⟩ g₂ hg₂
        obtain rfl := Option.some.inj (hstep.symm.trans hg₂)
        refine ⟨fun d context hd hd' => ?_, hlater⟩
        obtain rfl := Option.some.inj (hc.symm.trans hd)
        obtain rfl := Option.some.inj (hcontext.symm.trans hd')
        exact ⟨hshort, hsame⟩
    rw [hsteps, ciphertexts_cons, ← List.append_assoc, ← harrives.encryptedBuffer]
    have hlength := length_ciphertextOf c call.2
    rw [← harrives.encryptedBuffer] at hlength
    by_cases hblock : c₁.encryptedBuffer.length < 16
    · -- nothing is decrypted yet
      have hnothing : ciphertextOf c call.2 = [] := List.length_eq_zero_iff.mp (by omega)
      have hcontext₁ : ∃ key₁, c₁.decryptCipherContext = some ⟨key₁, []⟩ := by
        rcases harrives.context with hsame | hnew
        · rw [hnothing] at hsame
          exact ⟨key', hsame⟩
        · exact hnew
      obtain ⟨key₁, hcontext₁⟩ := hcontext₁
      have hcleartext : c₁.cleartext = c.cleartext := by
        rw [harrives.cleartext, hnothing]
        simp
      have hih := ih hc₁ hencrypted₁ hcontext₁ hblock hrest
      unfold DecryptsInOrder at hih ⊢
      rw [hnothing, ← hcleartext, hih]
      simp
    · cases calls with
      | nil =>
        -- the last call decrypts all the blocks at once
        obtain rfl := Option.some.inj hrest
        obtain rfl := Option.some.inj (hc₁.symm.trans hc')
        have hblocks := ciphertextOf_prefix c call.2
        rw [← harrives.encryptedBuffer] at hblocks
        have hiff : DecryptsInOrder decryptByte key c₁.encryptedBuffer c c₁ ↔ _ :=
          decryptsInOrder_of_blocks hblocks hlength length_transduce harrives.cleartext
        rw [show c₁.encryptedBuffer ++ ciphertexts [] = c₁.encryptedBuffer from List.append_nil _, hiff]
        exact ⟨fun hsame => ⟨hsame, trivial⟩, fun hsame => hsame.1⟩
      | cons call' calls =>
        -- what this call has decrypted is decrypted again
        obtain ⟨context₁, hcontext₁⟩ := harrives.context_some
        have hfirst := harrives.length_cleartext
        rw [← harrives.encryptedBuffer] at hfirst
        constructor
        · intro horder
          exact absurd horder (not_decryptsInOrder_of_block hE hc₁ hencrypted₁ hcontext₁ (by omega) hrest hc')
        · rintro ⟨-, hlater⟩
          obtain ⟨g₂, hstep₂, -⟩ := runFrom_cons_some hrest
          exact absurd ((hlater g₂ hstep₂).1 c₁ context₁ hc₁ hcontext₁).1 hblock

end Calls

/-- **One decryption.** Along any calls of a client whose encryption has just been switched on, the plaintext appended
to the buffer is one decryption of what has arrived, up to an incomplete block, exactly when every call finds less than
a block in `encryptedBuffer` and a context that decrypts like the first one. -/
theorem decryptsInOrder_iff (E : Env) (decryptByte : Block 16 → Bytes → Byte → Byte) (hE : StreamCipher E decryptByte)
    (i : ConnId) (g g' : Gateway) (c c' : Client) (key : Block 16) (calls : List (World × Bytes))
    (hc : g.objects[i]? = some c)
    (hencrypted : c.encrypted = true) (hempty : c.encryptedBuffer = [])
    (hcontext : c.decryptCipherContext = some ⟨key, []⟩) (hrun : runFrom (arrive E i) g calls = some g')
    (hc' : g'.objects[i]? = some c') :
    DecryptsInOrder decryptByte key (ciphertexts calls) c c' ↔
      AllSteps (arrive E i) (DecryptsAfresh decryptByte key i) g calls := by
  have hiff : DecryptsInOrder decryptByte key (c.encryptedBuffer ++ ciphertexts calls) c c' ↔ _ :=
    decryptsInOrder_iff_of_partial hE hc hencrypted hcontext (by simp [hempty]) hrun hc'
  rwa [hempty, List.nil_append] at hiff

/-! ## Two chunks -/

/-- What AES-128 in CFB8 mode adds to the sixteen bytes of `oneBlock`, with sixteen bytes `5` for the key and the
initialisation vector. -/
def keystream : Bytes := [29, 108, 193, 237, 248, 190, 112, 141, 175, 43, 36, 157, 250, 255, 171, 246]

/-- Sixteen bytes `0x7F`, encrypted. -/
def oneBlock : Bytes := [98, 19, 190, 146, 135, 193, 15, 242, 208, 84, 91, 226, 133, 128, 212, 137]

def addKeystream (_key : Block 16) (history : Bytes) (byte : Byte) : Byte := byte ^^^ keystream.getD history.length 0

def Env.cfb8 : Env :=
  { Env.player with
    cipher.decryptUpdate := fun context input =>
      some ⟨transduce (addKeystream context.key) context.processed input, length_transduce⟩ }

theorem streamCipher_cfb8 : StreamCipher .cfb8 addKeystream := fun _ _ => rfl

/-- A client that plays, with encryption just switched on. -/
def playing : Client :=
  { Client.new .clientServer ⟨7, false, .connected⟩ zeroToken with
    state := .PLAY
    encrypted := true
    decryptCipherContext := some ⟨⟨List.replicate 16 5, rfl⟩, []⟩ }

def playingGateway : Gateway := { Gateway.init with objects := [playing] }

def oneBlockInTwo : List (World × Bytes) := [(.plain, oneBlock.take 7), (.plain, oneBlock.drop 7)]

/-- The nine bytes that complete the block are decrypted with the seven that waited. -/
theorem decryptsInOrder_oneBlock :
    ∃ g' c', runFrom (arrive .cfb8 0) playingGateway oneBlockInTwo = some g' ∧ g'.objects[0]? = some c' ∧
      c'.cleartext = List.replicate 16 0x7F ∧
        DecryptsInOrder addKeystream ⟨List.replicate 16 5, rfl⟩ oneBlock playing c' := by
  have hafter : ((runFrom (arrive .cfb8 0) playingGateway oneBlockInTwo).bind (·.objects[0]?)).map Client.cleartext =
      some (List.replicate 16 0x7F) := by
    decide +kernel
  obtain ⟨c', hclient, hcleartext⟩ := Option.map_eq_some_iff.mp hafter
  obtain ⟨g', hrun, hc'⟩ := Option.bind_eq_some_iff.mp hclient
  refine ⟨g', c', hrun, hc', hcleartext, ?_⟩
  refine (decryptsInOrder_iff .cfb8 addKeystream streamCipher_cfb8 0 playingGateway g' playing c'
    ⟨List.replicate 16 5, rfl⟩
    oneBlockInTwo rfl rfl rfl rfl hrun hc').mpr fun g₁ hfirst => ⟨fun d context hd hcontext => ?_,
      fun g₂ _ => ⟨?_, trivial⟩⟩
  · obtain rfl := Option.some.inj hd
    obtain rfl := Option.some.inj hcontext
    exact ⟨by decide, rfl⟩
  · intro d context hd hcontext
    have hwaiting : ((arrive .cfb8 0 playingGateway (.plain, oneBlock.take 7)).bind (·.objects[0]?)).map
        (fun c => (c.encryptedBuffer, c.decryptCipherContext)) =
          some (oneBlock.take 7, playing.decryptCipherContext) := by
      decide +kernel
    rw [hfirst, Option.bind_some, hd, Option.map_some] at hwaiting
    obtain ⟨hbuffer, hnew⟩ := Prod.mk.inj (Option.some.inj hwaiting)
    obtain rfl := Option.some.inj (hcontext.symm.trans hnew)
    exact ⟨by rw [hbuffer]; decide, rfl⟩

/-- The second of two blocks brings the first one out again. -/
theorem first_block_is_decrypted_again :
    ¬ ∀ (E : Env) (decryptByte : Block 16 → Bytes → Byte → Byte), StreamCipher E decryptByte →
      ∀ (i : ConnId) (g g' : Gateway) (c c' : Client) (key : Block 16) (calls : List (World × Bytes)),
        g.objects[i]? = some c →
        c.encrypted = true → c.encryptedBuffer = [] → c.decryptCipherContext = some ⟨key, []⟩ →
          runFrom (arrive E i) g calls = some g' → g'.objects[i]? = some c' →
            DecryptsInOrder decryptByte key (ciphertexts calls) c c' := by
  intro h
  have hafter : ((runFrom (arrive .cfb8 0) playingGateway [(.plain, oneBlock), (.plain, oneBlock)]).bind
    (·.objects[0]?)).map
      (fun c => c.cleartext.length) = some 48 := by
    decide +kernel
  obtain ⟨c', hclient, hlength⟩ := Option.map_eq_some_iff.mp hafter
  obtain ⟨g', hrun, hc'⟩ := Option.bind_eq_some_iff.mp hclient
  obtain ⟨plaintext, hplaintext, hbegin, -⟩ :=
    h .cfb8 addKeystream streamCipher_cfb8 0 playingGateway g' playing c' _ _ rfl rfl rfl rfl hrun hc'
  have hshort : plaintext.length ≤ 32 := by simpa [ciphertexts, oneBlock] using hbegin.length_le
  rw [hplaintext] at hlength
  have hempty : playing.cleartext = [] := rfl
  rw [hempty, List.nil_append] at hlength
  omega

end CeriosCluster.ClientGateway
