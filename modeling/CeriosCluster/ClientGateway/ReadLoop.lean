import CeriosCluster.ClientGateway.SessionKey

/-!
# The read loop

A connection is read as long as every `onLengthReceive` that leaves it alive starts the next read. Only the
exceptions of `receivedMessage` are caught: one that comes out of the decryption or out of the parser leaves a
live client without a read.
-/

namespace CeriosCluster.ClientGateway

open CeriosCluster.Lib CeriosCluster.MCPacket

/-- The client is dead or has a read pending. -/
def ReadsOn (i : ConnId) (g : Gateway) : Prop :=
  ∃ c, g.objects[i]? = some c ∧ (c.alive = false ∨ c.readPending = true)

/-- However `onLengthReceive` ends, the client is dead or has a read pending. -/
def KeepsReading (E : Env) (w : World) (i : ConnId) (error : Bool) (data : Bytes) (g : Gateway) : Prop :=
  ∀ g', (onLengthReceive E w i error data).after g = some g' → ReadsOn i g'

/-- The decryption, if there is one, is given an initialised context and a length that an `int` holds. -/
def DecryptDefined (c : Client) (data : Bytes) : Prop :=
  c.encrypted = true → c.decryptCipherContext ≠ none ∧ (ciphertextOf c data).length < 2 ^ 31

/-- The parser throws on the buffer: its length VarInt is too big, or `parsePacket` throws on a frame that is
complete. -/
def ParserThrows (E : Env) (w : World) (c : Client) (buffer : Bytes) : Prop :=
  scanVarInt buffer = none ∨
    ∃ messageLength, scanVarInt buffer = some messageLength ∧ completeLength buffer messageLength ∧
      ∃ e b, parsePacket E.zlib E.fuel .serverBound (asSize messageLength.value) c.state w.ambient
        (0 ≤ c.compressionThreshold.toInt) true (buffer.drop messageLength.size) = .threw e b

/-- An exception comes out of the read before a packet is handled: the decryption has failed and the buffer
cannot be resized, or the parser throws. -/
def ReadThrows (E : Env) (w : World) (c : Client) (data : Bytes) : Prop :=
  DecryptDefined c data ∧ ∀ buffer, receivedBuffer E c data = some buffer → ParserThrows E w c buffer

/-- What the read handler looks at besides the buffers is the same. -/
structure Intact (c c' : Client) : Prop where
  alive : c'.alive = c.alive
  readPending : c'.readPending = c.readPending
  state : c'.state = c.state
  compressionThreshold : c'.compressionThreshold = c.compressionThreshold

section Runs

variable {E : Env} {w : World} {i : ConnId} {g g' : Gateway} {c : Client} {data : Bytes} {f f₁ f₂ : Client → Client}

/-! ## What the pieces of the handler do -/

theorem run_modify_record {a : Action} (h : Live g i c) (hf : (f c).freed = c.freed) :
    (modifyClient i f >>= fun _ => record i a) g = .ok () ((g.modify i f).modify i fun c => c.logged a) := by
  rw [Exec.run_bind_ok (run_modifyClient h)]
  exact run_modifyClient (h.modify hf)

theorem run_decrypt {context : CipherContext} (ciphertext : Bytes) (h : Live g i c)
    (hcontext : c.decryptCipherContext = some context) (hlength : ciphertext.length < 2 ^ 31) :
    decrypt E i ciphertext g =
      match E.cipher.decryptUpdate context ciphertext with
      | none => .ok none g
      | some plaintext => .ok (some plaintext.val) (g.modify i fun c =>
          { c with decryptCipherContext := some { context with processed := context.processed ++ ciphertext } }) := by
  unfold decrypt
  rw [Exec.run_bind_ok (run_client h), hcontext]
  dsimp only
  rw [if_neg (Nat.not_le.mpr hlength)]
  cases E.cipher.decryptUpdate context ciphertext with
  | none => rfl
  | some plaintext =>
    dsimp only
    rw [Exec.run_bind_ok (run_modifyClient h)]
    rfl

theorem decrypt_undefined (ciphertext : Bytes) (h : Live g i c)
    (hundefined : c.decryptCipherContext = none ∨ 2 ^ 31 ≤ ciphertext.length) :
      decrypt E i ciphertext g = .undefined := by
  unfold decrypt
  rw [Exec.run_bind_ok (run_client h)]
  cases hcontext : c.decryptCipherContext with
  | none => rfl
  | some context =>
    have hlength := hundefined.resolve_left (by simp [hcontext])
    dsimp only
    rw [if_pos hlength]
    rfl

theorem run_onBuffer {α : Type} {m : BufferM α} (h : Live g i c) :
    onBuffer i m g =
      match m c.buffer with
      | .ok a b => .ok a (g.modify i fun c => { c with buffer := b })
      | .threw e b => .threw e (g.modify i fun c => { c with buffer := b })
      | .undefined => .undefined
      | .diverged => .diverged := by
  unfold onBuffer
  rw [Exec.run_bind_ok (run_client h)]
  unfold Exec.zoom
  cases m c.buffer <;> rfl

theorem Intact.refl (c : Client) : Intact c c := ⟨rfl, rfl, rfl, rfl⟩

theorem Intact.trans {c' c'' : Client} (h : Intact c c') (h' : Intact c' c'') : Intact c c'' where
  alive := h'.alive.trans h.alive
  readPending := h'.readPending.trans h.readPending
  state := h'.state.trans h.state
  compressionThreshold := h'.compressionThreshold.trans h.compressionThreshold

/-- The piece either appends to the buffer, so that it is `received`, or throws. -/
def Appends (i : ConnId) (c : Client) (received : Option Bytes) (r : Res Exn Gateway Unit) : Prop :=
  ∃ g' c', Live g' i c' ∧ Intact c c' ∧
    match received with
    | some buffer => r = .ok () g' ∧ c'.buffer = buffer
    | none => r = .threw .lengthError g'

theorem run_shrinkBuffer {size : Nat} (h : Live g i c) :
    Appends i c (shrunkBuffer c.buffer size) (shrinkBuffer i size g) := by
  unfold shrunkBuffer shrinkBuffer
  split
  · exact ⟨g, c, h, .refl c, rfl⟩
  · exact ⟨_, _, h.modify rfl, ⟨rfl, rfl, rfl, rfl⟩, run_modifyClient h, rfl⟩

theorem Appends.of_intact {c' : Client} {received : Option Bytes} {r : Res Exn Gateway Unit} (hc : Intact c c')
    (h : Appends i c' received r) : Appends i c received r := by
  obtain ⟨g', c'', hl, hc', hr⟩ := h
  exact ⟨g', c'', hl, hc.trans hc', hr⟩

/-- The client once `data` has arrived and `cleartext` come out of the decryption. -/
def Client.decrypted (c : Client) (data : Bytes) (context : CipherContext) (cleartext : Bytes) : Client :=
  { c with
    encryptedBuffer := c.encryptedBuffer ++ data
    decryptCipherContext := some { context with processed := context.processed ++ ciphertextOf c data }
    buffer := c.buffer ++ cleartext
    log := c.log ++ [.appended cleartext] }

theorem run_appendDecrypted_ok {context : CipherContext} {cleartext : Block (ciphertextOf c data).length}
    (h : Live g i c) (hcontext : c.decryptCipherContext = some context)
    (hlength : (ciphertextOf c data).length < 2 ^ 31)
    (hupdate : E.cipher.decryptUpdate context (ciphertextOf c data) = some cleartext) :
    ∃ g', appendDecrypted E i data g = .ok () g' ∧ Live g' i (c.decrypted data context cleartext.val) := by
  have h₁ := h.modify (f := fun c => { c with encryptedBuffer := c.encryptedBuffer ++ data }) rfl
  have hdecrypt := run_decrypt (E := E) (ciphertextOf c data) h₁ hcontext hlength
  rw [hupdate] at hdecrypt
  have h₂ := h₁.modify (f := fun c' =>
    { c' with decryptCipherContext := some { context with processed := context.processed ++ ciphertextOf c data } }) rfl
  have h₃ := (h₂.modify (f := fun c => { c with buffer := c.buffer ++ cleartext.val }) rfl).modify
    (f := fun c => c.logged (.appended cleartext.val)) rfl
  refine ⟨_, ?_, h₃⟩
  unfold appendDecrypted
  rw [Exec.run_bind_ok (run_modifyClient h), Exec.run_bind_ok (run_client h₁)]
  refine (Exec.run_bind_ok hdecrypt).trans ?_
  exact run_modify_record h₂ rfl

/-- The client once `data` has arrived and the room for its cleartext has been made. -/
def Client.withRoom (c : Client) (data : Bytes) : Client :=
  { c with encryptedBuffer := c.encryptedBuffer ++ data, buffer := c.buffer ++ roomFor c data }

theorem run_appendDecrypted_failed {context : CipherContext} (h : Live g i c)
    (hcontext : c.decryptCipherContext = some context)
    (hlength : (ciphertextOf c data).length < 2 ^ 31)
    (hupdate : E.cipher.decryptUpdate context (ciphertextOf c data) = none) :
    ∃ g', appendDecrypted E i data g = shrinkBuffer i (sizeAfterFailure c.buffer.length) g' ∧
      Live g' i (c.withRoom data) := by
  have h₁ := h.modify (f := fun c => { c with encryptedBuffer := c.encryptedBuffer ++ data }) rfl
  have hdecrypt := run_decrypt (E := E) (ciphertextOf c data) h₁ hcontext hlength
  rw [hupdate] at hdecrypt
  have h₂ := h₁.modify (f := fun c' => { c' with buffer := c'.buffer ++ roomFor c data }) rfl
  refine ⟨_, ?_, h₂⟩
  unfold appendDecrypted
  rw [Exec.run_bind_ok (run_modifyClient h), Exec.run_bind_ok (run_client h₁)]
  refine (Exec.run_bind_ok hdecrypt).trans ?_
  exact Exec.run_bind_ok (run_modifyClient h₁)

theorem run_appendDecrypted {context : CipherContext} (h : Live g i c)
    (hcontext : c.decryptCipherContext = some context) (hlength : (ciphertextOf c data).length < 2 ^ 31) :
    Appends i c (match (E.cipher.decryptUpdate context (ciphertextOf c data)).map (·.val) with
      | some cleartext => some (c.buffer ++ cleartext)
      | none => shrunkBuffer c.buffer (sizeAfterFailure c.buffer.length)) (appendDecrypted E i data g) := by
  cases hupdate : E.cipher.decryptUpdate context (ciphertextOf c data) with
  | none =>
    obtain ⟨g₂, hrun, h₂⟩ := run_appendDecrypted_failed h hcontext hlength hupdate
    have hshrunk : Appends i (c.withRoom data) _ (shrinkBuffer i (sizeAfterFailure c.buffer.length) g₂) :=
      run_shrinkBuffer h₂
    have hintact : Intact c (c.withRoom data) := ⟨rfl, rfl, rfl, rfl⟩
    rw [hrun, Option.map_none, ← shrunkBuffer_room c.buffer (roomFor c data)]
    exact hshrunk.of_intact hintact
  | some cleartext =>
    obtain ⟨g', hrun, hl⟩ := run_appendDecrypted_ok h hcontext hlength hupdate
    exact ⟨g', _, hl, ⟨rfl, rfl, rfl, rfl⟩, hrun, rfl⟩

theorem run_appendReceived_clear (data : Bytes) (h : Live g i c) (hclear : c.encrypted = false) :
    ∃ g', appendReceived E i data g = .ok () g' ∧
      Live g' i { c with buffer := c.buffer ++ data, log := c.log ++ [.appended data] } := by
  have h₁ := (h.modify (f := fun c => { c with buffer := c.buffer ++ data }) rfl).modify (f := fun c =>
    c.logged (.appended data)) rfl
  refine ⟨_, ?_, h₁⟩
  unfold appendReceived
  rw [Exec.run_bind_ok (run_client h), if_neg (by simp [hclear])]
  exact run_modify_record h rfl

/-- **What arrives** is appended to the buffer, or resizing the buffer throws. -/
theorem run_appendReceived (h : Live g i c) (hdefined : DecryptDefined c data) :
    Appends i c (receivedBuffer E c data) (appendReceived E i data g) := by
  cases hencrypted : c.encrypted with
  | false =>
    obtain ⟨g', hrun, hl⟩ := run_appendReceived_clear (E := E) data h hencrypted
    unfold receivedBuffer
    rw [hencrypted]
    exact ⟨g', _, hl, ⟨rfl, rfl, rfl, rfl⟩, hrun, rfl⟩
  | true =>
    unfold appendReceived receivedBuffer
    rw [Exec.run_bind_ok (run_client h), hencrypted]
    obtain ⟨hcontext, hlength⟩ := hdefined hencrypted
    obtain ⟨context, hcontext⟩ := Option.ne_none_iff_exists'.mp hcontext
    unfold cleartextOf
    rw [hcontext, Option.bind_some]
    exact run_appendDecrypted h hcontext hlength

theorem appendReceived_undefined (h : Live g i c) (hundefined : ¬ DecryptDefined c data) :
    appendReceived E i data g = .undefined := by
  obtain ⟨hencrypted, hcontext⟩ := Classical.not_imp.mp hundefined
  have hcontext : c.decryptCipherContext = none ∨ 2 ^ 31 ≤ (ciphertextOf c data).length := by
    by_cases hnone : c.decryptCipherContext = none
    · exact Or.inl hnone
    · exact Or.inr (Nat.not_lt.mp fun hlt => hcontext ⟨hnone, hlt⟩)
  have h₁ := h.modify (f := fun c => { c with encryptedBuffer := c.encryptedBuffer ++ data }) rfl
  have hdecrypt := decrypt_undefined (E := E) (ciphertextOf c data) h₁ hcontext
  unfold appendReceived appendDecrypted
  rw [Exec.run_bind_ok (run_client h), if_pos hencrypted, Exec.run_bind_ok (run_modifyClient h),
    Exec.run_bind_ok (run_client h₁)]
  exact Exec.run_bind_undefined hdecrypt

/-! ## The parser -/

theorem parseReceived_threw_iff {buffer : Bytes} :
    (∃ e b, parseReceived E w c.state (0 ≤ c.compressionThreshold.toInt) buffer = .threw e b) ↔
      ParserThrows E w c buffer := by
  unfold parseReceived ParserThrows
  cases hscan : scanVarInt buffer with
  | none =>
    have hthrew : readVarIntFromBuffer false buffer = .threw (.runtimeError "VarInt too big") buffer := by
      unfold readVarIntFromBuffer
      rw [Exec.run_bind_ok (Exec.run_get buffer), hscan]
      rfl
    exact ⟨fun _ => Or.inl rfl, fun _ => ⟨_, _, Exec.run_bind_threw hthrew⟩⟩
  | some messageLength =>
    have hread : readVarIntFromBuffer false buffer = .ok messageLength buffer :=
      readVarIntFromBuffer_eq_ok.mpr ⟨hscan, rfl⟩
    rw [Exec.run_bind_ok hread, Exec.run_bind_ok (Exec.run_get buffer)]
    by_cases hcomplete : completeLength buffer messageLength
    · rw [if_pos hcomplete, Exec.run_bind_ok (Exec.run_set _ buffer)]
      refine ⟨fun hthrew => Or.inr ⟨messageLength, rfl, hcomplete, hthrew⟩, ?_⟩
      rintro (hnone | ⟨read, hsome, -, hthrew⟩)
      · cases hnone
      · obtain rfl := Option.some.inj hsome
        exact hthrew
    · rw [if_neg hcomplete]
      constructor
      · rintro ⟨e, b, hpure⟩
        cases hpure
      · rintro (hnone | ⟨read, hsome, hread, -⟩)
        · cases hnone
        · obtain rfl := Option.some.inj hsome
          exact absurd hread hcomplete

/-! ## The handler -/

def parseAndHandle (E : Env) (w : World) (i : ConnId) : M Unit := do
  let c ← client i
  match ← onBuffer i (parseReceived E w c.state (0 ≤ c.compressionThreshold.toInt)) with
  | none => startAsyncRead i
  | some parsedPacket => do
    let handled ← Exec.tryCatch (do
      receivedMessage E w i parsedPacket
      pure true) fun _ => do
        disconnect w i
        pure false
    if handled then startAsyncRead i else pure ()

theorem onLengthReceive_live (h : Live g i c) (halive : c.alive = true) :
    onLengthReceive E w i false data g = (appendReceived E i data >>= fun _ => parseAndHandle E w i) g := by
  unfold onLengthReceive
  rw [Exec.run_bind_ok (run_client h)]
  exact (congrFun (if_neg (by simp [halive])) g).trans (congrFun (if_neg (by simp)) g)

theorem readsOn_startAsyncRead {Q : Exn → Gateway → Prop} : Exec.wp (startAsyncRead i) (fun _ => ReadsOn i) Q g := by
  refine wp_modifyClient.mpr fun c hl => ?_
  have hread := hl.modify (f := fun c => { c with readPending := true }) rfl
  exact ⟨_, hread.1, Or.inr rfl⟩

theorem readsOn_of_dead {g₀ : Gateway} {d : Client} (hd : g₀.objects[i]? = some d)
    (h : Turned g₀ i (fun c => True ∧ c.alive = false) g) : ReadsOn i g := by
  obtain ⟨c, hc, -, hdead⟩ := h.now hd
  exact ⟨c, hc, Or.inl hdead⟩

/-- An exception out of `receivedMessage` ends the connection, and no exception starts the next read. -/
theorem readsOn_handled {p : Packet} (h : Live g i c) :
    Exec.wp (do
      let handled ← Exec.tryCatch (do
        receivedMessage E w i p
        pure true) fun _ => do
          disconnect w i
          pure false
      if handled then startAsyncRead i else pure ()) (fun _ => ReadsOn i) (fun _ => ReadsOn i) g := by
  rw [Exec.wp_bind, Exec.wp_tryCatch, Exec.wp_bind]
  have hstart : Turned g i (Quiet c) g := (Turned.start h).mono fun _ => Quiet.of_eq
  refine Exec.wp_mono (wp_receivedMessage hstart) (fun _ g₁ _ => ?_) fun _ g₁ h₁ => ?_
  · rw [Exec.wp_pure, if_pos rfl]
    exact readsOn_startAsyncRead
  · rw [Exec.wp_bind]
    refine Exec.wp_mono (wp_disconnect (P := fun _ => True) (fun _ _ h _ => h) (h₁.mono fun _ _ => trivial))
      (fun _ g₂ h₂ => ?_)
      fun _ g₂ h₂ => readsOn_of_dead h.1 h₂
    rw [Exec.wp_pure, if_neg (by simp)]
    exact readsOn_of_dead h.1 h₂

/-- A parser that does not throw leads to the next read or to the end of the connection. -/
theorem readsOn_parseAndHandle (h : Live g i c) (hthrows : ParserThrows E w c c.buffer → c.readPending = true) :
    Exec.wp (parseAndHandle E w i) (fun _ => ReadsOn i) (fun _ => ReadsOn i) g := by
  have hbuffer : ∀ b, Live (g.modify i fun c => { c with buffer := b }) i { c with buffer := b } :=
    fun b => h.modify rfl
  unfold parseAndHandle Exec.wp
  rw [Exec.run_bind_ok (run_client h)]
  cases hparse : parseReceived E w c.state (0 ≤ c.compressionThreshold.toInt) c.buffer with
  | ok r b =>
    have hrun := run_onBuffer (m := parseReceived E w c.state (0 ≤ c.compressionThreshold.toInt)) h
    rw [hparse] at hrun
    rw [Exec.run_bind_ok hrun]
    cases r with
    | none => exact readsOn_startAsyncRead
    | some p => exact readsOn_handled (hbuffer b)
  | threw e b =>
    have hrun := run_onBuffer (m := parseReceived E w c.state (0 ≤ c.compressionThreshold.toInt)) h
    rw [hparse] at hrun
    rw [Exec.run_bind_threw hrun]
    exact ⟨_, (hbuffer b).1, Or.inr (hthrows (parseReceived_threw_iff.mp ⟨e, b, hparse⟩))⟩
  | undefined =>
    have hrun := run_onBuffer (m := parseReceived E w c.state (0 ≤ c.compressionThreshold.toInt)) h
    rw [hparse] at hrun
    rw [Exec.run_bind_undefined hrun]
    trivial
  | diverged =>
    have hrun := run_onBuffer (m := parseReceived E w c.state (0 ≤ c.compressionThreshold.toInt)) h
    rw [hparse] at hrun
    rw [Exec.run_bind_diverged hrun]
    trivial

/-- The exception leaves the client as it was. -/
theorem run_parseAndHandle_threw (h : Live g i c) (hthrows : ParserThrows E w c c.buffer) :
    ∃ e b, parseAndHandle E w i g = .threw e (g.modify i fun c => { c with buffer := b }) := by
  obtain ⟨e, b, hparse⟩ := parseReceived_threw_iff.mpr hthrows
  have hrun := run_onBuffer (m := parseReceived E w c.state (0 ≤ c.compressionThreshold.toInt)) h
  rw [hparse] at hrun
  unfold parseAndHandle
  rw [Exec.run_bind_ok (run_client h), Exec.run_bind_threw hrun]
  exact ⟨e, b, rfl⟩

theorem ParserThrows.of_intact {c' : Client} {buffer : Bytes} (hc : Intact c c') :
    ParserThrows E w c' buffer ↔ ParserThrows E w c buffer := by
  unfold ParserThrows
  rw [hc.state, hc.compressionThreshold]

/-- A read that throws leaves a live client with nothing pending. -/
theorem not_readsOn_of_throws (h : Live g i c) (hidle : c.readPending = false) (halive : c.alive = true)
    (hthrows : ReadThrows E w c data) :
    ∃ e g', onLengthReceive E w i false data g = .threw e g' ∧ ¬ ReadsOn i g' := by
  have hidle' : ∀ {g' : Gateway} {c' : Client}, Live g' i c' → Intact c c' → ¬ ReadsOn i g' := by
    intro g' c' hl hc ⟨d, hd, hon⟩
    obtain rfl := Option.some.inj (hl.1.symm.trans hd)
    rw [hc.alive, hc.readPending, halive, hidle] at hon
    simp at hon
  rw [onLengthReceive_live h halive]
  obtain ⟨g₁, c₁, hl₁, hc₁, hr⟩ := run_appendReceived (E := E) h hthrows.1
  cases hbuffer : receivedBuffer E c data with
  | none =>
    rw [hbuffer] at hr
    exact ⟨_, g₁, Exec.run_bind_threw hr, hidle' hl₁ hc₁⟩
  | some buffer =>
    rw [hbuffer] at hr
    obtain ⟨hr, rfl⟩ := hr
    rw [Exec.run_bind_ok hr]
    obtain ⟨e, b, hrun⟩ := run_parseAndHandle_threw hl₁ ((ParserThrows.of_intact hc₁).mpr (hthrows.2 _ hbuffer))
    have hl₂ := hl₁.modify (f := fun c => { c with buffer := b }) rfl
    exact ⟨e, _, hrun, hidle' hl₂ (hc₁.trans ⟨rfl, rfl, rfl, rfl⟩)⟩

/-- A read that does not throw, or beside which another is pending, goes on. -/
theorem readsOn_onLengthReceive (error : Bool) (data : Bytes) (h : Live g i c)
    (hgoes : c.readPending = false → c.alive = true → error = false → ¬ ReadThrows E w c data) :
    Exec.wp (onLengthReceive E w i error data) (fun _ => ReadsOn i) (fun _ => ReadsOn i) g := by
  cases halive : c.alive with
  | false =>
    unfold onLengthReceive Exec.wp
    rw [Exec.run_bind_ok (run_client h), if_pos (by simp [halive])]
    exact ⟨c, h.1, Or.inl halive⟩
  | true =>
    cases error with
    | true =>
      unfold onLengthReceive
      rw [Exec.wp_bind]
      unfold Exec.wp
      rw [run_client h]
      show Exec.wp (if (!c.alive) = true then pure () else disconnect w i) _ _ g
      rw [if_neg (by simp [halive])]
      have hdone : ∀ g', Turned g i (fun c => True ∧ c.alive = false) g' → ReadsOn i g' := fun _ => readsOn_of_dead h.1
      have hstart : Turned g i (fun _ => True) g := (Turned.start h).mono fun _ _ => trivial
      exact Exec.wp_mono (wp_disconnect (P := fun _ => True) (fun _ _ h _ => h) hstart) (fun _ => hdone) fun _ => hdone
    | false =>
      unfold Exec.wp
      rw [onLengthReceive_live h halive]
      by_cases hdefined : DecryptDefined c data
      · obtain ⟨g₁, c₁, hl₁, hc₁, hr⟩ := run_appendReceived (E := E) h hdefined
        have hpending : (∀ buffer, receivedBuffer E c data = some buffer → ParserThrows E w c buffer) →
          c.readPending = true := by
          intro hthrows
          by_contra hidle
          exact hgoes (by simpa using hidle) halive rfl ⟨hdefined, hthrows⟩
        cases hbuffer : receivedBuffer E c data with
        | none =>
          rw [hbuffer] at hr
          rw [Exec.run_bind_threw hr]
          refine ⟨c₁, hl₁.1, Or.inr (hc₁.readPending.trans (hpending fun buffer hsome => ?_))⟩
          rw [hbuffer] at hsome
          cases hsome
        | some buffer =>
          rw [hbuffer] at hr
          obtain ⟨hr, rfl⟩ := hr
          rw [Exec.run_bind_ok hr]
          refine readsOn_parseAndHandle hl₁ fun hthrows => hc₁.readPending.trans (hpending fun buffer hsome => ?_)
          obtain rfl := Option.some.inj (hbuffer.symm.trans hsome)
          exact (ParserThrows.of_intact hc₁).mp hthrows
      · rw [Exec.run_bind_undefined (appendReceived_undefined h hdefined)]
        trivial

end Runs

/-- **The read loop.** However `onLengthReceive` ends, its client is dead or has a read pending, exactly when no
exception comes out of the decryption or out of the parser while the client is alive and has none pending. -/
theorem keepsReading_iff (E : Env) (w : World) (g : Gateway) (i : ConnId) (error : Bool) (data : Bytes) :
    KeepsReading E w i error data g ↔
      ∀ c, Live g i c → c.readPending = false → c.alive = true → error = false → ¬ ReadThrows E w c data := by
  constructor
  · rintro hkeeps c hl hidle halive rfl hthrows
    obtain ⟨e, g', hrun, hnot⟩ := not_readsOn_of_throws hl hidle halive hthrows
    exact hnot (hkeeps g' (Exec.after_of_threw hrun))
  · intro hgoes g' hafter
    have hwp : Exec.wp (onLengthReceive E w i error data) (fun _ => ReadsOn i) (fun _ => ReadsOn i) g := by
      by_cases hlive : ∃ c, Live g i c
      · obtain ⟨c, hl⟩ := hlive
        exact readsOn_onLengthReceive error data hl (hgoes c hl)
      · unfold onLengthReceive
        rw [Exec.wp_bind, wp_client]
        exact fun c hl => absurd ⟨c, hl⟩ hlive
    exact Exec.wp.of_after hwp hafter

/-- Six bytes of a VarInt that does not end, and the client is alive with nothing pending. -/
theorem long_varInt_stops_the_reads :
    ¬ ∀ (E : Env) (w : World) (g : Gateway) (i : ConnId) (error : Bool) (data : Bytes),
      KeepsReading E w i error data g := by
  intro h
  have hstopped : ((onLengthReceive .player .plain 0 false (List.replicate 6 0xFF)).after
      { Gateway.init with
        objects := [{ Client.new .login ⟨7, false, .connected⟩ zeroToken with readPending := false }]
        pendingClients := (∅ : ClientMap Word).insert 7 (some 0) }).map
          (fun g => g.objects[0]?.map fun c => (c.alive, c.readPending)) = some (some (true, false)) := by
    decide +kernel
  obtain ⟨g', hafter, hstate⟩ := Option.map_eq_some_iff.mp hstopped
  obtain ⟨c, hc, hon⟩ := h _ _ _ _ _ _ g' hafter
  rw [hc, Option.map_some, Option.some.injEq, Prod.mk.injEq] at hstate
  rw [hstate.1, hstate.2] at hon
  simp at hon

end CeriosCluster.ClientGateway
