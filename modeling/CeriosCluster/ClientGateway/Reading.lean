import CeriosCluster.ClientGateway.Simulation

/-!
# One completed read

Which packet `onLengthReceive` will hand to `receivedMessage` is a function of the client and the bytes
that arrive. With it, a completed read is one step of the automaton for the client it is for.
-/

namespace CeriosCluster.ClientGateway

open CeriosCluster.Lib CeriosCluster.MCPacket

/-- The ciphertext that `onLengthReceive` decrypts when `data` arrives. -/
def ciphertextOf (c : Client) (data : Bytes) : Bytes :=
  (c.encryptedBuffer ++ data).take (((c.encryptedBuffer ++ data).length >>> 4) <<< 4)

/-- What the receive buffer is resized by before `data` is decrypted. -/
def roomFor (c : Client) (data : Bytes) : Bytes := List.replicate (((c.encryptedBuffer ++ data).length >>> 4) <<< 4) 0

/-- The receive buffer after the failed decryption of a shorter or empty ciphertext, unless resizing it throws. -/
def shrunkBuffer (buffer : Bytes) (size : Nat) : Option Bytes :=
  if maxSize < size then none else some (buffer.take size)

/-- Nothing of the room made for the cleartext is left, unless the buffer was empty before. -/
theorem shrunkBuffer_room (buffer room : Bytes) :
    shrunkBuffer (buffer ++ room) (sizeAfterFailure buffer.length) =
      shrunkBuffer buffer (sizeAfterFailure buffer.length) := by
  unfold shrunkBuffer sizeAfterFailure maxSize
  split
  · rfl
  · rw [List.take_append_of_le_length (by omega)]

/-- What `decrypt` makes of a ciphertext, if it does not fail. -/
def cleartextOf (E : Env) (c : Client) (ciphertext : Bytes) : Option Bytes :=
  c.decryptCipherContext.bind fun context => (E.cipher.decryptUpdate context ciphertext).map (·.val)

/-- The receive buffer once `data` is appended to it, unless that throws or is undefined. -/
def receivedBuffer (E : Env) (c : Client) (data : Bytes) : Option Bytes :=
  if c.encrypted then
    match cleartextOf E c (ciphertextOf c data) with
    | some cleartext => some (c.buffer ++ cleartext)
    | none => shrunkBuffer c.buffer (sizeAfterFailure c.buffer.length)
  else some (c.buffer ++ data)

/-- The packet that `data` completes, if it completes one. -/
def nextPacket (E : Env) (w : World) (c : Client) (data : Bytes) : Option Packet :=
  match receivedBuffer E c data with
  | none => none
  | some buffer =>
    match parseReceived E w c.state (0 ≤ c.compressionThreshold.toInt) buffer with
    | .ok p _ => p
    | _ => none

section Receive

variable {E : Env} {w : World} {i : ConnId} {g g₁ : Gateway} {c d : Client}

theorem nextPacket_of_received {data buffer : Bytes} (h : receivedBuffer E c data = some buffer) :
    nextPacket E w c data =
      match parseReceived E w c.state (0 ≤ c.compressionThreshold.toInt) buffer with
      | .ok p _ => p
      | _ => none := by
  rw [nextPacket, h]

theorem wp_shrinkBuffer {buffer : Bytes} (size : Nat) (h : Turned g i (fun c => Quiet d c ∧ c.buffer = buffer) g₁) :
    Exec.wp (shrinkBuffer i size)
      (fun _ => Turned g i fun c => Quiet d c ∧ shrunkBuffer buffer size = some c.buffer)
      (fun _ => Turned g i fun c => Quiet d c ∧ shrunkBuffer buffer size = none) g₁ := by
  rw [shrinkBuffer, Exec.wp_ite]
  refine ⟨fun hsize => h.mono fun c hc => ⟨hc.1, if_pos hsize⟩, fun hsize => ?_⟩
  refine h.wp_modify (fun c hc => ⟨?_, ?_⟩) fun g₂ h₂ => h₂
  · exact hc.1.trans { Quiet.refl c with }
  · rw [shrunkBuffer, if_neg hsize, hc.2]

theorem wp_decrypt {ciphertext : Bytes} (h : Turned g i (· = d) g₁) :
    Exec.wp (decrypt E i ciphertext)
      (fun r g₂ => cleartextOf E d ciphertext = r ∧
        Turned g i (fun c => ∃ context, context.map (·.key) = decryptKey d ∧
          c = { d with decryptCipherContext := context }) g₂)
      (fun _ _ => False) g₁ := by
  rw [decrypt, Exec.wp_bind]
  refine h.wp_client_eq ?_
  rw [cleartextOf]
  cases hctx : d.decryptCipherContext with
  | none => trivial
  | some context =>
    dsimp only
    rw [Exec.wp_ite]
    refine ⟨fun _ => trivial, fun _ => ?_⟩
    rw [Option.bind_some]
    split
    · next hfailed =>
      refine ⟨by rw [hfailed]; rfl, h.mono fun c hc => ⟨some context, by rw [decryptKey, hctx], ?_⟩⟩
      rw [hc, ← hctx]
    · next cleartext hcleartext =>
      rw [Exec.wp_bind]
      refine h.wp_modify_eq fun g₂ h₂ => ⟨by rw [hcleartext]; rfl, h₂.mono fun c hc => ⟨_, ?_, hc⟩⟩
      rw [decryptKey, hctx]
      rfl

theorem wp_appendDecrypted {data : Bytes} (hencrypted : d.encrypted = true) (h : Turned g i (· = d) g₁) :
    Exec.wp (appendDecrypted E i data)
      (fun _ => Turned g i fun c => Quiet d c ∧ receivedBuffer E d data = some c.buffer)
      (fun _ => Turned g i fun c => Quiet d c ∧ receivedBuffer E d data = none) g₁ := by
  rw [appendDecrypted, Exec.wp_bind]
  refine h.wp_modify_eq fun g₂ h₂ => ?_
  rw [Exec.wp_bind]
  refine h₂.wp_client_eq ?_
  rw [Exec.wp_bind, receivedBuffer, if_pos hencrypted]
  refine Exec.wp_mono (wp_decrypt h₂) (fun r g₃ ⟨hr, h₃⟩ => ?_) fun _ _ hfalse => hfalse.elim
  have hd : cleartextOf E d (ciphertextOf d data) = r := hr
  rw [hd]
  have hquiet : ∀ context, context.map (·.key) = decryptKey d → ∀ buffer, Quiet d
      { d with encryptedBuffer := d.encryptedBuffer ++ data, decryptCipherContext := context, buffer := buffer } :=
    fun _ hkey _ => { Quiet.refl d with decryptKey := hkey }
  cases r with
  | some cleartext =>
    dsimp only
    rw [Exec.wp_bind]
    refine h₃.wp_modify (R := fun c => Quiet d c ∧ some (d.buffer ++ cleartext) = some c.buffer) ?_ fun g₄ h₄ => ?_
    · rintro c ⟨context, hkey, rfl⟩
      exact ⟨hquiet context hkey _, rfl⟩
    · exact h₄.wp_modify (fun c hc => ⟨hc.1.trans (Quiet.append trivial), hc.2⟩) fun g₅ h₅ => h₅
  | none =>
    dsimp only
    rw [Exec.wp_bind]
    have hroom := shrunkBuffer_room d.buffer (roomFor d data)
    generalize sizeAfterFailure d.buffer.length = size at hroom ⊢
    refine h₃.wp_modify (R := fun c => Quiet d c ∧ c.buffer = d.buffer ++ roomFor d data) ?_ fun g₄ h₄ => ?_
    · rintro c ⟨context, hkey, rfl⟩
      exact ⟨hquiet context hkey _, rfl⟩
    · have hshrunk := wp_shrinkBuffer size h₄
      rwa [hroom] at hshrunk

theorem wp_appendReceived (data : Bytes) (h : Turned g i (· = d) g₁) :
    Exec.wp (appendReceived E i data)
      (fun _ => Turned g i fun c => Quiet d c ∧ receivedBuffer E d data = some c.buffer)
      (fun _ => Turned g i fun c => Quiet d c ∧ receivedBuffer E d data = none) g₁ := by
  rw [appendReceived, Exec.wp_bind]
  refine h.wp_client_eq ?_
  rw [Exec.wp_ite]
  refine ⟨fun hencrypted => wp_appendDecrypted hencrypted h, fun hclear => ?_⟩
  rw [Exec.wp_bind, receivedBuffer, if_neg hclear]
  refine h.wp_modify_eq fun g₂ h₂ => h₂.wp_modify_eq fun g₃ h₃ => h₃.mono fun c hc => ?_
  subst hc
  have happended : Quiet d { d with buffer := d.buffer ++ data } := { Quiet.refl d with }
  exact ⟨happended.trans (Quiet.append trivial), rfl⟩

theorem wp_onBuffer {α : Type} {m : BufferM α} (h : Turned g i (· = d) g₁) :
    Exec.wp (onBuffer i m) (fun a g₂ => (∃ b, m d.buffer = .ok a b) ∧ Turned g i (Quiet d) g₂)
      (fun e g₂ => (∃ b, m d.buffer = .threw e b) ∧ Turned g i (Quiet d) g₂) g₁ := by
  rw [onBuffer, Exec.wp_bind]
  refine h.wp_client_eq ?_
  rw [Exec.wp_zoom]
  have hwrite : ∀ b, Turned g i (Quiet d) (g₁.modify i fun c => { c with buffer := b }) := fun b =>
    h.modify fun c hc => { Quiet.of_eq hc with }
  unfold Exec.wp
  cases hm : m d.buffer with
  | ok a b => exact ⟨⟨b, rfl⟩, hwrite b⟩
  | threw e b => exact ⟨⟨b, rfl⟩, hwrite b⟩
  | undefined => trivial
  | diverged => trivial

/-- `disconnect`, whether it throws or not, leaves the client dead. -/
theorem wp_disconnect {P : Client → Prop} (hP : ∀ c c', P c → Quiet c c' → P c') (h : Turned g i P g₁) :
    Exec.wp (disconnect w i) (fun _ => Turned g i fun c => P c ∧ c.alive = false)
      (fun _ => Turned g i fun c => P c ∧ c.alive = false) g₁ := by
  rw [disconnect, Exec.wp_bind, wp_client]
  intro c hl
  rw [Exec.wp_ite]
  refine ⟨fun hdead => (h.exact hl).mono fun c' hc' => ?_, fun _ => ?_⟩
  · subst hc'
    exact ⟨h.live hl, by simpa using hdead⟩
  · rw [Exec.wp_bind]
    refine h.wp_modify (R := fun c => P c ∧ c.alive = false) (fun c hc => ⟨hP c _ hc ?_, rfl⟩) fun g₂ h₂ => ?_
    · exact { Quiet.refl c with alive := fun halive => by cases halive }
    · refine h₂.wp_keeps keeps_afterDeath (fun c c' hc hq => ⟨hP c c' hc.1 hq, ?_⟩) (fun _ _ h₃ => h₃)
        (fun _ _ h₃ => h₃)
      exact Bool.eq_false_iff.mpr fun halive => Bool.eq_false_iff.mp hc.2 (hq.alive halive)

/-- What a completed read asks for. -/
def FromRead (E : Env) (w : World) (error : Bool) (data : Bytes) (c c' : Client) (l : Label) : Prop :=
  if c.alive = true ∧ error = false then
    match nextPacket E w c data with
    | none => l = .quiet
    | some p => FromPacket w c p l ∧ (OnlyThrows c l → c'.alive = false)
  else l = .quiet

/-- The client has taken the step that the read asks for. -/
def Reads (E : Env) (w : World) (error : Bool) (data : Bytes) (c c' : Client) : Prop :=
  ∃ l, ConnStep E l c c' ∧ FromRead E w error data c c' l

theorem Reads.of_quiet_after {error : Bool} {data : Bytes} {c' c'' : Client} (h : Reads E w error data c c')
    (hq : Quiet c' c'') : Reads E w error data c c'' := by
  obtain ⟨l, hstep, hfrom⟩ := h
  refine ⟨l, hstep.quiet_after hq, ?_⟩
  unfold FromRead at hfrom ⊢
  split at hfrom
  · next hread =>
    rw [if_pos hread]
    split at hfrom
    · next hnone => exact hfrom
    · next p hp => exact ⟨hfrom.1, fun hthrows => Bool.eq_false_iff.mpr fun halive =>
        Bool.eq_false_iff.mp (hfrom.2 hthrows) (hq.alive halive)⟩
  · next hread =>
    rw [if_neg hread]
    exact hfrom

theorem wp_onLengthReceive {error : Bool} {data : Bytes} (h : Turned g i (· = d) g₁) :
    Exec.wp (onLengthReceive E w i error data) (fun _ => Turned g i (Reads E w error data d))
      (fun _ => Turned g i (Reads E w error data d)) g₁ := by
  rw [onLengthReceive, Exec.wp_bind]
  refine h.wp_client_eq ?_
  rw [Exec.wp_ite]
  refine ⟨fun hdead => ?_, fun halive => ?_⟩
  · refine h.mono fun c hc => ⟨.quiet, .of_quiet (.of_eq hc), ?_⟩
    rw [FromRead, if_neg]
    simp_all
  rw [Exec.wp_ite]
  refine ⟨fun herror => ?_, fun herror => ?_⟩
  · refine (h.mono fun _ => Quiet.of_eq).wp_keeps keeps_disconnect (fun _ _ => Quiet.trans) ?_ ?_
    all_goals
      refine fun _ g₂ h₂ => h₂.mono fun c hc => ⟨.quiet, .of_quiet hc, ?_⟩
      rw [FromRead, if_neg]
      simp [herror]
  have hread : d.alive = true ∧ error = false := by simp_all
  rw [Exec.wp_bind]
  refine Exec.wp_mono (wp_appendReceived data h) (fun _ g₂ h₂ => ?_) fun _ g₂ h₂ => h₂.mono fun c hc => ?_
  · rw [Exec.wp_bind, wp_client]
    intro c₁ hl
    obtain ⟨hq, hbuffer⟩ := h₂.live hl
    have hnext : nextPacket E w d data = _ := nextPacket_of_received hbuffer
    rw [← hq.state, ← hq.compressionThreshold] at hnext
    rw [Exec.wp_bind]
    refine Exec.wp_mono (wp_onBuffer (h₂.exact hl)) (fun r g₃ ⟨⟨b, hparsed⟩, h₃⟩ => ?_)
      fun _ g₃ ⟨⟨b, hthrew⟩, h₃⟩ => h₃.mono fun c hc => ?_
    · replace h₃ : Turned g i (Quiet d) g₃ := h₃.mono fun _ => hq.trans
      cases r with
      | none =>
        refine h₃.wp_keeps (Inert.quiet inert_startAsyncRead) (R := Reads E w error data d) (fun c c' hc hq' => ?_)
          (fun _ _ h₄ => h₄) (fun _ _ h₄ => h₄)
        refine ⟨.quiet, .of_quiet (hc.trans hq'), ?_⟩
        rw [FromRead, if_pos hread, hnext, hparsed]
      | some p =>
        have hreads : ∀ c' l, ConnStep E l d c' → FromPacket w d p l → (OnlyThrows d l → c'.alive = false) →
            Reads E w error data d c' := by
          intro c' l hstep hfrom hdead
          refine ⟨l, hstep, ?_⟩
          rw [FromRead, if_pos hread, hnext, hparsed]
          exact ⟨hfrom, hdead⟩
        dsimp only
        rw [Exec.wp_bind, Exec.wp_tryCatch, Exec.wp_bind]
        refine Exec.wp_mono (wp_receivedMessage h₃) (fun _ g₄ h₄ => ?_) fun _ g₄ h₄ => ?_
        · rw [Exec.wp_pure, if_pos rfl]
          refine h₄.wp_keeps (Inert.quiet inert_startAsyncRead) (fun c c' hc hq' => ?_) (fun _ _ h₅ => h₅)
            (fun _ _ h₅ => h₅)
          obtain ⟨l, hstep, hfrom, hthrows⟩ := hc
          exact (hreads c l hstep hfrom fun ho => absurd ho hthrows).of_quiet_after hq'
        · rw [Exec.wp_bind]
          have hafter : ∀ g₅, Turned g i (fun c => (∃ l, ConnStep E l d c ∧ FromPacket w d p l) ∧ c.alive = false) g₅ →
              Turned g i (Reads E w error data d) g₅ := by
            refine fun g₅ h₅ => h₅.mono ?_
            rintro c ⟨⟨l, hstep, hfrom⟩, hdead⟩
            exact hreads c l hstep hfrom fun _ => hdead
          refine Exec.wp_mono (wp_disconnect ?_ h₄) (fun _ g₅ => hafter g₅) fun _ g₅ => hafter g₅
          rintro c c' ⟨l, hstep, hfrom⟩ hq'
          exact ⟨l, hstep.quiet_after hq', hfrom⟩
    · refine ⟨.quiet, .of_quiet (hq.trans hc), ?_⟩
      rw [FromRead, if_pos hread, hnext, hthrew]
  · refine ⟨.quiet, .of_quiet hc.1, ?_⟩
    rw [FromRead, if_pos hread, nextPacket, hc.2]

end Receive

end CeriosCluster.ClientGateway
