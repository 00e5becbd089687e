import CeriosCluster.ClientGateway.Decryption
import CeriosCluster.ClientGateway.WriteOrder

/-!
# When the cipher fails

`encrypt` and `decrypt` report a failure by the length `-1`, which their callers keep in a `std::size_t` and
use as any other length. The receive buffer is then resized to one byte less than it had, or to a size no vector
has; the write takes the whole of the buffer that the ciphertext was to go into.
-/

namespace CeriosCluster.ClientGateway

open CeriosCluster.Lib CeriosCluster.MCPacket

/-- `EVP_DecryptUpdate` reports failure when `data` arrives. -/
def DecryptFails (E : Env) (c : Client) (data : Bytes) : Prop :=
  c.encrypted = true ∧ ∃ context, c.decryptCipherContext = some context ∧ (ciphertextOf c data).length < 2 ^ 31 ∧
    E.cipher.decryptUpdate context (ciphertextOf c data) = none

/-- `EVP_EncryptUpdate` reports failure on a frame that a live client is sent. -/
def EncryptFails (E : Env) (c : Client) (frame : Bytes) : Prop :=
  c.alive = true ∧ c.encrypted = true ∧ ∃ context, c.encryptCipherContext = some context ∧ frame.length < 2 ^ 31 ∧
    E.cipher.encryptUpdate context frame = none

/-- If the decryption fails, nothing is thrown and the receive buffer stays as it was. -/
def BufferKept (E : Env) (i : ConnId) (g : Gateway) (c : Client) (data : Bytes) : Prop :=
  DecryptFails E c data →
    ∃ g' c', appendReceived E i data g = .ok () g' ∧ g'.objects[i]? = some c' ∧ c'.buffer = c.buffer

/-- If the encryption fails, no byte is written. -/
def NothingWritten (E : Env) (i : ConnId) (g : Gateway) (c : Client) (frame : Bytes) : Prop :=
  EncryptFails E c frame →
    ∃ g' c', sendData E i frame g = .ok () g' ∧ g'.objects[i]? = some c' ∧ c'.writes.flatten = c.writes.flatten

/-! ## What the buffer is resized to -/

theorem sizeAfterFailure_succ (size : Nat) : sizeAfterFailure (size + 1) = size % 2 ^ 64 := by
  have hsum : size + 1 + (2 ^ 64 - 1) = size + 2 ^ 64 := by omega
  unfold sizeAfterFailure
  rw [hsum, Nat.add_mod_right]

theorem shrunkBuffer_nil : shrunkBuffer [] (sizeAfterFailure 0) = none := by
  decide

theorem length_shrunkBuffer_lt {buffer rest : Bytes}
    (h : shrunkBuffer buffer (sizeAfterFailure buffer.length) = some rest) :
    rest.length < buffer.length := by
  cases hlength : buffer.length with
  | zero =>
    obtain rfl := List.length_eq_zero_iff.mp hlength
    exact absurd (shrunkBuffer_nil.symm.trans h) (by simp)
  | succ size =>
    rw [hlength, sizeAfterFailure_succ] at h
    unfold shrunkBuffer at h
    obtain ⟨-, h⟩ := Option.ite_none_left_eq_some.mp h
    obtain rfl := Option.some.inj h
    have htake := List.length_take_le (size % 2 ^ 64) buffer
    have hmod := Nat.mod_le size (2 ^ 64)
    omega

section Failures

variable {E : Env} {i : ConnId} {g : Gateway} {c : Client} {data frame : Bytes}

/-! ## What the failures do -/

/-- The buffer is resized to one byte less, or that throws. -/
theorem appends_of_decryptFails (h : Live g i c) (hfails : DecryptFails E c data) :
    Appends i c (shrunkBuffer c.buffer (sizeAfterFailure c.buffer.length)) (appendReceived E i data g) := by
  obtain ⟨hencrypted, context, hcontext, hlength, hupdate⟩ := hfails
  have happends := run_appendDecrypted (E := E) h hcontext hlength
  rw [hupdate] at happends
  unfold appendReceived
  rwa [Exec.run_bind_ok (run_client h), if_pos hencrypted]

theorem not_bufferKept (h : Live g i c) (hfails : DecryptFails E c data) : ¬ BufferKept E i g c data := by
  intro hkept
  obtain ⟨g', c', hrun, hc', hbuffer⟩ := hkept hfails
  have hshorter : ∀ rest, shrunkBuffer c.buffer (sizeAfterFailure c.buffer.length) = some rest →
    rest.length < c.buffer.length :=
    fun _ => length_shrunkBuffer_lt
  have happends := appends_of_decryptFails h hfails
  generalize shrunkBuffer c.buffer (sizeAfterFailure c.buffer.length) = received at happends hshorter
  obtain ⟨g'', c'', hl, -, hreceived⟩ := happends
  cases received with
  | none => exact absurd (hrun.symm.trans hreceived) (by simp)
  | some rest =>
    obtain ⟨hok, rfl⟩ := hreceived
    obtain ⟨-, rfl⟩ := Res.ok.inj (hrun.symm.trans hok)
    obtain rfl := Option.some.inj (hc'.symm.trans hl.1)
    have hlt := hshorter _ rfl
    rw [hbuffer] at hlt
    exact Nat.lt_irrefl _ hlt

theorem run_encrypt_failed {context : CipherContext} (h : Live g i c) (hcontext : c.encryptCipherContext = some context)
    (hlength : frame.length < 2 ^ 31) (hupdate : E.cipher.encryptUpdate context frame = none) :
    encrypt E i frame g = .ok none g := by
  unfold encrypt
  rw [Exec.run_bind_ok (run_client h), hcontext]
  dsimp only
  rw [if_neg (Nat.not_le.mpr hlength), hupdate]
  rfl

/-- The zeros of the buffer for the ciphertext are written. -/
theorem run_sendData_failed (h : Live g i c) (hfails : EncryptFails E c frame) :
    ∃ g' c', sendData E i frame g = .ok () g' ∧ Live g' i c' ∧
      c'.writes = c.writes ++ [List.replicate (frame.length + EVP_MAX_BLOCK_LENGTH) 0] := by
  obtain ⟨halive, hencrypted, context, hcontext, hlength, hupdate⟩ := hfails
  have hlogged := h.modify (f := fun c => c.logged (.sendData frame true)) rfl
  have hencrypt : encrypt E i frame _ = _ := run_encrypt_failed hlogged hcontext hlength hupdate
  have hwrote := hlogged.modify (f :=
    (·.wrote .encryptedData (List.replicate (frame.length + EVP_MAX_BLOCK_LENGTH) 0))) rfl
  refine ⟨_, _, ?_, hwrote, writes_sendData frame _ _⟩
  unfold sendData record
  rw [Exec.run_bind_ok (run_client h), hencrypted, Exec.run_bind_ok (run_modifyClient h), if_neg (by simp [halive]),
    if_pos rfl, Exec.run_bind_ok hencrypt]
  exact run_asyncWrite _ _ hlogged

theorem not_nothingWritten (h : Live g i c) (hfails : EncryptFails E c frame) : ¬ NothingWritten E i g c frame := by
  intro hnothing
  obtain ⟨g', c', hrun, hc', hwrites⟩ := hnothing hfails
  obtain ⟨g'', c'', hrun', hl, hfailed⟩ := run_sendData_failed h hfails
  obtain ⟨-, rfl⟩ := Res.ok.inj (hrun.symm.trans hrun')
  obtain rfl := Option.some.inj (hc'.symm.trans hl.1)
  rw [hfailed, List.flatten_append, List.append_right_eq_self] at hwrites
  simp [EVP_MAX_BLOCK_LENGTH] at hwrites

end Failures

/-- **A failing cipher.** Whatever the buffer, the chunk and the frame, the receive buffer is kept only if the
decryption does not fail, and no byte is written in place of a ciphertext only if the encryption does not. -/
theorem cipher_failure_harmless_iff (E : Env) (i : ConnId) (g : Gateway) (c : Client) (data frame : Bytes)
    (h : Live g i c) :
    (BufferKept E i g c data ↔ ¬ DecryptFails E c data) ∧ (NothingWritten E i g c frame ↔
      ¬ EncryptFails E c frame) := by
  constructor
  · exact ⟨fun hkept hfails => not_bufferKept h hfails hkept, fun hworks hfails => absurd hfails hworks⟩
  · exact ⟨fun hnothing hfails => not_nothingWritten h hfails hnothing, fun hworks hfails => absurd hfails hworks⟩

/-! ## A cipher that always fails -/

def Env.failingCipher : Env :=
  { Env.player with cipher := ⟨fun _ _ => none, fun _ _ => none⟩ }

def playingBothWays : Client := { playing with encryptCipherContext := playing.decryptCipherContext }

def bothWaysGateway : Gateway := { Gateway.init with objects := [playingBothWays] }

theorem live_playingBothWays : Live bothWaysGateway 0 playingBothWays := ⟨rfl, rfl⟩

theorem decryptFails_playingBothWays : DecryptFails .failingCipher playingBothWays [1, 2] :=
  ⟨rfl, _, rfl, by decide, rfl⟩

theorem encryptFails_playingBothWays : EncryptFails .failingCipher playingBothWays [0, 3] :=
  ⟨rfl, rfl, _, rfl, by decide, rfl⟩

theorem cipher_failure_harmful_playing :
    ¬ BufferKept .failingCipher 0 bothWaysGateway playingBothWays [1, 2] ∧
      ¬ NothingWritten .failingCipher 0 bothWaysGateway playingBothWays [0, 3] := by
  obtain ⟨hkept, hnothing⟩ :=
    cipher_failure_harmless_iff .failingCipher 0 bothWaysGateway playingBothWays [1, 2] [0, 3] live_playingBothWays
  exact ⟨fun h => hkept.mp h decryptFails_playingBothWays, fun h => hnothing.mp h encryptFails_playingBothWays⟩

/-- A chunk of two bytes makes the resizing throw. -/
theorem failed_decryption_throws :
    ¬ ∀ (E : Env) (i : ConnId) (g : Gateway) (c : Client) (data frame : Bytes), Live g i c →
      BufferKept E i g c data ∧ NothingWritten E i g c frame := by
  intro h
  have hkept := (h .failingCipher 0 bothWaysGateway playingBothWays [1, 2] [0, 3] live_playingBothWays).1
  exact not_bufferKept live_playingBothWays decryptFails_playingBothWays hkept

end CeriosCluster.ClientGateway
