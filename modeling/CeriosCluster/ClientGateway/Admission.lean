import CeriosCluster.ClientGateway.SessionKey

/-!
# Which encryption responses are admitted

`receivedMessage` decrypts the token and the secret of an encryption response, copies the token over
`clearVerifyToken` and compares it with the one it sent. It looks at neither length: a long token is written past
the end of the array, a short one is completed by what the array held before, and the secret may have any length.
-/

namespace CeriosCluster.ClientGateway

open CeriosCluster.Lib CeriosCluster.MCPacket

/-! ## The two halves of `receivedMessage` -/

section Halves

variable (E : Env) (w : World)

/-- Up to the comparison of the tokens: the shared secret, if `receivedMessage` goes on with it. -/
def admission (i : ConnId) (packet : Packet) (encryptionResponse : EncryptionPacket) : M (Option Bytes) := do
  record i (.receivedMessage packet)
  let c ← client i
  if c.state = .LOGIN ∧ c.requestedUsername ≠ [] then
    if !w.pkeyContext || !w.pkeyDecryptInit || !w.pkeyPadding then pure none
    else
      match w.pkeyDecrypt encryptionResponse.sealedVerifyToken, w.pkeyDecrypt encryptionResponse.sealedSharedSecret with
      | some verifyTokenBuffer, some clearSharedSecret => do
        let clearVerifyToken ← copyVerifyToken verifyTokenBuffer encryptionResponse.clearVerifyToken
        if c.verifyToken.val ≠ clearVerifyToken then pure none
        else do
          record i (.tokenMatched verifyTokenBuffer c.verifyToken)
          pure (some clearSharedSecret)
      | _, _ => pure none
  else pure none

/-- From there on: the ciphers, and `authWithMojang`. -/
def proceed (i : ConnId) (encryptionResponse : EncryptionPacket) : Option Bytes → M Unit
  | none => pure ()
  | some clearSharedSecret => do
    initCiphers i clearSharedSecret
    if !w.sha1Init then pure ()
    else do
      let shaDigest := E.sha1 (encryptionResponse.serverId ++ clearSharedSecret ++ E.publicKeyString)
      let hashString ← hashString shaDigest.val
      authWithMojang w i clearSharedSecret hashString

variable {E w} {i : ConnId} {g : Gateway} {c : Client} {packet : Packet} {f : EncryptionPacket}

theorem copyVerifyToken_fits {token : Bytes} (h : token.length ≤ 4) :
    copyVerifyToken token f.clearVerifyToken g = .ok (token ++ f.clearVerifyToken.val.drop token.length) g := by
  unfold copyVerifyToken
  rw [if_neg (Nat.not_lt.mpr h)]
  rfl

theorem copyVerifyToken_long {token : Bytes} (h : 4 < token.length) :
    copyVerifyToken token f.clearVerifyToken g = .undefined := by
  unfold copyVerifyToken
  rw [if_pos h]
  rfl

theorem receivedMessage_halves (hl : Live g i c) (hp : packet.fields = .encryption f) :
    receivedMessage E w i packet g = (admission w i packet f >>= proceed E w i f) g := by
  have hl₁ := hl.modify (f := fun c => c.logged (.receivedMessage packet)) rfl
  unfold receivedMessage admission record
  rw [hp, Exec.bind_assoc, Exec.run_bind_ok (run_modifyClient hl), Exec.run_bind_ok (run_modifyClient hl)]
  dsimp only
  rw [Exec.bind_assoc, Exec.run_bind_ok (run_client hl₁), Exec.run_bind_ok (run_client hl₁),
    onPacketReceived_then]
  split
  · unfold receivedEncryption
    rw [Exec.run_bind_ok (run_client hl₁)]
    by_cases hpkey : !w.pkeyContext || !w.pkeyDecryptInit || !w.pkeyPadding
    · rw [if_pos hpkey, if_pos hpkey]
      rfl
    · rw [if_neg hpkey, if_neg hpkey]
      cases w.pkeyDecrypt f.sealedVerifyToken with
      | none => rfl
      | some token =>
        cases w.pkeyDecrypt f.sealedSharedSecret with
        | none => rfl
        | some secret =>
          dsimp only
          by_cases hlength : token.length ≤ 4
          · rw [Exec.bind_assoc, Exec.run_bind_ok (copyVerifyToken_fits hlength),
              Exec.run_bind_ok (copyVerifyToken_fits hlength)]
            by_cases hmatch : (c.logged (.receivedMessage packet)).verifyToken.val ≠ token ++
              f.clearVerifyToken.val.drop token.length
            · rw [if_pos hmatch, if_pos hmatch]
              rfl
            · rw [if_neg hmatch, if_neg hmatch, Exec.bind_assoc]
              rfl
          · rw [Exec.bind_assoc, Exec.run_bind_undefined (copyVerifyToken_long (not_le.mp hlength)),
              Exec.run_bind_undefined (copyVerifyToken_long (not_le.mp hlength))]
  · rfl

end Halves

/-! ## What is admitted -/

/-- The client waits for the response, and its token and its secret decrypt. -/
structure Decrypts (w : World) (c : Client) (f : EncryptionPacket) (token secret : Bytes) : Prop where
  expected : c.state = .LOGIN ∧ c.requestedUsername ≠ []
  prepared : w.pkeyContext = true ∧ w.pkeyDecryptInit = true ∧ w.pkeyPadding = true
  token : w.pkeyDecrypt f.sealedVerifyToken = some token
  secret : w.pkeyDecrypt f.sealedSharedSecret = some secret

/-- Nothing is written past the array, and only the very token is admitted, with a secret of sixteen bytes. -/
def AdmitsOnly (w : World) (i : ConnId) (packet : Packet) (f : EncryptionPacket) (g : Gateway) (c : Client) : Prop :=
  ∃ r g', admission w i packet f g = .ok r g' ∧
    ∀ secret, r = some secret → Decrypts w c f c.verifyToken.val secret ∧ secret.length = 16

/-- The token is too long, or is a beginning of the right one that what the array held completes, or is the right one
and comes with a secret of another length. -/
def Misjudged (c : Client) (f : EncryptionPacket) (token secret : Bytes) : Prop :=
  4 < token.length ∨
    token.length < 4 ∧ token ++ f.clearVerifyToken.val.drop token.length = c.verifyToken.val ∨
    token = c.verifyToken.val ∧ secret.length ≠ 16

section Admission

variable {E : Env} {w : World} {i : ConnId} {g : Gateway} {c : Client} {packet : Packet} {f : EncryptionPacket}
  {token secret : Bytes}

theorem Decrypts.unique {token' secret' : Bytes} (h : Decrypts w c f token secret)
    (h' : Decrypts w c f token' secret') :
    token = token' ∧ secret = secret' :=
  ⟨Option.some.inj (h.token.symm.trans h'.token), Option.some.inj (h.secret.symm.trans h'.secret)⟩

theorem admission_undecrypted (packet : Packet) (hl : Live g i c) (h : ∀ token secret, ¬ Decrypts w c f token secret) :
    ∃ g', admission w i packet f g = .ok none g' := by
  have hl₁ := hl.modify (f := fun c => c.logged (.receivedMessage packet)) rfl
  unfold admission record
  rw [Exec.run_bind_ok (run_modifyClient hl), Exec.run_bind_ok (run_client hl₁)]
  split
  · next hexpected =>
    by_cases hpkey : !w.pkeyContext || !w.pkeyDecryptInit || !w.pkeyPadding
    · rw [if_pos hpkey]
      exact ⟨_, rfl⟩
    · rw [if_neg hpkey]
      have hprepared : w.pkeyContext = true ∧ w.pkeyDecryptInit = true ∧ w.pkeyPadding = true := by
        simpa [and_assoc] using hpkey
      cases htoken : w.pkeyDecrypt f.sealedVerifyToken with
      | none => exact ⟨_, rfl⟩
      | some token =>
        cases hsecret : w.pkeyDecrypt f.sealedSharedSecret with
        | none => exact ⟨_, rfl⟩
        | some secret => exact absurd ⟨hexpected, hprepared, htoken, hsecret⟩ (h token secret)
  · exact ⟨_, rfl⟩

/-- On a response that decrypts, it is the copy and the comparison that decide. -/
theorem admission_decrypted (packet : Packet) (hl : Live g i c) (h : Decrypts w c f token secret) :
    ∃ g', Live g' i (c.logged (.receivedMessage packet)) ∧ admission w i packet f g =
      (copyVerifyToken token f.clearVerifyToken >>= fun clearVerifyToken =>
        if c.verifyToken.val ≠ clearVerifyToken then pure none
        else record i (.tokenMatched token c.verifyToken) >>= fun _ => pure (some secret)) g' := by
  have hl₁ := hl.modify (f := fun c => c.logged (.receivedMessage packet)) rfl
  have hpkey : ¬ (!w.pkeyContext || !w.pkeyDecryptInit || !w.pkeyPadding) = true := by
    simpa [and_assoc] using h.prepared
  have hexpected : (c.logged (.receivedMessage packet)).state = .LOGIN ∧
      (c.logged (.receivedMessage packet)).requestedUsername ≠ [] := h.expected
  refine ⟨g.modify i fun c => c.logged (.receivedMessage packet), hl₁, ?_⟩
  unfold admission record
  rw [Exec.run_bind_ok (run_modifyClient hl), Exec.run_bind_ok (run_client hl₁), if_pos hexpected, if_neg hpkey,
    h.token, h.secret]
  rfl

theorem admission_fits (packet : Packet) (hl : Live g i c) (h : Decrypts w c f token secret)
    (hlength : token.length ≤ 4) :
    ∃ g', admission w i packet f g =
      .ok (if c.verifyToken.val ≠ token ++ f.clearVerifyToken.val.drop token.length then none else some secret) g' := by
  obtain ⟨g', hl', hrun⟩ := admission_decrypted packet hl h
  rw [Exec.run_bind_ok (copyVerifyToken_fits hlength)] at hrun
  by_cases hmatch : c.verifyToken.val ≠ token ++ f.clearVerifyToken.val.drop token.length
  · rw [if_pos hmatch] at hrun ⊢
    exact ⟨g', hrun⟩
  · rw [if_neg hmatch, record, Exec.run_bind_ok (run_modifyClient hl')] at hrun
    rw [if_neg hmatch]
    exact ⟨_, hrun⟩

theorem admission_long (hl : Live g i c) (h : Decrypts w c f token secret) (hlength : 4 < token.length) :
    admission w i packet f g = .undefined := by
  obtain ⟨g', -, hrun⟩ := admission_decrypted packet hl h
  rw [hrun]
  exact Exec.run_bind_undefined (copyVerifyToken_long hlength)

theorem completed_of_length (hlength : token.length = 4) :
    token ++ f.clearVerifyToken.val.drop token.length = token := by
  rw [hlength, List.drop_of_length_le (le_of_eq f.clearVerifyToken.property), List.append_nil]

theorem admitsOnly_of_not_misjudged (hl : Live g i c)
    (h : ∀ token secret, Decrypts w c f token secret → ¬ Misjudged c f token secret) : AdmitsOnly w i packet f g c := by
  by_cases hdecrypts : ∃ token secret, Decrypts w c f token secret
  · obtain ⟨token, secret, hd⟩ := hdecrypts
    have hlong : token.length ≤ 4 := not_lt.mp fun hlong => h token secret hd (Or.inl hlong)
    obtain ⟨g', hrun⟩ := admission_fits packet hl hd hlong
    refine ⟨_, g', hrun, fun admitted hadmitted => ?_⟩
    rw [Option.ite_none_left_eq_some] at hadmitted
    obtain ⟨hmatch, hsecret⟩ := hadmitted
    obtain rfl := Option.some.inj hsecret
    have hmatch := not_not.mp hmatch
    have hlength : token.length = 4 := by
      by_contra hne
      exact h token secret hd (Or.inr (Or.inl ⟨by omega, hmatch.symm⟩))
    rw [completed_of_length hlength] at hmatch
    refine ⟨hmatch ▸ hd, ?_⟩
    by_contra hne
    exact h token secret hd (Or.inr (Or.inr ⟨hmatch.symm, hne⟩))
  · obtain ⟨g', hrun⟩ := admission_undecrypted packet hl fun token secret hd => hdecrypts ⟨token, secret, hd⟩
    exact ⟨none, g', hrun, fun admitted hadmitted => by cases hadmitted⟩

theorem not_misjudged_of_admitsOnly (hl : Live g i c) (h : AdmitsOnly w i packet f g c)
    (hd : Decrypts w c f token secret) :
    ¬ Misjudged c f token secret := by
  obtain ⟨r, g', hrun, honly⟩ := h
  have hlength : token.length ≤ 4 := by
    by_contra hlong
    rw [admission_long hl hd (not_le.mp hlong)] at hrun
    cases hrun
  obtain ⟨g'', hfits⟩ := admission_fits packet hl hd hlength
  have hadmits (hmatch : token ++ f.clearVerifyToken.val.drop token.length = c.verifyToken.val) :
      Decrypts w c f c.verifyToken.val secret ∧ secret.length = 16 := by
    rw [hfits, if_neg (not_not.mpr hmatch.symm)] at hrun
    cases hrun
    exact honly secret rfl
  rintro (hlong | ⟨hshort, hmatch⟩ | ⟨htoken, hsecret⟩)
  · exact absurd hlength (not_le.mpr hlong)
  · obtain ⟨htoken, -⟩ := hd.unique (hadmits hmatch).1
    rw [htoken, c.verifyToken.property] at hshort
    exact absurd hshort (lt_irrefl 4)
  · have hfour : token.length = 4 := by rw [htoken, c.verifyToken.property]
    exact hsecret (hadmits ((completed_of_length hfour).trans htoken)).2

end Admission

/-- **Admission.** `receivedMessage` is `admission` and what follows it, and admits nothing but the token that was sent
with a secret of sixteen bytes, exactly when what it decrypts is not misjudged. -/
theorem admitsOnly_iff (E : Env) (w : World) (g : Gateway) (i : ConnId) (c : Client) (hl : Live g i c) (packet : Packet)
    (f : EncryptionPacket) (hp : packet.fields = .encryption f) :
    receivedMessage E w i packet g = (admission w i packet f >>= proceed E w i f) g ∧
      (AdmitsOnly w i packet f g c ↔ ∀ token secret, Decrypts w c f token secret → ¬ Misjudged c f token secret) :=
  ⟨receivedMessage_halves hl hp, fun h _ _ hd => not_misjudged_of_admitsOnly hl h hd, admitsOnly_of_not_misjudged hl⟩

def sealedResponse (token secret : Bytes) : EncryptionPacket := ⟨[], [], zeroToken, [], token, secret⟩

theorem loginStarts_waits : ∃ g c, runFrom (step .player) Gateway.init (plainRun loginStarts) = some g ∧ Live g 0 c ∧
    c.state = .LOGIN ∧ c.requestedUsername = ascii "Player" ∧ c.verifyToken.val = [1, 2, 3, 4] := by
  have hstate : (runFrom (step .player) Gateway.init (plainRun loginStarts)).map (fun g =>
      g.objects[0]?.map fun c => (c.freed, c.state, c.requestedUsername, c.verifyToken.val)) =
        some (some (false, .LOGIN, ascii "Player", [1, 2, 3, 4])) := by
    decide +kernel
  obtain ⟨g, hg, hclient⟩ := Option.map_eq_some_iff.mp hstate
  obtain ⟨c, hc, hfields⟩ := Option.map_eq_some_iff.mp hclient
  obtain ⟨hfreed, hlogin, hname, htoken⟩ : _ ∧ _ ∧ _ ∧ _ := by simpa only [Prod.mk.injEq] using hfields
  exact ⟨g, c, hg, ⟨hc, hfreed⟩, hlogin, hname, htoken⟩

/-- It is so of its token with sixteen bytes for a secret. -/
theorem admitsOnly_loginStarts :
    ∃ g c, runFrom (step .player) Gateway.init (plainRun loginStarts) = some g ∧ Live g 0 c ∧
      (AdmitsOnly .plain 0 ⟨0x01, [], false, .encryption (sealedResponse [1, 2, 3, 4] (List.replicate 16 5))⟩
          (sealedResponse [1, 2, 3, 4] (List.replicate 16 5)) g c ↔
        ∀ token secret, Decrypts .plain c (sealedResponse [1, 2, 3, 4] (List.replicate 16 5)) token secret →
          ¬ Misjudged c (sealedResponse [1, 2, 3, 4] (List.replicate 16 5)) token secret) := by
  obtain ⟨g, c, hg, hl, -⟩ := loginStarts_waits
  exact ⟨g, c, hg, hl, (admitsOnly_iff .player .plain g 0 c hl _
    (sealedResponse [1, 2, 3, 4] (List.replicate 16 5)) rfl).2⟩

/-- A token of five bytes is written past the array. -/
theorem long_token_overflows :
    ¬ ∀ (E : Env) (w : World) (run : List (World × Event)) (g : Gateway), runFrom (step E) Gateway.init run = some g →
      ∀ (i : ConnId) (c : Client), Live g i c → ∀ (packet : Packet) (f : EncryptionPacket),
        packet.fields = .encryption f →
        AdmitsOnly w i packet f g c := by
  intro h
  obtain ⟨g, c, hg, hl, hstate, hname, htoken⟩ := loginStarts_waits
  obtain ⟨r, g', hrun, -⟩ := h .player .plain (plainRun loginStarts) g hg 0 c hl
    ⟨0x01, [], false, .encryption (sealedResponse [1, 2, 3, 4, 5] (List.replicate 16 5))⟩ _ rfl
  have hexpected : c.state = .LOGIN ∧ c.requestedUsername ≠ [] := ⟨hstate, by rw [hname]; decide⟩
  have hdecrypts : Decrypts .plain c (sealedResponse [1, 2, 3, 4, 5] (List.replicate 16 5)) [1, 2, 3, 4, 5]
    (List.replicate 16 5) :=
    ⟨hexpected, ⟨rfl, rfl, rfl⟩, rfl, rfl⟩
  rw [admission_long hl hdecrypts (by decide)] at hrun
  cases hrun

end CeriosCluster.ClientGateway
