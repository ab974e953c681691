import WindowsFidoLogon.Codec.Attested

/-!
# Proofs are not transferable

An accepted proof names what it is for: the type of ceremony, the challenge and the
origin in its client data, the RP ID by its hash in the authenticator data, and the
credential by its id.  Parsing and hashing are functions, so the same proof names
nothing else, and no other ceremony accepts it.
-/

namespace WindowsFidoLogon

/-- The authenticator data of a credential are decoded from the attestation object,
whatever else was set. -/
def Platform.DecodesAttestation (P : Platform) : Prop :=
  ∀ attestation rpId clientData credential rpId' clientData' credential',
    P.fidoCredSetup rpId clientData attestation = .parsed credential →
    P.fidoCredSetup rpId' clientData' attestation = .parsed credential' →
    credential'.authDataRaw = credential.authDataRaw

namespace FidoVerifier

open Program Text

variable {P : Platform}

/-- The function returns false, with a text. -/
def Rejects {α : Type} (x : Except Bytes α) : Prop :=
  ∃ error, x = .error error

theorem rejects_of_ne {α : Type} {x : Except Bytes α} (h : ∀ a, x ≠ .ok a) : Rejects x := by
  cases x with
  | ok a => exact absurd rfl (h a)
  | error error => exact ⟨error, rfl⟩

theorem ok_of_isOk {α : Type} {x : Except Bytes α} (h : x.isOk = true) : ∃ a, x = .ok a := by
  cases x with
  | ok a => exact ⟨a, rfl⟩
  | error error => cases h

/-- Another challenge, another origin, or an RP ID with another hash. -/
def Elsewhere (P : Platform) (challenge rpId origin challenge' rpId' origin' : Bytes) : Prop :=
  challenge' ≠ challenge ∨ origin' ≠ origin ∨ P.sha256 rpId' ≠ P.sha256 rpId

/-! ## What client data and authenticator data name -/

/-- The value that is parsed has one string under each key. -/
theorem Names.unique {clientData type type' challenge challenge' origin origin' : Bytes}
    {value value' : Json} (h : Names P clientData type challenge origin value)
    (h' : Names P clientData type' challenge' origin' value') :
    type' = type ∧ challenge' = challenge ∧ origin' = origin := by
  obtain rfl : value' = value := Except.ok.inj (h'.parsed.symm.trans h.parsed)
  exact ⟨Except.ok.inj (h'.type.symm.trans h.type),
    Except.ok.inj (h'.challenge.symm.trans h.challenge),
    Except.ok.inj (h'.origin.symm.trans h.origin)⟩

theorem verifyClientData_unique {clientData type type' challenge challenge' origin origin' : Bytes}
    (h : verifyClientData P clientData type challenge origin = .ok ())
    (h' : verifyClientData P clientData type' challenge' origin' = .ok ()) :
    type' = type ∧ challenge' = challenge ∧ origin' = origin := by
  obtain ⟨value, hNames⟩ := verifyClientData_iff.mp h
  obtain ⟨value', hNames'⟩ := verifyClientData_iff.mp h'
  exact hNames.unique hNames'

/-- The first 32 bytes are the hash of one RP ID at most, collisions apart. -/
theorem sha256_of_verifyAuthenticatorData {authData rpId rpId' : Bytes} {counter counter' : UInt32}
    (h : verifyAuthenticatorData P authData rpId = .ok counter)
    (h' : verifyAuthenticatorData P authData rpId' = .ok counter') :
    P.sha256 rpId' = P.sha256 rpId := by
  have hAttends := (verifyAuthenticatorData_iff.mp h).1
  have hAttends' := (verifyAuthenticatorData_iff.mp h').1
  rw [hAttends.rpIdHash, hAttends'.rpIdHash]

/-! ## The two ceremonies -/

/-- A response that is accepted twice was expected twice. -/
theorem verifyAssertion_unique {credential credential' : CredentialRecord}
    {challenge challenge' rpId rpId' origin origin' : Bytes} {response : FIDOSignResponse}
    {counter counter' : UInt32}
    (h : verifyAssertion P credential challenge rpId origin response = .ok counter)
    (h' : verifyAssertion P credential' challenge' rpId' origin' response = .ok counter') :
    challenge' = challenge ∧ origin' = origin ∧ P.sha256 rpId' = P.sha256 rpId ∧
      credential'.credentialId = credential.credentialId := by
  obtain ⟨assertion, publicKey, hAccepts⟩ := verifyAssertion_iff.mp h
  obtain ⟨assertion', publicKey', hAccepts'⟩ := verifyAssertion_iff.mp h'
  -- both runs look at the one assertion of the response
  obtain rfl : assertion' = assertion :=
    List.head_eq_of_cons_eq (hAccepts'.one.symm.trans hAccepts.one)
  obtain ⟨_, hChallenge, hOrigin⟩ := verifyClientData_unique hAccepts.clientData hAccepts'.clientData
  exact ⟨hChallenge, hOrigin, sha256_of_verifyAuthenticatorData hAccepts.authData hAccepts'.authData,
    hAccepts'.credentialId.symm.trans hAccepts.credentialId⟩

/-- An attestation object and client data that are accepted twice were expected twice. -/
theorem verifyRegistration_unique (hDecodes : P.DecodesAttestation)
    {challenge challenge' rpId rpId' origin origin' attestationObject clientDataJson : Bytes}
    {result result' : RegistrationResult}
    (h : verifyRegistration P challenge rpId origin attestationObject clientDataJson = .ok result)
    (h' : verifyRegistration P challenge' rpId' origin' attestationObject clientDataJson =
      .ok result') :
    challenge' = challenge ∧ origin' = origin ∧ P.sha256 rpId' = P.sha256 rpId := by
  obtain ⟨credential, authData, _, _, hRegisters⟩ := registers_of_verifyRegistration h
  obtain ⟨credential', authData', _, _, hRegisters'⟩ := registers_of_verifyRegistration h'
  have hRaw := hDecodes _ _ _ _ _ _ _ hRegisters.parsed hRegisters'.parsed
  rw [hRegisters.raw, hRegisters'.raw] at hRaw
  obtain rfl := Option.some.inj hRaw
  obtain ⟨_, hChallenge, hOrigin⟩ :=
    verifyClientData_unique hRegisters.clientData hRegisters'.clientData
  exact ⟨hChallenge, hOrigin, sha256_of_verifyAuthenticatorData hRegisters.attends hRegisters'.attends⟩

/-- The type in the client data tells the two ceremonies apart. -/
theorem not_both_ceremonies {credential : CredentialRecord}
    {challenge challenge' rpId rpId' origin origin' attestationObject clientDataJson : Bytes}
    {response : FIDOSignResponse} {counter : UInt32} {result : RegistrationResult}
    (hSame : Convert.base64URLDecode clientDataJson = Convert.base64URLDecode response.clientdata)
    (h : verifyAssertion P credential challenge rpId origin response = .ok counter) :
    verifyRegistration P challenge' rpId' origin' attestationObject clientDataJson ≠ .ok result := by
  intro h'
  obtain ⟨assertion, publicKey, hAccepts⟩ := verifyAssertion_iff.mp h
  obtain ⟨_, _, _, _, hRegisters⟩ := registers_of_verifyRegistration h'
  have hClientData := hRegisters.clientData
  rw [hSame] at hClientData
  obtain ⟨hType, _, _⟩ := verifyClientData_unique hAccepts.clientData hClientData
  exact absurd hType (by decide)

/-- A proof that one ceremony accepts is rejected by every other one. -/
theorem proofs_not_transferable (hDecodes : P.DecodesAttestation) :
    (∀ credential challenge rpId origin response counter,
      verifyAssertion P credential challenge rpId origin response = .ok counter →
      ∀ credential' challenge' rpId' origin',
        Elsewhere P challenge rpId origin challenge' rpId' origin' ∨
          credential'.credentialId ≠ credential.credentialId →
        Rejects (verifyAssertion P credential' challenge' rpId' origin' response)) ∧
    (∀ challenge rpId origin attestationObject clientDataJson result,
      verifyRegistration P challenge rpId origin attestationObject clientDataJson = .ok result →
      ∀ challenge' rpId' origin', Elsewhere P challenge rpId origin challenge' rpId' origin' →
        Rejects (verifyRegistration P challenge' rpId' origin' attestationObject clientDataJson)) ∧
    ∀ credential challenge rpId origin response challenge' rpId' origin' attestationObject
      clientDataJson,
      Convert.base64URLDecode clientDataJson = Convert.base64URLDecode response.clientdata →
      Rejects (verifyAssertion P credential challenge rpId origin response) ∨
        Rejects (verifyRegistration P challenge' rpId' origin' attestationObject clientDataJson) := by
  refine ⟨?_, ?_, ?_⟩
  · intro credential challenge rpId origin response counter h credential' challenge' rpId' origin'
      hOther
    refine rejects_of_ne fun counter' h' => ?_
    obtain ⟨hChallenge, hOrigin, hHash, hId⟩ := verifyAssertion_unique h h'
    rcases hOther with (hNot | hNot | hNot) | hNot
    · exact hNot hChallenge
    · exact hNot hOrigin
    · exact hNot hHash
    · exact hNot hId
  · intro challenge rpId origin attestationObject clientDataJson result h challenge' rpId' origin'
      hOther
    refine rejects_of_ne fun result' h' => ?_
    obtain ⟨hChallenge, hOrigin, hHash⟩ := verifyRegistration_unique hDecodes h h'
    rcases hOther with hNot | hNot | hNot
    · exact hNot hChallenge
    · exact hNot hOrigin
    · exact hNot hHash
  · intro credential challenge rpId origin response challenge' rpId' origin' attestationObject
      clientDataJson hSame
    cases hAssertion : verifyAssertion P credential challenge rpId origin response with
    | error error => exact .inl ⟨error, rfl⟩
    | ok counter => exact .inr (rejects_of_ne fun result => not_both_ceremonies hSame hAssertion)

section Example

open Reference

/-- A library that accepts every signature, and decodes one attestation object. -/
def ceremonyPlatform : Platform :=
  platform { securityKey [] with
    cborLoad := loadsPrefix keyEncoding keyItem
    fidoAssertVerify := fun _ => some FIDO_OK
    fidoCredSetup := fun _ _ attestation =>
      if attestation = [1] then
        .parsed { format := some (text "none"), x5cLength := 0, verify := 0, verifySelf := 0
                  authDataRaw := some attestedKey.build, id := some [9] }
      else .failed .decodeAttestation (-1) }

theorem decodesAttestation_ceremonyPlatform : ceremonyPlatform.DecodesAttestation := by
  intro attestation rpId clientData credential rpId' clientData' credential' h h'
  exact congrArg _ (CredentialSetup.parsed.inj (h'.symm.trans h))

/-- Client data without a `crossOrigin` field. -/
def clientDataOf (type : String) : Bytes :=
  Convert.base64URLEncode (text "\x7b\"type\":\"" ++ text type ++
    text "\",\"challenge\":\"Y2hhbGxlbmdl\",\"origin\":\"https://login.local\"\x7d")

def exampleRpId : Bytes := LocalCredentialStore.rpIdOf (List.replicate 32 48)

def exampleResponse : FIDOSignResponse where
  clientdata := clientDataOf "webauthn.get"
  assertions := [{ credentialid := text "CQ"
                   authenticatordata := Convert.base64URLEncode attestedKey.build
                   signaturedata := text "AQ"
                   userHandle := [] }]

theorem accepted_examples :
    (verifyAssertion ceremonyPlatform (keyCredential (text "CQ")) (text "Y2hhbGxlbmdl") exampleRpId
        (text "https://login.local") exampleResponse).isOk = true ∧
      (verifyRegistration ceremonyPlatform (text "Y2hhbGxlbmdl") exampleRpId
        (text "https://login.local") (text "AQ") (clientDataOf "webauthn.create")).isOk = true := by
  decide +kernel

theorem proofs_not_transferable_example :
    Rejects (verifyAssertion ceremonyPlatform (keyCredential (text "CQ")) (text "b3RoZXI")
        exampleRpId (text "https://login.local") exampleResponse) ∧
      Rejects (verifyRegistration ceremonyPlatform (text "Y2hhbGxlbmdl") [] (text "https://login.local")
        (text "AQ") (clientDataOf "webauthn.create")) ∧
      Rejects (verifyRegistration ceremonyPlatform (text "Y2hhbGxlbmdl") exampleRpId
        (text "https://login.local") (text "AQ") (clientDataOf "webauthn.get")) := by
  obtain ⟨hAssertion, hRegistration⟩ := accepted_examples
  obtain ⟨counter, hCounter⟩ := ok_of_isOk hAssertion
  obtain ⟨result, hResult⟩ := ok_of_isOk hRegistration
  obtain ⟨hOtherAssertion, hOtherRegistration, hApart⟩ :=
    proofs_not_transferable decodesAttestation_ceremonyPlatform
  refine ⟨?_, ?_, ?_⟩
  · exact hOtherAssertion _ _ _ _ _ _ hCounter _ _ _ _ (.inl (.inl (by decide)))
  · exact hOtherRegistration _ _ _ _ _ _ hResult _ _ _ (.inr (.inr (by decide +kernel)))
  · -- the response is accepted, so its client data is of the other type
    have hOne := hApart (keyCredential (text "CQ")) (text "Y2hhbGxlbmdl") exampleRpId
      (text "https://login.local") exampleResponse (text "Y2hhbGxlbmdl") exampleRpId
      (text "https://login.local") (text "AQ") (clientDataOf "webauthn.get") rfl
    refine hOne.resolve_left ?_
    rintro ⟨error, hError⟩
    rw [hCounter] at hError
    cases hError

end Example

end FidoVerifier
end WindowsFidoLogon
