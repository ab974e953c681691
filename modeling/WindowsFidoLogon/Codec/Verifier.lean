import WindowsFidoLogon.Library.Program
import WindowsFidoLogon.Model.FidoVerifier

/-!
# What the verifier accepts

Each check of the verifier as an equivalence: the data that it accepts, and what it
returns for them.  Nothing below looks at the order of the checks again.
-/

namespace WindowsFidoLogon
namespace FidoVerifier

open Program Text

variable {P : Platform}

/-- Authenticator data for this RP ID, with the user present and verified. -/
structure Attends (P : Platform) (authData rpId : Bytes) : Prop where
  length : 37 ≤ authData.length
  rpIdHash : P.sha256 rpId = some (authData.take 32)
  present : authData.getD 32 0 &&& kUserPresent ≠ 0
  verified : authData.getD 32 0 &&& kUserVerified ≠ 0

theorem verifyAuthenticatorData_iff {authData rpId : Bytes} {counter : UInt32} :
    verifyAuthenticatorData P authData rpId = .ok counter ↔
      Attends P authData rpId ∧ counter = counterOf authData := by
  unfold verifyAuthenticatorData
  constructor
  · intro h
    split_ifs at h with hShort
    cases hHash : P.sha256 rpId with
    | none =>
        rw [hHash] at h
        cases h
    | some expected =>
        rw [hHash] at h
        dsimp only at h
        split_ifs at h with hMismatch hAbsent hUnverified
        refine ⟨⟨by omega, ?_, hAbsent, hUnverified⟩, (Except.ok.inj h).symm⟩
        rw [hHash, not_not.mp hMismatch]
  · rintro ⟨hAttends, rfl⟩
    have hLong := hAttends.length
    rw [if_neg (by omega), hAttends.rpIdHash]
    dsimp only
    rw [if_neg (by simp), if_neg hAttends.present, if_neg hAttends.verified]

/-- Client data of this type, for this challenge and this origin. -/
structure Names (P : Platform) (clientData type challenge origin : Bytes) (value : Json) : Prop where
  parsed : P.parse clientData = .ok value
  type : value.valueOr Json.getString (text "type") [] = .ok type
  challenge : value.valueOr Json.getString (text "challenge") [] = .ok challenge
  origin : value.valueOr Json.getString (text "origin") [] = .ok origin
  crossOrigin : value.valueOr Json.getBool (text "crossOrigin") false = .ok false

theorem checkClientData_of_names {clientData type challenge origin : Bytes} {value : Json}
    (h : Names P clientData type challenge origin value) :
    checkClientData P clientData type challenge origin = .ok (.ok ()) := by
  unfold checkClientData
  rw [h.parsed]
  show (do
    if (← value.valueOr Json.getString (text "type") []) ≠ type then
      return .error (text "client data type mismatch")
    if (← value.valueOr Json.getString (text "challenge") []) ≠ challenge then
      return .error (text "challenge mismatch")
    if (← value.valueOr Json.getString (text "origin") []) ≠ origin then
      return .error (text "origin mismatch")
    if (← value.valueOr Json.getBool (text "crossOrigin") false) then
      return .error (text "cross-origin ceremony rejected")
    return .ok () : Except Bytes (Except Bytes Unit)) = _
  rw [h.type, h.challenge, h.origin, h.crossOrigin]
  simp [bind, Except.bind, pure, Except.pure]

theorem verifyClientData_of_names {clientData type challenge origin : Bytes} {value : Json}
    (h : Names P clientData type challenge origin value) :
    verifyClientData P clientData type challenge origin = .ok () := by
  unfold verifyClientData
  rw [checkClientData_of_names h]

theorem names_of_checkClientData {clientData type challenge origin : Bytes}
    (h : checkClientData P clientData type challenge origin = .ok (.ok ())) :
    ∃ value, Names P clientData type challenge origin value := by
  obtain ⟨value, hParsed, h⟩ := except_bind_eq_ok.mp h
  obtain ⟨foundType, hType, h⟩ := except_bind_eq_ok.mp h
  split_ifs at h with hTypes
  · cases Except.ok.inj h
  obtain ⟨foundChallenge, hChallenge, h⟩ := except_bind_eq_ok.mp h
  split_ifs at h with hChallenges
  · cases Except.ok.inj h
  obtain ⟨foundOrigin, hOrigin, h⟩ := except_bind_eq_ok.mp h
  split_ifs at h with hOrigins
  · cases Except.ok.inj h
  obtain ⟨crossOrigin, hCross, h⟩ := except_bind_eq_ok.mp h
  cases crossOrigin with
  | true => cases Except.ok.inj h
  | false =>
      obtain rfl := not_not.mp hTypes
      obtain rfl := not_not.mp hChallenges
      obtain rfl := not_not.mp hOrigins
      exact ⟨value, hParsed, hType, hChallenge, hOrigin, hCross⟩

/-- Client data is accepted exactly when it names what is expected. -/
theorem verifyClientData_iff {clientData type challenge origin : Bytes} :
    verifyClientData P clientData type challenge origin = .ok () ↔
      ∃ value, Names P clientData type challenge origin value := by
  constructor
  · intro h
    unfold verifyClientData at h
    split at h
    · next verdict hCheck => exact names_of_checkClientData (h ▸ hCheck)
    · cases h
  · rintro ⟨value, hNames⟩
    exact verifyClientData_of_names hNames

/-- Everything that `VerifyAssertion` checks, and the counter it returns. -/
structure Accepts (P : Platform) (credential : CredentialRecord) (challenge rpId origin : Bytes)
    (response : FIDOSignResponse) (assertion : FIDOAssertionData) (publicKey : Bytes)
    (counter : UInt32) : Prop where
  algorithm : credential.algorithm = kEs256Algorithm
  one : response.assertions = [assertion]
  credentialId : assertion.credentialid = credential.credentialId
  clientData_ne : Convert.base64URLDecode response.clientdata ≠ []
  authData_ne : Convert.base64URLDecode assertion.authenticatordata ≠ []
  signature_ne : Convert.base64URLDecode assertion.signaturedata ≠ []
  credentialId_ne : Convert.base64URLDecode assertion.credentialid ≠ []
  cosePublicKey_ne : Convert.base64URLDecode credential.cosePublicKey ≠ []
  key : coseEs256Coordinates P (Convert.base64URLDecode credential.cosePublicKey) =
    some publicKey
  clientData : verifyClientData P (Convert.base64URLDecode response.clientdata)
    (text "webauthn.get") challenge origin = .ok ()
  authData : verifyAuthenticatorData P (Convert.base64URLDecode assertion.authenticatordata) rpId =
    .ok counter
  advances : credential.signCount ≠ 0 → credential.signCount < counter
  signature : P.fidoAssertVerify
    { clientData := Convert.base64URLDecode response.clientdata
      rpId
      authData := Convert.base64URLDecode assertion.authenticatordata
      signature := Convert.base64URLDecode assertion.signaturedata
      publicKey } = some FIDO_OK

/-- `VerifyAssertion` accepts exactly what passes all of its checks. -/
theorem verifyAssertion_iff {credential : CredentialRecord} {challenge rpId origin : Bytes}
    {response : FIDOSignResponse} {counter : UInt32} :
    verifyAssertion P credential challenge rpId origin response = .ok counter ↔
      ∃ assertion publicKey,
        Accepts P credential challenge rpId origin response assertion publicKey counter := by
  unfold verifyAssertion
  constructor
  · intro h
    split_ifs at h with hAlgorithm
    rcases hOne : response.assertions with _ | ⟨assertion, _ | ⟨second, more⟩⟩
    · rw [hOne] at h
      cases h
    · rw [hOne] at h
      dsimp only at h
      split_ifs at h with hId hEmpty
      obtain ⟨hData, hAuth, hSignature, hCredential, hCose⟩ :
          Convert.base64URLDecode response.clientdata ≠ [] ∧
          Convert.base64URLDecode assertion.authenticatordata ≠ [] ∧
          Convert.base64URLDecode assertion.signaturedata ≠ [] ∧
          Convert.base64URLDecode assertion.credentialid ≠ [] ∧
          Convert.base64URLDecode credential.cosePublicKey ≠ [] := by
        simpa only [not_or] using hEmpty
      cases hKey : coseEs256Coordinates P (Convert.base64URLDecode credential.cosePublicKey) with
      | none =>
          rw [hKey] at h
          cases h
      | some publicKey =>
          rw [hKey] at h
          obtain ⟨_, hClientData, h⟩ := except_bind_eq_ok.mp h
          obtain ⟨counter', hAuthData, h⟩ := except_bind_eq_ok.mp h
          split_ifs at h with hStale
          generalize hVerdict : P.fidoAssertVerify _ = verdict at h
          rcases verdict with _ | status
          · cases h
          · dsimp only at h
            split_ifs at h with hFailed
            obtain rfl : counter' = counter := Except.ok.inj h
            obtain rfl : status = FIDO_OK := not_not.mp hFailed
            refine ⟨assertion, publicKey, not_not.mp hAlgorithm, hOne, not_not.mp hId, hData, hAuth,
              hSignature, hCredential, hCose, hKey, hClientData, hAuthData, fun hCounts => ?_, hVerdict⟩
            -- a counter that counts has to grow
            by_contra hNot
            exact hStale ⟨hCounts, .inr (UInt32.not_lt.mp hNot)⟩
    · rw [hOne] at h
      cases h
  · rintro ⟨assertion, publicKey, h⟩
    rw [if_neg (not_not.mpr h.algorithm), h.one]
    dsimp only
    rw [if_neg (not_not.mpr h.credentialId), if_neg (by
      simp only [not_or]
      exact ⟨h.clientData_ne, h.authData_ne, h.signature_ne, h.credentialId_ne, h.cosePublicKey_ne⟩),
      h.key]
    refine except_bind_eq_ok.mpr ⟨(), h.clientData, except_bind_eq_ok.mpr ⟨counter, h.authData, ?_⟩⟩
    have hFresh : ¬ (credential.signCount ≠ 0 ∧ (counter = 0 ∨ counter ≤ credential.signCount)) := by
      rintro ⟨hCounts, hZero | hOld⟩
      · have hGrows := h.advances hCounts
        rw [hZero] at hGrows
        exact absurd hGrows (UInt32.not_lt.mpr (UInt32.zero_le))
      · exact absurd (h.advances hCounts) (UInt32.not_lt.mpr hOld)
    rw [if_neg hFresh, h.signature]
    rfl

/-- The counter of an accepted assertion is that of its authenticator data. -/
theorem Accepts.counter {credential : CredentialRecord} {challenge rpId origin : Bytes}
    {response : FIDOSignResponse} {assertion : FIDOAssertionData} {publicKey : Bytes}
    {counter : UInt32}
    (h : Accepts P credential challenge rpId origin response assertion publicKey counter) :
    counter = counterOf (Convert.base64URLDecode assertion.authenticatordata) :=
  (verifyAuthenticatorData_iff.mp h.authData).2

/-- A counter is never moved back. -/
theorem le_of_verifyAssertion {credential : CredentialRecord} {challenge rpId origin : Bytes}
    {response : FIDOSignResponse} {counter : UInt32}
    (h : verifyAssertion P credential challenge rpId origin response = .ok counter) :
    credential.signCount ≤ counter := by
  obtain ⟨_, _, hAccepts⟩ := verifyAssertion_iff.mp h
  by_cases hZero : credential.signCount = 0
  · rw [hZero]
    exact UInt32.zero_le
  · exact UInt32.le_of_lt (hAccepts.advances hZero)

/-! ## Registration -/

/-- Everything that `VerifyRegistration` checks, and the credential it returns. -/
structure Registers (P : Platform) (challenge rpId origin attestationObject clientDataJson : Bytes)
    (credential : ParsedCredential) (authData credentialId cose : Bytes)
    (result : RegistrationResult) : Prop where
  attestation_ne : Convert.base64URLDecode attestationObject ≠ []
  clientData_ne : Convert.base64URLDecode clientDataJson ≠ []
  clientData : verifyClientData P (Convert.base64URLDecode clientDataJson)
    (text "webauthn.create") challenge origin = .ok ()
  parsed : P.fidoCredSetup rpId (Convert.base64URLDecode clientDataJson)
    (Convert.base64URLDecode attestationObject) = .parsed credential
  format : verifyAttestation P credential = .ok result.attestationFormat
  raw : credential.authDataRaw = some authData
  attends : verifyAuthenticatorData P authData rpId = .ok result.signCount
  extracted : extractAttestedCredential P authData = .ok (credentialId, cose)
  id : credential.id = some credentialId
  id_ne : credentialId ≠ []
  material : result.credentialId ≠ [] ∧ result.cosePublicKey ≠ []
  returned : result = {
    credentialId := Convert.base64URLEncode credentialId
    cosePublicKey := Convert.base64URLEncode cose
    aaguid := Convert.base64URLEncode ((authData.drop 37).take 16)
    clientDataJson
    authenticatorData := Convert.base64URLEncode authData
    attestationStatement := attestationObject
    attestationFormat := result.attestationFormat
    signCount := result.signCount }

theorem registers_of_verifyRegistration
    {challenge rpId origin attestationObject clientDataJson : Bytes} {result : RegistrationResult}
    (h : verifyRegistration P challenge rpId origin attestationObject clientDataJson = .ok result) :
    ∃ credential authData credentialId cose,
      Registers P challenge rpId origin attestationObject clientDataJson credential authData
        credentialId cose result := by
  unfold verifyRegistration at h
  dsimp only at h
  split_ifs at h with hEmpty
  rw [not_or] at hEmpty
  obtain ⟨_, hClientData, h⟩ := except_bind_eq_ok.mp h
  split at h
  · cases h
  · cases h
  · next credential hParsed =>
      obtain ⟨format, hFormat, h⟩ := except_bind_eq_ok.mp h
      split at h
      · cases h
      · cases h
      · next authData _ hRaw =>
          obtain ⟨signCount, hAuthData, h⟩ := except_bind_eq_ok.mp h
          obtain ⟨⟨credentialId, cose⟩, hExtracted, h⟩ := except_bind_eq_ok.mp h
          split at h
          · cases h
          · cases h
          · next parsedId hNonempty hId =>
              dsimp only at h
              split_ifs at h with hSame hMaterial
              obtain rfl := Except.ok.inj h
              obtain rfl := not_not.mp hSame
              exact ⟨credential, authData, parsedId, cose, hEmpty.1, hEmpty.2, hClientData, hParsed,
                hFormat, hRaw, hAuthData, hExtracted, hId, hNonempty,
                not_or.mp hMaterial, rfl⟩

end FidoVerifier
end WindowsFidoLogon
