import WindowsFidoLogon.Model.Convert

/-!
# The WebAuthn verifier

`FidoVerifier.cpp`.  A function with a `bool` result and an `error` reference
becomes one that returns the value it sets or the error text.
-/

namespace WindowsFidoLogon
namespace FidoVerifier

open Text

def kUserPresent : UInt8 := 0x01
def kUserVerified : UInt8 := 0x04
def kAttestedCredentialData : UInt8 := 0x40

/-- `COSE_ES256` of libfido2. -/
def COSE_ES256 : Int := -7

variable (P : Platform)

/-- The comparisons inside the `try` block of `VerifyClientData`: the outer
error is an exception, the inner one a refusal. -/
def checkClientData (clientData expectedType expectedChallenge expectedOrigin : Bytes) :
    Except Bytes (Except Bytes Unit) := do
  let value ← P.parse clientData
  if (← value.valueOr Json.getString (text "type") []) ≠ expectedType then
    return .error (text "client data type mismatch")
  if (← value.valueOr Json.getString (text "challenge") []) ≠ expectedChallenge then
    return .error (text "challenge mismatch")
  if (← value.valueOr Json.getString (text "origin") []) ≠ expectedOrigin then
    return .error (text "origin mismatch")
  if (← value.valueOr Json.getBool (text "crossOrigin") false) then
    return .error (text "cross-origin ceremony rejected")
  return .ok ()

def verifyClientData (clientData expectedType expectedChallenge expectedOrigin : Bytes) :
    Except Bytes Unit :=
  match checkClientData P clientData expectedType expectedChallenge expectedOrigin with
  | .ok verdict => verdict
  | .error _ => .error (text "invalid client data JSON")

/-- The big-endian counter in bytes 33 to 36. -/
def counterOf (authData : Bytes) : UInt32 :=
  ((authData.getD 33 0).toUInt32 <<< 24) ||| ((authData.getD 34 0).toUInt32 <<< 16) |||
    ((authData.getD 35 0).toUInt32 <<< 8) ||| (authData.getD 36 0).toUInt32

/-- `VerifyAuthenticatorData`: the signature counter of acceptable data. -/
def verifyAuthenticatorData (authData rpId : Bytes) : Except Bytes UInt32 :=
  if authData.length < 37 then .error (text "authenticator data is too short")
  else
    match P.sha256 rpId with
    | none => .error (text "unable to hash RP ID")
    | some expectedRpHash =>
        let flags := authData.getD 32 0
        if authData.take 32 ≠ expectedRpHash then .error (text "RP ID hash mismatch")
        else if flags &&& kUserPresent = 0 then .error (text "user presence flag missing")
        else if flags &&& kUserVerified = 0 then .error (text "user verification flag missing")
        else .ok (counterOf authData)

/-! ## COSE keys -/

/-- `static_cast<int>` of a 64-bit unsigned number. -/
def narrow (value : Nat) : Int :=
  Int.bmod value (2 ^ 32)

/-- The locals of the loop in `CoseEs256Coordinates`. -/
structure CoseState where
  keyType : Option Int := none
  algorithm : Option Int := none
  curve : Option Int := none
  x : Option Bytes := none
  y : Option Bytes := none

/-- The integer label of a map entry; other entries are skipped. -/
def coseLabel : CborItem → Option Int
  | .uint value => some (narrow value)
  | .negint value => some (-1 - narrow value)
  | _ => none

/-- One map entry of the loop; `none` where the source returns false. -/
def coseStep (s : CoseState) (key value : CborItem) : Option CoseState :=
  match coseLabel key, value with
  | some 1, .uint n =>
      if s.keyType.isSome then none else some { s with keyType := some (narrow n) }
  | some 3, .negint n =>
      if s.algorithm.isSome then none else some { s with algorithm := some (-1 - narrow n) }
  | some (-1), .uint n =>
      if s.curve.isSome then none else some { s with curve := some (narrow n) }
  | some (-2), .bytestring handle =>
      match handle with
      | some bytes =>
          if s.x.isSome ∨ bytes.length ≠ 32 then none else some { s with x := some bytes }
      | none => none
  | some (-3), .bytestring handle =>
      match handle with
      | some bytes =>
          if s.y.isSome ∨ bytes.length ≠ 32 then none else some { s with y := some bytes }
      | none => none
  | _, _ => some s

def coseLoop : CoseState → List (CborItem × CborItem) → Option CoseState
  | s, [] => some s
  | s, (key, value) :: rest =>
      match coseStep s key value with
      | none => none
      | some s' => coseLoop s' rest

/-- `CoseEs256Coordinates`: the 64 coordinate bytes of an ES256 key. -/
def coseEs256Coordinates (cose : Bytes) : Option Bytes :=
  match P.cborLoad cose with
  | some (.map pairs, read) =>
      if read ≠ cose.length ∨ pairs.length > 32 then none
      else
        match coseLoop {} pairs with
        | some { keyType := some 2, algorithm := some algorithm, curve := some 1,
                 x := some x, y := some y } =>
            if algorithm = COSE_ES256 ∧ x.length = 32 ∧ y.length = 32 then some (x ++ y)
            else none
        | _ => none
  | _ => none

/-- `ExtractAttestedCredential`: the credential id and the COSE key bytes. -/
def extractAttestedCredential (authData : Bytes) : Except Bytes (Bytes × Bytes) :=
  if authData.length < 55 ∨ (authData.getD 32 0) &&& kAttestedCredentialData = 0 then
    .error (text "attested credential data is missing")
  else
    let idLength := ((authData.getD 53 0).toNat <<< 8) ||| (authData.getD 54 0).toNat
    let coseOffset := 55 + idLength
    if idLength = 0 ∨ idLength > 1024 ∨ coseOffset ≥ authData.length then
      .error (text "invalid attested credential length")
    else
      let credentialId := (authData.drop 55).take idLength
      match P.cborLoad (authData.drop coseOffset) with
      | some (.map _, read) =>
          if read = 0 then .error (text "invalid COSE public key")
          else
            let cose := (authData.drop coseOffset).take read
            match coseEs256Coordinates P cose with
            | none => .error (text "credential is not an ES256 public key")
            | some _ => .ok (credentialId, cose)
      | _ => .error (text "invalid COSE public key")

/-! ## The two ceremonies -/

/-- `VerifyAssertion`: the new signature counter of an accepted response. -/
def verifyAssertion (credential : CredentialRecord)
    (expectedChallenge expectedRpId expectedOrigin : Bytes) (response : FIDOSignResponse) :
    Except Bytes UInt32 :=
  if credential.algorithm ≠ kEs256Algorithm then .error (text "unsupported credential algorithm")
  else
    match response.assertions with
    | [assertion] =>
        if assertion.credentialid ≠ credential.credentialId then
          .error (text "credential does not belong to account")
        else
          let clientData := Convert.base64URLDecode response.clientdata
          let authData := Convert.base64URLDecode assertion.authenticatordata
          let signature := Convert.base64URLDecode assertion.signaturedata
          let credentialId := Convert.base64URLDecode assertion.credentialid
          let cosePublicKey := Convert.base64URLDecode credential.cosePublicKey
          if clientData = [] ∨ authData = [] ∨ signature = [] ∨ credentialId = [] ∨
              cosePublicKey = [] then
            .error (text "invalid base64url assertion field")
          else
            match coseEs256Coordinates P cosePublicKey with
            | none => .error (text "invalid base64url assertion field")
            | some publicKey => do
                verifyClientData P clientData (text "webauthn.get") expectedChallenge expectedOrigin
                let newSignCount ← verifyAuthenticatorData P authData expectedRpId
                if credential.signCount ≠ 0 ∧
                    (newSignCount = 0 ∨ newSignCount ≤ credential.signCount) then
                  .error (text "signature counter did not increase")
                else
                  match P.fidoAssertVerify
                    { clientData, rpId := expectedRpId, authData, signature, publicKey } with
                  | none => .error (text "out of memory")
                  | some status =>
                      if status ≠ FIDO_OK then
                        .error (text "assertion signature verification failed: " ++
                          P.fidoStrerr status)
                      else .ok newSignCount
    | _ => .error (text "exactly one assertion is required")

/-- The attestation statement checks of `VerifyRegistration`. -/
def verifyAttestation (credential : ParsedCredential) : Except Bytes Bytes :=
  let format := credential.format.getD []
  if format ≠ text "none" ∧ format ≠ text "packed" then
    .error (text "unsupported attestation format")
  else if format = text "packed" then
    let status := if credential.x5cLength > 0 then credential.verify else credential.verifySelf
    if status ≠ FIDO_OK then
      .error (text "attestation verification failed: " ++ P.fidoStrerr status)
    else .ok format
  else .ok format

/-- The text of `operation` while a step runs. -/
def operationText : CredentialOperation → Bytes
  | .setType => text "set credential type"
  | .setRp => text "set RP"
  | .setClientData => text "set client data"
  | .requireUserVerification => text "require user verification"
  | .decodeAttestation => text "decode attestation object"

/-- `VerifyRegistration`: the credential to store. -/
def verifyRegistration (expectedChallenge expectedRpId expectedOrigin
    attestationObject clientDataJson : Bytes) : Except Bytes RegistrationResult := do
  let attestation := Convert.base64URLDecode attestationObject
  let clientData := Convert.base64URLDecode clientDataJson
  if attestation = [] ∨ clientData = [] then
    .error (text "invalid registration encoding")
  else
    verifyClientData P clientData (text "webauthn.create") expectedChallenge expectedOrigin
    match P.fidoCredSetup expectedRpId clientData attestation with
    | .outOfMemory => .error (text "out of memory")
    | .failed operation status =>
        .error (text "registration verification failed while attempting to " ++
          operationText operation ++ text ": " ++ P.fidoStrerr status)
    | .parsed credential =>
        let format ← verifyAttestation P credential
        match credential.authDataRaw with
        | none => .error (text "registration omitted authenticator data")
        | some [] => .error (text "registration omitted authenticator data")
        | some authData =>
            let signCount ← verifyAuthenticatorData P authData expectedRpId
            let (extractedId, cose) ← extractAttestedCredential P authData
            match credential.id with
            | none => .error (text "registration omitted credential ID")
            | some [] => .error (text "registration omitted credential ID")
            | some parsedId =>
                if parsedId ≠ extractedId then
                  .error (text "credential ID mismatch in attestation")
                else
                  let result : RegistrationResult :=
                    { credentialId := Convert.base64URLEncode extractedId
                      cosePublicKey := Convert.base64URLEncode cose
                      aaguid := Convert.base64URLEncode ((authData.drop 37).take 16)
                      clientDataJson
                      authenticatorData := Convert.base64URLEncode authData
                      attestationStatement := attestationObject
                      attestationFormat := format
                      signCount }
                  if result.credentialId = [] ∨ result.cosePublicKey = [] then
                    .error (text "registration omitted credential material")
                  else .ok result

end FidoVerifier
end WindowsFidoLogon
