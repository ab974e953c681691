import WindowsFidoLogon.Codec.Base64
import WindowsFidoLogon.Codec.Verifier
import WindowsFidoLogon.Library.Block
import WindowsFidoLogon.Library.ByteOrder
import WindowsFidoLogon.Model.Reference

/-!
# Attested credential data

`VerifyRegistration` takes a counter, an AAGUID, a credential id and a COSE key out of
the authenticator data of a new credential.  The first half of this module follows
the same code once more with every access to the vector checked, and shows that
no access is outside of it.

`AttestedData` is such data in parts.  The code accepts exactly what can be built
from parts, and finds the parts it was built from.
-/

namespace WindowsFidoLogon

/-- An item takes at least one byte, none of them outside the input, and what follows
its last byte does not matter. -/
def Platform.MeasuresCbor (P : Platform) : Prop :=
  ∀ input item read, P.cborLoad input = some (item, read) →
    0 < read ∧ read ≤ input.length ∧
      ∀ rest, P.cborLoad (input.take read ++ rest) = some (item, read)

namespace FidoVerifier

open Program Text

variable {P : Platform}

/-! ## Parsing with checked reads -/

section Reads

variable (P)

/-- `VerifyAuthenticatorData`; `none` is a read outside of the vector. -/
def readAuthenticatorData (authData rpId : Bytes) : Option (Except Bytes UInt32) :=
  if authData.length < 37 then some (.error (text "authenticator data is too short"))
  else
    match P.sha256 rpId with
    | none => some (.error (text "unable to hash RP ID"))
    | some expectedRpHash => do
        let rpHash ← Block.read authData 0 32
        let flags ← authData[32]?
        if rpHash ≠ expectedRpHash then some (.error (text "RP ID hash mismatch"))
        else if flags &&& kUserPresent = 0 then some (.error (text "user presence flag missing"))
        else if flags &&& kUserVerified = 0 then
          some (.error (text "user verification flag missing"))
        else do
          let first ← authData[33]?
          let second ← authData[34]?
          let third ← authData[35]?
          let fourth ← authData[36]?
          some (.ok ((first.toUInt32 <<< 24) ||| (second.toUInt32 <<< 16) |||
            (third.toUInt32 <<< 8) ||| fourth.toUInt32))

/-- The rest of `ExtractAttestedCredential` once the length of the id is in bounds. -/
def readCose (authData : Bytes) (idLength : Nat) : Option (Except Bytes (Bytes × Bytes)) := do
  let coseOffset := 55 + idLength
  let credentialId ← Block.read authData 55 idLength
  -- the range that `cbor_load` is given
  let buffer ← Block.read authData coseOffset (authData.length - coseOffset)
  match P.cborLoad buffer with
  | some (.map _, read) =>
      if read = 0 then some (.error (text "invalid COSE public key"))
      else do
        let cose ← Block.read authData coseOffset read
        match coseEs256Coordinates P cose with
        | none => some (.error (text "credential is not an ES256 public key"))
        | some _ => some (.ok (credentialId, cose))
  | _ => some (.error (text "invalid COSE public key"))

/-- `ExtractAttestedCredential`. -/
def readAttestedCredential (authData : Bytes) : Option (Except Bytes (Bytes × Bytes)) :=
  if authData.length < 55 then some (.error (text "attested credential data is missing"))
  else do
    let flags ← authData[32]?
    if flags &&& kAttestedCredentialData = 0 then
      some (.error (text "attested credential data is missing"))
    else do
      let high ← authData[53]?
      let low ← authData[54]?
      let idLength := (high.toNat <<< 8) ||| low.toNat
      if idLength = 0 ∨ idLength > 1024 ∨ 55 + idLength ≥ authData.length then
        some (.error (text "invalid attested credential length"))
      else readCose P authData idLength

end Reads

/-- What `VerifyRegistration` takes from its authenticator data. -/
structure AttestedParts where
  signCount : UInt32
  aaguid : Bytes
  credentialId : Bytes
  cose : Bytes
  deriving DecidableEq, Repr

/-- `VerifyAuthenticatorData`, `ExtractAttestedCredential` and the AAGUID slice of
`VerifyRegistration`. -/
def attestedParts (P : Platform) (authData rpId : Bytes) : Except Bytes AttestedParts := do
  let signCount ← verifyAuthenticatorData P authData rpId
  let (credentialId, cose) ← extractAttestedCredential P authData
  return { signCount, aaguid := (authData.drop 37).take 16, credentialId, cose }

/-- The same with checked reads. -/
def readAttestedParts (P : Platform) (authData rpId : Bytes) :
    Option (Except Bytes AttestedParts) := do
  match ← readAuthenticatorData P authData rpId with
  | .error error => some (.error error)
  | .ok signCount =>
      match ← readAttestedCredential P authData with
      | .error error => some (.error error)
      | .ok (credentialId, cose) =>
          let aaguid ← Block.read authData 37 16
          some (.ok { signCount, aaguid, credentialId, cose })

/-- The length of the credential id in bytes 53 and 54. -/
def idLengthOf (authData : Bytes) : Nat :=
  ((authData.getD 53 0).toNat <<< 8) ||| (authData.getD 54 0).toNat

/-- `ExtractAttestedCredential` once the length of the id is in bounds. -/
def extractCose (P : Platform) (authData : Bytes) (idLength : Nat) : Except Bytes (Bytes × Bytes) :=
  match P.cborLoad (authData.drop (55 + idLength)) with
  | some (.map _, read) =>
      if read = 0 then .error (text "invalid COSE public key")
      else
        match coseEs256Coordinates P ((authData.drop (55 + idLength)).take read) with
        | none => .error (text "credential is not an ES256 public key")
        | some _ =>
            .ok ((authData.drop 55).take idLength, (authData.drop (55 + idLength)).take read)
  | _ => .error (text "invalid COSE public key")

theorem extractAttestedCredential_eq (authData : Bytes) :
    extractAttestedCredential P authData =
      if authData.length < 55 ∨ authData.getD 32 0 &&& kAttestedCredentialData = 0 then
        .error (text "attested credential data is missing")
      else if idLengthOf authData = 0 ∨ idLengthOf authData > 1024 ∨
          55 + idLengthOf authData ≥ authData.length then
        .error (text "invalid attested credential length")
      else extractCose P authData (idLengthOf authData) := rfl

theorem getElem?_eq_getD {data : Bytes} {i : Nat} (h : i < data.length) :
    data[i]? = some (data.getD i 0) := by
  rw [List.getD_eq_getElem?_getD, List.getElem?_eq_getElem h, Option.getD_some]

theorem readAuthenticatorData_eq (authData rpId : Bytes) :
    readAuthenticatorData P authData rpId = some (verifyAuthenticatorData P authData rpId) := by
  unfold readAuthenticatorData verifyAuthenticatorData
  by_cases hShort : authData.length < 37
  · rw [if_pos hShort, if_pos hShort]
  · rw [if_neg hShort, if_neg hShort]
    cases P.sha256 rpId with
    | none => rfl
    | some expected =>
        dsimp only
        rw [Block.read_of_le (by omega), List.drop_zero, Option.bind_eq_bind, Option.bind_some,
          getElem?_eq_getD (by omega), Option.bind_eq_bind, Option.bind_some,
          getElem?_eq_getD (by omega), getElem?_eq_getD (by omega), getElem?_eq_getD (by omega),
          getElem?_eq_getD (by omega)]
        split_ifs <;> rfl

/-- The contract of `cbor_load` is used here: the item it reports lies in the range
that it was given. -/
theorem readCose_eq (hMeasures : P.MeasuresCbor) {authData : Bytes} {idLength : Nat}
    (hInside : 55 + idLength < authData.length) :
    readCose P authData idLength = some (extractCose P authData idLength) := by
  have hBuffer : Block.read authData (55 + idLength) (authData.length - (55 + idLength)) =
      some (authData.drop (55 + idLength)) := by
    rw [Block.read_of_le (by omega), List.take_of_length_le (by rw [List.length_drop])]
  unfold readCose extractCose
  simp only [Block.read_of_le (show 55 + idLength ≤ authData.length by omega), hBuffer,
    Option.bind_eq_bind, Option.bind_some]
  rcases hLoad : P.cborLoad (authData.drop (55 + idLength)) with _ | ⟨item, read⟩
  · rfl
  · cases item with
    | map pairs =>
        obtain ⟨hPositive, hWithin, _⟩ := hMeasures _ _ _ hLoad
        rw [List.length_drop] at hWithin
        dsimp only
        rw [if_neg (by omega), if_neg (by omega), Block.read_of_le (by omega), Option.bind_some]
        cases coseEs256Coordinates P ((authData.drop (55 + idLength)).take read) <;> rfl
    | uint value => rfl
    | negint value => rfl
    | bytestring handle => rfl
    | other => rfl

theorem readAttestedCredential_eq (hMeasures : P.MeasuresCbor) (authData : Bytes) :
    readAttestedCredential P authData = some (extractAttestedCredential P authData) := by
  rw [extractAttestedCredential_eq]
  unfold readAttestedCredential
  by_cases hShort : authData.length < 55
  · rw [if_pos hShort, if_pos (.inl hShort)]
  · rw [if_neg hShort, getElem?_eq_getD (by omega), Option.bind_eq_bind, Option.bind_some]
    by_cases hFlag : authData.getD 32 0 &&& kAttestedCredentialData = 0
    · rw [if_pos hFlag, if_pos (.inr hFlag)]
    · rw [if_neg hFlag, if_neg (not_or.mpr ⟨hShort, hFlag⟩), getElem?_eq_getD (by omega),
        getElem?_eq_getD (by omega), Option.bind_some, Option.bind_some]
      change (if idLengthOf authData = 0 ∨ idLengthOf authData > 1024 ∨
        55 + idLengthOf authData ≥ authData.length then _
        else readCose P authData (idLengthOf authData)) = _
      by_cases hRefused : idLengthOf authData = 0 ∨ idLengthOf authData > 1024 ∨
        55 + idLengthOf authData ≥ authData.length
      · rw [if_pos hRefused, if_pos hRefused]
      · rw [if_neg hRefused, if_neg hRefused, readCose_eq hMeasures (by omega)]

/-- Extraction looks at 55 bytes before it accepts, so the AAGUID is there. -/
theorem length_of_extractAttestedCredential {authData : Bytes} {parts : Bytes × Bytes}
    (h : extractAttestedCredential P authData = .ok parts) : 55 ≤ authData.length := by
  by_contra hShort
  rw [extractAttestedCredential, if_pos (.inl (Nat.not_le.mp hShort))] at h
  cases h

/-- No read is outside of the vector. -/
theorem readAttestedParts_eq (hMeasures : P.MeasuresCbor) (authData rpId : Bytes) :
    readAttestedParts P authData rpId = some (attestedParts P authData rpId) := by
  unfold readAttestedParts attestedParts
  rw [readAuthenticatorData_eq, Option.bind_eq_bind, Option.bind_some,
    readAttestedCredential_eq hMeasures]
  cases verifyAuthenticatorData P authData rpId with
  | error error => rfl
  | ok signCount =>
      dsimp only
      rw [Option.bind_eq_bind, Option.bind_some]
      rcases hExtract : extractAttestedCredential P authData with error | ⟨credentialId, cose⟩
      · rfl
      · have hLong := length_of_extractAttestedCredential hExtract
        dsimp only
        rw [Block.read_of_le (by omega)]
        rfl

/-! ## The parts -/

/-- Attested credential data of a key that an RP ID can register, in parts. -/
structure AttestedData (P : Platform) (rpId : Bytes) where
  rpIdHash : Bytes
  flags : UInt8
  signCount : UInt32
  aaguid : Bytes
  credentialId : Bytes
  cose : Bytes
  rest : Bytes
  hashed : P.sha256 rpId = some rpIdHash
  length_rpIdHash : rpIdHash.length = 32
  present : flags &&& kUserPresent ≠ 0
  verified : flags &&& kUserVerified ≠ 0
  attested : flags &&& kAttestedCredentialData ≠ 0
  length_aaguid : aaguid.length = 16
  credentialId_ne : 1 ≤ credentialId.length
  credentialId_le : credentialId.length ≤ 1024
  es256 : (coseEs256Coordinates P cose).isSome = true

namespace AttestedData

variable {rpId : Bytes}

/-- The parts in the order of WebAuthn, numbers with their most significant byte first. -/
def build (a : AttestedData P rpId) : Bytes :=
  a.rpIdHash ++ [a.flags] ++ ByteOrder.bigEndian 4 a.signCount.toNat ++ a.aaguid ++
    ByteOrder.bigEndian 2 a.credentialId.length ++ a.credentialId ++ a.cose ++ a.rest

def parts (a : AttestedData P rpId) : AttestedParts where
  signCount := a.signCount
  aaguid := a.aaguid
  credentialId := a.credentialId
  cose := a.cose

/-- The parts as ranges of the data. -/
structure In (a : AttestedData P rpId) (authData : Bytes) : Prop where
  rpIdHash : Block.read authData 0 32 = some a.rpIdHash
  flags : Block.read authData 32 1 = some [a.flags]
  signCount : Block.read authData 33 4 = some (ByteOrder.bigEndian 4 a.signCount.toNat)
  aaguid : Block.read authData 37 16 = some a.aaguid
  length : Block.read authData 53 2 = some (ByteOrder.bigEndian 2 a.credentialId.length)
  credentialId : Block.read authData 55 a.credentialId.length = some a.credentialId
  cose : Block.read authData (55 + a.credentialId.length) a.cose.length = some a.cose
  rest : Block.read authData (55 + a.credentialId.length + a.cose.length) a.rest.length = some a.rest
  all : authData.length = 55 + a.credentialId.length + a.cose.length + a.rest.length

theorem in_build (a : AttestedData P rpId) : a.In a.build := by
  have hHash := a.length_rpIdHash
  have hAaguid := a.length_aaguid
  constructor
  case rpIdHash =>
    exact Block.read_eq_some_iff.mpr ⟨[], _, by simp only [build, List.append_assoc]; rfl, rfl, hHash⟩
  case flags =>
    exact Block.read_eq_some_iff.mpr ⟨a.rpIdHash, _, by simp only [build, List.append_assoc]; rfl,
      hHash, rfl⟩
  case signCount =>
    exact Block.read_eq_some_iff.mpr ⟨a.rpIdHash ++ [a.flags], _,
      by simp only [build, List.append_assoc]; rfl, by simp [hHash], by simp⟩
  case aaguid =>
    exact Block.read_eq_some_iff.mpr
      ⟨a.rpIdHash ++ [a.flags] ++ ByteOrder.bigEndian 4 a.signCount.toNat, _,
        by simp only [build, List.append_assoc]; rfl, by simp [hHash], hAaguid⟩
  case length =>
    exact Block.read_eq_some_iff.mpr
      ⟨a.rpIdHash ++ [a.flags] ++ ByteOrder.bigEndian 4 a.signCount.toNat ++ a.aaguid, _,
        by simp only [build, List.append_assoc]; rfl, by simp [hHash, hAaguid], by simp⟩
  case credentialId =>
    exact Block.read_eq_some_iff.mpr
      ⟨a.rpIdHash ++ [a.flags] ++ ByteOrder.bigEndian 4 a.signCount.toNat ++ a.aaguid ++
        ByteOrder.bigEndian 2 a.credentialId.length, _,
        by simp only [build, List.append_assoc]; rfl, by simp [hHash, hAaguid], rfl⟩
  case cose =>
    exact Block.read_eq_some_iff.mpr
      ⟨a.rpIdHash ++ [a.flags] ++ ByteOrder.bigEndian 4 a.signCount.toNat ++ a.aaguid ++
        ByteOrder.bigEndian 2 a.credentialId.length ++ a.credentialId, a.rest, rfl,
        by simp [hHash, hAaguid]; omega, rfl⟩
  case rest =>
    exact Block.read_eq_some_iff.mpr
      ⟨a.rpIdHash ++ [a.flags] ++ ByteOrder.bigEndian 4 a.signCount.toNat ++ a.aaguid ++
        ByteOrder.bigEndian 2 a.credentialId.length ++ a.credentialId ++ a.cose, [],
        (List.append_nil _).symm, by simp [hHash, hAaguid]; omega, rfl⟩
  case all =>
    simp only [build, List.length_append, hHash, hAaguid, ByteOrder.length_bigEndian,
      List.length_singleton]

/-- The ranges touch from the first byte to the last, so the data are the parts. -/
theorem build_of_in {a : AttestedData P rpId} {authData : Bytes} (h : a.In authData) :
    a.build = authData := by
  have hHead := Block.read_touching h.rpIdHash h.flags
  have hCounter := Block.read_touching hHead (by simpa using h.signCount)
  have hAaguid := Block.read_touching hCounter (by simpa using h.aaguid)
  have hLength := Block.read_touching hAaguid (by simpa using h.length)
  have hId := Block.read_touching hLength (by simpa using h.credentialId)
  have hCose := Block.read_touching hId (by simpa using h.cose)
  have hRest := Block.read_touching hCose (by simpa using h.rest)
  have hAll := Block.read_all authData
  rw [h.all] at hAll
  simp only [Nat.reduceAdd] at hRest
  exact Option.some.inj (hRest.symm.trans hAll)

end AttestedData

/-- The registration has the parts of its authenticator data, in base64url. -/
structure Encodes (result : RegistrationResult) (authData : Bytes) (parts : AttestedParts) :
    Prop where
  authenticatorData : result.authenticatorData = Convert.base64URLEncode authData
  signCount : result.signCount = parts.signCount
  aaguid : result.aaguid = Convert.base64URLEncode parts.aaguid
  credentialId : result.credentialId = Convert.base64URLEncode parts.credentialId
  cosePublicKey : result.cosePublicKey = Convert.base64URLEncode parts.cose

/-- A registered credential is the encoding of what its authenticator data hold. -/
theorem attestedParts_of_verifyRegistration
    {challenge rpId origin attestationObject clientDataJson : Bytes} {result : RegistrationResult}
    (h : verifyRegistration P challenge rpId origin attestationObject clientDataJson = .ok result) :
    ∃ authData parts, attestedParts P authData rpId = .ok parts ∧
      Encodes result authData parts := by
  obtain ⟨credential, authData, credentialId, cose, hRegisters⟩ := registers_of_verifyRegistration h
  refine ⟨authData, ⟨result.signCount, (authData.drop 37).take 16, credentialId, cose⟩, ?_, ?_⟩
  · refine except_bind_eq_ok.mpr ⟨result.signCount, hRegisters.attends, ?_⟩
    exact except_bind_eq_ok.mpr ⟨(credentialId, cose), hRegisters.extracted, rfl⟩
  · rw [hRegisters.returned]
    exact ⟨rfl, rfl, rfl, rfl, rfl⟩

/-! ## The numbers -/

theorem take_drop_cons {data : Bytes} {i : Nat} (h : i < data.length) (count : Nat) :
    (data.drop i).take (count + 1) = data.getD i 0 :: (data.drop (i + 1)).take count := by
  rw [List.drop_eq_getElem_cons h, List.take_succ_cons, List.getD_eq_getElem?_getD,
    List.getElem?_eq_getElem h, Option.getD_some]

theorem read_flags {authData : Bytes} (h : 37 ≤ authData.length) :
    Block.read authData 32 1 = some [authData.getD 32 0] := by
  rw [Block.read_of_le (by omega), take_drop_cons (by omega), List.take_zero]

theorem toNat_counterOf (authData : Bytes) :
    (counterOf authData).toNat = ByteOrder.ofBigEndian
      [authData.getD 33 0, authData.getD 34 0, authData.getD 35 0, authData.getD 36 0] := by
  have hHigh : ((authData.getD 33 0).toUInt32 <<< 24).toNat =
      (authData.getD 33 0).toNat * 2 ^ 24 := by
    have hByte := (authData.getD 33 0).toNat_lt
    rw [Convert.toNat_shiftLeft (n := 24) rfl, UInt8.toNat_toUInt32]
    omega
  have hLow := Convert.toNat_encodeBlock (authData.getD 34 0) (authData.getD 35 0)
    (authData.getD 36 0)
  have hSmall : (Convert.encodeBlock (authData.getD 34 0) (authData.getD 35 0)
      (authData.getD 36 0)).toNat < 2 ^ 24 := by
    have hSecond := (authData.getD 34 0).toNat_lt
    have hThird := (authData.getD 35 0).toNat_lt
    have hFourth := (authData.getD 36 0).toNat_lt
    omega
  have hSplit : counterOf authData = (authData.getD 33 0).toUInt32 <<< 24 |||
      Convert.encodeBlock (authData.getD 34 0) (authData.getD 35 0) (authData.getD 36 0) := by
    rw [counterOf, Convert.encodeBlock, UInt32.or_assoc, UInt32.or_assoc, UInt32.or_assoc]
  rw [hSplit, UInt32.toNat_or, hHigh, Convert.mul_pow_or hSmall, hLow]
  simp only [ByteOrder.ofBigEndian, List.reverse_cons, List.reverse_nil, List.nil_append,
    List.cons_append, ByteOrder.ofLittleEndian]
  omega

theorem read_counter {authData : Bytes} (h : 37 ≤ authData.length) :
    Block.read authData 33 4 = some (ByteOrder.bigEndian 4 (counterOf authData).toNat) := by
  rw [Block.read_of_le (by omega), take_drop_cons (by omega), take_drop_cons (by omega),
    take_drop_cons (by omega), take_drop_cons (by omega), List.take_zero, toNat_counterOf]
  exact congrArg some (ByteOrder.bigEndian_ofBigEndian _).symm

theorem idLengthOf_lt (authData : Bytes) : idLengthOf authData < 256 ^ 2 := by
  have hHigh := (authData.getD 53 0).toNat_lt
  have hLow := (authData.getD 54 0).toNat_lt
  rw [idLengthOf, Nat.shiftLeft_eq, Convert.mul_pow_or hLow]
  omega

theorem read_idLength {authData : Bytes} (h : 55 ≤ authData.length) :
    Block.read authData 53 2 = some (ByteOrder.bigEndian 2 (idLengthOf authData)) := by
  have hLow := (authData.getD 54 0).toNat_lt
  have hNumber : idLengthOf authData =
      ByteOrder.ofBigEndian [authData.getD 53 0, authData.getD 54 0] := by
    rw [idLengthOf, Nat.shiftLeft_eq, Convert.mul_pow_or hLow]
    simp only [ByteOrder.ofBigEndian, List.reverse_cons, List.reverse_nil, List.nil_append,
      List.cons_append, ByteOrder.ofLittleEndian]
    omega
  rw [Block.read_of_le (by omega), take_drop_cons (by omega), take_drop_cons (by omega),
    List.take_zero, hNumber]
  exact congrArg some (ByteOrder.bigEndian_ofBigEndian _).symm

/-- A number that fits is known by its bytes. -/
theorem bigEndian_inj {count m n : Nat} (hm : m < 256 ^ count) (hn : n < 256 ^ count)
    (h : ByteOrder.bigEndian count m = ByteOrder.bigEndian count n) : m = n := by
  rw [← ByteOrder.ofBigEndian_of_lt hm, h, ByteOrder.ofBigEndian_of_lt hn]

/-! ## What extraction accepts -/

/-- The credential id and the COSE key as ranges of the data. -/
structure Extracts (P : Platform) (authData credentialId cose : Bytes) : Prop where
  long : 55 ≤ authData.length
  attested : authData.getD 32 0 &&& kAttestedCredentialData ≠ 0
  length : idLengthOf authData = credentialId.length
  credentialId_ne : 1 ≤ credentialId.length
  credentialId_le : credentialId.length ≤ 1024
  idRange : Block.read authData 55 credentialId.length = some credentialId
  coseRange : Block.read authData (55 + credentialId.length) cose.length = some cose
  es256 : (coseEs256Coordinates P cose).isSome = true

theorem cborLoad_of_es256 {cose : Bytes} (h : (coseEs256Coordinates P cose).isSome = true) :
    ∃ pairs, P.cborLoad cose = some (.map pairs, cose.length) := by
  unfold coseEs256Coordinates at h
  split at h
  · next pairs read hLoad =>
      split_ifs at h with hRefused
      · cases h
      · rw [not_or, not_not] at hRefused
        exact ⟨pairs, hRefused.1 ▸ hLoad⟩
  · cases h

theorem extractCose_iff (hMeasures : P.MeasuresCbor) {authData credentialId cose : Bytes}
    {idLength : Nat} (hInside : 55 + idLength < authData.length) :
    extractCose P authData idLength = .ok (credentialId, cose) ↔
      credentialId.length = idLength ∧
        Block.read authData 55 idLength = some credentialId ∧
        Block.read authData (55 + idLength) cose.length = some cose ∧
        (coseEs256Coordinates P cose).isSome = true := by
  unfold extractCose
  constructor
  · intro h
    split at h
    · next pairs read hLoad =>
        split_ifs at h with hEmpty
        split at h
        · cases h
        · next coordinates hKey =>
            obtain ⟨_, hWithin, _⟩ := hMeasures _ _ _ hLoad
            rw [List.length_drop] at hWithin
            obtain ⟨rfl, rfl⟩ := Prod.mk.inj (Except.ok.inj h)
            have hCose : ((authData.drop (55 + idLength)).take read).length = read := by
              rw [List.length_take, List.length_drop]
              omega
            refine ⟨?_, Block.read_of_le (by omega), ?_, Option.isSome_of_mem hKey⟩
            · rw [List.length_take, List.length_drop]
              omega
            · rw [hCose, Block.read_of_le (by omega)]
    · cases h
  · rintro ⟨hLength, hId, hCose, hKey⟩
    obtain ⟨pairs, hLoad⟩ := cborLoad_of_es256 hKey
    obtain ⟨hPositive, _, hPrefix⟩ := hMeasures _ _ _ hLoad
    obtain ⟨before, after, hData, hBefore, _⟩ := Block.read_eq_some_iff.mp hCose
    have hDrop : authData.drop (55 + idLength) = cose ++ after := by
      rw [hData, ← hBefore, List.append_assoc, List.drop_left]
    -- what follows the item does not change what is loaded
    have hLoadAll := hPrefix after
    rw [List.take_length] at hLoadAll
    obtain ⟨coordinates, hCoordinates⟩ := Option.isSome_iff_exists.mp hKey
    rw [Block.read_of_le (by omega)] at hId
    rw [hDrop, hLoadAll]
    dsimp only
    rw [if_neg (by omega), List.take_left, hCoordinates, Option.some.inj hId]

theorem extractAttestedCredential_iff (hMeasures : P.MeasuresCbor)
    {authData credentialId cose : Bytes} :
    extractAttestedCredential P authData = .ok (credentialId, cose) ↔
      Extracts P authData credentialId cose := by
  rw [extractAttestedCredential_eq]
  constructor
  · intro h
    split_ifs at h with hMissing hRefused
    rw [not_or, Nat.not_lt] at hMissing
    simp only [not_or, Nat.not_lt, ge_iff_le, Nat.not_le] at hRefused
    obtain ⟨hPositive, hSmall, hInside⟩ := hRefused
    obtain ⟨hLength, hId, hCose, hKey⟩ := (extractCose_iff hMeasures hInside).mp h
    exact ⟨hMissing.1, hMissing.2, hLength.symm, by omega, by omega, hLength ▸ hId, hLength ▸ hCose,
      hKey⟩
  · intro h
    obtain ⟨_, hLoad⟩ := cborLoad_of_es256 h.es256
    have hPositive := (hMeasures _ _ _ hLoad).1
    have hRange : 55 + credentialId.length + cose.length ≤ authData.length :=
      Block.isSome_read_iff.mp (Option.isSome_of_mem h.coseRange)
    have hNonempty := h.credentialId_ne
    have hSmall := h.credentialId_le
    have hLength := h.length
    rw [if_neg (not_or.mpr ⟨Nat.not_lt.mpr h.long, h.attested⟩), if_neg (by omega),
      extractCose_iff hMeasures (by omega), hLength]
    exact ⟨rfl, h.idRange, h.coseRange, h.es256⟩

/-! ## Parsing and building -/

section Parsing

variable {authData rpId : Bytes} (hMeasures : P.MeasuresCbor)

include hMeasures

theorem in_of_attestedParts {parts : AttestedParts}
    (h : attestedParts P authData rpId = .ok parts) :
    ∃ a : AttestedData P rpId, a.In authData ∧ a.parts = parts := by
  obtain ⟨signCount, hVerify, h⟩ := except_bind_eq_ok.mp h
  obtain ⟨⟨credentialId, cose⟩, hExtract, h⟩ := except_bind_eq_ok.mp h
  obtain rfl := Except.ok.inj h
  obtain ⟨hAttends, rfl⟩ := verifyAuthenticatorData_iff.mp hVerify
  have hExtracts := (extractAttestedCredential_iff hMeasures).mp hExtract
  have hLong := hExtracts.long
  have hCoseEnd : 55 + credentialId.length + cose.length ≤ authData.length :=
    Block.isSome_read_iff.mp (Option.isSome_of_mem hExtracts.coseRange)
  have hHash : (authData.take 32).length = 32 := by
    rw [List.length_take]
    omega
  have hAaguid : ((authData.drop 37).take 16).length = 16 := by
    rw [List.length_take, List.length_drop]
    omega
  refine ⟨{ rpIdHash := authData.take 32
            flags := authData.getD 32 0
            signCount := counterOf authData
            aaguid := (authData.drop 37).take 16
            credentialId
            cose
            rest := authData.drop (55 + credentialId.length + cose.length)
            hashed := hAttends.rpIdHash
            length_rpIdHash := hHash
            present := hAttends.present
            verified := hAttends.verified
            attested := hExtracts.attested
            length_aaguid := hAaguid
            credentialId_ne := hExtracts.credentialId_ne
            credentialId_le := hExtracts.credentialId_le
            es256 := hExtracts.es256 }, ?_, rfl⟩
  constructor
  case rpIdHash => exact Block.read_of_le (by omega)
  case flags => exact read_flags (by omega)
  case signCount => exact read_counter (by omega)
  case aaguid => exact Block.read_of_le (by omega)
  case length => exact hExtracts.length ▸ read_idLength hLong
  case credentialId => exact hExtracts.idRange
  case cose => exact hExtracts.coseRange
  case rest =>
    dsimp only
    rw [Block.read_of_le (by rw [List.length_drop]; omega), List.take_of_length_le (by simp)]
  case all =>
    dsimp only
    rw [List.length_drop]
    omega

theorem attestedParts_of_in {a : AttestedData P rpId} (h : a.In authData) :
    attestedParts P authData rpId = .ok a.parts := by
  have hAll := h.all
  obtain ⟨_, hLoad⟩ := cborLoad_of_es256 a.es256
  have hCose := (hMeasures _ _ _ hLoad).1
  have hNonempty := a.credentialId_ne
  have hSmall := a.credentialId_le
  have hHash : authData.take 32 = a.rpIdHash := by
    have hRead := h.rpIdHash
    rw [Block.read_of_le (by omega)] at hRead
    exact Option.some.inj hRead
  have hFlags : authData.getD 32 0 = a.flags :=
    List.head_eq_of_cons_eq (Option.some.inj ((read_flags (by omega)).symm.trans h.flags))
  have hCount : counterOf authData = a.signCount := by
    have hBytes := Option.some.inj ((read_counter (by omega)).symm.trans h.signCount)
    exact UInt32.toNat_inj.mp (bigEndian_inj (UInt32.toNat_lt _) (UInt32.toNat_lt _) hBytes)
  have hLength : idLengthOf authData = a.credentialId.length := by
    have hBytes := Option.some.inj ((read_idLength (by omega)).symm.trans h.length)
    exact bigEndian_inj (idLengthOf_lt authData) (by omega) hBytes
  have hAaguid : (authData.drop 37).take 16 = a.aaguid := by
    have hRead := h.aaguid
    rw [Block.read_of_le (by omega)] at hRead
    exact Option.some.inj hRead
  have hVerify : verifyAuthenticatorData P authData rpId = .ok a.signCount :=
    verifyAuthenticatorData_iff.mpr ⟨⟨by omega, hHash ▸ a.hashed, hFlags ▸ a.present,
      hFlags ▸ a.verified⟩, hCount.symm⟩
  have hExtract : extractAttestedCredential P authData = .ok (a.credentialId, a.cose) :=
    (extractAttestedCredential_iff hMeasures).mpr ⟨by omega, hFlags ▸ a.attested, hLength, hNonempty,
      hSmall, h.credentialId, h.cose, a.es256⟩
  rw [attestedParts, hVerify]
  show (do
    let (credentialId, cose) ← extractAttestedCredential P authData
    return { signCount := a.signCount, aaguid := (authData.drop 37).take 16, credentialId, cose } :
      Except Bytes AttestedParts) = _
  rw [hExtract, hAaguid]
  rfl

/-- Authenticator data are accepted exactly when they are built from parts, no read is
outside of them, and what is returned are these parts. -/
theorem attestedParts_exact (authData rpId : Bytes) :
    readAttestedParts P authData rpId = some (attestedParts P authData rpId) ∧
    (∀ parts, attestedParts P authData rpId = .ok parts ↔
      ∃ a : AttestedData P rpId, a.build = authData ∧ a.parts = parts) ∧
    (∀ a : AttestedData P rpId, attestedParts P a.build rpId = .ok a.parts) ∧
    ∀ challenge origin attestationObject clientDataJson result,
      verifyRegistration P challenge rpId origin attestationObject clientDataJson = .ok result →
        ∃ raw parts, attestedParts P raw rpId = .ok parts ∧ Encodes result raw parts := by
  refine ⟨readAttestedParts_eq hMeasures authData rpId, fun parts => ⟨fun h => ?_, ?_⟩, fun a => ?_,
    fun _ _ _ _ _ => attestedParts_of_verifyRegistration⟩
  · obtain ⟨a, hIn, hParts⟩ := in_of_attestedParts hMeasures h
    exact ⟨a, AttestedData.build_of_in hIn, hParts⟩
  · rintro ⟨a, rfl, rfl⟩
    exact attestedParts_of_in hMeasures a.in_build
  · exact attestedParts_of_in hMeasures a.in_build

end Parsing

section Example

open Reference

/-- A libcbor that knows the encoding of one item. -/
def loadsPrefix (encoding : Bytes) (item : CborItem) (input : Bytes) : Option (CborItem × Nat) :=
  if encoding.isPrefixOf input then some (item, encoding.length) else none

theorem measuresCbor_of_loadsPrefix {encoding : Bytes} {item : CborItem} (hNonempty : encoding ≠ [])
    (h : P.cborLoad = loadsPrefix encoding item) : P.MeasuresCbor := by
  intro input item' read hLoad
  rw [h, loadsPrefix] at hLoad
  split_ifs at hLoad with hPrefix
  obtain ⟨rfl, rfl⟩ := Prod.mk.inj (Option.some.inj hLoad)
  obtain ⟨after, rfl⟩ := List.isPrefixOf_iff_prefix.mp hPrefix
  refine ⟨List.length_pos_iff.mpr hNonempty, by simp, fun rest => ?_⟩
  rw [h, loadsPrefix, List.take_left, if_pos]
  exact List.isPrefixOf_iff_prefix.mpr (List.prefix_append _ _)

def keyEncoding : Bytes := Convert.base64URLDecode keyCose

def keyItem : CborItem :=
  .map [(.uint 1, .uint 2), (.uint 3, .negint 6), (.negint 0, .uint 1),
    (.negint 1, .bytestring (some keyX)), (.negint 2, .bytestring (some keyY))]

/-- A libcbor that knows the encoding of the reference key. -/
def cborPlatform : Platform :=
  platform { securityKey [] with cborLoad := loadsPrefix keyEncoding keyItem }

/-- The reference key, with one byte of extensions after it. -/
def attestedKey : AttestedData cborPlatform (LocalCredentialStore.rpIdOf (List.replicate 32 48)) where
  rpIdHash := Convert.base64URLDecode (text "pcrlIYpZCmvC4a8b9_jjVRdSUeBX2WtctsMacYaUNUw")
  flags := 0x45
  signCount := 258
  aaguid := List.replicate 16 7
  credentialId := [9]
  cose := keyEncoding
  rest := [0xA0]
  hashed := by decide +kernel
  length_rpIdHash := by decide +kernel
  present := by decide
  verified := by decide
  attested := by decide
  length_aaguid := rfl
  credentialId_ne := by decide
  credentialId_le := by decide
  es256 := by decide +kernel

theorem measuresCbor_cborPlatform : cborPlatform.MeasuresCbor := by
  have hNonempty : keyEncoding ≠ [] := by decide +kernel
  have hLoad : cborPlatform.cborLoad = loadsPrefix keyEncoding keyItem := by
    rw [cborPlatform, platform]
  exact measuresCbor_of_loadsPrefix hNonempty hLoad

theorem attestedParts_exact_example :
    attestedParts cborPlatform attestedKey.build (LocalCredentialStore.rpIdOf (List.replicate 32 48)) =
      .ok attestedKey.parts := by
  have hExact := attestedParts_exact measuresCbor_cborPlatform []
    (LocalCredentialStore.rpIdOf (List.replicate 32 48))
  exact hExact.2.2.1 attestedKey

end Example

end FidoVerifier
end WindowsFidoLogon
