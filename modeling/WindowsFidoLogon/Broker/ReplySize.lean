import Mathlib.Data.List.Nodup
import WindowsFidoLogon.Broker.Handling
import WindowsFidoLogon.Broker.Totality
import WindowsFidoLogon.Codec.Base64
import WindowsFidoLogon.Library.JsonText
import WindowsFidoLogon.Model.Reference
import WindowsFidoLogon.Store.Validity

/-!
# The size of a reply

`Run` replaces a reply that is longer than a pipe message.  The replies that speak
about an account are measured here byte by byte: a challenge lists the credential
ids of the account, `status` also the other public fields, and everything else in
them has a fixed length.
-/

namespace WindowsFidoLogon

/-- `json::dump()` without an indent prints the compact form. -/
def Platform.PrintsCompactly (P : Platform) : Prop :=
  ∀ j b, j.canonical = true → P.dump j = .ok b → b = j.render

namespace BrokerService

open Program Text LocalCredentialStore Environment

variable {P : Platform} {E : Environment}

/-! ## The replies about an account -/

/-- The random fields of a session and of its replies. -/
structure Drawn where
  challenge : { data : Bytes // data.length = 32 }
  sessionId : { data : Bytes // data.length = 24 }
  userId : { data : Bytes // data.length = 32 }

/-- A session with the vault's RP ID, as far as its challenge shows it. -/
structure OpenedFor (v : Vault) (drawn : Drawn) (session : Session) : Prop where
  challenge : session.challenge = Convert.base64URLEncode drawn.challenge.val
  rpId : session.rpId = v.rpId
  origin : session.origin = text "https://" ++ v.rpId

/-- The identifier under which the session is stored. -/
def Drawn.id (drawn : Drawn) : Bytes :=
  Convert.base64URLEncode drawn.sessionId.val

def statusReply (P : Platform) (account : AccountRecord) : Json :=
  .obj [
    (text "credentials", .arr (account.credentials.map credentialPublicJson)),
    (text "enforced", .bool account.enforced),
    (text "found", .bool true),
    (text "ok", .bool true),
    (text "username", .str (Convert.toString P account.username))]

/-- The reply of `begin_auth` and `begin_test`. -/
def challengeReply (session : Session) (id : Bytes) (account : AccountRecord) : Json :=
  ((createAuthChallenge session account).set (text "sessionId") (.str id)).set
    (text "ok") (.bool true)

def removalReply (session : Session) (id : Bytes) (account : AccountRecord) : Json :=
  .obj [
    (text "authorization", (createAuthChallenge session account).set (text "sessionId") (.str id)),
    (text "ok", .bool true)]

def registrationReply (session : Session) (id userId : Bytes) (credentials : List CredentialRecord) :
    Json :=
  .obj [
    (text "ok", .bool true),
    (text "registration", .obj [
      (text "challenge", .str session.challenge),
      (text "excludeCredentials", credentialIds credentials),
      (text "origin", .str session.origin),
      (text "rpId", .str session.rpId),
      (text "sessionId", .str id),
      (text "userId", .str userId)])]

/-- The successful replies of `status`, `begin_auth`, `begin_test`, `begin_remove` and
`begin_registration` for an account of the vault. -/
inductive ReplyFor (P : Platform) (v : Vault) (account : AccountRecord) : Json → Prop
  | status : ReplyFor P v account (statusReply P account)
  | challenge {session : Session} {drawn : Drawn} (hOpened : OpenedFor v drawn session)
      (hKeys : account.credentials ≠ []) :
      ReplyFor P v account (challengeReply session drawn.id account)
  | removal {session : Session} {drawn : Drawn} (hOpened : OpenedFor v drawn session)
      (hKeys : account.credentials ≠ [])
      (hSpare : ¬ (account.enforced = true ∧ account.credentials.length ≤ 1)) :
      ReplyFor P v account (removalReply session drawn.id account)
  | registration {session : Session} {drawn : Drawn} (hOpened : OpenedFor v drawn session)
      (hRoom : account.credentials.length < kMaximumCredentialsPerAccount) :
      ReplyFor P v account (registrationReply session drawn.id
        (Convert.base64URLEncode drawn.userId.val) account.credentials)

/-! ## Their lengths -/

/-- The credential ids of an account as a JSON array. -/
def listedBytes (credentials : List CredentialRecord) : Nat :=
  max 2 (1 + (credentials.map fun c => c.credentialId.length + 3).sum)

/-- A credential in the reply of `status`. -/
def publicBytes (c : CredentialRecord) : Nat :=
  85 + c.aaguid.length + Json.escapedLength c.createdAt + c.credentialId.length +
    Json.escapedLength c.label + (decimal c.signCount.toNat).length

def statusBytes (P : Platform) (account : AccountRecord) : Nat :=
  (if account.enforced then 69 else 70) +
    max 2 (1 + (account.credentials.map fun c => publicBytes c + 1).sum) +
    Json.escapedLength (Convert.toString P account.username)

theorem isPlain_of_isUrlChar {c : UInt8} (h : Convert.IsUrlChar c) : Json.isPlain c = true := by
  unfold Convert.IsUrlChar Convert.fromUrlAlphabet at h
  simp only [Json.isPlain, Bool.and_eq_true, bne_iff_ne, decide_eq_true_eq]
  split_ifs at h with hAlnum hMinus hUnder
  · simp only [UInt8.le_iff_toNat_le, ← UInt8.toNat_inj, ne_eq] at hAlnum ⊢
    simp at hAlnum ⊢
    omega
  · rw [hMinus]
    decide
  · rw [hUnder]
    decide
  · cases h

theorem escapedLength_of_decoded {value : Bytes} (h : Convert.base64URLDecode value ≠ []) :
    Json.escapedLength value = value.length :=
  Json.escapedLength_of_isPlain fun c hc =>
    isPlain_of_isUrlChar ((Convert.of_base64URLDecode h).1 c hc)

theorem escapedLength_encode (data : Bytes) (hNonempty : data ≠ []) :
    Json.escapedLength (Convert.base64URLEncode data) = (4 * data.length + 2) / 3 := by
  rw [escapedLength_of_decoded (by rwa [Convert.base64URLDecode_encode hNonempty]),
    Convert.length_base64URLEncode]

theorem length_credentialIds {credentials : List CredentialRecord}
    (h : ∀ c ∈ credentials, ValidCredential c) :
    (credentialIds credentials).render.length = listedBytes credentials := by
  rw [credentialIds, Json.length_render_arr, List.map_map, listedBytes]
  have hItems : credentials.map ((fun j => j.render.length + 1) ∘
      fun credential => Json.str credential.credentialId) =
      credentials.map fun c => c.credentialId.length + 3 := by
    refine List.map_congr_left fun c hc => ?_
    show (Json.str c.credentialId).render.length + 1 = _
    rw [Json.length_render_str, escapedLength_of_decoded (h c hc).id_ne]
  rw [hItems]

theorem length_rpId {v : Vault} (h : ValidVault P v) :
    v.rpId.length = 48 ∧ ∀ c ∈ v.rpId, Json.isPlain c = true := by
  rw [h.rpId, rpIdOf]
  have hFront : (text "wfl-").length = 4 := rfl
  have hBack : (text ".login.local").length = 12 := rfl
  refine ⟨by simp [h.machineId_length, hFront, hBack], ?_⟩
  intro c hc
  rw [List.mem_append, List.mem_append] at hc
  rcases hc with (hc | hc) | hc
  · exact List.all_eq_true.mp (show (text "wfl-").all Json.isPlain = true by decide) c hc
  · have hHex := List.all_eq_true.mp h.machineId_hex c hc
    simp only [isHexDigit, Json.isPlain, Bool.or_eq_true, Bool.and_eq_true, bne_iff_ne,
      decide_eq_true_eq, UInt8.le_iff_toNat_le, ← UInt8.toNat_inj, ne_eq] at hHex ⊢
    simp at hHex ⊢
    omega
  · exact List.all_eq_true.mp (show (text ".login.local").all Json.isPlain = true by decide) c hc

/-- The lengths of what a session puts into a challenge. -/
structure Measured (session : Session) (drawn : Drawn) : Prop where
  challenge : Json.escapedLength session.challenge = 43
  rpId : Json.escapedLength session.rpId = 48
  origin : Json.escapedLength session.origin = 56
  id : Json.escapedLength drawn.id = 32
  userId : Json.escapedLength (Convert.base64URLEncode drawn.userId.val) = 43

theorem OpenedFor.measured {v : Vault} (hValid : ValidVault P v) {session : Session} {drawn : Drawn}
    (h : OpenedFor v drawn session) : Measured session drawn := by
  obtain ⟨hLength, hPlain⟩ := length_rpId hValid
  have hDrawn : ∀ {n : Nat} (data : { data : Bytes // data.length = n }), 0 < n →
      Json.escapedLength (Convert.base64URLEncode data.val) = (4 * n + 2) / 3 := by
    intro n data hn
    have hSome : 0 < data.val.length := by rwa [data.property]
    rw [escapedLength_encode _ (List.length_pos_iff.mp hSome), data.property]
  constructor
  · rw [h.challenge, hDrawn _ (by decide)]
  · rw [h.rpId, Json.escapedLength_of_isPlain hPlain, hLength]
  · rw [h.origin, Json.escapedLength_append, Json.escapedLength_of_isPlain hPlain, hLength]
    rfl
  · exact hDrawn drawn.sessionId (by decide)
  · exact hDrawn drawn.userId (by decide)

section Lengths

variable {account : AccountRecord} {session : Session} {drawn : Drawn}

theorem length_bool (b : Bool) : (Json.bool b).render.length = if b then 4 else 5 := by
  cases b <;> rfl

/-- A challenge with the identifier of its session. -/
theorem length_authChallenge (hAccount : ∀ c ∈ account.credentials, ValidCredential c)
    (h : Measured session drawn) :
    ((createAuthChallenge session account).set (text "sessionId") (.str drawn.id)).render.length =
      265 + listedBytes account.credentials := by
  have hFields : (createAuthChallenge session account).set (text "sessionId") (.str drawn.id) =
      .obj [
        (text "challenge", .str session.challenge),
        (text "credentialIds", credentialIds account.credentials),
        (text "enforced", .bool true),
        (text "origin", .str session.origin),
        (text "rpId", .str session.rpId),
        (text "sessionId", .str drawn.id)] := rfl
  rw [hFields, Json.length_render_obj]
  simp only [Json.membersLength_cons, Json.membersLength_nil, Json.length_render_str,
    length_credentialIds hAccount, length_bool, h.challenge, h.rpId, h.origin, h.id, if_true]
  rw [show Json.escapedLength (text "challenge") = 9 by decide,
    show Json.escapedLength (text "credentialIds") = 13 by decide,
    show Json.escapedLength (text "enforced") = 8 by decide,
    show Json.escapedLength (text "origin") = 6 by decide,
    show Json.escapedLength (text "rpId") = 4 by decide,
    show Json.escapedLength (text "sessionId") = 9 by decide]
  omega

theorem length_removalReply (hAccount : ∀ c ∈ account.credentials, ValidCredential c)
    (h : Measured session drawn) :
    (removalReply session drawn.id account).render.length =
      293 + listedBytes account.credentials := by
  rw [removalReply, Json.length_render_obj]
  simp only [Json.membersLength_cons, Json.membersLength_nil, length_authChallenge hAccount h,
    length_bool, if_true]
  rw [show Json.escapedLength (text "authorization") = 13 by decide,
    show Json.escapedLength (text "ok") = 2 by decide]
  omega

theorem length_challengeReply (hAccount : ∀ c ∈ account.credentials, ValidCredential c)
    (h : Measured session drawn) :
    (challengeReply session drawn.id account).render.length =
      275 + listedBytes account.credentials := by
  have hFields : challengeReply session drawn.id account =
      .obj [
        (text "challenge", .str session.challenge),
        (text "credentialIds", credentialIds account.credentials),
        (text "enforced", .bool true),
        (text "ok", .bool true),
        (text "origin", .str session.origin),
        (text "rpId", .str session.rpId),
        (text "sessionId", .str drawn.id)] := rfl
  rw [hFields, Json.length_render_obj]
  simp only [Json.membersLength_cons, Json.membersLength_nil, Json.length_render_str,
    length_credentialIds hAccount, length_bool, h.challenge, h.rpId, h.origin, h.id, if_true]
  rw [show Json.escapedLength (text "challenge") = 9 by decide,
    show Json.escapedLength (text "credentialIds") = 13 by decide,
    show Json.escapedLength (text "enforced") = 8 by decide,
    show Json.escapedLength (text "ok") = 2 by decide,
    show Json.escapedLength (text "origin") = 6 by decide,
    show Json.escapedLength (text "rpId") = 4 by decide,
    show Json.escapedLength (text "sessionId") = 9 by decide]
  omega

theorem length_registrationReply (hAccount : ∀ c ∈ account.credentials, ValidCredential c)
    (h : Measured session drawn) :
    (registrationReply session drawn.id (Convert.base64URLEncode drawn.userId.val)
      account.credentials).render.length = 336 + listedBytes account.credentials := by
  rw [registrationReply, Json.length_render_obj]
  simp only [Json.membersLength_cons, Json.membersLength_nil, Json.length_render_obj,
    Json.length_render_str, length_credentialIds hAccount, length_bool, h.challenge, h.rpId, h.origin,
    h.id, h.userId, if_true]
  rw [show Json.escapedLength (text "challenge") = 9 by decide,
    show Json.escapedLength (text "excludeCredentials") = 18 by decide,
    show Json.escapedLength (text "ok") = 2 by decide,
    show Json.escapedLength (text "origin") = 6 by decide,
    show Json.escapedLength (text "registration") = 12 by decide,
    show Json.escapedLength (text "rpId") = 4 by decide,
    show Json.escapedLength (text "sessionId") = 9 by decide,
    show Json.escapedLength (text "userId") = 6 by decide]
  omega

theorem length_credentialPublicJson {c : CredentialRecord} (h : ValidCredential c) :
    (credentialPublicJson c).render.length = publicBytes c := by
  have hAaguid : Convert.base64URLDecode c.aaguid ≠ [] := by
    intro hNone
    have hLength := h.aaguid
    rw [hNone] at hLength
    cases hLength
  have hSignCount : (Json.int c.signCount.toNat).render = decimal c.signCount.toNat := rfl
  rw [credentialPublicJson, Json.length_render_obj]
  simp only [Json.membersLength_cons, Json.membersLength_nil, Json.length_render_str, h.algorithm,
    escapedLength_of_decoded hAaguid, escapedLength_of_decoded h.id_ne, hSignCount, publicBytes]
  rw [show Json.escapedLength (text "aaguid") = 6 by decide,
    show Json.escapedLength (text "algorithm") = 9 by decide,
    show (Json.int kEs256Algorithm).render.length = 2 by decide,
    show Json.escapedLength (text "createdAt") = 9 by decide,
    show Json.escapedLength (text "credentialId") = 12 by decide,
    show Json.escapedLength (text "label") = 5 by decide,
    show Json.escapedLength (text "signCount") = 9 by decide]
  omega

theorem length_statusReply (hAccount : ∀ c ∈ account.credentials, ValidCredential c) :
    (statusReply P account).render.length = statusBytes P account := by
  have hItems : account.credentials.map ((fun j => j.render.length + 1) ∘ credentialPublicJson) =
      account.credentials.map fun c => publicBytes c + 1 :=
    List.map_congr_left fun c hc =>
      congrArg (· + 1) (length_credentialPublicJson (hAccount c hc))
  rw [statusReply, Json.length_render_obj]
  simp only [Json.membersLength_cons, Json.membersLength_nil, Json.length_render_str,
    Json.length_render_arr, List.map_map, hItems, length_bool, if_true, statusBytes]
  rw [show Json.escapedLength (text "credentials") = 11 by decide,
    show Json.escapedLength (text "enforced") = 8 by decide,
    show Json.escapedLength (text "found") = 5 by decide,
    show Json.escapedLength (text "ok") = 2 by decide,
    show Json.escapedLength (text "username") = 8 by decide]
  split_ifs <;> omega

end Lengths

/-! ## When they fit -/

/-- The size condition on an account: what `begin_remove` and `begin_registration` list
of it fits a message, and `status` too where its texts can be printed at all. -/
structure FitsMessage (P : Platform) (account : AccountRecord) : Prop where
  removal : 293 + listedBytes account.credentials ≤ kMaxBrokerMessageBytes
  registration : account.credentials.length < kMaximumCredentialsPerAccount →
    336 + listedBytes account.credentials ≤ kMaxBrokerMessageBytes
  status : (∀ c ∈ account.credentials, validUtf8 c.label = true ∧ validUtf8 c.createdAt = true) →
    statusBytes P account ≤ kMaxBrokerMessageBytes

/-- A single credential never fills a message. -/
theorem listedBytes_of_few {credentials : List CredentialRecord}
    (h : ∀ c ∈ credentials, ValidCredential c) (hFew : credentials.length ≤ 1) :
    listedBytes credentials ≤ 1370 := by
  match credentials, hFew with
  | [], _ => decide
  | [c], _ =>
      have hValid := h c (List.mem_singleton_self c)
      have hLength := (Convert.of_base64URLDecode hValid.id_ne).2
      have hBound := hValid.id_length
      simp only [listedBytes, List.map_cons, List.map_nil, List.sum_cons, List.sum_nil]
      omega

theorem canonical_credentialIds (credentials : List CredentialRecord) :
    (credentialIds credentials).canonical = true := by
  refine Json.canonicalList_iff.mpr fun j hj => ?_
  obtain ⟨c, -, rfl⟩ := List.mem_map.mp hj
  rfl

/-- Members in order, each in the parser's form. -/
theorem canonicalFields_cons {key : Bytes} {j : Json} {rest : List (Bytes × Json)}
    (hOrder : Json.precedes key rest = true) (hj : j.canonical = true)
    (hRest : Json.canonicalFields rest = true) :
    Json.canonicalFields ((key, j) :: rest) = true := by
  rw [Json.canonicalFields, hOrder, hj, hRest]
  rfl

theorem canonical_authChallenge (session : Session) (id : Bytes) (account : AccountRecord) :
    ((createAuthChallenge session account).set (text "sessionId") (.str id)).canonical = true :=
  canonicalFields_cons rfl rfl <| canonicalFields_cons rfl (canonical_credentialIds _) <|
    canonicalFields_cons rfl rfl <| canonicalFields_cons rfl rfl <| canonicalFields_cons rfl rfl <|
      canonicalFields_cons rfl rfl rfl

theorem canonical_replyFor {v : Vault} {account : AccountRecord} {reply : Json}
    (h : ReplyFor P v account reply) : reply.canonical = true := by
  cases h with
  | status =>
      refine canonicalFields_cons rfl ?_ <| canonicalFields_cons rfl rfl <|
        canonicalFields_cons rfl rfl <| canonicalFields_cons rfl rfl <|
          canonicalFields_cons rfl rfl rfl
      refine Json.canonicalList_iff.mpr fun j hj => ?_
      obtain ⟨c, -, rfl⟩ := List.mem_map.mp hj
      exact canonicalFields_cons rfl rfl <| canonicalFields_cons rfl rfl <|
        canonicalFields_cons rfl rfl <| canonicalFields_cons rfl rfl <|
          canonicalFields_cons rfl rfl <| canonicalFields_cons rfl rfl rfl
  | challenge =>
      exact canonicalFields_cons rfl rfl <| canonicalFields_cons rfl (canonical_credentialIds _) <|
        canonicalFields_cons rfl rfl <| canonicalFields_cons rfl rfl <|
          canonicalFields_cons rfl rfl <| canonicalFields_cons rfl rfl <|
            canonicalFields_cons rfl rfl rfl
  | removal =>
      exact canonicalFields_cons rfl (canonical_authChallenge _ _ _) <|
        canonicalFields_cons rfl rfl rfl
  | registration =>
      exact canonicalFields_cons rfl rfl <| canonicalFields_cons rfl
        (canonicalFields_cons rfl rfl <| canonicalFields_cons rfl (canonical_credentialIds _) <|
          canonicalFields_cons rfl rfl <| canonicalFields_cons rfl rfl <|
            canonicalFields_cons rfl rfl <| canonicalFields_cons rfl rfl rfl) rfl

/-! ### What can be printed -/

theorem validUtf8_of_isUrlChars {value : Bytes} (h : ∀ c ∈ value, Convert.IsUrlChar c) :
    validUtf8 value = true := by
  refine validUtf8_of_ascii fun c hc => ?_
  have hChar := h c hc
  unfold Convert.IsUrlChar Convert.fromUrlAlphabet at hChar
  split_ifs at hChar with hAlnum hMinus hUnder
  · simp only [UInt8.le_iff_toNat_le] at hAlnum ⊢
    simp at hAlnum ⊢
    omega
  · rw [hMinus]
    decide
  · rw [hUnder]
    decide
  · cases hChar

theorem validUtf8_of_decoded {value : Bytes} (h : Convert.base64URLDecode value ≠ []) :
    validUtf8 value = true :=
  validUtf8_of_isUrlChars (Convert.of_base64URLDecode h).1

theorem allStrings_listed {credentials : List CredentialRecord}
    (h : ∀ c ∈ credentials, ValidCredential c) :
    (credentialIds credentials).allStrings validUtf8 = true := by
  refine Json.allStringsList_iff.mpr fun j hj => ?_
  obtain ⟨c, hc, rfl⟩ := List.mem_map.mp hj
  exact validUtf8_of_decoded (h c hc).id_ne

theorem OpenedFor.utf8 {v : Vault} (hValid : ValidVault P v) {session : Session} {drawn : Drawn}
    (h : OpenedFor v drawn session) : Utf8Session session := by
  have hRpId : validUtf8 v.rpId = true := by
    refine validUtf8_of_ascii fun c hc => ?_
    rw [hValid.rpId, rpIdOf, List.mem_append, List.mem_append] at hc
    rcases hc with (hc | hc) | hc
    · exact of_decide_eq_true (List.all_eq_true.mp
        (show (text "wfl-").all (fun c => decide (c ≤ 0x7F)) = true by decide) c hc)
    · have hHex := List.all_eq_true.mp hValid.machineId_hex c hc
      simp only [isHexDigit, Bool.or_eq_true, Bool.and_eq_true, decide_eq_true_eq,
        UInt8.le_iff_toNat_le] at hHex ⊢
      simp at hHex ⊢
      omega
    · exact of_decide_eq_true (List.all_eq_true.mp
        (show (text ".login.local").all (fun c => decide (c ≤ 0x7F)) = true by decide) c hc)
  constructor
  · rw [h.challenge]
    exact Convert.utf8_base64URLEncode _
  · rw [h.rpId]
    exact hRpId
  · rw [h.origin]
    exact validUtf8_append rfl hRpId

section Printable

variable {v : Vault} {account : AccountRecord} {session : Session} {drawn : Drawn}

theorem allStrings_removalReply (hValid : ValidVault P v)
    (hAccount : ∀ c ∈ account.credentials, ValidCredential c) (h : OpenedFor v drawn session) :
    (removalReply session drawn.id account).allStrings validUtf8 = true := by
  have hSession := h.utf8 hValid
  have hChallenge : (createAuthChallenge session account).allStrings validUtf8 = true := by
    refine Json.allStringsFields_iff.mpr fun f hf => ?_
    simp only [List.mem_cons, List.not_mem_nil, or_false] at hf
    rcases hf with rfl | rfl | rfl | rfl | rfl
    · exact ⟨rfl, hSession.challenge⟩
    · exact ⟨rfl, allStrings_listed hAccount⟩
    · exact ⟨rfl, rfl⟩
    · exact ⟨rfl, hSession.origin⟩
    · exact ⟨rfl, hSession.rpId⟩
  refine Json.allStringsFields_iff.mpr fun f hf => ?_
  simp only [List.mem_cons, List.not_mem_nil, or_false] at hf
  rcases hf with rfl | rfl
  · exact ⟨rfl, allStrings_set hChallenge rfl (Convert.utf8_base64URLEncode _)⟩
  · exact ⟨rfl, rfl⟩

theorem allStrings_registrationReply (hValid : ValidVault P v)
    (hAccount : ∀ c ∈ account.credentials, ValidCredential c) (h : OpenedFor v drawn session)
    (userId : Bytes) :
    (registrationReply session drawn.id (Convert.base64URLEncode userId)
      account.credentials).allStrings validUtf8 = true := by
  have hSession := h.utf8 hValid
  refine Json.allStringsFields_iff.mpr fun f hf => ?_
  simp only [List.mem_cons, List.not_mem_nil, or_false] at hf
  rcases hf with rfl | rfl
  · exact ⟨rfl, rfl⟩
  · refine ⟨rfl, Json.allStringsFields_iff.mpr fun f hf => ?_⟩
    simp only [List.mem_cons, List.not_mem_nil, or_false] at hf
    rcases hf with rfl | rfl | rfl | rfl | rfl | rfl
    · exact ⟨rfl, hSession.challenge⟩
    · exact ⟨rfl, allStrings_listed hAccount⟩
    · exact ⟨rfl, hSession.origin⟩
    · exact ⟨rfl, hSession.rpId⟩
    · exact ⟨rfl, Convert.utf8_base64URLEncode _⟩
    · exact ⟨rfl, Convert.utf8_base64URLEncode _⟩

/-- The reply of `status` can be printed when the labels and dates can. -/
theorem allStrings_statusReply_iff (hT : P.Transcodes)
    (hAccount : ∀ c ∈ account.credentials, ValidCredential c) :
    (statusReply P account).allStrings validUtf8 = true ↔
      ∀ c ∈ account.credentials, validUtf8 c.label = true ∧ validUtf8 c.createdAt = true := by
  have hText := Convert.utf8_toString hT account.username
  constructor
  · intro h c hc
    have hItems := (Json.allStringsFields_iff.mp h _ List.mem_cons_self).2
    have hItem := Json.allStringsList_iff.mp hItems _ (List.mem_map_of_mem hc)
    have hFields := Json.allStringsFields_iff.mp hItem
    exact ⟨(hFields (text "label", .str c.label) (by simp)).2,
      (hFields (text "createdAt", .str c.createdAt) (by simp)).2⟩
  · intro h
    refine Json.allStringsFields_iff.mpr fun f hf => ?_
    simp only [List.mem_cons, List.not_mem_nil, or_false] at hf
    rcases hf with rfl | rfl | rfl | rfl | rfl
    · refine ⟨rfl, Json.allStringsList_iff.mpr fun j hj => ?_⟩
      obtain ⟨c, hc, rfl⟩ := List.mem_map.mp hj
      have hCredential := hAccount c hc
      have hAaguid : Convert.base64URLDecode c.aaguid ≠ [] := by
        intro hNone
        have hLength := hCredential.aaguid
        rw [hNone] at hLength
        cases hLength
      exact allStrings_credentialPublicJson
        ⟨validUtf8_of_decoded hCredential.id_ne, validUtf8_of_decoded hAaguid, (h c hc).1, (h c hc).2⟩
    · exact ⟨rfl, rfl⟩
    · exact ⟨rfl, rfl⟩
    · exact ⟨rfl, rfl⟩
    · exact ⟨rfl, hText⟩

end Printable

/-! ## The replies that the operations give -/

/-- What `FindAccount` returned about the SID that the request names, asked when only
time had passed since `start`. -/
def FoundFrom (P : Platform) (E : Environment) (request : Json) (start : Machine)
    (found : Option AccountRecord) : Prop :=
  ∃ sid, wideField P request (text "sid") = .ok sid ∧
    ∃ m n, Quiet start m ∧ findAccount P E sid m = (.returned found, n)

/-- What the five operations reply to a request from the machine `start`: about the
account that their `FindAccount` returned, or about none. -/
inductive Announces (P : Platform) (E : Environment) (v : Vault) (request : Json)
    (start : Machine) : Json → Prop
  | account {account : AccountRecord} {reply : Json}
      (hFound : FoundFrom P E request start (some account))
      (hReply : ReplyFor P v account reply) : Announces P E v request start reply
  | notFound (hFound : FoundFrom P E request start none) : Announces P E v request start
      (.obj [(text "enforced", .bool false), (text "found", .bool false), (text "ok", .bool true)])
  | unenforced {found : Option AccountRecord} (hFound : FoundFrom P E request start found)
      (hNone : found.filter (·.enforced) = none) : Announces P E v request start
      (.obj [(text "enforced", .bool false), (text "ok", .bool true)])
  | newcomer {session : Session} {drawn : Drawn} (hFound : FoundFrom P E request start none)
      (hOpened : OpenedFor v drawn session) :
      Announces P E v request start
        (registrationReply session drawn.id (Convert.base64URLEncode drawn.userId.val) [])

/-- What a program returns from one state, whatever it throws. -/
abbrev GivesFrom {σ α : Type} (s : σ) (x : Program σ Bytes α) (A : α → Prop) : Prop :=
  (x s).1.Within A (fun _ => True) True

/-- What a program returns, whatever it throws. -/
abbrev Gives {σ α : Type} (x : Program σ Bytes α) (A : α → Prop) : Prop :=
  Yields x A (fun _ => True) True

theorem gives_any {σ α : Type} (x : Program σ Bytes α) : Gives x fun _ => True := by
  intro s
  cases (x s).1 <;> trivial

theorem gives_ofExcept {σ α : Type} (r : Except Bytes α) :
    Gives (Program.ofExcept r : Program σ Bytes α) fun a => r = .ok a :=
  .ofExcept (fun _ h => h) fun _ _ => trivial

namespace GivesFrom

variable {α β : Type} {b : Broker} {A : β → Prop}

theorem bind_ofExcept {r : Except Bytes α} {f : α → BrokerCall β}
    (hf : ∀ a, r = .ok a → GivesFrom b (f a) A) :
    GivesFrom b (Program.ofExcept r >>= f) A := by
  cases r with
  | ok a => exact hf a rfl
  | error e => trivial

/-- Only time passes in the first part. -/
theorem bind_quiet {x : Call α} {f : α → BrokerCall β} (hQuiet : Moves Quiet x)
    (hf : ∀ a m, Quiet b.machine m → GivesFrom (b.setMachine m) (f a) A) :
    GivesFrom b (onMachine x >>= f) A := by
  have hMoved := hQuiet b.machine
  unfold GivesFrom onMachine
  rw [bind_apply, zoom_apply]
  rcases hx : x b.machine with ⟨a | what | _, m⟩
  · rw [hx] at hMoved
    exact hf a m hMoved
  · trivial
  · trivial

/-- The operation looks the account up and answers from what it found. -/
theorem bind_findAccount {request : Json} {sid : WString} {start : Machine}
    {f : Option AccountRecord → BrokerCall β}
    (hSid : wideField P request (text "sid") = .ok sid) (hQuiet : Quiet start b.machine)
    (hf : ∀ found, FoundFrom P E request start found → Gives (f found) A) :
    GivesFrom b (onMachine (findAccount P E sid) >>= f) A := by
  unfold GivesFrom onMachine
  rw [bind_apply, zoom_apply]
  rcases hFound : findAccount P E sid b.machine with ⟨found | what | _, n⟩
  · exact hf found ⟨sid, hSid, b.machine, n, hQuiet, hFound⟩ (b.setMachine n)
  · trivial
  · trivial

end GivesFrom

/-- A random text, if the source yields one. -/
theorem gives_randomId (bytes : Nat) :
    Gives (randomId E bytes) fun id =>
      id = [] ∨ ∃ data : { data : Bytes // data.length = bytes },
        id = Convert.base64URLEncode data.val := by
  unfold randomId
  refine .bind (gives_any _) fun random _ => ?_
  cases random with
  | none => exact .pure (.inl rfl)
  | some data => exact .pure (.inr ⟨data, rfl⟩)

/-- A new session before `PutSession` saw to its challenge. -/
structure Blank (v : Vault) (session : Session) : Prop where
  challenge : session.challenge = [] ∨ ∃ data : { data : Bytes // data.length = 32 },
    session.challenge = Convert.base64URLEncode data.val
  rpId : session.rpId = v.rpId
  origin : session.origin = text "https://" ++ v.rpId

theorem gives_newSession (kind : SessionKind) (caller : Caller) (sid : WString) (v : Vault) :
    Gives (newSession E kind caller sid v) (Blank v) := by
  unfold newSession
  exact .bind (gives_randomId 32) fun challenge hChallenge => .pure ⟨hChallenge, rfl, rfl⟩

theorem gives_allocateSession (session : Session) (attempts : Nat) :
    Gives (allocateSession E session attempts) fun id =>
      ∃ data : { data : Bytes // data.length = 24 }, id = Convert.base64URLEncode data.val := by
  induction attempts with
  | zero => exact .raise trivial
  | succ attempts ih =>
      unfold allocateSession
      refine .bind (.zoom (gives_randomId 24)) fun id hId => ?_
      refine .bind (gives_any _) fun sessions _ => ?_
      split_ifs with hFresh
      · refine .bind (gives_any _) fun _ _ => .pure ?_
        refine hId.resolve_left fun hNone => ?_
        simp [hNone] at hFresh
      · exact ih

/-- `PutSession` accepts a blank session only with a challenge. -/
theorem gives_putSession {v : Vault} {session : Session} (hBlank : Blank v session) :
    Gives (putSession E session) fun id => ∀ userId : { data : Bytes // data.length = 32 },
      ∃ drawn : Drawn, drawn.userId = userId ∧ id = drawn.id ∧ OpenedFor v drawn session := by
  unfold putSession
  split_ifs with hEmpty
  · exact .raise trivial
  have hChallenge : session.challenge ≠ [] := by
    simp only [Bool.or_eq_true, not_or] at hEmpty
    simpa using hEmpty.1.1
  refine .bind (gives_any _) fun now _ => .bind (gives_any _) fun sessions _ => ?_
  refine .bind (gives_any _) fun live _ => .bind (gives_any _) fun _ _ => ?_
  split_ifs
  · exact .raise trivial
  · intro b
    have hGiven := gives_allocateSession (E := E)
      { session with expiresAt := now + kSessionLifetime } 4 b
    rcases hAllocate : allocateSession E { session with expiresAt := now + kSessionLifetime } 4 b
      with ⟨id | what | _, b'⟩
    · rw [hAllocate] at hGiven
      obtain ⟨sessionId, rfl⟩ := hGiven
      obtain ⟨challenge, hData⟩ := hBlank.challenge.resolve_left hChallenge
      exact fun userId =>
        ⟨⟨challenge, sessionId, userId⟩, rfl, rfl, hData, hBlank.rpId, hBlank.origin⟩
    · trivial
    · trivial

/-- Some 32 bytes, for the replies that have no user handle. -/
def anyUserId : { data : Bytes // data.length = 32 } :=
  ⟨List.replicate 32 0, List.length_replicate⟩

section Operations

variable {v : Vault} {start : Machine} (caller : Caller) (request : Json) (b : Broker)

theorem gives_status :
    GivesFrom b (status P E caller request) (Announces P E v request b.machine) := by
  unfold status
  refine .bind_ofExcept fun sid hSid => ?_
  split_ifs
  · trivial
  refine .bind_findAccount hSid (Std.Refl.refl _) fun found hFound => ?_
  cases found with
  | none => exact .pure (.notFound hFound)
  | some account => exact .pure (.account hFound .status)

theorem gives_challengeAccount (sid : WString) {account : AccountRecord}
    (hFound : FoundFrom P E request start (some account))
    (hKeys : account.credentials.isEmpty = false) :
    Gives (challengeAccount E caller sid v account) (Announces P E v request start) := by
  unfold challengeAccount
  refine .bind (.zoom (gives_newSession _ _ _ v)) fun session hBlank => ?_
  refine .bind (gives_putSession hBlank) fun id hId => .pure ?_
  obtain ⟨drawn, -, rfl, hOpened⟩ := hId anyUserId
  exact .account hFound (.challenge hOpened (by simpa using hKeys))

theorem gives_beginAuth :
    GivesFrom b (beginAuth P E caller request v) (Announces P E v request b.machine) := by
  unfold beginAuth
  refine .bind_ofExcept fun sid hSid => ?_
  split_ifs
  · trivial
  refine .bind_findAccount hSid (Std.Refl.refl _) fun found hFound => ?_
  split
  · rename_i hNone
    refine .bind (gives_any _) fun listed _ => ?_
    split_ifs
    · exact .raise trivial
    · exact .pure (.unenforced hFound hNone)
  · rename_i account hAccount
    obtain rfl := Option.eq_some_of_filter_eq_some hAccount
    split_ifs with hKeys
    · exact .raise trivial
    · exact gives_challengeAccount caller request sid hFound (by simpa using hKeys)

theorem gives_beginTest :
    GivesFrom b (beginTest P E caller request v) (Announces P E v request b.machine) := by
  unfold beginTest
  refine .bind_ofExcept fun sid hSid => ?_
  split_ifs
  · trivial
  refine .bind_findAccount hSid (Std.Refl.refl _) fun found hFound => ?_
  cases found with
  | none => exact .raise trivial
  | some account =>
      dsimp only
      split_ifs with hKeys
      · exact .raise trivial
      · exact gives_challengeAccount caller request sid hFound (by simpa using hKeys)

theorem gives_beginRemove :
    GivesFrom b (beginRemove P E caller request v) (Announces P E v request b.machine) := by
  unfold beginRemove
  refine .bind_ofExcept fun sid hSid => .bind_ofExcept fun username _ => ?_
  refine .bind_ofExcept fun password _ => ?_
  refine .bind_quiet (quiet_requireLocalPassword _ _ _ _ _ _) fun name m hQuiet => ?_
  refine .bind_findAccount hSid hQuiet fun found hFound => ?_
  refine .bind (gives_ofExcept _) fun removable hRemovable => ?_
  obtain ⟨account, credentialId⟩ := removable
  have hAccount : found = some account ∧ account.credentials ≠ [] ∧
      ¬ (account.enforced = true ∧ account.credentials.length ≤ 1) := by
    unfold requireRemovable at hRemovable
    cases found with
    | none => cases hRemovable
    | some found =>
        dsimp only at hRemovable
        split_ifs at hRemovable with hKeys hSpare
        obtain ⟨id, -, hRemovable⟩ := except_bind_eq_ok.mp hRemovable
        split_ifs at hRemovable
        cases hRemovable
        exact ⟨rfl, by simpa using hKeys, hSpare⟩
  obtain ⟨rfl, hKeys, hSpare⟩ := hAccount
  refine .bind (.zoom (gives_newSession _ _ _ v)) fun blank hBlank => ?_
  have hSession : Blank v { blank with username := name, credentialToRemove := credentialId } :=
    ⟨hBlank.challenge, hBlank.rpId, hBlank.origin⟩
  refine .bind (gives_putSession hSession) fun id hId => .pure ?_
  obtain ⟨drawn, -, rfl, hOpened⟩ := hId anyUserId
  exact .account hFound (.removal hOpened hKeys hSpare)

theorem gives_beginRegistration :
    GivesFrom b (beginRegistration P E caller request v) (Announces P E v request b.machine) := by
  unfold beginRegistration
  refine .bind_ofExcept fun sid hSid => .bind_ofExcept fun username _ => ?_
  refine .bind_ofExcept fun password _ => ?_
  refine .bind_quiet (quiet_requireLocalPassword _ _ _ _ _ _) fun name m hQuiet => ?_
  refine .bind_findAccount hSid hQuiet fun found hFound => ?_
  split_ifs with hRoom
  · exact .raise trivial
  refine .bind (gives_any _) fun label _ => ?_
  refine .bind (.zoom (gives_newSession _ _ _ v)) fun blank hBlank => ?_
  have hSession : Blank v { blank with username := name, label } :=
    ⟨hBlank.challenge, hBlank.rpId, hBlank.origin⟩
  refine .bind (gives_putSession hSession) fun id hId => ?_
  -- the challenge is made without the identifier, which is set in the reply
  have hChallenge : Gives (createRegistrationChallenge E { blank with username := name, label } found)
      fun j => ∃ userId : { data : Bytes // data.length = 32 }, j = .obj [
        (text "challenge", .str blank.challenge),
        (text "excludeCredentials", credentialIds ((found.map (·.credentials)).getD [])),
        (text "origin", .str blank.origin),
        (text "rpId", .str blank.rpId),
        (text "sessionId", .str []),
        (text "userId", .str (Convert.base64URLEncode userId.val))] := by
    unfold createRegistrationChallenge
    refine .bind (gives_randomId 32) fun userId hUserId => ?_
    split_ifs with hNone
    · exact .raise trivial
    · obtain ⟨data, rfl⟩ := hUserId.resolve_left (by simpa using hNone)
      exact .pure ⟨data, rfl⟩
  refine .bind (.zoom hChallenge) fun registration hRegistration => .pure ?_
  obtain ⟨userId, rfl⟩ := hRegistration
  obtain ⟨drawn, rfl, rfl, hNamed⟩ := hId userId
  have hOpened : OpenedFor v drawn blank := ⟨hNamed.challenge, hNamed.rpId, hNamed.origin⟩
  cases found with
  | none => exact .newcomer hFound hOpened
  | some account => exact .account hFound (.registration hOpened (Nat.lt_of_not_le hRoom))

end Operations

/-! ## The condition is exact -/

/-- A session of the vault with fixed random fields. -/
def sampleDrawn : Drawn :=
  ⟨anyUserId, ⟨List.replicate 24 0, List.length_replicate⟩, anyUserId⟩

def sampleSession (v : Vault) : Session :=
  { callerSid := []
    targetSid := []
    challenge := Convert.base64URLEncode sampleDrawn.challenge.val
    rpId := v.rpId
    origin := text "https://" ++ v.rpId }

theorem openedFor_sample (v : Vault) : OpenedFor v sampleDrawn (sampleSession v) :=
  ⟨rfl, rfl, rfl⟩

/-- A printed reply is as long as its compact text. -/
theorem length_printed (hPrints : P.PrintsCompactly) {v : Vault} {account : AccountRecord}
    {reply : Json} {output : Bytes} (hReply : ReplyFor P v account reply)
    (hDump : P.dump reply = .ok output) : output.length = reply.render.length :=
  congrArg List.length (hPrints reply output (canonical_replyFor hReply) hDump)

/-- The replies about an account fit a pipe message exactly under the size condition. -/
theorem replyFor_fits_iff (hPrints : P.PrintsCompactly) (hStrict : P.StrictUtf8)
    (hT : P.Transcodes) {v : Vault} (hVault : ValidVault P v) {account : AccountRecord}
    (hAccount : ∀ c ∈ account.credentials, ValidCredential c) :
    (∀ reply output, ReplyFor P v account reply → P.dump reply = .ok output →
      output.length ≤ kMaxBrokerMessageBytes) ↔ FitsMessage P account := by
  have hMeasured := (openedFor_sample v).measured hVault
  constructor
  · intro h
    -- a reply that can be printed is measured by its text
    have hFits : ∀ reply, ReplyFor P v account reply → reply.allStrings validUtf8 = true →
        reply.render.length ≤ kMaxBrokerMessageBytes := by
      intro reply hReply hStrings
      obtain ⟨output, hDump⟩ := hStrict.dump_ok reply hStrings
      rw [← length_printed hPrints hReply hDump]
      exact h reply output hReply hDump
    refine ⟨?_, fun hRoom => ?_, fun hTexts => ?_⟩
    · by_cases hFew : account.credentials.length ≤ 1
      · have hSmall := listedBytes_of_few hAccount hFew
        unfold kMaxBrokerMessageBytes
        omega
      · have hKeys : account.credentials ≠ [] := by
          intro hNone
          simp [hNone] at hFew
        rw [← length_removalReply hAccount hMeasured]
        exact hFits _ (.removal (openedFor_sample v) hKeys fun hBoth => hFew hBoth.2)
          (allStrings_removalReply hVault hAccount (openedFor_sample v))
    · rw [← length_registrationReply hAccount hMeasured]
      exact hFits _ (.registration (openedFor_sample v) hRoom)
        (allStrings_registrationReply hVault hAccount (openedFor_sample v) _)
    · rw [← length_statusReply hAccount]
      exact hFits _ .status ((allStrings_statusReply_iff hT hAccount).mpr hTexts)
  · intro h reply output hReply hDump
    rw [length_printed hPrints hReply hDump]
    cases hReply with
    | status =>
        rw [length_statusReply hAccount]
        exact h.status ((allStrings_statusReply_iff hT hAccount).mp (hStrict.dump_strict _ _ hDump))
    | challenge hOpened hKeys =>
        rw [length_challengeReply hAccount (hOpened.measured hVault)]
        exact (Nat.add_le_add_right (by decide) _).trans h.removal
    | removal hOpened hKeys hSpare =>
        rw [length_removalReply hAccount (hOpened.measured hVault)]
        exact h.removal
    | registration hOpened hRoom =>
        rw [length_registrationReply hAccount (hOpened.measured hVault)]
        exact h.registration hRoom

/-- The operations that speak about an account give the replies listed in `ReplyFor`, and
those of an account fit a pipe message exactly under the size condition. -/
theorem replies_fit_iff (hPrints : P.PrintsCompactly) (hStrict : P.StrictUtf8) (hT : P.Transcodes)
    {v : Vault} (hValid : isVaultValid P v = true) {account : AccountRecord}
    (hMem : account ∈ v.accounts) :
    (∀ (E : Environment) (caller : Caller) (request : Json) (b : Broker),
      ∀ operation ∈ [status P E caller request, beginAuth P E caller request v,
        beginTest P E caller request v, beginRemove P E caller request v,
        beginRegistration P E caller request v],
      GivesFrom b operation (Announces P E v request b.machine)) ∧
    ((∀ reply output, ReplyFor P v account reply → P.dump reply = .ok output →
      output.length ≤ kMaxBrokerMessageBytes) ↔ FitsMessage P account) := by
  have hVault := isVaultValid_iff.mp hValid
  refine ⟨fun E caller request b operation hOperation => ?_,
    replyFor_fits_iff hPrints hStrict hT hVault (hVault.accounts account hMem).credentials⟩
  simp only [List.mem_cons, List.not_mem_nil, or_false] at hOperation
  rcases hOperation with rfl | rfl | rfl | rfl | rfl
  · exact gives_status caller request b
  · exact gives_beginAuth caller request b
  · exact gives_beginTest caller request b
  · exact gives_beginRemove caller request b
  · exact gives_beginRegistration caller request b

section Example

open Reference

theorem printsCompactly (fido : FidoLibrary) : (platform fido).PrintsCompactly := by
  intro j b _ h
  exact (of_dump_eq_ok h).2

/-- What `status` says about an account with one key fits. -/
theorem replies_fit_example :
    ∃ output, (platform {}).dump
        (statusReply (platform {}) (alice true [credential (text "AAAA")])) = .ok output ∧
      output.length ≤ kMaxBrokerMessageBytes := by
  have hFits := (replies_fit_iff (printsCompactly {}) (strictUtf8 {}) (transcodes {})
    (v := vault [alice true [credential (text "AAAA")]]) (by decide +kernel)
    (List.mem_singleton_self _)).2.mpr
      ⟨by decide +kernel, fun _ => by decide +kernel, fun _ => by decide +kernel⟩
  exact ⟨_, rfl, hFits _ _ .status rfl⟩

/-- The longest identifier a credential may have, told apart by its first byte. -/
def longId (n : UInt8) : Bytes :=
  n :: List.replicate 1023 0

theorem longId_ne (n : UInt8) : longId n ≠ [] :=
  List.cons_ne_nil _ _

theorem length_longId (n : UInt8) : (longId n).length = 1024 := by
  rw [longId, List.length_cons, List.length_replicate]

/-- As many keys as an account may have, each with the longest identifier. -/
def fullAccount : AccountRecord :=
  alice true ((List.range 64).map fun n => credential (Convert.base64URLEncode (longId n.toUInt8)))

theorem credentials_fullAccount : fullAccount.credentials =
    (List.range 64).map fun n => credential (Convert.base64URLEncode (longId n.toUInt8)) :=
  rfl

theorem validCredential_long (n : UInt8) :
    ValidCredential (credential (Convert.base64URLEncode (longId n))) := by
  have hDecoded : Convert.base64URLDecode (Convert.base64URLEncode (longId n)) = longId n :=
    Convert.base64URLDecode_encode (longId_ne n)
  have hOther := isCredentialValid_iff.mp
    (show isCredentialValid (credential (text "AAAA")) = true by decide +kernel)
  exact
    { hOther with
      id_ne := hDecoded.trans_ne (longId_ne n)
      id_length := ((congrArg List.length hDecoded).trans (length_longId n)).le }

theorem validVault_full : ValidVault (platform {}) (vault [fullAccount]) := by
  have hOther := isVaultValid_iff.mp
    (show isVaultValid (platform {}) (vault [alice true [credential (text "AAAA")]]) = true by
      decide +kernel)
  have hAlice := hOther.accounts _ (List.mem_singleton_self _)
  refine { hOther with accounts := fun a ha => ?_ }
  obtain rfl := List.mem_singleton.mp ha
  have hLength : fullAccount.credentials.length = 64 := by
    rw [credentials_fullAccount, List.length_map, List.length_range]
  refine
    { hAlice with
      credentials_length := hLength.le
      enforced := fun _ hNone => by simp [hNone] at hLength
      credentials := fun c hc => ?_
      ids_nodup := ?_ }
  · rw [credentials_fullAccount] at hc
    obtain ⟨n, -, rfl⟩ := List.mem_map.mp hc
    exact validCredential_long _
  · rw [credentials_fullAccount, List.map_map]
    refine List.Nodup.map_on (fun i hi j hj hSame => ?_) List.nodup_range
    have hId : longId i.toUInt8 = longId j.toUInt8 :=
      Convert.base64URLEncode_injective (longId_ne _) (longId_ne _) hSame
    have hHead : i.toUInt8 = j.toUInt8 := (List.cons.inj hId).1
    rw [List.mem_range] at hi hj
    have hNat := congrArg UInt8.toNat hHead
    rw [Nat.toUInt8_eq, Nat.toUInt8_eq, UInt8.toNat_ofNat', UInt8.toNat_ofNat'] at hNat
    omega

theorem listedBytes_full : listedBytes fullAccount.credentials = 87617 := by
  have hIds : fullAccount.credentials.map (fun c => c.credentialId.length + 3) =
      List.replicate 64 1369 := by
    rw [credentials_fullAccount, List.map_map]
    refine List.eq_replicate_iff.mpr ⟨by simp, fun n hn => ?_⟩
    obtain ⟨i, -, rfl⟩ := List.mem_map.mp hn
    show (Convert.base64URLEncode (longId i.toUInt8)).length + 3 = 1369
    rw [Convert.length_base64URLEncode, length_longId]
  rw [listedBytes, hIds]
  decide

/-- The challenges for such an account do not fit a message. -/
theorem replies_fit_counterexample :
    ¬ ∀ (P : Platform) (v : Vault) (account : AccountRecord), P.PrintsCompactly → P.StrictUtf8 →
      P.Transcodes → isVaultValid P v = true → account ∈ v.accounts →
      ∀ reply output, ReplyFor P v account reply → P.dump reply = .ok output →
        output.length ≤ kMaxBrokerMessageBytes := by
  intro h
  have hAccount := (validVault_full.accounts _ (List.mem_singleton_self _)).credentials
  have hFits := (replyFor_fits_iff (printsCompactly _) (strictUtf8 _) (transcodes _) validVault_full
    hAccount).mp (h (platform {}) (vault [fullAccount]) fullAccount (printsCompactly _) (strictUtf8 _)
      (transcodes _) (isVaultValid_iff.mpr validVault_full) (List.mem_singleton_self _))
  have hRemoval := hFits.removal
  rw [listedBytes_full] at hRemoval
  exact absurd hRemoval (by decide)

end Example

end BrokerService
end WindowsFidoLogon
