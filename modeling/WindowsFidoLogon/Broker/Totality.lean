import WindowsFidoLogon.Model.Reference
import WindowsFidoLogon.Store.Steps
import WindowsFidoLogon.Store.Validity

/-!
# `ProcessRequest` answers

Every operation of the Broker returns an object with a boolean `ok` and UTF-8
strings, or throws a UTF-8 text: its strings come from the vault, which was
parsed, from base64url, from the text conversion or from the source.  So the reply
can always be printed, unless the text of a `parse_error` is quoted in it, which
carries bytes of the request as they came.
-/

namespace WindowsFidoLogon

open Program Text LocalCredentialStore Environment

/-- A string that `dump` prints. -/
abbrev Utf8 (s : Bytes) : Prop := validUtf8 s = true

namespace Convert

/-- Base64 text is ASCII. -/
theorem base64Char_le (index : UInt32) (h : index < 64) : base64Char index ≤ 0x7F := by
  have hRange : index.toNat < 64 := UInt32.lt_iff_toNat_lt.mp h
  have hAll : ∀ n < 64, base64Char (UInt32.ofNat n) ≤ 0x7F := by decide
  have hChar := hAll index.toNat hRange
  rwa [UInt32.ofNat_toNat] at hChar

theorem and_mask_lt (x : UInt32) : x &&& 0x3f < 64 := by
  rw [UInt32.lt_iff_toNat_lt, UInt32.toNat_and]
  exact Nat.lt_of_le_of_lt Nat.and_le_right (by decide)

theorem base64Encode_le (data : Bytes) : ∀ c ∈ base64Encode false data, c ≤ 0x7F := by
  have hChar : ∀ x : UInt32, base64Char (x &&& 0x3f) ≤ 0x7F := fun x =>
    base64Char_le _ (and_mask_lt x)
  induction data using base64Encode.induct with
  | case1 => simp [base64Encode]
  | case2 a =>
      intro c hc
      simp only [base64Encode, pad, Bool.false_eq_true, ↓reduceIte, List.append_nil, List.mem_cons,
        List.not_mem_nil, or_false] at hc
      rcases hc with rfl | rfl <;> exact hChar _
  | case3 a b =>
      intro c hc
      simp only [base64Encode, pad, Bool.false_eq_true, ↓reduceIte, List.append_nil, List.mem_cons,
        List.not_mem_nil, or_false] at hc
      rcases hc with rfl | rfl | rfl <;> exact hChar _
  | case4 a b c rest ih =>
      intro d hd
      simp only [base64Encode, List.mem_cons] at hd
      rcases hd with rfl | rfl | rfl | rfl | hd
      · exact hChar _
      · exact hChar _
      · exact hChar _
      · exact hChar _
      · exact ih d hd

theorem toUrlAlphabet_le {c : UInt8} (h : c ≤ 0x7F) : toUrlAlphabet c ≤ 0x7F := by
  unfold toUrlAlphabet
  split_ifs
  · decide
  · decide
  · exact h

theorem utf8_base64URLEncode (data : Bytes) : Utf8 (base64URLEncode data) := by
  refine validUtf8_of_ascii fun b hb => ?_
  obtain ⟨c, hc, rfl⟩ := List.mem_map.mp hb
  exact toUrlAlphabet_le (base64Encode_le data c hc)

theorem utf8_toString {P : Platform} (hT : P.Transcodes) (w : WString) : Utf8 (toString P w) := by
  unfold toString
  split_ifs
  · rfl
  · rfl
  · cases hb : P.wideCharToMultiByte w with
    | none => rfl
    | some b => exact hT.utf8 w b hb

end Convert

/-! ## The verifier -/

namespace FidoVerifier

variable {P : Platform}

theorem failsUtf8_verifyClientData (clientData type challenge origin : Bytes) :
    Json.FailsUtf8 (verifyClientData P clientData type challenge origin) := by
  unfold verifyClientData
  split
  · rename_i verdict hVerdict
    -- the four refusals
    unfold checkClientData at hVerdict
    obtain ⟨value, _, h⟩ := except_bind_eq_ok.mp hVerdict
    obtain ⟨t, _, h⟩ := except_bind_eq_ok.mp h
    split_ifs at h
    · cases h
      exact .error rfl
    · obtain ⟨c, _, h⟩ := except_bind_eq_ok.mp h
      split_ifs at h
      · cases h
        exact .error rfl
      · obtain ⟨o, _, h⟩ := except_bind_eq_ok.mp h
        split_ifs at h
        · cases h
          exact .error rfl
        · obtain ⟨x, _, h⟩ := except_bind_eq_ok.mp h
          split_ifs at h
          · cases h
            exact .error rfl
          · cases h
            exact .ok _
  · exact .error rfl

theorem failsUtf8_verifyAuthenticatorData (authData rpId : Bytes) :
    Json.FailsUtf8 (verifyAuthenticatorData P authData rpId) := by
  unfold verifyAuthenticatorData
  split_ifs
  · exact .error rfl
  · split
    · exact .error rfl
    · dsimp only
      split_ifs
      · exact .error rfl
      · exact .error rfl
      · exact .error rfl
      · exact .ok _

theorem failsUtf8_extractAttestedCredential (authData : Bytes) :
    Json.FailsUtf8 (extractAttestedCredential P authData) := by
  unfold extractAttestedCredential
  split_ifs
  · exact .error rfl
  · dsimp only
    split_ifs
    · exact .error rfl
    · split
      · split_ifs
        · exact .error rfl
        · split
          · exact .error rfl
          · exact .ok _
      · exact .error rfl

theorem failsUtf8_verifyAssertion (hStrict : P.StrictUtf8) (credential : CredentialRecord)
    (challenge rpId origin : Bytes) (response : FIDOSignResponse) :
    Json.FailsUtf8 (verifyAssertion P credential challenge rpId origin response) := by
  unfold verifyAssertion
  split_ifs
  · exact .error rfl
  · split
    · split_ifs
      · exact .error rfl
      · dsimp only
        split_ifs
        · exact .error rfl
        · split
          · exact .error rfl
          · refine .bind (failsUtf8_verifyClientData _ _ _ _) fun _ _ => ?_
            refine .bind (failsUtf8_verifyAuthenticatorData _ _) fun _ _ => ?_
            split_ifs
            · exact .error rfl
            · split
              · exact .error rfl
              · split_ifs
                · exact .error (validUtf8_append rfl (hStrict.strerr _))
                · exact .ok _
    · exact .error rfl

theorem failsUtf8_verifyAttestation (hStrict : P.StrictUtf8) (credential : ParsedCredential) :
    Json.FailsUtf8 (verifyAttestation P credential) := by
  unfold verifyAttestation
  dsimp only
  split_ifs
  · exact .error rfl
  · exact .error (validUtf8_append rfl (hStrict.strerr _))
  · exact .ok _
  · exact .error (validUtf8_append rfl (hStrict.strerr _))
  · exact .ok _
  · exact .ok _

theorem failsUtf8_verifyRegistration (hStrict : P.StrictUtf8)
    (challenge rpId origin attestationObject clientDataJson : Bytes) :
    Json.FailsUtf8 (verifyRegistration P challenge rpId origin attestationObject clientDataJson) := by
  unfold verifyRegistration
  dsimp only
  split_ifs
  · exact .error rfl
  · refine .bind (failsUtf8_verifyClientData _ _ _ _) fun _ _ => ?_
    split
    · exact .error rfl
    · rename_i operation status _
      refine .error (validUtf8_append (validUtf8_append (validUtf8_append rfl ?_) rfl)
        (hStrict.strerr _))
      cases operation <;> rfl
    · refine .bind (failsUtf8_verifyAttestation hStrict _) fun _ _ => ?_
      split
      · exact .error rfl
      · exact .error rfl
      · refine .bind (failsUtf8_verifyAuthenticatorData _ _) fun _ _ => ?_
        refine .bind (failsUtf8_extractAttestedCredential _) fun _ _ => ?_
        split
        · exact .error rfl
        · exact .error rfl
        · split_ifs
          · exact .error rfl
          · exact .error rfl
          · exact .ok _

end FidoVerifier

/-! ## The store -/

/-- Some step stops the process. -/
def MayStop (E : Environment) : Prop :=
  ∃ n w, E.stepFault n = .stops w

/-- `x` returns what satisfies `A`, throws UTF-8 texts only, and stops only where the
environment stops it. -/
abbrev Utters (E : Environment) {σ α : Type} (x : Program σ Bytes α) (A : α → Prop) : Prop :=
  Yields x A Utf8 (MayStop E)

/-- `x` throws UTF-8 texts only. -/
abbrev ThrowsUtf8 (E : Environment) {σ α : Type} (x : Program σ Bytes α) : Prop :=
  Utters E x fun _ => True

namespace LocalCredentialStore

variable {P : Platform} {E : Environment}

/-- The strings of a credential that replies quote. -/
structure Utf8Credential (c : CredentialRecord) : Prop where
  credentialId : Utf8 c.credentialId
  aaguid : Utf8 c.aaguid
  label : Utf8 c.label
  createdAt : Utf8 c.createdAt

/-- The strings of an account that replies quote. -/
def Utf8Account (a : AccountRecord) : Prop :=
  ∀ c ∈ a.credentials, Utf8Credential c

/-- The strings of a vault that replies quote. -/
structure Utf8Vault (v : Vault) : Prop where
  rpId : Utf8 v.rpId
  accounts : ∀ a ∈ v.accounts, Utf8Account a

theorem utf8_credentialFromJson {j : Json} {c : CredentialRecord}
    (hj : j.allStrings validUtf8 = true) (h : credentialFromJson j = .ok c) : Utf8Credential c := by
  unfold credentialFromJson at h
  obtain ⟨idJson, hIdJson, h⟩ := except_bind_eq_ok.mp h
  obtain ⟨id, hId, h⟩ := except_bind_eq_ok.mp h
  obtain ⟨keyJson, _, h⟩ := except_bind_eq_ok.mp h
  obtain ⟨key, _, h⟩ := except_bind_eq_ok.mp h
  obtain ⟨algorithm, _, h⟩ := except_bind_eq_ok.mp h
  obtain ⟨aaguid, hAaguid, h⟩ := except_bind_eq_ok.mp h
  obtain ⟨label, hLabel, h⟩ := except_bind_eq_ok.mp h
  obtain ⟨createdAt, hCreatedAt, h⟩ := except_bind_eq_ok.mp h
  obtain ⟨signCount, _, h⟩ := except_bind_eq_ok.mp h
  cases h
  exact
    { credentialId := Json.of_getString (Json.allStrings_of_at hj hIdJson) hId
      aaguid := Json.of_valueOr_getString hj rfl hAaguid
      label := Json.of_valueOr_getString hj rfl hLabel
      createdAt := Json.of_valueOr_getString hj rfl hCreatedAt }

theorem utf8_accountFromJson {j : Json} {a : AccountRecord}
    (hj : j.allStrings validUtf8 = true) (h : accountFromJson P j = .ok a) : Utf8Account a := by
  unfold accountFromJson at h
  obtain ⟨sidJson, _, h⟩ := except_bind_eq_ok.mp h
  obtain ⟨sid, _, h⟩ := except_bind_eq_ok.mp h
  obtain ⟨username, _, h⟩ := except_bind_eq_ok.mp h
  obtain ⟨enforced, _, h⟩ := except_bind_eq_ok.mp h
  obtain ⟨items, hItems, h⟩ := except_bind_eq_ok.mp h
  obtain ⟨credentials, hCredentials, h⟩ := except_bind_eq_ok.mp h
  cases h
  intro c hc
  obtain ⟨item, hItem, hc'⟩ := of_mem_mapM_ok hCredentials hc
  exact utf8_credentialFromJson
    (Json.allStrings_of_elements (Json.allStrings_of_at hj hItems) hItem) hc'

theorem utf8_vaultFromJson {j : Json} {v : Vault}
    (hj : j.allStrings validUtf8 = true) (h : vaultFromJson P j = .ok v) : Utf8Vault v := by
  unfold vaultFromJson at h
  obtain ⟨schemaJson, _, h⟩ := except_bind_eq_ok.mp h
  obtain ⟨schema, _, h⟩ := except_bind_eq_ok.mp h
  split_ifs at h
  · cases h
  obtain ⟨machineJson, _, h⟩ := except_bind_eq_ok.mp h
  obtain ⟨machineId, _, h⟩ := except_bind_eq_ok.mp h
  obtain ⟨rpJson, hRpJson, h⟩ := except_bind_eq_ok.mp h
  obtain ⟨rpId, hRpId, h⟩ := except_bind_eq_ok.mp h
  obtain ⟨items, hItems, h⟩ := except_bind_eq_ok.mp h
  obtain ⟨accounts, hAccounts, h⟩ := except_bind_eq_ok.mp h
  cases h
  refine ⟨Json.of_getString (Json.allStrings_of_at hj hRpJson) hRpId, fun a ha => ?_⟩
  obtain ⟨item, hItem, ha'⟩ := of_mem_mapM_ok hAccounts ha
  exact utf8_accountFromJson
    (Json.allStrings_of_elements (Json.allStrings_of_at hj hItems) hItem) ha'

/-- The vault in a file was parsed, so its strings are UTF-8. -/
theorem utf8_vaultOf (hStrict : P.StrictUtf8) {content : Bytes} {v : Vault}
    (h : vaultOf P content = .ok v) : Utf8Vault v := by
  unfold vaultOf at h
  obtain ⟨plaintext, _, h⟩ := except_bind_eq_ok.mp h
  split at h
  · cases h
  · rename_i parsed hParsed
    obtain ⟨j, hj, hv⟩ := except_bind_eq_ok.mp hParsed
    split_ifs at h
    cases h
    exact utf8_vaultFromJson (hStrict.parse_strings _ _ hj) hv

/-- What a loading call may come back with. -/
def Utf8Load (r : Except DWORD Vault) : Prop :=
  ∀ v, r = .ok v → Utf8Vault v

theorem yields_readValidVault (hStrict : P.StrictUtf8) (file : VaultFile) :
    Utters E (readValidVault P E file) Utf8Load := by
  intro m
  have hRead : Meets (readValidVault P E file) m fun o _ =>
      o.Within Utf8Load Utf8 (MayStop E) := by
    refine meets_readValidVault (fun _ => ?_) (fun c v _ _ hv => ?_) (fun _ e _ _ => ?_)
    · rintro v ⟨⟩
    · rintro w ⟨⟩
      exact utf8_vaultOf hStrict hv
    · rintro v ⟨⟩
  exact hRead

theorem throwsUtf8_record (entry : LogEntry) : ThrowsUtf8 E (record entry) := .update

theorem yields_load (hStrict : P.StrictUtf8) : Utters E (load P E) Utf8Load := by
  unfold load
  refine .bind (yields_readValidVault hStrict _) fun r hr => ?_
  cases r with
  | ok v => exact .bind (throwsUtf8_record _) fun _ _ => .pure hr
  | error e =>
      refine .bind (yields_readValidVault hStrict _) fun r hr => ?_
      cases r with
      | ok v => exact .bind (throwsUtf8_record _) fun _ _ => .pure hr
      | error e =>
          refine .bind (throwsUtf8_record _) fun _ _ => .pure ?_
          rintro v ⟨⟩

theorem throwsUtf8_ask {α : Type} {answer : Nat → α} : ThrowsUtf8 E (ask answer) :=
  fun _ => trivial

theorem throwsUtf8_atomicStep (effect : Machine → Machine) : ThrowsUtf8 E (E.atomicStep effect) := by
  intro m
  unfold Environment.atomicStep
  cases hFault : E.stepFault m.tick with
  | done => trivial
  | fails e w => trivial
  | stops w => cases w <;> exact ⟨_, _, hFault⟩

theorem throwsUtf8_fileStep (file : VaultFile) (content : Bytes) :
    ThrowsUtf8 E (E.fileStep file content) := by
  intro m
  unfold Environment.fileStep
  cases hFault : E.stepFault m.tick with
  | done => trivial
  | fails e w => trivial
  | stops w => exact ⟨_, _, hFault⟩

theorem throwsUtf8_copyFile (source target : VaultFile) :
    ThrowsUtf8 E (E.copyFile source target) := by
  intro m
  unfold Environment.copyFile
  cases m.disk source with
  | none => trivial
  | some c => exact throwsUtf8_fileStep target c m

theorem throwsUtf8_moveFile (source target : VaultFile) :
    ThrowsUtf8 E (E.moveFile source target) := by
  intro m
  unfold Environment.moveFile
  cases m.disk source with
  | none => trivial
  | some c => exact throwsUtf8_atomicStep _ m

theorem throwsUtf8_deleteFile (file : VaultFile) : ThrowsUtf8 E (E.deleteFile file) :=
  .bind (throwsUtf8_atomicStep _) fun _ _ => .pure trivial

theorem throwsUtf8_synchronizeEnforcedRegistry (v : Vault) :
    ThrowsUtf8 E (synchronizeEnforcedRegistry E v) := by
  unfold synchronizeEnforcedRegistry
  refine .bind (throwsUtf8_atomicStep _) fun r _ => ?_
  cases r with
  | error e => exact .pure trivial
  | ok _ =>
      refine .bind (throwsUtf8_atomicStep _) fun r _ => ?_
      cases r with
      | error e => exact .pure trivial
      | ok _ => exact throwsUtf8_atomicStep _

theorem throwsUtf8_keepBackup (hStrict : P.StrictUtf8) : ThrowsUtf8 E (keepBackup P E) := by
  unfold keepBackup
  refine .bind (yields_readValidVault hStrict _) fun r _ => ?_
  cases r with
  | ok v =>
      refine .bind (throwsUtf8_copyFile _ _) fun r _ => ?_
      cases r <;> exact .pure trivial
  | error e =>
      refine .bind (yields_readValidVault hStrict _) fun r _ => ?_
      cases r <;> exact .pure trivial

theorem throwsUtf8_rollBack (previous : Option Vault) : ThrowsUtf8 E (rollBack E previous) := by
  unfold rollBack
  have hRestore : ThrowsUtf8 E (restorePreviousFile E previous) := by
    unfold restorePreviousFile
    split_ifs
    · exact .pure trivial
    · refine .bind (throwsUtf8_copyFile _ _) fun r _ => ?_
      cases r with
      | error e => exact .pure trivial
      | ok _ =>
          refine .bind (throwsUtf8_moveFile _ _) fun r _ => ?_
          cases r with
          | ok _ => exact .pure trivial
          | error e => exact .bind (throwsUtf8_deleteFile _) fun _ _ => .pure trivial
  refine .bind hRestore fun restored _ => ?_
  split_ifs
  · exact .pure trivial
  · exact throwsUtf8_record _

theorem throwsUtf8_republish (previous : Option Vault) : ThrowsUtf8 E (republish E previous) := by
  unfold republish
  cases previous with
  | none => exact .pure trivial
  | some v =>
      refine .bind (throwsUtf8_synchronizeEnforcedRegistry v) fun r _ => ?_
      cases r with
      | ok _ => exact .pure trivial
      | error e => exact throwsUtf8_record _

theorem throwsUtf8_replacePrimary (v : Vault) (previous : Option Vault) :
    ThrowsUtf8 E (replacePrimary E v previous) := by
  unfold replacePrimary
  refine .bind (throwsUtf8_moveFile _ _) fun r _ => ?_
  cases r with
  | error e =>
      refine .bind (throwsUtf8_republish _) fun _ _ => ?_
      exact .bind (throwsUtf8_deleteFile _) fun _ _ => .pure trivial
  | ok _ =>
      dsimp only
      split_ifs
      · exact .pure trivial
      · refine .bind (throwsUtf8_synchronizeEnforcedRegistry v) fun r _ => ?_
        cases r with
        | ok _ => exact .pure trivial
        | error e =>
            refine .bind (throwsUtf8_rollBack _) fun _ _ => ?_
            exact .bind (throwsUtf8_republish _) fun _ _ => .pure trivial

theorem throwsUtf8_publishAndReplace (v : Vault) (previous : Option Vault) :
    ThrowsUtf8 E (publishAndReplace E v previous) := by
  unfold publishAndReplace
  split_ifs
  · refine .bind (throwsUtf8_synchronizeEnforcedRegistry v) fun r _ => ?_
    cases r with
    | ok _ => exact throwsUtf8_replacePrimary v previous
    | error e =>
        refine .bind (throwsUtf8_republish _) fun _ _ => ?_
        exact .bind (throwsUtf8_deleteFile _) fun _ _ => .pure trivial
  · exact throwsUtf8_replacePrimary v previous

theorem throwsUtf8_writeProtectedFile (file : VaultFile) (plaintext : Bytes) :
    ThrowsUtf8 E (writeProtectedFile P E file plaintext) :=
  fun m => throwsUtf8_fileStep file _ m

/-- `Save` throws only what the printer throws. -/
theorem throwsUtf8_save (hStrict : P.StrictUtf8) (v : Vault) : ThrowsUtf8 E (save P E v) := by
  unfold save
  split_ifs
  · exact .pure trivial
  refine .bind (throwsUtf8_atomicStep _) fun r _ => ?_
  cases r with
  | error e => exact .pure trivial
  | ok _ =>
      refine .bind (.ofExcept (fun _ _ => trivial) fun e he => hStrict.dump_error _ e he)
        fun plaintext _ => ?_
      refine .bind (throwsUtf8_writeProtectedFile _ _) fun r _ => ?_
      cases r with
      | error e => exact .pure trivial
      | ok _ =>
          refine .bind (throwsUtf8_keepBackup hStrict) fun r _ => ?_
          cases r with
          | error e => exact .bind (throwsUtf8_deleteFile _) fun _ _ => .pure trivial
          | ok previous => exact throwsUtf8_publishAndReplace v previous

theorem hexDigit_le {value : UInt8} (hValue : value.toNat < 16) : hexDigit value ≤ 0x7F := by
  unfold hexDigit
  rw [UInt8.le_iff_toNat_le]
  split
  · simp; omega
  · simp; omega

theorem hexByte_le : ∀ n < 256, ∀ c ∈ hexByte (UInt8.ofNat n), c ≤ 0x7F := by
  intro n hn c hc
  simp only [hexByte, List.mem_cons, List.not_mem_nil, or_false] at hc
  rcases hc with rfl | rfl
  · apply hexDigit_le
    simp
    omega
  · apply hexDigit_le
    exact Nat.lt_of_le_of_lt Nat.and_le_right (by decide)

theorem yields_generateHexId : Utters E (generateHexId E) Utf8 := by
  unfold generateHexId
  refine .bind throwsUtf8_ask fun random _ => ?_
  cases random with
  | none => exact .pure rfl
  | some bytes =>
      refine .pure (validUtf8_of_ascii fun c hc => ?_)
      obtain ⟨b, _, hb⟩ := List.mem_flatMap.mp hc
      refine hexByte_le b.toNat b.toNat_lt c ?_
      rwa [UInt8.ofNat_toNat]

theorem yields_loadOrCreate (hStrict : P.StrictUtf8) :
    Utters E (loadOrCreate P E) Utf8Load := by
  unfold loadOrCreate
  refine .bind (yields_load hStrict) fun r hr => ?_
  cases r with
  | ok v => exact .pure hr
  | error e =>
      dsimp only
      split_ifs
      · exact .pure (by rintro v ⟨⟩)
      refine .bind yields_generateHexId fun machineId hMachine => ?_
      split_ifs
      · exact .pure (by rintro v ⟨⟩)
      refine .bind (throwsUtf8_record _) fun _ _ => ?_
      refine .bind (throwsUtf8_save hStrict _) fun r _ => ?_
      cases r with
      | error e => exact .pure (by rintro v ⟨⟩)
      | ok _ =>
          refine .pure ?_
          rintro v ⟨⟩
          exact ⟨validUtf8_append (validUtf8_append rfl hMachine) rfl, by simp⟩

theorem utf8_accountOf {v : Vault} (hv : Utf8Vault v) {sid : WString} {a : AccountRecord}
    (h : accountOf sid v.accounts = some a) : Utf8Account a :=
  hv.accounts a (List.mem_of_find?_eq_some h)

/-- What a lookup may come back with. -/
def Utf8Find (r : Option AccountRecord) : Prop :=
  ∀ a, r = some a → Utf8Account a

theorem yields_findAccount (hStrict : P.StrictUtf8) (sid : WString) :
    Utters E (findAccount P E sid) Utf8Find := by
  unfold findAccount
  refine .bind (yields_loadOrCreate hStrict) fun r hr => ?_
  cases r with
  | error e => exact .pure (by rintro a ⟨⟩)
  | ok v => exact .pure fun a ha => utf8_accountOf (hr v rfl) ha

theorem throwsUtf8_upsertAccount (hStrict : P.StrictUtf8) (account : AccountRecord) :
    ThrowsUtf8 E (upsertAccount P E account) := by
  unfold upsertAccount
  refine .bind (yields_loadOrCreate hStrict) fun r _ => ?_
  cases r with
  | error e => exact .pure trivial
  | ok v => exact throwsUtf8_save hStrict _

theorem throwsUtf8_removeCredential (hStrict : P.StrictUtf8) (sid : WString) (id : Bytes) :
    ThrowsUtf8 E (removeCredential P E sid id) := by
  unfold removeCredential
  refine .bind (yields_loadOrCreate hStrict) fun r _ => ?_
  cases r with
  | error e => exact .pure trivial
  | ok v =>
      dsimp only
      split
      · exact .pure trivial
      · split_ifs
        · exact .pure trivial
        · exact .pure trivial
        · exact throwsUtf8_save hStrict _

theorem throwsUtf8_setEnforced (hStrict : P.StrictUtf8) (sid : WString) (enforced : Bool) :
    ThrowsUtf8 E (setEnforced P E sid enforced) := by
  unfold setEnforced
  refine .bind (yields_loadOrCreate hStrict) fun r _ => ?_
  cases r with
  | error e => exact .pure trivial
  | ok v =>
      dsimp only
      split
      · exact .pure trivial
      · split_ifs
        · exact .pure trivial
        · exact throwsUtf8_save hStrict _

theorem throwsUtf8_refreshAccounts (accounts : List AccountRecord) :
    ThrowsUtf8 E (refreshAccounts P E accounts) := by
  induction accounts with
  | nil => exact .pure trivial
  | cons account rest ih =>
      unfold refreshAccounts
      refine .bind throwsUtf8_ask fun db _ => ?_
      split
      · split_ifs
        · refine .bind ih fun r _ => ?_
          cases r <;> exact .pure trivial
        · exact .pure trivial
      · refine .bind ih fun r _ => ?_
        cases r <;> exact .pure trivial

theorem throwsUtf8_refreshLocalAccounts (hStrict : P.StrictUtf8) :
    ThrowsUtf8 E (refreshLocalAccounts P E) := by
  unfold refreshLocalAccounts
  refine .bind (yields_loadOrCreate hStrict) fun r _ => ?_
  cases r with
  | error e => exact .pure trivial
  | ok v =>
      refine .bind (throwsUtf8_refreshAccounts _) fun r _ => ?_
      cases r with
      | error e => exact .pure trivial
      | ok result =>
          dsimp only
          split_ifs
          · exact throwsUtf8_save hStrict _
          · exact throwsUtf8_synchronizeEnforcedRegistry _

end LocalCredentialStore

/-! ## The operations -/

namespace BrokerService

variable {P : Platform} {E : Environment}

/-- A reply: an object with a boolean `ok` that can be printed. -/
structure Reply (j : Json) : Prop where
  printable : j.allStrings validUtf8 = true
  shape : ∃ fields ok, j = .obj fields ∧ Json.lookup (text "ok") fields = some (.bool ok)

theorem yields_randomId (bytes : Nat) : Utters E (randomId E bytes) Utf8 := by
  unfold randomId
  refine .bind throwsUtf8_ask fun random _ => ?_
  cases random with
  | none => exact .pure rfl
  | some data => exact .pure (Convert.utf8_base64URLEncode _)

/-- A reply of members that can be printed, one of which is a boolean `ok`. -/
theorem Reply.of_fields {fields : List (Bytes × Json)} {ok : Bool}
    (hFields : Json.allStringsFields validUtf8 fields = true)
    (hOk : Json.lookup (text "ok") fields = some (.bool ok)) : Reply (.obj fields) :=
  ⟨hFields, fields, ok, rfl, hOk⟩

theorem failsUtf8_stringField {name : Bytes} (hName : Utf8 name) (request : Json) :
    Json.FailsUtf8 (stringField request name) :=
  Json.FailsUtf8.bind (Json.failsUtf8_at hName _) fun _ _ => Json.failsUtf8_getString _

/-- A fallible computation in an operation, of which only the error text matters. -/
theorem throwsUtf8_ofExcept {σ α : Type} {r : Except Bytes α} (h : Json.FailsUtf8 r) :
    ThrowsUtf8 E (Program.ofExcept r : Program σ Bytes α) :=
  .ofExcept (fun _ _ => trivial) h

theorem throwsUtf8_wideField {name : Bytes} (hName : Utf8 name) (request : Json) :
    ThrowsUtf8 E (Program.ofExcept (wideField P request name) : BrokerCall WString) :=
  throwsUtf8_ofExcept (Json.FailsUtf8.bind (failsUtf8_stringField hName _) fun _ _ => .ok _)

theorem throwsUtf8_extractPassword (request : Json) :
    ThrowsUtf8 E (Program.ofExcept (extractPassword P request) : BrokerCall WString) :=
  throwsUtf8_ofExcept (Json.FailsUtf8.bind (Json.failsUtf8_at rfl _) fun _ _ =>
    Json.FailsUtf8.bind (Json.failsUtf8_getStringRef _) fun _ _ => .ok _)

theorem failsUtf8_checkedLabel (request : Json) :
    Json.FailsUtf8 (checkedLabel request (text "label") (text "Security key")) := by
  unfold checkedLabel
  refine Json.FailsUtf8.bind (Json.failsUtf8_valueOr Json.failsUtf8_getString _ _ _)
    fun given _ => ?_
  generalize (if given.isEmpty then text "Security key" else given) = label
  dsimp only
  split_ifs
  · rintro e ⟨⟩
    rfl
  · exact .ok _

theorem failsUtf8_assertionFromJson (value : Json) : Json.FailsUtf8 (assertionFromJson value) := by
  unfold assertionFromJson
  refine Json.FailsUtf8.bind (failsUtf8_stringField rfl _) fun _ _ => ?_
  refine Json.FailsUtf8.bind (Json.failsUtf8_at rfl _) fun _ _ => ?_
  refine Json.FailsUtf8.bind (Json.FailsUtf8.mapM fun item => ?_) fun _ _ => .ok _
  unfold assertionDataFromJson
  refine Json.FailsUtf8.bind (failsUtf8_stringField rfl _) fun _ _ => ?_
  refine Json.FailsUtf8.bind (failsUtf8_stringField rfl _) fun _ _ => ?_
  refine Json.FailsUtf8.bind (failsUtf8_stringField rfl _) fun _ _ => ?_
  exact Json.FailsUtf8.bind (Json.failsUtf8_valueOr Json.failsUtf8_getString _ _ _)
    fun _ _ => .ok _

theorem allStrings_credentialIds {credentials : List CredentialRecord}
    (h : ∀ c ∈ credentials, Utf8Credential c) :
    (credentialIds credentials).allStrings validUtf8 = true := by
  refine Json.allStringsList_iff.mpr fun j hj => ?_
  obtain ⟨c, hc, rfl⟩ := List.mem_map.mp hj
  exact (h c hc).credentialId

theorem allStrings_credentialPublicJson {c : CredentialRecord} (h : Utf8Credential c) :
    (credentialPublicJson c).allStrings validUtf8 = true := by
  refine Json.allStringsFields_iff.mpr fun f hf => ?_
  simp only [List.mem_cons, List.not_mem_nil, or_false] at hf
  rcases hf with rfl | rfl | rfl | rfl | rfl | rfl
  · exact ⟨rfl, h.aaguid⟩
  · exact ⟨rfl, rfl⟩
  · exact ⟨rfl, h.createdAt⟩
  · exact ⟨rfl, h.credentialId⟩
  · exact ⟨rfl, h.label⟩
  · exact ⟨rfl, rfl⟩

/-- The strings of a session that replies quote. -/
structure Utf8Session (s : Session) : Prop where
  challenge : Utf8 s.challenge
  rpId : Utf8 s.rpId
  origin : Utf8 s.origin

theorem allStrings_createAuthChallenge {s : Session} {a : AccountRecord} (hs : Utf8Session s)
    (ha : Utf8Account a) : (createAuthChallenge s a).allStrings validUtf8 = true := by
  refine Json.allStringsFields_iff.mpr fun f hf => ?_
  simp only [List.mem_cons, List.not_mem_nil, or_false] at hf
  rcases hf with rfl | rfl | rfl | rfl | rfl
  · exact ⟨rfl, hs.challenge⟩
  · exact ⟨rfl, allStrings_credentialIds ha⟩
  · exact ⟨rfl, rfl⟩
  · exact ⟨rfl, hs.origin⟩
  · exact ⟨rfl, hs.rpId⟩

theorem allStrings_set {j v : Json} {key : Bytes} (hj : j.allStrings validUtf8 = true)
    (hKey : Utf8 key) (hv : v.allStrings validUtf8 = true) :
    (j.set key v).allStrings validUtf8 = true := by
  cases j with
  | obj fields => exact Json.allStringsFields_setField hKey hv hj
  | _ => exact hj

theorem throwsUtf8_requireLocalPassword {denied unresolved : Bytes} (hDenied : Utf8 denied)
    (hUnresolved : Utf8 unresolved) (caller : Caller) (sid username password : WString) :
    ThrowsUtf8 E (requireLocalPassword E denied unresolved caller sid username password) := by
  unfold requireLocalPassword
  split_ifs
  · exact .raise hDenied
  refine .bind throwsUtf8_ask fun db _ => ?_
  split
  · exact .raise hUnresolved
  · split_ifs
    · exact .raise hUnresolved
    refine .bind throwsUtf8_ask fun db' _ => ?_
    split
    · exact .pure trivial
    · exact .raise (validUtf8_append (validUtf8_append rfl (validUtf8_decimal _)) rfl)

theorem yields_newSession {v : Vault} (hv : Utf8Vault v) (kind : SessionKind) (caller : Caller)
    (sid : WString) : Utters E (newSession E kind caller sid v) Utf8Session := by
  unfold newSession
  refine .bind (yields_randomId _) fun challenge hChallenge => .pure ?_
  exact ⟨hChallenge, hv.rpId, validUtf8_append rfl hv.rpId⟩

theorem throwsUtf8_purgeExpired (sessions : List (Bytes × Session)) :
    ThrowsUtf8 E (purgeExpired E sessions) := by
  induction sessions with
  | nil => exact .pure trivial
  | cons entry rest ih =>
      unfold purgeExpired
      refine .bind throwsUtf8_ask fun _ _ => ?_
      exact .bind ih fun _ _ => .pure trivial

theorem yields_allocateSession (session : Session) (attempts : Nat) :
    Utters E (allocateSession E session attempts) Utf8 := by
  induction attempts with
  | zero => exact .raise rfl
  | succ attempts ih =>
      unfold allocateSession
      refine .bind (.zoom (yields_randomId _)) fun id hId => ?_
      refine .bind (.gets fun _ => trivial : ThrowsUtf8 E _) fun sessions _ => ?_
      split_ifs
      · exact .bind .update fun _ _ => .pure hId
      · exact ih

theorem yields_putSession (session : Session) : Utters E (putSession E session) Utf8 := by
  unfold putSession
  split_ifs
  · exact .raise rfl
  refine .bind (.zoom throwsUtf8_ask) fun now _ => ?_
  refine .bind (.gets fun _ => trivial : ThrowsUtf8 E _) fun sessions _ => ?_
  refine .bind (.zoom (throwsUtf8_purgeExpired _)) fun live _ => ?_
  refine .bind .update fun _ _ => ?_
  split_ifs
  · exact .raise rfl
  · exact yields_allocateSession _ _

theorem failsUtf8_checkSession (session : Session) (caller : Caller) (expected : SessionKind)
    (now : Nat) : Json.FailsUtf8 (checkSession session caller expected now) := by
  unfold checkSession
  split_ifs
  · exact .error rfl
  · exact .error rfl
  · exact .error rfl
  · exact .ok _

theorem yields_takeSession (id : Bytes) (caller : Caller) (expected : SessionKind) :
    Utters E (takeSession E id caller expected) Json.FailsUtf8 := by
  unfold takeSession
  split_ifs
  · exact .pure (.error rfl)
  refine .bind (.gets fun _ => trivial : ThrowsUtf8 E _) fun sessions _ => ?_
  split
  · exact .pure (.error rfl)
  · refine .bind .update fun _ _ => ?_
    refine .bind (.zoom throwsUtf8_ask) fun now _ => ?_
    exact .pure (failsUtf8_checkSession _ _ _ _)

theorem throwsUtf8_enterSession (request : Json) (caller : Caller) (expected : SessionKind) :
    ThrowsUtf8 E (enterSession E request caller expected) := by
  unfold enterSession
  refine .bind (throwsUtf8_ofExcept (failsUtf8_stringField rfl _)) fun id _ => ?_
  refine .bind (yields_takeSession id caller expected) fun taken hTaken => ?_
  exact throwsUtf8_ofExcept hTaken

theorem yields_verifySessionAssertion (hStrict : P.StrictUtf8) (session : Session)
    (assertionValue : Json) :
    Utters E (verifySessionAssertion P E session assertionValue) Json.FailsUtf8 := by
  unfold verifySessionAssertion
  refine .bind (yields_findAccount hStrict _) fun found _ => ?_
  cases found with
  | none => exact .pure (.error rfl)
  | some account =>
      dsimp only
      split_ifs
      · exact .pure (.error rfl)
      refine .bind (throwsUtf8_ofExcept (failsUtf8_assertionFromJson _)) fun assertion _ => ?_
      split
      · split
        · exact .pure (.error rfl)
        · split
          · rename_i e he
            exact .pure (.error (FidoVerifier.failsUtf8_verifyAssertion hStrict _ _ _ _ _ e he))
          · refine .bind (throwsUtf8_upsertAccount hStrict _) fun r _ => ?_
            cases r with
            | error e => exact .pure (.error rfl)
            | ok _ => exact .pure (.ok _)
      · exact .pure (.error rfl)

theorem reply_okReply : Reply okReply :=
  .of_fields rfl rfl

/-- The reply of an exception whose text can be printed. -/
theorem reply_errorReply {what : Bytes} (h : Utf8 what) : Reply (errorReply what) := by
  refine .of_fields ?_ rfl
  refine Json.allStringsFields_iff.mpr fun f hf => ?_
  simp only [List.mem_cons, List.not_mem_nil, or_false] at hf
  rcases hf with rfl | rfl
  · exact ⟨rfl, h⟩
  · exact ⟨rfl, rfl⟩

theorem yields_status (hT : P.Transcodes) (hStrict : P.StrictUtf8) (caller : Caller)
    (request : Json) : Utters E (status P E caller request) Reply := by
  unfold status
  refine .bind (throwsUtf8_wideField rfl _) fun sid _ => ?_
  split_ifs
  · exact .raise rfl
  refine .bind (.zoom (yields_findAccount hStrict _)) fun found hFound => ?_
  cases found with
  | none => exact .pure (.of_fields rfl rfl)
  | some account =>
      refine .pure (.of_fields ?_ rfl)
      refine Json.allStringsFields_iff.mpr fun f hf => ?_
      simp only [List.mem_cons, List.not_mem_nil, or_false] at hf
      rcases hf with rfl | rfl | rfl | rfl | rfl
      · refine ⟨rfl, Json.allStringsList_iff.mpr fun j hj => ?_⟩
        obtain ⟨c, hc, rfl⟩ := List.mem_map.mp hj
        exact allStrings_credentialPublicJson (hFound account rfl c hc)
      · exact ⟨rfl, rfl⟩
      · exact ⟨rfl, rfl⟩
      · exact ⟨rfl, rfl⟩
      · exact ⟨rfl, Convert.utf8_toString hT _⟩

theorem yields_challengeAccount {v : Vault} (hv : Utf8Vault v) {account : AccountRecord}
    (ha : Utf8Account account) (caller : Caller) (sid : WString) :
    Utters E (challengeAccount E caller sid v account) Reply := by
  unfold challengeAccount
  refine .bind (.zoom (yields_newSession hv _ _ _)) fun session hSession => ?_
  refine .bind (yields_putSession session) fun id hId => .pure ?_
  have hChallenge := allStrings_createAuthChallenge hSession ha
  refine ⟨allStrings_set (allStrings_set hChallenge rfl hId) rfl rfl, _, true, rfl, ?_⟩
  exact Json.lookup_setField _ _ _

theorem yields_beginAuth (hStrict : P.StrictUtf8) {v : Vault} (hv : Utf8Vault v) (caller : Caller)
    (request : Json) : Utters E (beginAuth P E caller request v) Reply := by
  unfold beginAuth
  refine .bind (throwsUtf8_wideField rfl _) fun sid _ => ?_
  split_ifs
  · exact .raise rfl
  refine .bind (.zoom (yields_findAccount hStrict _)) fun found hFound => ?_
  split
  · have hPolicy : ThrowsUtf8 E (isSidEnforced E sid) := by
      unfold isSidEnforced
      have hRead : ThrowsUtf8 E (readEnforcedSids E) := fun _ => trivial
      exact .bind hRead fun _ _ => .pure trivial
    refine .bind (.zoom hPolicy) fun enforced _ => ?_
    split_ifs
    · exact .raise rfl
    · exact .pure (.of_fields rfl rfl)
  · rename_i account hAccount
    have ha : Utf8Account account := hFound account (Option.eq_some_of_filter_eq_some hAccount)
    split_ifs
    · exact .raise rfl
    · exact yields_challengeAccount hv ha _ _

theorem yields_beginTest (hStrict : P.StrictUtf8) {v : Vault} (hv : Utf8Vault v) (caller : Caller)
    (request : Json) : Utters E (beginTest P E caller request v) Reply := by
  unfold beginTest
  refine .bind (throwsUtf8_wideField rfl _) fun sid _ => ?_
  split_ifs
  · exact .raise rfl
  refine .bind (.zoom (yields_findAccount hStrict _)) fun found hFound => ?_
  cases found with
  | none => exact .raise rfl
  | some account =>
      dsimp only
      split_ifs
      · exact .raise rfl
      · exact yields_challengeAccount hv (hFound account rfl) _ _

theorem yields_finishAuth (hStrict : P.StrictUtf8) (caller : Caller) (request : Json) :
    Utters E (finishAuth P E caller request) Reply := by
  unfold finishAuth
  refine .bind (throwsUtf8_enterSession _ _ _) fun session _ => ?_
  refine .bind (throwsUtf8_ofExcept (Json.failsUtf8_at rfl _)) fun assertion _ => ?_
  refine .bind (.zoom (yields_verifySessionAssertion hStrict _ _)) fun verified hVerified => ?_
  exact .bind (throwsUtf8_ofExcept hVerified) fun _ _ => .pure reply_okReply

theorem yields_beginRegistration (hStrict : P.StrictUtf8) {v : Vault} (hv : Utf8Vault v)
    (caller : Caller) (request : Json) :
    Utters E (beginRegistration P E caller request v) Reply := by
  unfold beginRegistration
  refine .bind (throwsUtf8_wideField rfl _) fun sid _ => ?_
  refine .bind (throwsUtf8_wideField rfl _) fun username _ => ?_
  refine .bind (throwsUtf8_extractPassword _) fun password _ => ?_
  refine .bind (.zoom (throwsUtf8_requireLocalPassword rfl rfl _ _ _ _)) fun resolvedName _ => ?_
  refine .bind (.zoom (yields_findAccount hStrict _)) fun account hAccount => ?_
  split_ifs
  · exact .raise rfl
  refine .bind (throwsUtf8_ofExcept (failsUtf8_checkedLabel _)) fun label _ => ?_
  refine .bind (.zoom (yields_newSession hv _ _ _)) fun blank hBlank => ?_
  refine .bind (yields_putSession _) fun id hId => ?_
  have hChallenge : Utters E (createRegistrationChallenge E { blank with username := resolvedName, label }
      account) (fun j => j.allStrings validUtf8 = true) := by
    unfold createRegistrationChallenge
    refine .bind (yields_randomId _) fun userId hUserId => ?_
    split_ifs
    · exact .raise rfl
    refine .pure (Json.allStringsFields_iff.mpr fun f hf => ?_)
    simp only [List.mem_cons, List.not_mem_nil, or_false] at hf
    rcases hf with rfl | rfl | rfl | rfl | rfl | rfl
    · exact ⟨rfl, hBlank.challenge⟩
    · refine ⟨rfl, allStrings_credentialIds fun c hc => ?_⟩
      cases account with
      | none => cases hc
      | some account => exact hAccount account rfl c hc
    · exact ⟨rfl, hBlank.origin⟩
    · exact ⟨rfl, hBlank.rpId⟩
    · exact ⟨rfl, rfl⟩
    · exact ⟨rfl, hUserId⟩
  refine .bind (.zoom hChallenge) fun registration hReg => .pure (.of_fields ?_ rfl)
  refine Json.allStringsFields_iff.mpr fun f hf => ?_
  simp only [List.mem_cons, List.not_mem_nil, or_false] at hf
  rcases hf with rfl | rfl
  · exact ⟨rfl, rfl⟩
  · exact ⟨rfl, allStrings_set hReg rfl hId⟩

theorem throwsUtf8_storeRegistration (hStrict : P.StrictUtf8) (session : Session)
    (registration : RegistrationResult) :
    ThrowsUtf8 E (storeRegistration P E session registration) := by
  unfold storeRegistration
  refine .bind (yields_loadOrCreate hStrict) fun r _ => ?_
  cases r with
  | error e => exact .raise rfl
  | ok current =>
      dsimp only
      split_ifs
      · exact .raise rfl
      have hClock : ThrowsUtf8 E (utcNow E) := .bind throwsUtf8_ask fun _ _ => .pure trivial
      refine .bind hClock fun createdAt _ => ?_
      refine .bind (throwsUtf8_ofExcept ?_) fun added _ => ?_
      · unfold addCredential
        dsimp only
        split_ifs
        · exact .error rfl
        · exact .ok _
      · refine .bind (throwsUtf8_save hStrict _) fun r _ => ?_
        cases r with
        | error e => exact .raise rfl
        | ok _ => exact .pure trivial

theorem yields_commitRegistration (hStrict : P.StrictUtf8) (caller : Caller) (request : Json) :
    Utters E (commitRegistration P E caller request) Reply := by
  unfold commitRegistration
  refine .bind (throwsUtf8_enterSession _ _ _) fun session _ => ?_
  refine .bind (throwsUtf8_ofExcept (failsUtf8_stringField rfl _)) fun attestation _ => ?_
  refine .bind (throwsUtf8_ofExcept (failsUtf8_stringField rfl _)) fun clientData _ => ?_
  refine .bind (throwsUtf8_ofExcept
    (FidoVerifier.failsUtf8_verifyRegistration hStrict _ _ _ _ _)) fun registration _ => ?_
  refine .bind (.zoom (throwsUtf8_storeRegistration hStrict _ _)) fun count _ => ?_
  exact .pure (.of_fields rfl rfl)

theorem failsUtf8_requireRemovable (account : Option AccountRecord) (request : Json) :
    Json.FailsUtf8 (requireRemovable account request) := by
  unfold requireRemovable
  cases account with
  | none => exact .error rfl
  | some account =>
      dsimp only
      split_ifs
      · exact .error rfl
      · exact .error rfl
      · refine Json.FailsUtf8.bind (failsUtf8_stringField rfl _) fun id _ => ?_
        split_ifs
        · exact .error rfl
        · exact .ok _

theorem utf8_of_requireRemovable {found : Option AccountRecord} (hFound : Utf8Find found)
    {request : Json} {r : AccountRecord × Bytes} (h : requireRemovable found request = .ok r) :
    Utf8Account r.1 := by
  unfold requireRemovable at h
  cases found with
  | none => cases h
  | some account =>
      dsimp only at h
      split_ifs at h
      obtain ⟨id, _, h⟩ := except_bind_eq_ok.mp h
      split_ifs at h
      cases h
      exact hFound account rfl

theorem yields_beginRemove (hStrict : P.StrictUtf8) {v : Vault} (hv : Utf8Vault v)
    (caller : Caller) (request : Json) : Utters E (beginRemove P E caller request v) Reply := by
  unfold beginRemove
  refine .bind (throwsUtf8_wideField rfl _) fun sid _ => ?_
  refine .bind (throwsUtf8_wideField rfl _) fun username _ => ?_
  refine .bind (throwsUtf8_extractPassword _) fun password _ => ?_
  refine .bind (.zoom (throwsUtf8_requireLocalPassword rfl rfl _ _ _ _)) fun resolvedName _ => ?_
  refine .bind (.zoom (yields_findAccount hStrict _)) fun found hFound => ?_
  refine .bind (.ofExcept (fun r hr => utf8_of_requireRemovable hFound hr)
    (failsUtf8_requireRemovable _ _)) fun r ha => ?_
  refine .bind (.zoom (yields_newSession hv _ _ _)) fun blank hBlank => ?_
  refine .bind (yields_putSession _) fun id hId => ?_
  refine .pure (.of_fields ?_ rfl)
  refine Json.allStringsFields_iff.mpr fun f hf => ?_
  simp only [List.mem_cons, List.not_mem_nil, or_false] at hf
  rcases hf with rfl | rfl
  · exact ⟨rfl, allStrings_set (allStrings_createAuthChallenge
      ⟨hBlank.challenge, hBlank.rpId, hBlank.origin⟩ ha) rfl hId⟩
  · exact ⟨rfl, rfl⟩

theorem yields_removeWithPassword (hStrict : P.StrictUtf8) (caller : Caller) (request : Json) :
    Utters E (removeWithPassword P E caller request) Reply := by
  unfold removeWithPassword
  refine .bind (throwsUtf8_wideField rfl _) fun sid _ => ?_
  refine .bind (throwsUtf8_wideField rfl _) fun username _ => ?_
  refine .bind (throwsUtf8_extractPassword _) fun password _ => ?_
  refine .bind (.zoom (throwsUtf8_requireLocalPassword rfl rfl _ _ _ _)) fun _ _ => ?_
  refine .bind (.zoom (yields_findAccount hStrict _)) fun found _ => ?_
  refine .bind (throwsUtf8_ofExcept (failsUtf8_requireRemovable _ _)) fun r _ => ?_
  refine .bind (.zoom (throwsUtf8_removeCredential hStrict _ _)) fun r _ => ?_
  cases r with
  | error e => exact .raise rfl
  | ok _ => exact .pure reply_okReply

theorem yields_finishRemove (hStrict : P.StrictUtf8) (caller : Caller) (request : Json) :
    Utters E (finishRemove P E caller request) Reply := by
  unfold finishRemove
  refine .bind (throwsUtf8_enterSession _ _ _) fun session _ => ?_
  refine .bind (throwsUtf8_ofExcept (Json.failsUtf8_at rfl _)) fun assertion _ => ?_
  refine .bind (.zoom (yields_verifySessionAssertion hStrict _ _)) fun verified hVerified => ?_
  refine .bind (throwsUtf8_ofExcept hVerified) fun _ _ => ?_
  refine .bind (.zoom (throwsUtf8_removeCredential hStrict _ _)) fun r _ => ?_
  cases r with
  | error e => exact .raise rfl
  | ok _ => exact .pure reply_okReply

theorem throwsUtf8_requireNoFilterConflict (hT : P.Transcodes) (enabled : Bool) (request : Json) :
    ThrowsUtf8 E (requireNoFilterConflict P E enabled request) := by
  unfold requireNoFilterConflict
  split_ifs
  · exact .pure trivial
  refine .bind (throwsUtf8_ofExcept (Json.failsUtf8_valueOr Json.failsUtf8_getBool _ _ _))
    fun allowed _ => ?_
  refine .bind throwsUtf8_ask fun scan _ => ?_
  split
  · split_ifs
    · exact .raise (validUtf8_append rfl (Convert.utf8_toString hT _))
    · exact .raise rfl
    · exact .pure trivial
  · split_ifs
    · exact .raise rfl
    · exact .pure trivial

theorem yields_setEnforcement (hT : P.Transcodes) (hStrict : P.StrictUtf8) (caller : Caller)
    (request : Json) : Utters E (setEnforcement P E caller request) Reply := by
  unfold setEnforcement
  split_ifs
  · exact .raise rfl
  refine .bind (throwsUtf8_wideField rfl _) fun sid _ => ?_
  refine .bind (throwsUtf8_wideField rfl _) fun username _ => ?_
  refine .bind (throwsUtf8_extractPassword _) fun password _ => ?_
  refine .bind (.zoom (throwsUtf8_requireLocalPassword rfl rfl _ _ _ _)) fun _ _ => ?_
  refine .bind (throwsUtf8_ofExcept (Json.FailsUtf8.bind (Json.failsUtf8_at rfl _) fun _ _ =>
    Json.failsUtf8_getBool _)) fun enabled _ => ?_
  refine .bind (.zoom (throwsUtf8_requireNoFilterConflict hT _ _)) fun _ _ => ?_
  refine .bind (.zoom (throwsUtf8_setEnforced hStrict _ _)) fun r _ => ?_
  cases r with
  | error e => exact .raise rfl
  | ok _ => exact .pure reply_okReply

theorem yields_dispatch (hT : P.Transcodes) (hStrict : P.StrictUtf8) (caller : Caller)
    (request : Json) (operation : Bytes) :
    Utters E (dispatch P E caller request operation) Reply := by
  unfold dispatch
  by_cases hStatus : operation = text "status"
  · rw [if_pos hStatus]
    exact yields_status hT hStrict _ _
  rw [if_neg hStatus]
  refine .bind (.zoom (yields_loadOrCreate hStrict)) fun r hr => ?_
  cases r with
  | error e => exact .raise rfl
  | ok v =>
      have hv := hr v rfl
      dsimp only
      split_ifs
      · exact yields_beginAuth hStrict hv _ _
      · exact yields_finishAuth hStrict _ _
      · exact yields_beginTest hStrict hv _ _
      · exact yields_beginRegistration hStrict hv _ _
      · exact yields_commitRegistration hStrict _ _
      · exact yields_beginRemove hStrict hv _ _
      · exact yields_removeWithPassword hStrict _ _
      · exact yields_finishRemove hStrict _ _
      · exact yields_setEnforcement hT hStrict _ _
      · exact .raise rfl

/-- `Handle` returns a reply that can be printed, or throws a text that can be. -/
theorem yields_handle (hT : P.Transcodes) (hStrict : P.StrictUtf8) (caller : Caller)
    (request : Json) : Utters E (handle P E caller request) Reply := by
  unfold handle
  refine .bind (.zoom (throwsUtf8_refreshLocalAccounts hStrict)) fun r _ => ?_
  cases r with
  | error e => exact .raise rfl
  | ok _ =>
      refine .bind (throwsUtf8_ofExcept (Json.failsUtf8_valueOr Json.failsUtf8_getString _ _ _))
        fun operation _ => ?_
      exact yields_dispatch hT hStrict _ _ _

/-! ## `ProcessRequest` -/

/-- The text that the parser quotes for a request, if any, is UTF-8. -/
def Quotable (P : Platform) (input : Bytes) : Prop :=
  input.isEmpty = true ∨ input.length > kMaxBrokerMessageBytes ∨ Json.FailsUtf8 (P.parse input)

/-- Up to `Handle` only the parser can throw something that is not UTF-8. -/
theorem openRequest_error {pipe : PipeClient} {input what : Bytes}
    (h : openRequest P pipe input = .error what) :
    Utf8 what ∨ (input.isEmpty = false ∧ input.length ≤ kMaxBrokerMessageBytes ∧
      P.parse input = .error what) := by
  unfold openRequest at h
  split_ifs at h with hSize
  · cases h
    exact .inl rfl
  rcases except_bind_eq_error.mp h with h | ⟨request, _, h⟩
  · simp only [Bool.or_eq_true, decide_eq_true_eq, not_or, Bool.not_eq_true] at hSize
    exact .inr ⟨hSize.1, Nat.not_lt.mp hSize.2, h⟩
  · refine .inl ?_
    rcases except_bind_eq_error.mp h with h | ⟨version, _, h⟩
    · exact Json.failsUtf8_valueOr Json.failsUtf8_getUnsigned _ _ _ _ h
    · split_ifs at h
      · cases h
        rfl
      · rcases except_bind_eq_error.mp h with h | ⟨caller, _, h⟩
        · unfold getCaller at h
          split_ifs at h
          · cases h
            rfl
          · cases h
            rfl
          · split at h
            · cases h
              rfl
            · cases h
        · cases h

theorem openRequest_of_parse_error {pipe : PipeClient} {input what : Bytes}
    (hEmpty : input.isEmpty = false) (hLength : input.length ≤ kMaxBrokerMessageBytes)
    (hParse : P.parse input = .error what) : openRequest P pipe input = .error what := by
  unfold openRequest
  rw [if_neg (by simp [hEmpty, hLength]), hParse]
  rfl

/-- `ProcessRequest` returned, with the text of an object whose boolean `ok` is its
result; where the request failed, that is false and the object carries the text. -/
def Answered (P : Platform) (E : Environment) (pipe : PipeClient) (input : Bytes) (b : Broker) :
    Prop :=
  ∃ output ok response, (processRequest P E pipe input b).1 = .returned (output, ok) ∧
    P.dump response = .ok output ∧
    (∃ fields, response = .obj fields ∧ Json.lookup (text "ok") fields = some (.bool ok)) ∧
    ∀ what, (answer P E pipe input b).1 = .threw what → ok = false ∧ response = errorReply what

/-- What `ProcessRequest` makes of a reply. -/
def printed (P : Platform) (j : Json) : Outcome Bytes (Bytes × Bool) :=
  match P.dump j with
  | .error e => .threw e
  | .ok output =>
      match j.valueOr Json.getBool (text "ok") false with
      | .error e => .threw e
      | .ok ok => .returned (output, ok)

/-- `ProcessRequest` prints what the `try` block returned, or the reply for what it
threw. -/
theorem processRequest_apply (pipe : PipeClient) (input : Bytes) (b : Broker) :
    processRequest P E pipe input b =
      match answer P E pipe input b with
      | (.returned j, b') => (printed P j, b')
      | (.threw what, b') => (printed P (errorReply what), b')
      | (.stopped, b') => (.stopped, b') := by
  have hPrint : ∀ (j : Json) (b' : Broker), (do
      let output ← Program.ofExcept (P.dump j)
      let ok ← Program.ofExcept (j.valueOr Json.getBool (text "ok") false)
      return (output, ok) : BrokerCall (Bytes × Bool)) b' = (printed P j, b') := by
    intro j b'
    unfold printed
    cases P.dump j with
    | error e => rfl
    | ok output => cases j.valueOr Json.getBool (text "ok") false <;> rfl
  unfold processRequest respond
  rw [bind_apply, bind_apply, Program.attempt]
  rcases answer P E pipe input b with ⟨j | what | _, b'⟩
  · exact hPrint j b'
  · exact hPrint (errorReply what) b'
  · rfl

/-- A reply that can be printed is the whole answer. -/
theorem Reply.printed (hStrict : P.StrictUtf8) {j : Json} (hj : Reply j) :
    ∃ output ok fields, BrokerService.printed P j = .returned (output, ok) ∧
      P.dump j = .ok output ∧ j = .obj fields ∧
        Json.lookup (text "ok") fields = some (.bool ok) := by
  obtain ⟨output, hDump⟩ := hStrict.dump_ok j hj.printable
  obtain ⟨fields, ok, rfl, hOk⟩ := hj.shape
  refine ⟨output, ok, fields, ?_, hDump, rfl, hOk⟩
  unfold BrokerService.printed
  rw [hDump]
  simp [Json.valueOr, hOk, Json.getBool]

/-- `ProcessRequest` answers every request, from every caller and in every state,
exactly if the text the parser quotes can be printed. -/
theorem answered_iff_quotable (hT : P.Transcodes) (hStrict : P.StrictUtf8)
    (hRuns : ¬ MayStop E) (pipe : PipeClient) (input : Bytes) (b : Broker) :
    Answered P E pipe input b ↔ Quotable P input := by
  constructor
  · rintro ⟨output, ok, response, _, hDump, _, hFailed⟩
    by_contra hNot
    simp only [Quotable, not_or, Bool.not_eq_true, Nat.not_lt, Json.FailsUtf8, not_forall] at hNot
    obtain ⟨hEmpty, hLength, what, hParse, hText⟩ := hNot
    have hOpen : openRequest P pipe input = .error what :=
      openRequest_of_parse_error hEmpty hLength hParse
    have hThrew : (answer P E pipe input b).1 = .threw what := by
      unfold answer
      rw [hOpen]
      rfl
    obtain ⟨_, rfl⟩ := hFailed what hThrew
    -- the quoted text would have been printed
    have hPrinted := hStrict.dump_strict _ _ hDump
    simp only [errorReply, Json.allStrings, Json.allStringsFields, Bool.and_eq_true] at hPrinted
    rw [hPrinted.2.1] at hText
    cases hText
  · intro hQuotable
    have hAnswer : (answer P E pipe input b).1.Within Reply Utf8 (MayStop E) := by
      unfold answer
      rw [bind_apply]
      cases hOpen : openRequest P pipe input with
      | error what =>
          rcases openRequest_error hOpen with hText | ⟨hEmpty, hLength, hParse⟩
          · exact hText
          · rcases hQuotable with h | h | h
            · rw [hEmpty] at h
              cases h
            · exact absurd hLength (Nat.not_le.mpr h)
            · exact h what hParse
      | ok opened => exact yields_handle hT hStrict opened.1 opened.2 b
    unfold Answered
    rw [processRequest_apply]
    rcases hCase : answer P E pipe input b with ⟨j | what | _, b'⟩ <;> rw [hCase] at hAnswer
    · obtain ⟨output, ok, fields, hReturned, hDump, hFields, hOk⟩ := Reply.printed hStrict hAnswer
      exact ⟨output, ok, j, hReturned, hDump, ⟨fields, hFields, hOk⟩, fun what h => by cases h⟩
    · obtain ⟨output, ok, fields, hReturned, hDump, hFields, hOk⟩ :=
        Reply.printed hStrict (reply_errorReply hAnswer)
      refine ⟨output, ok, errorReply what, hReturned, hDump, ⟨fields, hFields, hOk⟩, ?_⟩
      intro what' h
      cases h
      cases hFields
      have hFalse : some (Json.bool false) = some (.bool ok) := hOk
      cases hFalse
      exact ⟨rfl, rfl⟩
    · exact absurd hAnswer hRuns

section Example

open Reference

/-- The pipe client `alice`. -/
def alicePipe : PipeClient := { tokenSid := some aliceSid }

/-- A request that is cut off is answered, for the parser quotes ASCII only. -/
theorem answered_example :
    Answered (platform {}) calm alicePipe (text "\x7b\"op\":") { machine := machine none none } ↔
      Quotable (platform {}) (text "\x7b\"op\":") :=
  answered_iff_quotable (transcodes _) (strictUtf8 _) (fun ⟨_, _, h⟩ => by cases h) _ _ _

/-- On the single byte `0xFF` the parser quotes this byte, and printing the reply
throws an exception out of `ProcessRequest`. -/
theorem processRequest_throws_counterexample :
    ∃ what, (processRequest (platform {}) calm alicePipe [0xFF]
      { machine := machine none none }).1 = .threw what :=
  ⟨_, rfl⟩

end Example

end BrokerService

end WindowsFidoLogon
