import WindowsFidoLogon.Model.Convert
import WindowsFidoLogon.Model.RegistryReader

/-!
# The credential vault

`LocalCredentialStore.cpp`.  A function with a `bool` result and a `DWORD*
error` returns an `Except DWORD`; one that can throw does so as a `Call`.

`std::map` keeps the members of a JSON object sorted, so the encoders list them
in that order.
-/

namespace WindowsFidoLogon
namespace LocalCredentialStore

open Text LocalAccount Environment

/-! ## The vault as JSON -/

def credentialToJson (value : CredentialRecord) : Json :=
  .obj [
    (text "aaguid", .str value.aaguid),
    (text "algorithm", .int value.algorithm),
    (text "cosePublicKey", .str value.cosePublicKey),
    (text "createdAt", .str value.createdAt),
    (text "credentialId", .str value.credentialId),
    (text "label", .str value.label),
    (text "signCount", .int value.signCount.toNat)]

def credentialFromJson (value : Json) : Except Bytes CredentialRecord := do
  let credentialId ← (← value.at_ (text "credentialId")).getString
  let cosePublicKey ← (← value.at_ (text "cosePublicKey")).getString
  let algorithm ← value.valueOr Json.getInt (text "algorithm") kEs256Algorithm
  let aaguid ← value.valueOr Json.getString (text "aaguid") []
  let label ← value.valueOr Json.getString (text "label") (text "Security key")
  let createdAt ← value.valueOr Json.getString (text "createdAt") []
  let signCount ← value.valueOr Json.getUnsigned (text "signCount") 0
  return { credentialId, cosePublicKey, algorithm, aaguid, label, createdAt, signCount }

variable (P : Platform)

def accountToJson (account : AccountRecord) : Json :=
  .obj [
    (text "credentials", .arr (account.credentials.map credentialToJson)),
    (text "enforced", .bool account.enforced),
    (text "sid", .str (Convert.toString P account.sid)),
    (text "username", .str (Convert.toString P account.username))]

def vaultToJson (vault : Vault) : Json :=
  .obj [
    (text "accounts", .arr (vault.accounts.map (accountToJson P))),
    (text "machineId", .str vault.machineId),
    (text "rpId", .str vault.rpId),
    (text "schemaVersion", .int vault.schemaVersion)]

def accountFromJson (item : Json) : Except Bytes AccountRecord := do
  let sid := Convert.toWString P (← (← item.at_ (text "sid")).getString)
  let username := Convert.toWString P (← item.valueOr Json.getString (text "username") [])
  let enforced ← item.valueOr Json.getBool (text "enforced") false
  let credentials ← (← item.at_ (text "credentials")).elements.mapM credentialFromJson
  return { sid, username, enforced, credentials }

def vaultFromJson (value : Json) : Except Bytes Vault := do
  let schemaVersion ← (← value.at_ (text "schemaVersion")).getInt
  if schemaVersion ≠ kSchemaVersion then
    throw (text "Unsupported credential vault schema")
  let machineId ← (← value.at_ (text "machineId")).getString
  let rpId ← (← value.at_ (text "rpId")).getString
  let accounts ← (← value.at_ (text "accounts")).elements.mapM (accountFromJson P)
  return { schemaVersion, machineId, rpId, accounts }

/-! ## Validity -/

/-- `'0'` to `'9'` or `'a'` to `'f'` -/
def isHexDigit (value : UInt8) : Bool :=
  (48 ≤ value && value ≤ 57) || (97 ≤ value && value ≤ 102)

def isControl (value : UInt8) : Bool :=
  value < 0x20 || value == 0x7f

/-- The checks `IsVaultValid` makes on one credential. -/
def isCredentialValid (credential : CredentialRecord) : Bool :=
  let credentialId := Convert.base64URLDecode credential.credentialId
  let coseKey := Convert.base64URLDecode credential.cosePublicKey
  let aaguid := Convert.base64URLDecode credential.aaguid
  credential.algorithm == kEs256Algorithm &&
    !credentialId.isEmpty && credentialId.length ≤ 1024 &&
    !coseKey.isEmpty && coseKey.length ≤ 1024 && aaguid.length == 16 &&
    !credential.label.isEmpty && credential.label.length ≤ 128 &&
    credential.createdAt.length ≤ 64 && !credential.label.any isControl

/-- The checks `IsVaultValid` makes on one account. -/
def isAccountValid (account : AccountRecord) : Bool :=
  !account.sid.isEmpty && account.sid.length ≤ 184 && account.username.length ≤ 256 &&
    account.credentials.length ≤ 64 && !(account.enforced && account.credentials.isEmpty) &&
    P.isStringSid (cstr account.sid) && account.credentials.all isCredentialValid &&
    decide (account.credentials.map (·.credentialId)).Nodup

/-- `"wfl-" + machineId + ".login.local"` -/
def rpIdOf (machineId : Bytes) : Bytes :=
  text "wfl-" ++ machineId ++ text ".login.local"

def isVaultValid (vault : Vault) : Bool :=
  vault.schemaVersion == kSchemaVersion && vault.machineId.length == 32 &&
    vault.rpId == rpIdOf vault.machineId && vault.accounts.length ≤ 1024 &&
    vault.machineId.all isHexDigit && vault.accounts.all (isAccountValid P) &&
    decide (vault.accounts.map fun account => account.sid.map towupper).Nodup

/-! ## Protected files -/

/-- `4 * 1024 * 1024` -/
def maximumFileBytes : Nat := 4194304

/-- What `ReadProtectedFile` makes of the bytes of an existing file. -/
def unprotectFile (content : Bytes) : Except DWORD Bytes :=
  if content.length = 0 ∨ content.length > maximumFileBytes then .error ERROR_FILE_INVALID
  else P.cryptUnprotectData content

/-- The vault in the bytes of a file, if they hold a valid one. -/
def vaultOf (content : Bytes) : Except DWORD Vault := do
  let plaintext ← unprotectFile P content
  match P.parse plaintext >>= vaultFromJson P with
  | .error _ => .error ERROR_INVALID_DATA
  | .ok parsed => if isVaultValid P parsed then .ok parsed else .error ERROR_INVALID_DATA

variable (E : Environment)

/-- The lambdas `loadValid` of `Load` and `readValidVault` of `Save`: read,
unprotect, parse and check one vault file. -/
def readValidVault (file : VaultFile) : Call (Except DWORD Vault) := fun m =>
  match m.disk file with
  | none => (.returned (.error ERROR_FILE_NOT_FOUND), m.next)
  | some content =>
      match E.readFault file m.tick with
      | some e => (.returned (.error e.val), m.next)
      | none => (.returned (vaultOf P content), m.next)

/-- `WriteProtectedFile`; the tick stands for the salt of DPAPI. -/
def writeProtectedFile (file : VaultFile) (plaintext : Bytes) : Call (Except DWORD Unit) := fun m =>
  E.fileStep file (P.cryptProtectData m.tick plaintext) m

def ensureStoreDirectory : Call (Except DWORD Unit) :=
  E.atomicStep id

/-- Write an entry of the log. -/
def record (entry : LogEntry) : Call Unit :=
  Program.update (Machine.record entry)

def load : Call (Except DWORD Vault) := do
  match ← readValidVault P E .primary with
  | .ok vault =>
    record (.loaded .primary vault)
    return .ok vault
  | .error primaryError =>
    match ← readValidVault P E .backup with
    | .ok vault =>
      record (.loaded .backup vault)
      return .ok vault
    | .error backupError =>
      record .loadFailed
      return .error (if primaryError ≠ ERROR_SUCCESS then primaryError else backupError)

/-! ## The published policy -/

/-- The units of `EnforcedSids` before the terminator of the list. -/
def enforcedSidUnits (accounts : List AccountRecord) : WString :=
  (accounts.filter (·.enforced)).flatMap fun account => account.sid ++ [0]

/-- The `REG_MULTI_SZ` data `SynchronizeEnforcedRegistry` writes. -/
def enforcedSidsValue (vault : Vault) : RegistryValue :=
  let units := enforcedSidUnits vault.accounts ++ [0]
  { type := .multiSz
    data := RegistryReader.toBytes (if units.length = 1 then units ++ [0] else units) }

def hasEnforcedAccounts (vault : Vault) : Bool :=
  vault.accounts.any (·.enforced)

/-- The `REG_DWORD` data for `enable_filter`. -/
def enableFilterValue (vault : Vault) : RegistryValue :=
  { type := .dword, data := [if hasEnforcedAccounts vault then 1 else 0, 0, 0, 0] }

/-- What the registry holds after `SynchronizeEnforcedRegistry` succeeded. -/
def publishedPolicy (vault : Vault) : Registry :=
  { enforcedSids := some (enforcedSidsValue vault)
    enableFilter := some (enableFilterValue vault) }

def synchronizeEnforcedRegistry (vault : Vault) : Call (Except DWORD Unit) := do
  match ← E.atomicStep id with  -- RegCreateKeyExW
  | .error openResult => return .error openResult
  | .ok () =>
    match ← E.atomicStep (fun m =>
        m.setRegistry { m.registry with enforcedSids := some (enforcedSidsValue vault) }) with
    | .error result => return .error result
    | .ok () =>
      E.atomicStep fun m =>
        m.setRegistry { m.registry with enableFilter := some (enableFilterValue vault) }

/-- `ReadEnforcedSids`, empty when the registry cannot be read. -/
def readEnforcedSids : Call (List WString) := fun m =>
  (.returned (if E.registryReadFails m.tick then []
    else RegistryReader.getMultiSZ m.registry.enforcedSids), m.next)

def isSidEnforced (sid : WString) : Call Bool := do
  let sids ← readEnforcedSids E
  return sids.any fun value => wcsicmpEq value sid

/-- `GetBool(L"enable_filter")`, as the Credential Provider Filter reads it. -/
def readEnableFilter : Call Bool := fun m =>
  (.returned (if E.registryReadFails m.tick then false
    else RegistryReader.getBool m.registry.enableFilter), m.next)

/-! ## Save -/

/-- Keep the current vault as the backup, unless the primary is not valid, and
return the vault to fall back to. -/
def keepBackup : Call (Except DWORD (Option Vault)) := do
  match ← readValidVault P E .primary with
  | .ok previous =>
    match ← E.copyFile .primary .backup with
    | .error e => return .error e
    | .ok () => return .ok (some previous)
  | .error _ =>
    match ← readValidVault P E .backup with
    | .ok previous => return .ok (some previous)
    | .error _ => return .ok none

/-- The lambda `restorePreviousFile`. -/
def restorePreviousFile (previous : Option Vault) : Call Bool := do
  if previous.isNone then return false
  match ← E.copyFile .backup .rollback with
  | .error _ => return false
  | .ok () =>
    match ← E.moveFile .rollback .primary with
    | .ok () => return true
    | .error _ =>
      E.deleteFile .rollback
      return false

/-- Publish the previous policy again, if there is one. -/
def republish (previous : Option Vault) : Call Unit := do
  match previous with
  | none => return ()
  | some vault =>
    match ← synchronizeEnforcedRegistry E vault with
    | .ok () => return ()
    | .error _ => record .compensationFailed

/-- Put the previous file back.  `Save` ignores whether that succeeded. -/
def rollBack (previous : Option Vault) : Call Unit := do
  if ← restorePreviousFile E previous then return ()
  else record .compensationFailed

/-- The end of `Save`: replace the primary file, and publish a policy that
enforces nobody only afterwards. -/
def replacePrimary (vault : Vault) (previous : Option Vault) : Call (Except DWORD Unit) := do
  match ← E.moveFile .temporary .primary with
  | .error moveError =>
    republish E (if hasEnforcedAccounts vault then previous else none)
    E.deleteFile .temporary
    return .error moveError
  | .ok () =>
    if hasEnforcedAccounts vault then return .ok ()
    match ← synchronizeEnforcedRegistry E vault with
    | .ok () => return .ok ()
    | .error policyError =>
      rollBack E previous
      republish E previous
      return .error policyError

/-- The middle of `Save`: publish an enforcing policy before the vault that
depends on it. -/
def publishAndReplace (vault : Vault) (previous : Option Vault) : Call (Except DWORD Unit) := do
  if hasEnforcedAccounts vault then
    match ← synchronizeEnforcedRegistry E vault with
    | .error policyError =>
      republish E previous
      E.deleteFile .temporary
      return .error policyError
    | .ok () => replacePrimary E vault previous
  else replacePrimary E vault previous

def save (vault : Vault) : Call (Except DWORD Unit) := do
  if !isVaultValid P vault then return .error ERROR_INVALID_DATA
  match ← ensureStoreDirectory E with
  | .error e => return .error e
  | .ok () =>
    let plaintext ← Program.ofExcept (P.dump (vaultToJson P vault))
    match ← writeProtectedFile P E .temporary plaintext with
    | .error e => return .error e
    | .ok () =>
      match ← keepBackup P E with
      | .error e =>
        E.deleteFile .temporary
        return .error e
      | .ok previous => publishAndReplace E vault previous

/-! ## The operations -/

def hexDigit (value : UInt8) : UInt8 :=
  if value < 10 then 48 + value else 87 + value

/-- `std::hex << std::setw(2) << std::setfill('0')` -/
def hexByte (value : UInt8) : Bytes :=
  [hexDigit (value >>> 4), hexDigit (value &&& 15)]

/-- `GenerateHexId`: 32 lower-case hexadecimal digits, or nothing. -/
def generateHexId : Call Bytes := do
  let random ← ask (E.random 16)
  match random with
  | none => return []
  | some bytes => return bytes.val.flatMap hexByte

def loadOrCreate : Call (Except DWORD Vault) := do
  match ← load P E with
  | .ok vault => return .ok vault
  | .error loadError =>
    if loadError ≠ ERROR_FILE_NOT_FOUND ∧ loadError ≠ ERROR_PATH_NOT_FOUND then
      return .error loadError
    let machineId ← generateHexId E
    if machineId.isEmpty then return .error ERROR_GEN_FAILURE
    let vault : Vault := { machineId, rpId := rpIdOf machineId }
    record .created
    match ← save P E vault with
    | .ok () => return .ok vault
    | .error e => return .error e

/-- The account record a lookup by SID selects. -/
def accountOf (sid : WString) (accounts : List AccountRecord) : Option AccountRecord :=
  accounts.find? fun item => wcsicmpEq item.sid sid

/-- Change the account record a lookup by SID selects. -/
def modifyAccount (sid : WString) (f : AccountRecord → AccountRecord) :
    List AccountRecord → List AccountRecord
  | [] => []
  | item :: rest =>
      if wcsicmpEq item.sid sid then f item :: rest else item :: modifyAccount sid f rest

def findAccount (sid : WString) : Call (Option AccountRecord) := do
  match ← loadOrCreate P E with
  | .error _ => return none
  | .ok vault => return accountOf sid vault.accounts

/-- The accounts with `account` in the place of the one with its SID, or added
at the end. -/
def upsert (account : AccountRecord) (accounts : List AccountRecord) : List AccountRecord :=
  match accountOf account.sid accounts with
  | none => accounts ++ [account]
  | some _ => modifyAccount account.sid (fun _ => account) accounts

def upsertAccount (account : AccountRecord) : Call (Except DWORD Unit) := do
  match ← loadOrCreate P E with
  | .error e => return .error e
  | .ok vault => save P E { vault with accounts := upsert account vault.accounts }

/-- An account without the first credential that has this id. -/
def eraseCredential (credentialId : Bytes) (account : AccountRecord) : AccountRecord :=
  { account with
    credentials := account.credentials.eraseP fun item => item.credentialId == credentialId }

def removeCredential (sid : WString) (credentialId : Bytes) : Call (Except DWORD Unit) := do
  match ← loadOrCreate P E with
  | .error e => return .error e
  | .ok vault =>
    match accountOf sid vault.accounts with
    | none => return .error ERROR_NOT_FOUND
    | some account =>
      if !account.credentials.any (fun item => item.credentialId == credentialId) then
        return .error ERROR_NOT_FOUND
      if account.enforced ∧ account.credentials.length ≤ 1 then
        return .error ERROR_ACCESS_DENIED
      save P E { vault with
        accounts := modifyAccount sid (eraseCredential credentialId) vault.accounts }

def setEnforced (sid : WString) (enforced : Bool) : Call (Except DWORD Unit) := do
  match ← loadOrCreate P E with
  | .error e => return .error e
  | .ok vault =>
    match accountOf sid vault.accounts with
    | none => return .error ERROR_INVALID_STATE
    | some account =>
      if enforced ∧ account.credentials.isEmpty then return .error ERROR_INVALID_STATE
      save P E { vault with
        accounts := modifyAccount sid (fun item => { item with enforced }) vault.accounts }

/-- The loop of `RefreshLocalAccounts`: the accounts that remain, under their
current names, and whether anything changed. -/
def refreshAccounts : List AccountRecord → Call (Except DWORD (List AccountRecord × Bool))
  | [] => return .ok ([], false)
  | account :: rest => do
    let db ← ask E.accounts
    match resolveLocalSid P db account.sid with
    | .error resolveError =>
      if resolveError = ERROR_NONE_MAPPED ∨ resolveError = ERROR_NO_SUCH_USER then
        match ← refreshAccounts rest with
        | .error e => return .error e
        | .ok (kept, _) => return .ok (kept, true)
      else return .error resolveError
    | .ok currentName =>
      let renamed := !wcsicmpEq account.username currentName
      let current := if renamed then { account with username := currentName } else account
      match ← refreshAccounts rest with
      | .error e => return .error e
      | .ok (kept, changed) => return .ok (current :: kept, renamed || changed)

def refreshLocalAccounts : Call (Except DWORD Unit) := do
  match ← loadOrCreate P E with
  | .error e => return .error e
  | .ok vault =>
    match ← refreshAccounts P E vault.accounts with
    | .error e => return .error e
    | .ok (accounts, changed) =>
      let current := { vault with accounts }
      if changed then save P E current else synchronizeEnforcedRegistry E current

end LocalCredentialStore
end WindowsFidoLogon
