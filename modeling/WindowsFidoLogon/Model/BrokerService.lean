import WindowsFidoLogon.Model.FidoVerifier
import WindowsFidoLogon.Model.LocalCredentialStore

/-!
# The Broker

`BrokerService.cpp`: the session table, the ten operations of `Handle`, and
`ProcessRequest`.  Every `throw std::runtime_error(text)` raises the text.
-/

namespace WindowsFidoLogon
namespace BrokerService

open Text LocalAccount LocalCredentialStore Environment

/-- 120 seconds, in nanoseconds -/
def kSessionLifetime : Nat := 120 * 1000000000

def kMaximumCredentialsPerAccount : Nat := 64
def kMaximumSessions : Nat := 256
def kMaximumSessionsPerCaller : Nat := 32

inductive SessionKind
  | authentication
  | registration
  | removalAuthorization
  deriving DecidableEq, Repr

structure Session where
  kind : SessionKind := .authentication
  callerSid : WString
  targetSid : WString
  username : WString := []
  challenge : Bytes
  rpId : Bytes
  origin : Bytes
  label : Bytes := []
  credentialToRemove : Bytes := []
  expiresAt : Nat := 0
  deriving DecidableEq, Repr

structure Caller where
  sid : WString
  isSystem : Bool := false
  isElevatedAdmin : Bool := false
  deriving DecidableEq, Repr

/-- What Windows tells about the client at the other end of the pipe. -/
structure PipeClient where
  impersonates : Bool := true
  tokenOpens : Bool := true
  tokenSid : Option WString
  elevatedAdmin : Bool := false

/-- The Broker process and the machine it runs on. -/
structure Broker where
  machine : Machine
  /-- `_sessions` -/
  sessions : List (Bytes × Session) := []

/-- A program that may also use the session table. -/
abbrev BrokerCall (α : Type) : Type := Program Broker Bytes α

def Broker.setMachine (b : Broker) (m : Machine) : Broker := { b with machine := m }

def Broker.setSessions (sessions : List (Bytes × Session)) (b : Broker) : Broker :=
  { b with sessions }

@[simp] theorem Broker.setMachine_machine (b : Broker) (m : Machine) :
    (b.setMachine m).machine = m := rfl
@[simp] theorem Broker.setMachine_sessions (b : Broker) (m : Machine) :
    (b.setMachine m).sessions = b.sessions := rfl
@[simp] theorem Broker.setSessions_machine (l : List (Bytes × Session)) (b : Broker) :
    (b.setSessions l).machine = b.machine := rfl
@[simp] theorem Broker.setSessions_sessions (l : List (Bytes × Session)) (b : Broker) :
    (b.setSessions l).sessions = l := rfl

/-- Run a call that leaves the session table alone. -/
def onMachine {α : Type} (x : Call α) : BrokerCall α :=
  Program.zoom Broker.machine Broker.setMachine x

/-- `IsSameSid` -/
def isSameSid (left right : WString) : Bool :=
  wcsicmpEq left right

variable (P : Platform) (E : Environment)

/-- `RandomId`: unpadded base64url, or nothing. -/
def randomId (bytes : Nat) : Call Bytes := do
  let random ← ask (E.random bytes)
  match random with
  | none => return []
  | some data => return Convert.base64URLEncode data.val

/-- `%0*u` -/
def zeroPadded (width n : Nat) : Bytes :=
  List.replicate (width - (decimal n).length) 48 ++ decimal n

/-- The text `UtcNow` prints. -/
def formatTime (time : SystemTime) : Bytes :=
  zeroPadded 4 time.year ++ text "-" ++ zeroPadded 2 time.month ++ text "-" ++
    zeroPadded 2 time.day ++ text "T" ++ zeroPadded 2 time.hour ++ text ":" ++
    zeroPadded 2 time.minute ++ text ":" ++ zeroPadded 2 time.second ++ text "Z"

def utcNow : Call Bytes := do
  let time ← ask E.systemTime
  return formatTime time

/-! ## Request fields -/

/-- `request.at(name).get<std::string>()` -/
def stringField (request : Json) (name : Bytes) : Except Bytes Bytes := do
  (← request.at_ name).getString

/-- `Convert::ToWString(request.at(name).get<std::string>())` -/
def wideField (request : Json) (name : Bytes) : Except Bytes WString := do
  return Convert.toWString P (← stringField request name)

/-- `ExtractPassword` -/
def extractPassword (request : Json) : Except Bytes WString := do
  return Convert.toWString P (← (← request.at_ (text "password")).getStringRef)

/-- `CheckedLabel` -/
def checkedLabel (request : Json) (name fallback : Bytes) : Except Bytes Bytes := do
  let given ← request.valueOr Json.getString name fallback
  let label := if given.isEmpty then fallback else given
  if label.length > 128 || label.any isControl then
    throw (text "invalid security-key label")
  return label

/-- The fields of one assertion in `AssertionFromJson`. -/
def assertionDataFromJson (item : Json) : Except Bytes FIDOAssertionData := do
  let credentialid ← stringField item (text "credentialId")
  let authenticatordata ← stringField item (text "authenticatorData")
  let signaturedata ← stringField item (text "signature")
  let userHandle ← item.valueOr Json.getString (text "userHandle") []
  return { credentialid, authenticatordata, signaturedata, userHandle }

def assertionFromJson (value : Json) : Except Bytes FIDOSignResponse := do
  let clientdata ← stringField value (text "clientData")
  let assertions ← (← value.at_ (text "assertions")).elements.mapM assertionDataFromJson
  return { clientdata, assertions }

/-! ## Replies -/

def credentialPublicJson (record : CredentialRecord) : Json :=
  .obj [
    (text "aaguid", .str record.aaguid),
    (text "algorithm", .int record.algorithm),
    (text "createdAt", .str record.createdAt),
    (text "credentialId", .str record.credentialId),
    (text "label", .str record.label),
    (text "signCount", .int record.signCount.toNat)]

/-- The credential ids of an account, as a reply lists them. -/
def credentialIds (credentials : List CredentialRecord) : Json :=
  .arr (credentials.map fun credential => .str credential.credentialId)

def createAuthChallenge (session : Session) (account : AccountRecord) : Json :=
  .obj [
    (text "challenge", .str session.challenge),
    (text "credentialIds", credentialIds account.credentials),
    (text "enforced", .bool true),
    (text "origin", .str session.origin),
    (text "rpId", .str session.rpId)]

def createRegistrationChallenge (session : Session) (account : Option AccountRecord) :
    Call Json := do
  let userId ← randomId E 32
  if userId.isEmpty then
    Program.raise (text "unable to generate registration user handle")
  else
    return .obj [
      (text "challenge", .str session.challenge),
      (text "excludeCredentials",
        credentialIds ((account.map (·.credentials)).getD [])),
      (text "origin", .str session.origin),
      (text "rpId", .str session.rpId),
      (text "sessionId", .str []),
      (text "userId", .str userId)]

/-- `{ {"ok", true} }` -/
def okReply : Json := .obj [(text "ok", .bool true)]

/-- `{ {"ok", false}, {"error", what} }` -/
def errorReply (what : Bytes) : Json :=
  .obj [(text "error", .str what), (text "ok", .bool false)]

/-! ## Sessions -/

/-- The purge loop of `PutSession`, which reads the clock once for each entry.  The map
of the source is iterated in the order of its identifiers, the list here in that of
insertion. -/
def purgeExpired : List (Bytes × Session) → Call (List (Bytes × Session))
  | [] => return []
  | entry :: rest => do
    let now ← ask E.clock
    let live ← purgeExpired rest
    return if entry.2.expiresAt ≤ now then live else entry :: live

def sessionsOf (callerSid : WString) (sessions : List (Bytes × Session)) : Nat :=
  sessions.countP fun value => isSameSid value.2.callerSid callerSid

def findSession (id : Bytes) (sessions : List (Bytes × Session)) : Option Session :=
  (sessions.find? fun entry => entry.1 == id).map (·.2)

def eraseSession (id : Bytes) (sessions : List (Bytes × Session)) : List (Bytes × Session) :=
  sessions.filter fun entry => entry.1 != id

/-- The attempts of `PutSession` to find an unused identifier. -/
def allocateSession (session : Session) : (attempts : Nat) → BrokerCall Bytes
  | 0 => Program.raise (text "unable to allocate unique Broker session")
  | attempts + 1 => do
    let id ← onMachine (randomId E 24)
    let sessions ← Program.gets Broker.sessions
    if !id.isEmpty && (findSession id sessions).isNone then
      Program.update (Broker.setSessions (sessions ++ [(id, session)]))
      return id
    else allocateSession session attempts

def putSession (session : Session) : BrokerCall Bytes := do
  if session.challenge.isEmpty || session.rpId.isEmpty || session.origin.isEmpty then
    Program.raise (text "unable to create cryptographic session")
  else
    let now ← onMachine (ask E.clock)
    let expiring := { session with expiresAt := now + kSessionLifetime }
    let sessions ← Program.gets Broker.sessions
    let live ← onMachine (purgeExpired E sessions)
    Program.update (Broker.setSessions live)
    if live.length ≥ kMaximumSessions ∨
        sessionsOf expiring.callerSid live ≥ kMaximumSessionsPerCaller then
      Program.raise (text "too many active Broker sessions")
    else allocateSession E expiring 4

/-- The checks of `TakeSession` on a session that was already consumed. -/
def checkSession (session : Session) (caller : Caller) (expected : SessionKind) (now : Nat) :
    Except Bytes Session :=
  if session.expiresAt ≤ now then .error (text "session expired")
  else if session.kind ≠ expected then .error (text "wrong session type")
  else if !caller.isSystem && !isSameSid caller.sid session.callerSid then
    .error (text "session belongs to another user")
  else .ok session

def takeSession (id : Bytes) (caller : Caller) (expected : SessionKind) :
    BrokerCall (Except Bytes Session) := do
  if id.length ≠ 32 then return .error (text "invalid session identifier")
  else
    let sessions ← Program.gets Broker.sessions
    match findSession id sessions with
    | none => return .error (text "unknown or already-used session")
    | some session =>
      Program.update (Broker.setSessions (eraseSession id sessions))
      let now ← onMachine (ask E.clock)
      return checkSession session caller expected now

/-- The entry of a session by the request that finishes it. -/
def enterSession (request : Json) (caller : Caller) (expected : SessionKind) :
    BrokerCall Session := do
  let id ← Program.ofExcept (stringField request (text "sessionId"))
  let taken ← takeSession E id caller expected
  Program.ofExcept taken

/-! ## Checks shared by the operations -/

/-- `record->signCount = counter` on the record with this id. -/
def setSignCount (credentialId : Bytes) (counter : UInt32) :
    List CredentialRecord → List CredentialRecord
  | [] => []
  | item :: rest =>
      if item.credentialId = credentialId then { item with signCount := counter } :: rest
      else item :: setSignCount credentialId counter rest

def verifySessionAssertion (session : Session) (assertionValue : Json) :
    Call (Except Bytes Unit) := do
  match ← findAccount P E session.targetSid with
  | none => return .error (text "account has no registered credentials")
  | some account =>
    if account.credentials.isEmpty then
      return .error (text "account has no registered credentials")
    let assertion ← Program.ofExcept (assertionFromJson assertionValue)
    match assertion.assertions with
    | [front] =>
      match account.credentials.find? (fun item => item.credentialId == front.credentialid) with
      | none => return .error (text "credential is not registered for this SID")
      | some record =>
        match FidoVerifier.verifyAssertion P record session.challenge session.rpId session.origin
            assertion with
        | .error e => return .error e
        | .ok counter =>
          let updated := { account with
            credentials := setSignCount record.credentialId counter account.credentials }
          match ← upsertAccount P E updated with
          | .error _ => return .error (text "unable to update credential counter")
          | .ok () => return .ok ()
    | _ => return .error (text "exactly one assertion is required")

/-- The current local account and its password, as the four operations that ask
for a password check them; the two texts are those of the operation. -/
def requireLocalPassword (denied unresolved : Bytes) (caller : Caller)
    (sid username password : WString) : Call WString := do
  if !isSameSid caller.sid sid then
    Program.raise denied
  else
    let db ← ask E.accounts
    match resolveLocalAccount db username with
    | .error _ => Program.raise unresolved
    | .ok resolved =>
      if !isSameSid sid resolved.sidString then
        Program.raise unresolved
      else
        let db ← ask E.accounts
        match validateLocalPassword db resolved.username password with
        | .ok () => return resolved.username
        | .error passwordError =>
          Program.raise (text "Windows password validation failed (Windows error " ++
            decimal passwordError.toNat ++ text ").")

/-- A session for the vault's RP ID with a fresh challenge. -/
def newSession (kind : SessionKind) (caller : Caller) (sid : WString) (vault : Vault) :
    Call Session := do
  let challenge ← randomId E 32
  return {
    kind
    callerSid := caller.sid
    targetSid := sid
    challenge
    rpId := vault.rpId
    origin := text "https://" ++ vault.rpId }

/-- The account and the credential id of a removal: the account has this
credential, and is not enforced with only one left. -/
def requireRemovable (account : Option AccountRecord) (request : Json) :
    Except Bytes (AccountRecord × Bytes) :=
  match account with
  | none => .error (text "account has no registered credentials")
  | some account =>
      if account.credentials.isEmpty then
        .error (text "account has no registered credentials")
      else if account.enforced ∧ account.credentials.length ≤ 1 then
        .error (text "enforced accounts must retain at least one credential")
      else do
        let credentialId ← stringField request (text "credentialId")
        if !account.credentials.any (fun item => item.credentialId == credentialId) then
          .error (text "credential is not registered for this account")
        else .ok (account, credentialId)

/-! ## The operations of `Handle` -/

def status (caller : Caller) (request : Json) : BrokerCall Json := do
  let sid ← Program.ofExcept (wideField P request (text "sid"))
  if !caller.isSystem && !caller.isElevatedAdmin && !isSameSid caller.sid sid then
    Program.raise (text "access denied")
  else
    match ← onMachine (findAccount P E sid) with
    | none =>
      return .obj [
        (text "enforced", .bool false), (text "found", .bool false), (text "ok", .bool true)]
    | some account =>
      return .obj [
        (text "credentials", .arr (account.credentials.map credentialPublicJson)),
        (text "enforced", .bool account.enforced),
        (text "found", .bool true),
        (text "ok", .bool true),
        (text "username", .str (Convert.toString P account.username))]

/-- The challenge of `begin_auth` and `begin_test` and its session. -/
def challengeAccount (caller : Caller) (sid : WString) (vault : Vault) (account : AccountRecord) :
    BrokerCall Json := do
  let session ← onMachine (newSession E .authentication caller sid vault)
  let id ← putSession E session
  return ((createAuthChallenge session account).set (text "sessionId") (.str id)).set
    (text "ok") (.bool true)

def beginAuth (caller : Caller) (request : Json) (vault : Vault) : BrokerCall Json := do
  let sid ← Program.ofExcept (wideField P request (text "sid"))
  if !caller.isSystem && !isSameSid caller.sid sid then
    Program.raise (text "access denied")
  else
    let account ← onMachine (findAccount P E sid)
    match account.filter (·.enforced) with
    | none =>
      if ← onMachine (isSidEnforced E sid) then
        Program.raise (text "MFA policy state is inconsistent; authentication is blocked")
      else return .obj [(text "enforced", .bool false), (text "ok", .bool true)]
    | some account =>
      if account.credentials.isEmpty then
        Program.raise (text "enforced account does not have a registered credential")
      else challengeAccount E caller sid vault account

def finishAuth (caller : Caller) (request : Json) : BrokerCall Json := do
  let session ← enterSession E request caller .authentication
  let assertion ← Program.ofExcept (request.at_ (text "assertion"))
  let verified ← onMachine (verifySessionAssertion P E session assertion)
  Program.ofExcept verified
  return okReply

def beginTest (caller : Caller) (request : Json) (vault : Vault) : BrokerCall Json := do
  let sid ← Program.ofExcept (wideField P request (text "sid"))
  if !caller.isSystem && !isSameSid caller.sid sid then
    Program.raise (text "access denied")
  else
    match ← onMachine (findAccount P E sid) with
    | none => Program.raise (text "account has no registered credentials")
    | some account =>
      if account.credentials.isEmpty then
        Program.raise (text "account has no registered credentials")
      else challengeAccount E caller sid vault account

def beginRegistration (caller : Caller) (request : Json) (vault : Vault) : BrokerCall Json := do
  let sid ← Program.ofExcept (wideField P request (text "sid"))
  let username ← Program.ofExcept (wideField P request (text "username"))
  let password ← Program.ofExcept (extractPassword P request)
  let resolvedName ← onMachine (requireLocalPassword E
    (text "registration is limited to the current user")
    (text "target is not the current local account") caller sid username password)
  let account ← onMachine (findAccount P E sid)
  if (account.map (·.credentials.length)).getD 0 ≥ kMaximumCredentialsPerAccount then
    Program.raise (text "maximum registered security-key count reached")
  else
    let label ← Program.ofExcept (checkedLabel request (text "label") (text "Security key"))
    let blank ← onMachine (newSession E .registration caller sid vault)
    let session := { blank with username := resolvedName, label }
    let id ← putSession E session
    let registration ← onMachine (createRegistrationChallenge E session account)
    return .obj [
      (text "ok", .bool true),
      (text "registration", registration.set (text "sessionId") (.str id))]

/-- The account of a registration session with its new credential, under its
current name. -/
def addCredential (session : Session) (record : CredentialRecord) (vault : Vault) :
    Except Bytes (Vault × Nat) :=
  let base := (accountOf session.targetSid vault.accounts).getD
    { sid := session.targetSid, username := session.username }
  if base.credentials.length ≥ kMaximumCredentialsPerAccount then
    .error (text "maximum registered security-key count reached")
  else
    let account := { base with
      username := session.username, credentials := base.credentials ++ [record] }
    let accounts := match accountOf session.targetSid vault.accounts with
      | none => vault.accounts ++ [account]
      | some _ => modifyAccount session.targetSid (fun _ => account) vault.accounts
    .ok ({ vault with accounts }, account.credentials.length)

/-- Some account already has a credential with this id. -/
def isRegistered (credentialId : Bytes) (vault : Vault) : Bool :=
  vault.accounts.any fun account =>
    account.credentials.any fun credential => credential.credentialId == credentialId

/-- `commit_registration` after the registration was verified: the number of
credentials the account now has. -/
def storeRegistration (session : Session) (registration : RegistrationResult) : Call Nat := do
  match ← loadOrCreate P E with
  | .error _ => Program.raise (text "credential vault unavailable")
  | .ok current =>
    if isRegistered registration.credentialId current then
      Program.raise (text "credential is already registered")
    else
      let createdAt ← utcNow E
      let record : CredentialRecord :=
        { credentialId := registration.credentialId
          cosePublicKey := registration.cosePublicKey
          algorithm := registration.algorithm
          aaguid := registration.aaguid
          label := session.label
          createdAt
          signCount := registration.signCount }
      let (vault, credentialCount) ← Program.ofExcept (addCredential session record current)
      match ← save P E vault with
      | .error _ => Program.raise (text "unable to save registered credential")
      | .ok () => return credentialCount

def commitRegistration (caller : Caller) (request : Json) : BrokerCall Json := do
  let session ← enterSession E request caller .registration
  let attestationObject ← Program.ofExcept (stringField request (text "attestationObject"))
  let clientDataJson ← Program.ofExcept (stringField request (text "clientDataJson"))
  let registration ← Program.ofExcept (FidoVerifier.verifyRegistration P
    session.challenge session.rpId session.origin attestationObject clientDataJson)
  let credentialCount ← onMachine (storeRegistration P E session registration)
  return .obj [(text "credentialCount", .int credentialCount), (text "ok", .bool true)]

def beginRemove (caller : Caller) (request : Json) (vault : Vault) : BrokerCall Json := do
  let sid ← Program.ofExcept (wideField P request (text "sid"))
  let username ← Program.ofExcept (wideField P request (text "username"))
  let password ← Program.ofExcept (extractPassword P request)
  let resolvedName ← onMachine (requireLocalPassword E (text "access denied")
    (text "Unable to resolve the current local account.") caller sid username password)
  let found ← onMachine (findAccount P E sid)
  let (account, credentialId) ← Program.ofExcept (requireRemovable found request)
  let blank ← onMachine (newSession E .removalAuthorization caller sid vault)
  let session := { blank with username := resolvedName, credentialToRemove := credentialId }
  let id ← putSession E session
  return .obj [
    (text "authorization", (createAuthChallenge session account).set (text "sessionId") (.str id)),
    (text "ok", .bool true)]

def removeWithPassword (caller : Caller) (request : Json) : BrokerCall Json := do
  let sid ← Program.ofExcept (wideField P request (text "sid"))
  let username ← Program.ofExcept (wideField P request (text "username"))
  let password ← Program.ofExcept (extractPassword P request)
  let _ ← onMachine (requireLocalPassword E (text "access denied")
    (text "Unable to resolve the current local account.") caller sid username password)
  let found ← onMachine (findAccount P E sid)
  let (_, credentialId) ← Program.ofExcept (requireRemovable found request)
  match ← onMachine (removeCredential P E sid credentialId) with
  | .error _ => Program.raise (text "unable to remove credential")
  | .ok () => return okReply

def finishRemove (caller : Caller) (request : Json) : BrokerCall Json := do
  let session ← enterSession E request caller .removalAuthorization
  let assertion ← Program.ofExcept (request.at_ (text "assertion"))
  let verified ← onMachine (verifySessionAssertion P E session assertion)
  Program.ofExcept verified
  match ← onMachine (removeCredential P E session.targetSid session.credentialToRemove) with
  | .error _ => Program.raise (text "unable to remove credential")
  | .ok () => return okReply

def kOurFilter : WString := wtext "\x7b54B25B17-C7AE-4C2B-B3C4-E3B29A73D9B1\x7d"

/-- The CLSID that `MatchesWindowsGenericFilter` looks for. -/
def kWindowsGenericFilter : WString := wtext "\x7bDDC0EED2-ADBE-40B6-A217-EDE16A79A0DE\x7d"

/-- The quotes around a path are taken off. -/
def unquoted (path : WString) : WString :=
  if 2 ≤ path.length ∧ path.head? = some 34 ∧ path.getLast? = some 34 then
    (path.drop 1).take (path.length - 2)
  else path

/-- `NormalizeFilterPath`: the full path, or nothing. -/
def normalizeFilterPath (raw : WString) : WString :=
  match P.expandEnvironmentStrings (cstr raw) with
  | none => []
  | some expanded =>
      match P.getFullPathName (cstr (unquoted (cstr expanded))) with
      | none => []
      | some full => if full.length < 32768 then full else []

def matchesWindowsGenericFilter (clsid server systemDirectory : WString) : Bool :=
  if !wcsicmpEq clsid kWindowsGenericFilter then false
  else
    let named := if wcsicmpEq server (wtext "credprovs.dll")
      then systemDirectory ++ wtext "\\" ++ server else server
    let candidate := normalizeFilterPath P named
    let expected := normalizeFilterPath P (systemDirectory ++ wtext "\\credprovs.dll")
    !candidate.isEmpty && !expected.isEmpty && wcsicmpEq candidate expected

/-- `IsWindowsGenericFilter`: the filter is the one that comes with Windows. -/
def isWindowsGenericFilter (scan : FilterScan) (clsid : WString) : Bool :=
  match scan.systemDirectory, scan.inprocServer clsid with
  | some systemDirectory, some server => matchesWindowsGenericFilter P clsid server systemDirectory
  | _, _ => false

/-- `HasConflictingCredentialProviderFilter`: the conflicting CLSID, if one was
found, and the error. -/
def conflictingFilter (scan : FilterScan) : Option WString × DWORD :=
  if scan.openStatus = ERROR_FILE_NOT_FOUND then (none, ERROR_SUCCESS)
  else if scan.openStatus ≠ ERROR_SUCCESS then (none, scan.openStatus)
  else
    match scan.names.find? (fun name =>
        !wcsicmpEq name kOurFilter && !isWindowsGenericFilter P scan name) with
    | some name => (some name, ERROR_SUCCESS)
    | none =>
        if scan.endStatus = ERROR_NO_MORE_ITEMS then (none, ERROR_SUCCESS)
        else (none, scan.endStatus)

/-- The check for other filters before enforcement is enabled. -/
def requireNoFilterConflict (enabled : Bool) (request : Json) : Call Unit := do
  if !enabled then return ()
  let allowFilterConflict ← Program.ofExcept
    (request.valueOr Json.getBool (text "allowFilterConflict") false)
  let scan ← ask E.filters
  match conflictingFilter P scan with
  | (some conflict, filterError) =>
    if !allowFilterConflict then
      Program.raise (text "another global Credential Provider Filter is registered: " ++
        Convert.toString P conflict)
    else if filterError ≠ ERROR_SUCCESS then
      Program.raise (text "unable to inspect installed Credential Provider Filters")
    else return ()
  | (none, filterError) =>
    if filterError ≠ ERROR_SUCCESS then
      Program.raise (text "unable to inspect installed Credential Provider Filters")
    else return ()

def setEnforcement (caller : Caller) (request : Json) : BrokerCall Json := do
  if !caller.isElevatedAdmin then
    Program.raise (text "administrator elevation is required")
  else
    let sid ← Program.ofExcept (wideField P request (text "sid"))
    let username ← Program.ofExcept (wideField P request (text "username"))
    let password ← Program.ofExcept (extractPassword P request)
    let _ ← onMachine (requireLocalPassword E
      (text "policy changes are limited to the current user")
      (text "Unable to resolve the current local account.") caller sid username password)
    let enabled ← Program.ofExcept (do (← request.at_ (text "enabled")).getBool)
    onMachine (requireNoFilterConflict P E enabled request)
    match ← onMachine (setEnforced P E sid enabled) with
    | .error _ =>
      Program.raise (text "unable to change enforcement policy (at least one registered key is required before enabling)")
    | .ok () => return okReply

/-- `Handle` after the store was refreshed and the operation read. -/
def dispatch (caller : Caller) (request : Json) (operation : Bytes) : BrokerCall Json := do
  if operation = text "status" then status P E caller request
  else
    match ← onMachine (loadOrCreate P E) with
    | .error _ => Program.raise (text "credential vault unavailable")
    | .ok vault =>
      if operation = text "begin_auth" then beginAuth P E caller request vault
      else if operation = text "finish_auth" then finishAuth P E caller request
      else if operation = text "begin_test" then beginTest P E caller request vault
      else if operation = text "begin_registration" then beginRegistration P E caller request vault
      else if operation = text "commit_registration" then commitRegistration P E caller request
      else if operation = text "begin_remove" then beginRemove P E caller request vault
      else if operation = text "remove_with_password" then removeWithPassword P E caller request
      else if operation = text "finish_remove" then finishRemove P E caller request
      else if operation = text "set_enforcement" then setEnforcement P E caller request
      else Program.raise (text "unsupported Broker operation")

def handle (caller : Caller) (request : Json) : BrokerCall Json := do
  match ← onMachine (refreshLocalAccounts P E) with
  | .error _ => Program.raise (text "unable to refresh local account state")
  | .ok () =>
    let operation ← Program.ofExcept (request.valueOr Json.getString (text "op") [])
    dispatch P E caller request operation

/-! ## Requests -/

def getCaller (pipe : PipeClient) : Except Bytes Caller :=
  if !pipe.impersonates then .error (text "unable to identify pipe caller")
  else if !pipe.tokenOpens then .error (text "unable to open pipe caller token")
  else
    match pipe.tokenSid with
    | none => .error (text "unable to resolve pipe caller SID")
    | some sid =>
        let isSystem := isLocalSystemSid sid
        .ok { sid, isSystem, isElevatedAdmin := isSystem || pipe.elevatedAdmin }

/-- The request and its caller, before `Handle`. -/
def openRequest (pipe : PipeClient) (input : Bytes) : Except Bytes (Caller × Json) :=
  if input.isEmpty || input.length > kMaxBrokerMessageBytes then
    .error (text "invalid request size")
  else do
    let request ← P.parse input
    let version ← request.valueOr Json.getUnsigned (text "version") 0
    if version ≠ kBrokerProtocolVersion then
      .error (text "unsupported Broker protocol version")
    else do
      let caller ← getCaller pipe
      .ok (caller, request)

/-- The `try` block of `ProcessRequest`. -/
def answer (pipe : PipeClient) (input : Bytes) : BrokerCall Json := do
  let (caller, request) ← Program.ofExcept (openRequest P pipe input)
  handle P E caller request

/-- The `try` block of `ProcessRequest` and its handler: the reply. -/
def respond (pipe : PipeClient) (input : Bytes) : BrokerCall Json := do
  let result ← Program.attempt (answer P E pipe input)
  match result with
  | .ok response => return response
  | .error what => return errorReply what

/-- `ProcessRequest`: the output text and the result. -/
def processRequest (pipe : PipeClient) (input : Bytes) : BrokerCall (Bytes × Bool) := do
  let response ← respond P E pipe input
  let output ← Program.ofExcept (P.dump response)
  let ok ← Program.ofExcept (response.valueOr Json.getBool (text "ok") false)
  return (output, ok)

end BrokerService
end WindowsFidoLogon
