import WindowsFidoLogon.Model.BrokerClient
import WindowsFidoLogon.Model.LocalAccount
import WindowsFidoLogon.Model.Scenario

/-!
# The credential of a sign-in tile

`CCredential.cpp`: the state behind one tile and the callbacks of LogonUI.  What
a callback learns from outside (the account database, the Broker, the security
keys, the cancel query, memory) is fixed by its `Surroundings`, so a result for
all of them holds for every behaviour of the outside.  The notifications to
LogonUI's own copies of the fields are left out: nothing is read back from them.
-/

namespace WindowsFidoLogon

open Text LocalAccount

/-- A security key that `GetDevices` lists. -/
structure FIDODevice where
  path : Bytes
  hasPin : Bool := false
  hasUV : Bool := false
  isFido2 : Bool := true
  supportsEs256 : Bool := true
  deriving DecidableEq, Repr

/-- What a provider copies into its credentials. -/
inductive UsageScenario
  | invalid
  | logon
  | unlockWorkstation
  | changePassword
  | credui
  | plap
  deriving DecidableEq, Repr

/-- `Configuration::CredentialState` -/
structure CredentialState where
  username : WString := []
  domain : WString := []
  password : WString := []
  fidoPin : WString := []
  newPassword1 : WString := []
  newPassword2 : WString := []
  deriving DecidableEq, Repr

/-- The members of `Configuration` that a credential uses. -/
structure Configuration where
  mode : Mode := .usernamePassword
  scenario : UsageScenario := .invalid
  credential : CredentialState := {}
  deriving DecidableEq, Repr

/-- `KERB_LOGON_SUBMIT_TYPE` of a logon -/
inductive LogonMessage
  | interactiveLogon
  | workstationUnlockLogon
  | unspecified
  deriving DecidableEq, Repr

/-- The blobs that `GetSerialization` packs. -/
inductive Serialization
  | logon (message : LogonMessage) (domain username password : WString)
  | changePassword (domain username oldPassword newPassword : WString)
  deriving DecidableEq, Repr

/-- The points at which `Connect` asks whether it was cancelled. -/
inductive QueryPoint
  | entered
  | begun
  | selected
  | signed
  | finished
  deriving DecidableEq, Repr

/-- Which allocations succeed. -/
structure Memory where
  /-- `FieldDescriptorCopy` for a field -/
  describes : FieldId → Bool := fun _ => true
  /-- `SHStrDupW`, into a field or for LogonUI -/
  duplicates : Option FieldId → WString → Bool
  /-- `CoTaskMemAlloc` for a serialization -/
  packs : Bool := true

/-- What answers a credential during one callback. -/
structure Surroundings where
  language : UiLanguage := .english
  memory : Memory
  /-- there is no query, or `QueryContinue` answers `S_OK` -/
  continues : QueryPoint → Bool
  accounts : AccountDatabase
  /-- `BrokerClient::BeginAuthentication` -/
  beginAuthentication : WString → Option AuthenticationChallenge
  /-- `LocalCredentialStore::IsSidEnforced` -/
  isSidEnforced : WString → Bool
  /-- `FIDODevice::GetDevices` -/
  devices : List FIDODevice
  /-- `FIDODevice::SelectByTouch`: the status and the index -/
  selectByTouch : List FIDODevice → Int × Nat
  /-- `FIDODevice::Sign` for a device, a request, an origin and a PIN -/
  sign : FIDODevice → FIDOSignRequest → Bytes → Bytes → Int × FIDOSignResponse
  /-- `BrokerClient::FinishAuthentication` -/
  finishAuthentication : Bytes → FIDOSignResponse → Bool
  /-- `ProtectIfNecessaryAndCopyPassword` -/
  protectPassword : WString → UsageScenario → Except HRESULT WString
  /-- `RetrieveNegotiateAuthPackage` -/
  negotiatePackage : Except HRESULT UInt32

structure CCredential where
  configuration : Configuration := {}
  states : FieldId → FieldStatePair := s_rgScenarioUsernamePassword
  strings : FieldId → WString := fun _ => []
  challenge : Option AuthenticationChallenge := none
  devices : List FIDODevice := []
  selectedDevice : Option Nat := none
  userSid : WString := []
  sid : WString := []
  retired : Bool := false
  mfaComplete : Bool := false
  passwordChangeAuthorized : Bool := false

/-- What a credential asked of the outside, with the answer it took, and its
resets.  No callback reads this record: it is the history variable in which
results about runs are stated. -/
inductive Act
  /-- `ResolveLocalAccount` of a name -/
  | resolved (name : WString) (account : Except DWORD ResolvedAccount)
  /-- `BeginAuthentication` for a SID -/
  | begun (sid : WString) (reply : Option AuthenticationChallenge)
  /-- `IsSidEnforced` -/
  | policyChecked (sid : WString) (enforced : Bool)
  /-- `FinishAuthentication` for a session -/
  | finished (sessionId : Bytes) (accepted : Bool)
  /-- the query asked to stop -/
  | cancelled
  /-- `ResetMfa` -/
  | reset

/-- A credential and what it has done so far, the latest first. -/
structure Tile where
  credential : CCredential
  acts : List Act := []

namespace Tile

def change (f : CCredential → CCredential) (t : Tile) : Tile :=
  { t with credential := f t.credential }

def record (act : Act) (t : Tile) : Tile :=
  { t with acts := act :: t.acts }

@[simp] theorem change_credential (f : CCredential → CCredential) (t : Tile) :
    (t.change f).credential = f t.credential := rfl
@[simp] theorem change_acts (f : CCredential → CCredential) (t : Tile) :
    (t.change f).acts = t.acts := rfl
@[simp] theorem record_credential (act : Act) (t : Tile) :
    (t.record act).credential = t.credential := rfl
@[simp] theorem record_acts (act : Act) (t : Tile) : (t.record act).acts = act :: t.acts := rfl

end Tile

namespace CCredential

/-! ## Members -/

def setState (f : CredentialState → CredentialState) (c : CCredential) : CCredential :=
  { c with configuration := { c.configuration with credential := f c.configuration.credential } }

/-- `SecureZeroMemory` of a field's buffer. -/
def zeroString (field : FieldId) (c : CCredential) : CCredential :=
  { c with strings := Function.update c.strings field [] }

variable (P : Platform) (S : Surroundings)

/-- `ReplaceFieldString` on a field: the old text stays when there is no memory for
the new one. -/
def replaceFieldString (field : FieldId) (source : WString) (c : CCredential) :
    HRESULT × CCredential :=
  if S.memory.duplicates (some field) source then
    (S_OK, { c with strings := Function.update c.strings field source })
  else (E_OUTOFMEMORY, c)

def setStatus (text : WString) (c : CCredential) : CCredential :=
  (replaceFieldString S .smallText text c).2

def initialPrompt (c : CCredential) : WString :=
  uiText S.language
    (if c.userSid.isEmpty then .selectUserAndPasswordPrompt else .enterPasswordPrompt)

/-- The field states `SetMode` gives a tile; a bound tile hides the user name. -/
def fieldStates (mode : Mode) (userSid : WString) (field : FieldId) : FieldStatePair :=
  if mode = .usernamePassword ∧ userSid ≠ [] then
    match field with
    | .username => { cpfs := .hidden }
    | .password => { (mode.scenario field) with focused := true }
    | _ => mode.scenario field
  else mode.scenario field

/-- The label of the submit button in a mode. -/
def submitLabel : Mode → UiTextId
  | .fido => .verifyKeyButton
  | .changePassword => .changePasswordButton
  | .usernamePassword => .continueButton

def setMode (mode : Mode) (c : CCredential) : HRESULT × CCredential :=
  replaceFieldString S .submitButton (uiText S.language (submitLabel mode))
    { c with
      configuration := { c.configuration with mode }
      states := fieldStates mode c.userSid }

def clearPin (c : CCredential) : CCredential :=
  zeroString .fidoPin (setState (fun s => { s with fidoPin := [] }) c)

/-- `Configuration::ClearSecrets` -/
def clearSecrets (s : CredentialState) : CredentialState :=
  { s with password := [], fidoPin := [], newPassword1 := [], newPassword2 := [] }

def resetMfa (c : CCredential) : CCredential :=
  setStatus S [] (clearPin
    { c with mfaComplete := false, challenge := none, devices := [], selectedDevice := none })

def fullReset (c : CCredential) : CCredential :=
  let cleared := zeroString .newPass2 (zeroString .newPass1 (zeroString .password
    (setState clearSecrets { resetMfa S c with passwordChangeAuthorized := false })))
  let shown := (setMode S .usernamePassword { cleared with sid := [] }).2
  setStatus S (initialPrompt S shown) shown

/-! ## The start of a credential -/

/-- `ReplaceFieldString` where a failure ends the caller. -/
def writeString (c : CCredential) (value : FieldId × WString) : Except HRESULT CCredential :=
  let (status, changed) := replaceFieldString S value.1 value.2 c
  if failed status then .error status else .ok changed

/-- One round of the first loop of `Initialize`. -/
def describeField (c : CCredential) (field : FieldId) : Except HRESULT CCredential :=
  if S.memory.describes field then writeString S c (field, []) else .error E_OUTOFMEMORY

/-- `Initialize`, after the constructor copied the settings.  Its texts are C
strings, a null pointer standing for the empty one. -/
def initializeCredential (scenario : UsageScenario) (username domain password userSid : WString) :
    Except HRESULT CCredential := do
  let described ← FieldId.all.foldlM (describeField S) { configuration := { scenario } }
  let bound := setState (fun s =>
      { s with username := cstr username, domain := cstr domain, password := cstr password })
    { described with userSid := cstr userSid }
  let written ← [(FieldId.smallText, initialPrompt S bound), (.username, cstr username),
    (.password, cstr password), (.providerLabel, uiText S.language .providerLabel)].foldlM
      (writeString S) bound
  let (status, started) := setMode S .usernamePassword written
  if failed status then .error status else .ok started

end CCredential

/-! ## Callbacks -/

/-- `CREDENTIAL_PROVIDER_STATUS_ICON` -/
inductive StatusIcon
  | none
  | warning
  | error
  deriving DecidableEq, Repr

/-- What a callback gives back to LogonUI.  The response of `GetSerialization` is
`CPGSR_RETURN_CREDENTIAL_FINISHED` exactly when there is a serialization. -/
structure Reply where
  status : HRESULT := S_OK
  serialization : Option Serialization := none
  statusText : Option WString := none
  statusIcon : StatusIcon := .none
  deriving DecidableEq, Repr

namespace Tile

open CCredential

variable (P : Platform) (S : Surroundings)

/-- `SetStatus` with one of the texts. -/
def showStatus (id : UiTextId) (t : Tile) : Tile :=
  t.change (setStatus S (uiText S.language id))

def resetMfa (t : Tile) : Tile := (t.record .reset).change (CCredential.resetMfa S)

def fullReset (t : Tile) : Tile := (t.record .reset).change (CCredential.fullReset S)

def setMode (mode : Mode) (t : Tile) : Tile := t.change fun c => (CCredential.setMode S mode c).2

def setSelected (t : Tile) : Reply × Tile :=
  ({ status := if t.credential.retired then E_UNEXPECTED else S_OK }, t)

def setDeselected (t : Tile) : Reply × Tile := ({}, t.fullReset S)

def disconnect (t : Tile) : Reply × Tile := ({}, t.fullReset S)

def retire (t : Tile) : Reply × Tile :=
  ({}, (t.change fun c => { c with retired := true }).fullReset S)

/-! ### Text fields -/

/-- `*target = value` and the field's own copy of it. -/
def assign (field : FieldId) (target : CredentialState → CredentialState) (value : WString)
    (t : Tile) : Reply × Tile :=
  let (status, changed) := replaceFieldString S field value (setState target t.credential)
  ({ status }, t.change fun _ => changed)

/-- `SetStringValue`; a missing `value` is a null pointer, and a present one is a C
string. -/
def setStringValue (field : DWORD) (value : Option WString) (t : Tile) : Reply × Tile :=
  match FieldId.ofIndex field, value with
  | some field, some text =>
      let value := cstr text
      if t.credential.retired then ({ status := E_UNEXPECTED }, t)
      else
        match field with
        | .username =>
            if !t.credential.userSid.isEmpty then ({ status := E_ACCESSDENIED }, t)
            else
              let current := t.credential.configuration.credential.username
              assign S .username (fun s => { s with username := value }) value
                (if current = value then t else t.fullReset S)
        | .password => assign S .password (fun s => { s with password := value }) value t
        | .fidoPin => assign S .fidoPin (fun s => { s with fidoPin := value }) value t
        | .newPass1 => assign S .newPass1 (fun s => { s with newPassword1 := value }) value t
        | .newPass2 => assign S .newPass2 (fun s => { s with newPassword2 := value }) value t
        | _ => ({ status := E_INVALIDARG }, t)
  | _, _ => ({ status := E_INVALIDARG }, t)

/-- `GetStringValue`, when there is memory for the copy. -/
def getStringValue (field : DWORD) (t : Tile) : Except HRESULT WString :=
  match FieldId.ofIndex field with
  | none => .error E_INVALIDARG
  | some field =>
      let text := t.credential.strings field
      if S.memory.duplicates none text then .ok text else .error E_OUTOFMEMORY

/-! ### Connect -/

/-- `cancelled()`: the tile after its reset, when the query asks to stop. -/
def cancelled (point : QueryPoint) (t : Tile) : Option Tile :=
  if S.continues point then none else some ((t.record .cancelled).fullReset S)

/-- The reply of a cancelled `Connect`. -/
def cancelledReply : Reply := { status := hresultFromWin32 ERROR_CANCELLED }

/-- A ceremony that failed: back to the password, with a text. -/
def rejectKey (id : UiTextId) (t : Tile) : Reply × Tile :=
  ({ status := E_ACCESSDENIED },
    ((t.resetMfa S).setMode S .usernamePassword).showStatus S id)

/-- The last part of `Connect`: the assertion of the selected key. -/
def verifyKey (challenge : AuthenticationChallenge) (t : Tile) : Reply × Tile :=
  match t.credential.selectedDevice.bind (t.credential.devices[·]?) with
  | none => rejectKey S .keyVerificationFailed t
  | some device =>
      let pin := Convert.toString P t.credential.configuration.credential.fidoPin
      let t := (t.showStatus S .touchKey).change clearPin
      let signed := S.sign device challenge.request challenge.origin pin
      match cancelled S .signed t with
      | some t => (cancelledReply, t)
      | none =>
          if signed.1 ≠ FIDO_OK then rejectKey S .keyVerificationFailed t
          else
            let accepted := S.finishAuthentication challenge.sessionId signed.2
            let t := t.record (.finished challenge.sessionId accepted)
            if !accepted then rejectKey S .keyVerificationIncomplete t
            else
              match cancelled S .finished t with
              | some t => (cancelledReply, t)
              | none =>
                  ({}, (t.change fun c =>
                    { c with mfaComplete := true, challenge := none }).showStatus S .keyVerified)

/-- A device was selected: ask for its PIN first, if it has one. -/
def enterPin (challenge : AuthenticationChallenge) (selected : Nat) (t : Tile) : Reply × Tile :=
  let t := t.change fun c => { c with selectedDevice := some selected }
  if (t.credential.devices[selected]?).any (·.hasPin) then
    ({}, (t.setMode S .fido).showStatus S .enterPinAndTouch)
  else verifyKey P S challenge t

/-- An enforced account: find the key that is to answer the challenge. -/
def chooseDevice (challenge : AuthenticationChallenge) (t : Tile) : Reply × Tile :=
  let t := t.change fun c => { c with challenge := some challenge, devices := S.devices }
  match S.devices with
  | [] =>
      ({ status := hresultFromWin32 ERROR_DEVICE_NOT_AVAILABLE },
        (t.resetMfa S).showStatus S .noSecurityKeyDetected)
  | [_] => enterPin P S challenge 0 t
  | _ =>
      let t := t.showStatus S .touchKey
      let touched := S.selectByTouch S.devices
      match cancelled S .selected t with
      | some t => (cancelledReply, t)
      | none =>
          if touched.1 ≠ FIDO_OK then rejectKey S .keyVerificationFailed t
          else enterPin P S challenge touched.2 t

/-- The Broker answered that the account is not enforced. -/
def acceptPassword (sid : WString) (t : Tile) : Reply × Tile :=
  let enforced := S.isSidEnforced sid
  let t := t.record (.policyChecked sid enforced)
  if enforced then ({ status := E_ACCESSDENIED }, t.showStatus S .mfaPolicyUnavailable)
  else
    ({}, (t.change fun c => { c with mfaComplete := true }).showStatus S .preparingWindowsSignIn)

/-- `Connect` for the account the user name resolved to. -/
def beginCeremony (account : ResolvedAccount) (t : Tile) : Reply × Tile :=
  let identified := t.change fun c =>
    { setState (fun s =>
        { s with username := account.username, domain := account.computerName }) c with
      sid := account.sidString }
  let reply := S.beginAuthentication account.sidString
  let t := identified.record (.begun account.sidString reply)
  match reply with
  | none => ({ status := E_ACCESSDENIED }, t.showStatus S .signInVerificationUnavailable)
  | some challenge =>
      match cancelled S .begun t with
      | some t => (cancelledReply, t)
      | none =>
          if !challenge.enforced then acceptPassword S account.sidString t
          else chooseDevice P S challenge t

/-- `Connect` without a challenge: resolve the user name first. -/
def resolveIdentity (t : Tile) : Reply × Tile :=
  let name := t.credential.configuration.credential.username
  let found := resolveLocalAccount S.accounts name
  let t := t.record (.resolved name found)
  match found with
  | .error accountError =>
      ({ status := hresultFromWin32 accountError }, t.showStatus S .localAccountsOnly)
  | .ok account =>
      if !t.credential.userSid.isEmpty &&
          !wcsicmpEq account.sidString t.credential.userSid then
        ({ status := E_ACCESSDENIED }, (t.fullReset S).showStatus S .signInFailed)
      else beginCeremony P S account t

def connect (t : Tile) : Reply × Tile :=
  if t.credential.retired then ({ status := E_UNEXPECTED }, t)
  else
    match cancelled S .entered t with
    | some t => (cancelledReply, t)
    | none =>
        let state := t.credential.configuration.credential
        if t.credential.configuration.mode = .changePassword then
          ({ status := if t.credential.passwordChangeAuthorized then S_OK else E_ACCESSDENIED }, t)
        else if state.username.isEmpty || state.password.isEmpty then
          ({ status := E_INVALIDARG },
            t.change fun c => setStatus S (initialPrompt S c) c)
        else
          match t.credential.challenge with
          | none => resolveIdentity P S t
          | some challenge => verifyKey P S challenge t

/-! ### Serialization -/

/-- `UnicodeStringInitWithString`: the length in bytes must fit 16 bits. -/
def unicodeString (value : WString) : Except HRESULT WString :=
  if (cstr value).length ≤ 32767 then .ok (cstr value)
  else .error (hresultFromWin32 ERROR_ARITHMETIC_OVERFLOW)

/-- The message type `KerbInteractiveUnlockLogonInit` sets. -/
def messageType : UsageScenario → Except HRESULT LogonMessage
  | .unlockWorkstation => .ok .workstationUnlockLogon
  | .logon => .ok .interactiveLogon
  | .credui => .ok .unspecified
  | _ => .error E_FAIL

/-- `KerbInteractiveUnlockLogonPack` or `KerbChangePasswordPack`, and
`RetrieveNegotiateAuthPackage`. -/
def pack (serialization : Serialization) : Except HRESULT Serialization :=
  if S.memory.packs then S.negotiatePackage.map fun _ => serialization
  else .error E_OUTOFMEMORY

def packLogon (c : CCredential) : Except HRESULT Serialization := do
  let state := c.configuration.credential
  let protectedPassword ← S.protectPassword (cstr state.password) c.configuration.scenario
  let domain ← unicodeString state.domain
  let username ← unicodeString state.username
  let password ← unicodeString protectedPassword
  let message ← messageType c.configuration.scenario
  pack S (.logon message domain username password)

def packPasswordChange (c : CCredential) : Except HRESULT Serialization :=
  let state := c.configuration.credential
  if !c.passwordChangeAuthorized || state.newPassword1.isEmpty ||
      state.newPassword1 ≠ state.newPassword2 then .error E_INVALIDARG
  else do
    let domain ← unicodeString state.domain
    let username ← unicodeString state.username
    let oldPassword ← unicodeString state.password
    let newPassword ← unicodeString state.newPassword1
    pack S (.changePassword domain username oldPassword newPassword)

/-- `SHStrDupW` of a text for LogonUI, whose failure leaves no text. -/
def textForLogonUi (id : UiTextId) : Option WString :=
  let text := uiText S.language id
  if S.memory.duplicates none text then some text else none

/-- `GetSerialization`; `outputs` tells that no pointer is null. -/
def getSerialization (outputs : Bool) (t : Tile) : Reply × Tile :=
  if !outputs then ({ status := E_INVALIDARG }, t)
  else if t.credential.retired then ({ status := E_UNEXPECTED }, t)
  else if t.credential.configuration.mode = .changePassword then
    match packPasswordChange S t.credential with
    | .ok serialization => ({ serialization := some serialization }, t)
    | .error _ =>
        ({ statusText := textForLogonUi S .passwordUpdateFailed, statusIcon := .error },
          t.showStatus S .passwordUpdateFailed)
  else if !t.credential.mfaComplete then ({}, t)
  else
    match packLogon S t.credential with
    | .ok serialization => ({ serialization := some serialization }, t)
    | .error status => ({ status }, t)

/-- `ReplaceFieldString` of the three password fields with the empty string. -/
def emptyPasswordFields (c : CCredential) : CCredential :=
  (replaceFieldString S .newPass2 [] (replaceFieldString S .newPass1 []
    (replaceFieldString S .password [] c).2).2).2

/-- The two statuses ask for a new password. -/
def mustChangePassword (status substatus : NTSTATUS) : Bool :=
  status == STATUS_PASSWORD_MUST_CHANGE || status == STATUS_PASSWORD_EXPIRED ||
    substatus == STATUS_PASSWORD_MUST_CHANGE || substatus == STATUS_PASSWORD_EXPIRED

def resultText (status substatus : NTSTATUS) : UiTextId :=
  if status = STATUS_WRONG_PASSWORD ∨ substatus = STATUS_WRONG_PASSWORD then
    .passwordVerificationFailed
  else .signInFailed

/-- `ReportResult`; `outputs` tells that no pointer is null. -/
def reportResult (status substatus : NTSTATUS) (outputs : Bool) (t : Tile) : Reply × Tile :=
  if !outputs then ({ status := E_INVALIDARG }, t)
  else
    let t := t.change clearPin
    if status = STATUS_SUCCESS then
      ({}, ((t.resetMfa S).change fun c =>
        setState clearSecrets { c with passwordChangeAuthorized := false }).change
          (emptyPasswordFields S))
    else if mustChangePassword status substatus then
      ({ statusText := textForLogonUi S .passwordMustChange, statusIcon := .warning },
        ((t.change fun c =>
          { c with passwordChangeAuthorized := c.mfaComplete, mfaComplete := false }).setMode
            S .changePassword).showStatus S .passwordMustChange)
    else
      ({ statusText := textForLogonUi S (resultText status substatus), statusIcon := .error },
        ((((t.resetMfa S).setMode S .usernamePassword).change (setState clearSecrets)).change
          (emptyPasswordFields S)).showStatus S (resultText status substatus))

end Tile

/-! ## Runs -/

/-- A callback of LogonUI or of the provider, with its arguments. -/
inductive Callback
  | setSelected
  | setDeselected
  | setStringValue (field : DWORD) (value : Option WString)
  | connect
  | disconnect
  | getSerialization (outputs : Bool)
  | reportResult (status substatus : NTSTATUS) (outputs : Bool)
  | retire
  | fullReset
  deriving DecidableEq

namespace Tile

variable (P : Platform)

/-- One callback in its surroundings. -/
def perform (S : Surroundings) (t : Tile) : Callback → Reply × Tile
  | .setSelected => t.setSelected
  | .setDeselected => t.setDeselected S
  | .setStringValue field value => t.setStringValue S field value
  | .connect => t.connect P S
  | .disconnect => t.disconnect S
  | .getSerialization outputs => t.getSerialization S outputs
  | .reportResult status substatus outputs => t.reportResult S status substatus outputs
  | .retire => t.retire S
  | .fullReset => ({}, t.fullReset S)

/-- The tile after one callback, as a step of a run. -/
def step (t : Tile) (event : Callback × Surroundings) : Tile := (t.perform P event.2 event.1).2

end Tile

end WindowsFidoLogon
