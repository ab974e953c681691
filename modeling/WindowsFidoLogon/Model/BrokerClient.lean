import WindowsFidoLogon.Model.Convert

/-!
# The client's side of the pipe

`BrokerClient.cpp`: the requests it sends, how it reads a reply, and what each of its
calls takes out of one.  The pipe itself is left out: a call is a message out and a
message back.
-/

namespace WindowsFidoLogon

open Text

/-- A credential the authenticator may use. -/
structure AllowCredential where
  id : Bytes
  transports : List Bytes
  type : Bytes := text "public-key"
  deriving DecidableEq, Repr

/-- The members of `FIDOSignRequest` that the client fills in. -/
structure FIDOSignRequest where
  allowCredentials : List AllowCredential := []
  challenge : Bytes := []
  rpId : Bytes := []
  userVerification : Bytes := []
  type : Bytes := []
  timeout : Int := 0
  deriving DecidableEq, Repr

structure AuthenticationChallenge where
  enforced : Bool := false
  sessionId : Bytes := []
  rpId : Bytes := []
  origin : Bytes := []
  request : FIDOSignRequest := {}
  deriving DecidableEq, Repr

structure RegistrationChallenge where
  sessionId : Bytes := []
  rpId : Bytes := []
  origin : Bytes := []
  challenge : Bytes := []
  userId : Bytes := []
  excludeCredentials : List Bytes := []
  deriving DecidableEq, Repr

structure AccountStatus where
  found : Bool := false
  enforced : Bool := false
  username : WString := []
  credentials : List CredentialRecord := []
  deriving DecidableEq, Repr

namespace BrokerClient

/-- One entry of `AssertionToJson`. -/
def assertionDataToJson (item : FIDOAssertionData) : Json :=
  .obj [
    (text "authenticatorData", .str item.authenticatordata),
    (text "credentialId", .str item.credentialid),
    (text "signature", .str item.signaturedata),
    (text "userHandle", .str item.userHandle)]

def assertionToJson (response : FIDOSignResponse) : Json :=
  .obj [
    (text "assertions", .arr (response.assertions.map assertionDataToJson)),
    (text "clientData", .str response.clientdata)]

/-- `value.at(name).get<std::string>()` -/
def stringMember (value : Json) (name : Bytes) : Except Bytes Bytes := do
  (← value.at_ name).getString

/-- One entry of `allowCredentials`. -/
def allowCredential (id : Json) : Except Bytes AllowCredential := do
  return { id := ← id.getString, transports := [text "usb"] }

/-- `ParseAuthenticationChallenge`, with the exception the callers catch. -/
def parseAuthenticationChallenge (value : Json) : Except Bytes AuthenticationChallenge := do
  if !(← value.valueOr Json.getBool (text "enforced") false) then return {}
  let sessionId ← stringMember value (text "sessionId")
  let rpId ← stringMember value (text "rpId")
  let origin ← stringMember value (text "origin")
  let challenge ← stringMember value (text "challenge")
  let allowCredentials ← (← value.at_ (text "credentialIds")).elements.mapM allowCredential
  return {
    enforced := true
    sessionId
    rpId
    origin
    request := {
      allowCredentials
      challenge
      rpId
      userVerification := text "required"
      type := text "webauthn"
      timeout := 120000 } }

/-- `get<std::vector<std::string>>()` -/
def getStrings : Json → Except Bytes (List Bytes)
  | .arr items => items.mapM Json.getString
  | other => .error (Json.typeError (text "302")
      (text "type must be array, but is " ++ other.typeName))

def credentialFromJson (item : Json) : Except Bytes CredentialRecord := do
  let credentialId ← stringMember item (text "credentialId")
  let cosePublicKey ← item.valueOr Json.getString (text "cosePublicKey") []
  let algorithm ← item.valueOr Json.getInt (text "algorithm") kEs256Algorithm
  let aaguid ← item.valueOr Json.getString (text "aaguid") []
  let label ← item.valueOr Json.getString (text "label") (text "Security key")
  let createdAt ← item.valueOr Json.getString (text "createdAt") []
  let signCount ← item.valueOr Json.getUnsigned (text "signCount") 0
  return { credentialId, cosePublicKey, algorithm, aaguid, label, createdAt, signCount }

/-- `ParseRegistrationChallenge`, with the exception its caller catches. -/
def parseRegistrationChallenge (value : Json) : Except Bytes RegistrationChallenge := do
  let sessionId ← stringMember value (text "sessionId")
  let rpId ← stringMember value (text "rpId")
  let origin ← stringMember value (text "origin")
  let challenge ← stringMember value (text "challenge")
  let userId ← stringMember value (text "userId")
  let excludeCredentials ← value.valueOr getStrings (text "excludeCredentials") []
  return { sessionId, rpId, origin, challenge, userId, excludeCredentials }

variable (P : Platform)

/-- The message `Call` writes: the request with the protocol version, if it can be
printed and fits. -/
def callMessage (request : Json) : Except WString Bytes :=
  match P.dump (request.set (text "version") (.int kBrokerProtocolVersion.toNat)) with
  | .error _ => .error (wtext "Unable to serialize Broker request.")
  | .ok serialized =>
      if serialized.length > kMaxBrokerMessageBytes then
        .error (wtext "Broker request is too large.")
      else .ok serialized

/-- What `Call` makes of the message it reads. -/
def callReply (message : Bytes) : Except WString Json :=
  match P.parse message with
  | .error _ => .error (wtext "Broker returned invalid data.")
  | .ok response =>
      match response.valueOr Json.getBool (text "ok") false with
      | .error _ => .error (wtext "Broker returned invalid data.")
      | .ok true => .ok response
      | .ok false =>
          match response.valueOr Json.getString (text "error")
              (text "Broker rejected the request.") with
          | .error _ => .error (wtext "Broker returned invalid data.")
          | .ok error => .error (Convert.toWString P error)

/-- The request of `BeginAuthentication` and `BeginTest`. -/
def beginRequest (operation : Bytes) (sid : WString) : Json :=
  .obj [(text "op", .str operation), (text "sid", .str (Convert.toString P sid))]

/-- How `BeginAuthentication` and `BeginTest` read the reply; the text is theirs. -/
def beginReply (invalid : WString) (message : Bytes) : Except WString AuthenticationChallenge := do
  let response ← callReply P message
  match parseAuthenticationChallenge response with
  | .ok challenge => .ok challenge
  | .error _ => .error invalid

/-- The request of `FinishAuthentication`. -/
def finishAuthenticationRequest (sessionId : Bytes) (assertion : FIDOSignResponse) : Json :=
  .obj [
    (text "assertion", assertionToJson assertion),
    (text "op", .str (text "finish_auth")),
    (text "sessionId", .str sessionId)]

/-- The request of `FinishRemoval`. -/
def finishRemovalRequest (sessionId : Bytes) (authorization : FIDOSignResponse) : Json :=
  .obj [
    (text "assertion", assertionToJson authorization),
    (text "op", .str (text "finish_remove")),
    (text "sessionId", .str sessionId)]

def beginRegistrationRequest (sid username password : WString) (label : Bytes) : Json :=
  .obj [
    (text "label", .str label),
    (text "op", .str (text "begin_registration")),
    (text "password", .str (Convert.toString P password)),
    (text "sid", .str (Convert.toString P sid)),
    (text "username", .str (Convert.toString P username))]

def commitRegistrationRequest (sessionId label attestationObject clientDataJson : Bytes) : Json :=
  .obj [
    (text "attestationObject", .str attestationObject),
    (text "clientDataJson", .str clientDataJson),
    (text "label", .str label),
    (text "op", .str (text "commit_registration")),
    (text "sessionId", .str sessionId)]

/-- The request of `BeginRemoval` and `RemoveCredentialWithPassword`. -/
def removalRequest (operation : Bytes) (sid username password : WString) (credentialId : Bytes) :
    Json :=
  .obj [
    (text "credentialId", .str credentialId),
    (text "op", .str operation),
    (text "password", .str (Convert.toString P password)),
    (text "sid", .str (Convert.toString P sid)),
    (text "username", .str (Convert.toString P username))]

def setEnforcementRequest (sid username password : WString) (enabled allowFilterConflict : Bool) :
    Json :=
  .obj [
    (text "allowFilterConflict", .bool allowFilterConflict),
    (text "enabled", .bool enabled),
    (text "op", .str (text "set_enforcement")),
    (text "password", .str (Convert.toString P password)),
    (text "sid", .str (Convert.toString P sid)),
    (text "username", .str (Convert.toString P username))]

/-- What `GetStatus` takes out of a reply; an exception leaves it. -/
def accountStatusFromJson (response : Json) : Except Bytes AccountStatus := do
  let found ← response.valueOr Json.getBool (text "found") false
  let enforced ← response.valueOr Json.getBool (text "enforced") false
  let username ← response.valueOr Json.getString (text "username") []
  let items ← response.valueOr Except.ok (text "credentials") (.arr [])
  let credentials ← items.elements.mapM credentialFromJson
  return { found, enforced, username := Convert.toWString P username, credentials }

/-- How `GetStatus` reads the reply: the outer error is its own, the inner one an exception. -/
def statusReply (message : Bytes) : Except WString (Except Bytes AccountStatus) := do
  let response ← callReply P message
  return accountStatusFromJson P response

/-- How `BeginRegistration` reads the reply. -/
def registrationReply (message : Bytes) : Except WString RegistrationChallenge := do
  let response ← callReply P message
  match response.at_ (text "registration") >>= parseRegistrationChallenge with
  | .ok registration => .ok registration
  | .error _ => .error (wtext "Broker returned an invalid registration challenge.")

/-- How `BeginRemoval` reads the reply. -/
def removalReply (message : Bytes) : Except WString AuthenticationChallenge := do
  let response ← callReply P message
  match response.at_ (text "authorization") >>= parseAuthenticationChallenge with
  | .ok authorization => .ok authorization
  | .error _ => .error (wtext "Broker returned an invalid removal authorization challenge.")

/-! ## The ten calls -/

/-- A call of the client with its arguments. -/
inductive Call
  | getStatus (sid : WString)
  | beginAuthentication (sid : WString)
  | beginTest (sid : WString)
  | finishAuthentication (sessionId : Bytes) (assertion : FIDOSignResponse)
  | beginRegistration (sid username password : WString) (label : Bytes)
  | commitRegistration (sessionId label attestationObject clientDataJson : Bytes)
  | beginRemoval (sid username password : WString) (credentialId : Bytes)
  | finishRemoval (sessionId : Bytes) (authorization : FIDOSignResponse)
  | removeCredentialWithPassword (sid username password : WString) (credentialId : Bytes)
  | setEnforcement (sid username password : WString) (enabled allowFilterConflict : Bool)
  deriving DecidableEq

/-- The request a call sends. -/
def Call.request : Call → Json
  | .getStatus sid => beginRequest P (text "status") sid
  | .beginAuthentication sid => beginRequest P (text "begin_auth") sid
  | .beginTest sid => beginRequest P (text "begin_test") sid
  | .finishAuthentication sessionId assertion => finishAuthenticationRequest sessionId assertion
  | .beginRegistration sid username password label =>
      beginRegistrationRequest P sid username password label
  | .commitRegistration sessionId label attestationObject clientDataJson =>
      commitRegistrationRequest sessionId label attestationObject clientDataJson
  | .beginRemoval sid username password credentialId =>
      removalRequest P (text "begin_remove") sid username password credentialId
  | .finishRemoval sessionId authorization => finishRemovalRequest sessionId authorization
  | .removeCredentialWithPassword sid username password credentialId =>
      removalRequest P (text "remove_with_password") sid username password credentialId
  | .setEnforcement sid username password enabled allowFilterConflict =>
      setEnforcementRequest P sid username password enabled allowFilterConflict

/-- What a call hands to its caller. -/
inductive Result
  | status (status : AccountStatus)
  | challenge (challenge : AuthenticationChallenge)
  | registration (registration : RegistrationChallenge)
  | done
  deriving DecidableEq

/-- How a call ends. -/
inductive Ending
  | returned (result : Result)
  /-- it returns false with a text -/
  | refused (error : WString)
  /-- an exception leaves it -/
  | threw (what : Bytes)
  deriving DecidableEq

def Ending.ofExcept {α : Type} (result : α → Result) : Except WString α → Ending
  | .ok value => .returned (result value)
  | .error error => .refused error

/-- How a call that gets this message back ends. -/
def Call.receive (message : Bytes) : Call → Ending
  | .getStatus _ =>
      match statusReply P message with
      | .ok (.ok status) => .returned (.status status)
      | .ok (.error what) => .threw what
      | .error error => .refused error
  | .beginAuthentication _ => .ofExcept .challenge
      (beginReply P (wtext "Broker returned an invalid authentication challenge.") message)
  | .beginTest _ => .ofExcept .challenge
      (beginReply P (wtext "Broker returned an invalid test challenge.") message)
  | .beginRegistration .. => .ofExcept .registration (registrationReply P message)
  | .beginRemoval .. => .ofExcept .challenge (removalReply P message)
  | .finishAuthentication .. | .commitRegistration .. | .finishRemoval ..
  | .removeCredentialWithPassword .. | .setEnforcement .. =>
      .ofExcept (fun _ => .done) (callReply P message)

end BrokerClient
end WindowsFidoLogon
