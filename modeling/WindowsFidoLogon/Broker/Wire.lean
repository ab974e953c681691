import WindowsFidoLogon.Broker.Replies
import WindowsFidoLogon.Model.BrokerClient
import WindowsFidoLogon.Model.BrokerPipe
import WindowsFidoLogon.Store.Seal

/-!
# A call through the pipe

The client and the Broker have separate code for the same messages.  This module puts
the two ends together: what the Broker reads out of a request is what the client was
called with, and what the client makes of the reply is what the Broker found.

Wide strings go through UTF-8 in both directions, so that text that is not well-formed
UTF-16 arrives empty (`Call.transcoded`).
-/

namespace WindowsFidoLogon

open Text

/-- The members of an object may be printed in any order; the parser sorts them. -/
def Platform.ParsesObjects (P : Platform) : Prop :=
  ∀ fields : List (Bytes × Json), fields ≠ [] → (∀ f ∈ fields, f.2.canonical = true) →
    Json.allStringsFields validUtf8 fields = true →
      P.parse (Json.obj fields).render = .ok (.obj (Json.sortFields fields))

namespace BrokerClient

variable {P : Platform}

/-! ## Requests -/

/-- The request as `Call` prints it. -/
def envelope (request : Json) : Json :=
  request.set (text "version") (.int kBrokerProtocolVersion.toNat)

/-- The `op` of a call. -/
def Call.operation : Call → Bytes
  | .getStatus _ => text "status"
  | .beginAuthentication _ => text "begin_auth"
  | .beginTest _ => text "begin_test"
  | .finishAuthentication .. => text "finish_auth"
  | .beginRegistration .. => text "begin_registration"
  | .commitRegistration .. => text "commit_registration"
  | .beginRemoval .. => text "begin_remove"
  | .finishRemoval .. => text "finish_remove"
  | .removeCredentialWithPassword .. => text "remove_with_password"
  | .setEnforcement .. => text "set_enforcement"

/-- A call after the way of its wide strings through UTF-8. -/
def Call.transcoded (P : Platform) : Call → Call
  | .getStatus sid => .getStatus (LocalCredentialStore.transcoded P sid)
  | .beginAuthentication sid => .beginAuthentication (LocalCredentialStore.transcoded P sid)
  | .beginTest sid => .beginTest (LocalCredentialStore.transcoded P sid)
  | .beginRegistration sid username password label =>
      .beginRegistration (LocalCredentialStore.transcoded P sid)
        (LocalCredentialStore.transcoded P username) (LocalCredentialStore.transcoded P password)
        label
  | .beginRemoval sid username password credentialId =>
      .beginRemoval (LocalCredentialStore.transcoded P sid)
        (LocalCredentialStore.transcoded P username) (LocalCredentialStore.transcoded P password)
        credentialId
  | .removeCredentialWithPassword sid username password credentialId =>
      .removeCredentialWithPassword (LocalCredentialStore.transcoded P sid)
        (LocalCredentialStore.transcoded P username) (LocalCredentialStore.transcoded P password)
        credentialId
  | .setEnforcement sid username password enabled allowFilterConflict =>
      .setEnforcement (LocalCredentialStore.transcoded P sid)
        (LocalCredentialStore.transcoded P username) (LocalCredentialStore.transcoded P password)
        enabled allowFilterConflict
  | call => call

open BrokerService (stringField wideField extractPassword assertionFromJson)

/-- The account and the password that four operations read out of a request. -/
structure ReadsLogon (P : Platform) (request : Json) (sid username password : WString) : Prop where
  sid : wideField P request (text "sid") = .ok sid
  username : wideField P request (text "username") = .ok username
  password : extractPassword P request = .ok password

/-- The session and the assertion that two operations read out of a request. -/
structure ReadsAssertion (request : Json) (sessionId : Bytes) (assertion : FIDOSignResponse) :
    Prop where
  sessionId : stringField request (text "sessionId") = .ok sessionId
  assertion : (request.at_ (text "assertion") >>= assertionFromJson) = .ok assertion

/-- The arguments that the operation of a call reads out of a request are those of the
call.  The label of `commit_registration` is never read. -/
inductive ReadsArguments (P : Platform) (request : Json) : Call → Prop
  | getStatus {sid : WString} : wideField P request (text "sid") = .ok sid →
      ReadsArguments P request (.getStatus sid)
  | beginAuthentication {sid : WString} : wideField P request (text "sid") = .ok sid →
      ReadsArguments P request (.beginAuthentication sid)
  | beginTest {sid : WString} : wideField P request (text "sid") = .ok sid →
      ReadsArguments P request (.beginTest sid)
  | finishAuthentication {sessionId : Bytes} {assertion : FIDOSignResponse} :
      ReadsAssertion request sessionId assertion →
      ReadsArguments P request (.finishAuthentication sessionId assertion)
  | beginRegistration {sid username password : WString} {label : Bytes} :
      ReadsLogon P request sid username password →
      request.valueOr Json.getString (text "label") (text "Security key") = .ok label →
      ReadsArguments P request (.beginRegistration sid username password label)
  | commitRegistration {sessionId attestationObject clientDataJson : Bytes} (label : Bytes) :
      stringField request (text "sessionId") = .ok sessionId →
      stringField request (text "attestationObject") = .ok attestationObject →
      stringField request (text "clientDataJson") = .ok clientDataJson →
      ReadsArguments P request (.commitRegistration sessionId label attestationObject clientDataJson)
  | beginRemoval {sid username password : WString} {credentialId : Bytes} :
      ReadsLogon P request sid username password →
      stringField request (text "credentialId") = .ok credentialId →
      ReadsArguments P request (.beginRemoval sid username password credentialId)
  | finishRemoval {sessionId : Bytes} {authorization : FIDOSignResponse} :
      ReadsAssertion request sessionId authorization →
      ReadsArguments P request (.finishRemoval sessionId authorization)
  | removeCredentialWithPassword {sid username password : WString} {credentialId : Bytes} :
      ReadsLogon P request sid username password →
      stringField request (text "credentialId") = .ok credentialId →
      ReadsArguments P request (.removeCredentialWithPassword sid username password credentialId)
  | setEnforcement {sid username password : WString} {enabled allowFilterConflict : Bool} :
      ReadsLogon P request sid username password →
      (request.at_ (text "enabled") >>= Json.getBool) = .ok enabled →
      request.valueOr Json.getBool (text "allowFilterConflict") false = .ok allowFilterConflict →
      ReadsArguments P request (.setEnforcement sid username password enabled allowFilterConflict)

/-- What the Broker reads out of a request is this call. -/
structure Reads (P : Platform) (request : Json) (call : Call) : Prop where
  operation : request.valueOr Json.getString (text "op") [] = .ok call.operation
  arguments : ReadsArguments P request call

theorem assertionFromJson_assertionToJson (assertion : FIDOSignResponse) :
    assertionFromJson (assertionToJson assertion) = .ok assertion := by
  have hItems : (assertion.assertions.map assertionDataToJson).mapM
      BrokerService.assertionDataFromJson = .ok (assertion.assertions.map id) :=
    LocalCredentialStore.mapM_map_ok fun item _ => rfl
  show (do
    let assertions ← (assertion.assertions.map assertionDataToJson).mapM
      BrokerService.assertionDataFromJson
    return { assertion with assertions }) = Except.ok assertion
  rw [hItems, List.map_id]
  rfl

theorem readsAssertion_finish (sessionId : Bytes) (assertion : FIDOSignResponse) :
    ReadsAssertion (envelope (finishAuthenticationRequest sessionId assertion)) sessionId assertion ∧
      ReadsAssertion (envelope (finishRemovalRequest sessionId assertion)) sessionId assertion :=
  ⟨⟨rfl, assertionFromJson_assertionToJson assertion⟩,
    ⟨rfl, assertionFromJson_assertionToJson assertion⟩⟩

/-- The Broker reads a request as the call it was made for. -/
theorem reads_envelope (call : Call) :
    Reads P (envelope (call.request P)) (call.transcoded P) := by
  cases call with
  | getStatus sid => exact ⟨rfl, .getStatus rfl⟩
  | beginAuthentication sid => exact ⟨rfl, .beginAuthentication rfl⟩
  | beginTest sid => exact ⟨rfl, .beginTest rfl⟩
  | finishAuthentication sessionId assertion =>
      exact ⟨rfl, .finishAuthentication (readsAssertion_finish sessionId assertion).1⟩
  | beginRegistration sid username password label =>
      exact ⟨rfl, .beginRegistration ⟨rfl, rfl, rfl⟩ rfl⟩
  | commitRegistration sessionId label attestationObject clientDataJson =>
      exact ⟨rfl, .commitRegistration label rfl rfl rfl⟩
  | beginRemoval sid username password credentialId =>
      exact ⟨rfl, .beginRemoval ⟨rfl, rfl, rfl⟩ rfl⟩
  | finishRemoval sessionId authorization =>
      exact ⟨rfl, .finishRemoval (readsAssertion_finish sessionId authorization).2⟩
  | removeCredentialWithPassword sid username password credentialId =>
      exact ⟨rfl, .removeCredentialWithPassword ⟨rfl, rfl, rfl⟩ rfl⟩
  | setEnforcement sid username password enabled allowFilterConflict =>
      exact ⟨rfl, .setEnforcement ⟨rfl, rfl, rfl⟩ rfl rfl⟩

open BrokerService (canonicalFields_cons)

theorem canonical_assertionToJson (assertion : FIDOSignResponse) :
    (assertionToJson assertion).canonical = true := by
  refine canonicalFields_cons rfl (Json.canonicalList_iff.mpr fun j hj => ?_)
    (canonicalFields_cons rfl rfl rfl)
  obtain ⟨item, -, rfl⟩ := List.mem_map.mp hj
  exact canonicalFields_cons rfl rfl <| canonicalFields_cons rfl rfl <|
    canonicalFields_cons rfl rfl <| canonicalFields_cons rfl rfl rfl

/-- The requests are in the parser's form: their members are printed in order. -/
theorem canonical_envelope (call : Call) : (envelope (call.request P)).canonical = true := by
  cases call with
  | getStatus _ | beginAuthentication _ | beginTest _ =>
      exact canonicalFields_cons rfl rfl <| canonicalFields_cons rfl rfl <|
        canonicalFields_cons rfl rfl rfl
  | finishAuthentication _ assertion | finishRemoval _ assertion =>
      exact canonicalFields_cons rfl (canonical_assertionToJson assertion) <|
        canonicalFields_cons rfl rfl <| canonicalFields_cons rfl rfl <|
          canonicalFields_cons rfl rfl rfl
  | beginRegistration _ _ _ _ | commitRegistration _ _ _ _ | beginRemoval _ _ _ _
  | removeCredentialWithPassword _ _ _ _ =>
      exact canonicalFields_cons rfl rfl <| canonicalFields_cons rfl rfl <|
        canonicalFields_cons rfl rfl <| canonicalFields_cons rfl rfl <|
          canonicalFields_cons rfl rfl <| canonicalFields_cons rfl rfl rfl
  | setEnforcement _ _ _ _ _ =>
      exact canonicalFields_cons rfl rfl <| canonicalFields_cons rfl rfl <|
        canonicalFields_cons rfl rfl <| canonicalFields_cons rfl rfl <|
          canonicalFields_cons rfl rfl <| canonicalFields_cons rfl rfl <|
            canonicalFields_cons rfl rfl rfl

theorem callMessage_ok {request : Json} {message : Bytes}
    (h : callMessage P request = .ok message) :
    P.dump (envelope request) = .ok message ∧ message.length ≤ kMaxBrokerMessageBytes := by
  unfold callMessage at h
  cases hDump : P.dump (envelope request) with
  | error e =>
      unfold envelope at hDump
      rw [hDump] at h
      cases h
  | ok serialized =>
      unfold envelope at hDump
      rw [hDump] at h
      dsimp only at h
      split_ifs at h with hLong
      cases h
      exact ⟨rfl, Nat.le_of_not_lt hLong⟩

/-- What `Call` sent is opened by the Broker, under the identity of the client. -/
theorem openRequest_callMessage (hParses : P.ParsesDumps) (hPrints : P.PrintsCompactly)
    {call : Call} {message : Bytes} (hSent : callMessage P (call.request P) = .ok message)
    {pipe : BrokerService.PipeClient} {caller : BrokerService.Caller}
    (hCaller : BrokerService.getCaller pipe = .ok caller) :
    BrokerService.openRequest P pipe message = .ok (caller, envelope (call.request P)) := by
  obtain ⟨hDump, hLength⟩ := callMessage_ok hSent
  have hCanonical := canonical_envelope (P := P) call
  have hNonempty : message.isEmpty = false := by
    obtain ⟨b, t, hText, -⟩ := Json.render_head (envelope (call.request P))
    rw [hPrints _ _ hCanonical hDump, hText]
    rfl
  have hVersion : (envelope (call.request P)).valueOr Json.getUnsigned (text "version") 0 =
      .ok kBrokerProtocolVersion := by
    cases call <;> rfl
  exact BrokerService.openRequest_eq hNonempty hLength (hParses _ _ hCanonical hDump) hVersion
    hCaller

/-! ## Replies -/

/-- A credential as `status` shows it, without its public key. -/
def shown (c : CredentialRecord) : CredentialRecord := { c with cosePublicKey := [] }

/-- A credential as a challenge lists it. -/
def allowed (c : CredentialRecord) : AllowCredential :=
  { id := c.credentialId, transports := [text "usb"] }

/-- An account as `GetStatus` returns it. -/
def statusOf (P : Platform) (account : AccountRecord) : AccountStatus :=
  { found := true
    enforced := account.enforced
    username := LocalCredentialStore.transcoded P account.username
    credentials := account.credentials.map shown }

open BrokerService (Session SessionKind Caller Broker Handling)

/-- A session of the Broker as the challenge that the client gets. -/
def challengeOf (session : Session) (id : Bytes) (account : AccountRecord) :
    AuthenticationChallenge :=
  { enforced := true
    sessionId := id
    rpId := session.rpId
    origin := session.origin
    request :=
      { allowCredentials := account.credentials.map allowed
        challenge := session.challenge
        rpId := session.rpId
        userVerification := text "required"
        type := text "webauthn"
        timeout := 120000 } }

/-- A session of the Broker as the registration that the client gets. -/
def registrationOf (session : Session) (id userId : Bytes) (credentials : List CredentialRecord) :
    RegistrationChallenge :=
  { sessionId := id
    rpId := session.rpId
    origin := session.origin
    challenge := session.challenge
    userId
    excludeCredentials := credentials.map (·.credentialId) }

theorem credentialFromJson_public {c : CredentialRecord} (h : c.algorithm = kEs256Algorithm) :
    credentialFromJson (BrokerService.credentialPublicJson c) = .ok (shown c) := by
  have hAlgorithm : (Json.int c.algorithm).getInt = .ok c.algorithm := by
    rw [h]
    rfl
  show (do
    let algorithm ← (Json.int c.algorithm).getInt
    let signCount ← (Json.int c.signCount.toNat).getUnsigned
    return { shown c with algorithm, signCount }) = Except.ok _
  rw [hAlgorithm, LocalCredentialStore.getUnsigned_toNat]
  rfl

theorem accountStatusFromJson_statusReply {account : AccountRecord}
    (h : ∀ c ∈ account.credentials, c.algorithm = kEs256Algorithm) :
    accountStatusFromJson P (BrokerService.statusReply P account) = .ok (statusOf P account) := by
  have hCredentials : (account.credentials.map BrokerService.credentialPublicJson).mapM
      credentialFromJson = .ok (account.credentials.map shown) :=
    LocalCredentialStore.mapM_map_ok fun c hc => credentialFromJson_public (h c hc)
  show (do
    let credentials ← (account.credentials.map BrokerService.credentialPublicJson).mapM
      credentialFromJson
    return { statusOf P account with credentials }) = Except.ok _
  rw [hCredentials]
  rfl

theorem allowCredentials_listed (credentials : List CredentialRecord) :
    (BrokerService.credentialIds credentials).elements.mapM allowCredential =
      .ok (credentials.map allowed) :=
  LocalCredentialStore.mapM_map_ok fun _ _ => rfl

/-- Both forms in which a challenge is sent are read as the same. -/
theorem parseAuthenticationChallenge_session (session : Session) (id : Bytes)
    (account : AccountRecord) :
    parseAuthenticationChallenge (BrokerService.challengeReply session id account) =
        .ok (challengeOf session id account) ∧
      parseAuthenticationChallenge ((BrokerService.createAuthChallenge session account).set
        (text "sessionId") (.str id)) = .ok (challengeOf session id account) := by
  have hRead : (do
      let allowCredentials ←
        (BrokerService.credentialIds account.credentials).elements.mapM allowCredential
      return { challengeOf session id account with
        request := { (challengeOf session id account).request with allowCredentials } }) =
        (Except.ok (challengeOf session id account) : Except Bytes AuthenticationChallenge) := by
    rw [allowCredentials_listed]
    rfl
  exact ⟨hRead, hRead⟩

theorem parseRegistrationChallenge_session (session : Session) (id userId : Bytes)
    (credentials : List CredentialRecord) :
    ((BrokerService.registrationReply session id userId credentials).at_ (text "registration") >>=
      parseRegistrationChallenge) = .ok (registrationOf session id userId credentials) := by
  have hExcluded : (credentials.map fun c => Json.str c.credentialId).mapM Json.getString =
      .ok (credentials.map (·.credentialId)) :=
    LocalCredentialStore.mapM_map_ok fun _ _ => rfl
  show (do
    let excludeCredentials ← (credentials.map fun c => Json.str c.credentialId).mapM Json.getString
    return { registrationOf session id userId credentials with excludeCredentials }) = Except.ok _
  rw [hExcluded]
  rfl

variable {E : Environment} {H : Handling} {b : Broker}

open BrokerService (Told Found Issued)

/-- Every reply is in the parser's form and says that it is one. -/
theorem canonical_of_told {op : Bytes} {j : Json} (h : Told P E H b op j) :
    j.canonical = true ∧ j.valueOr Json.getBool (text "ok") false = .ok true := by
  cases h with
  | account _ _ =>
      refine ⟨canonicalFields_cons rfl (Json.canonicalList_iff.mpr fun j hj => ?_) <|
        canonicalFields_cons rfl rfl <| canonicalFields_cons rfl rfl <|
          canonicalFields_cons rfl rfl <| canonicalFields_cons rfl rfl rfl, rfl⟩
      obtain ⟨c, -, rfl⟩ := List.mem_map.mp hj
      exact canonicalFields_cons rfl rfl <| canonicalFields_cons rfl rfl <|
        canonicalFields_cons rfl rfl <| canonicalFields_cons rfl rfl <|
          canonicalFields_cons rfl rfl <| canonicalFields_cons rfl rfl rfl
  | noAccount _ _ | unenforced _ _ _ => exact ⟨rfl, rfl⟩
  | challenge _ _ _ _ =>
      exact ⟨canonicalFields_cons rfl rfl <|
        canonicalFields_cons rfl (BrokerService.canonical_credentialIds _) <|
          canonicalFields_cons rfl rfl <| canonicalFields_cons rfl rfl <|
            canonicalFields_cons rfl rfl <| canonicalFields_cons rfl rfl <|
              canonicalFields_cons rfl rfl rfl, rfl⟩
  | registration _ _ _ =>
      exact ⟨canonicalFields_cons rfl rfl <| canonicalFields_cons rfl
        (canonicalFields_cons rfl rfl <|
          canonicalFields_cons rfl (BrokerService.canonical_credentialIds _) <|
            canonicalFields_cons rfl rfl <| canonicalFields_cons rfl rfl <|
              canonicalFields_cons rfl rfl <| canonicalFields_cons rfl rfl rfl) rfl, rfl⟩
  | removal _ _ _ =>
      exact ⟨canonicalFields_cons rfl (BrokerService.canonical_authChallenge _ _ _) <|
        canonicalFields_cons rfl rfl rfl, rfl⟩
  | authenticated _ _ | removed _ _ _ _ | enforced _ _ _ => exact ⟨rfl, rfl⟩
  | registered _ _ _ =>
      exact ⟨canonicalFields_cons rfl rfl <| canonicalFields_cons rfl rfl rfl, rfl⟩

theorem callReply_of_parse {message : Bytes} {reply : Json} (hParse : P.parse message = .ok reply)
    (hOk : reply.valueOr Json.getBool (text "ok") false = .ok true) :
    callReply P message = .ok reply := by
  unfold callReply
  rw [hParse]
  dsimp only
  rw [hOk]

theorem callReply_of_error {message what : Bytes}
    (hParse : P.parse message = .ok (BrokerService.errorReply what)) :
    callReply P message = .error (Convert.toWString P what) := by
  unfold callReply
  rw [hParse]
  rfl

/-- A call that is refused passes on the text of the refusal. -/
theorem receive_of_error {message what : Bytes} (call : Call)
    (hParse : P.parse message = .ok (BrokerService.errorReply what)) :
    call.receive P message = .refused (Convert.toWString P what) := by
  have hReply := callReply_of_error hParse
  cases call <;>
    simp only [Call.receive, statusReply, beginReply, registrationReply, removalReply, hReply] <;>
    rfl

@[simp] theorem receive_transcoded (call : Call) (message : Bytes) :
    (call.transcoded P).receive P message = call.receive P message := by
  cases call <;> rfl

/-! ## What a call tells -/

section Learning

open Program BrokerService LocalCredentialStore Handling

/-- What the result of a call tells about the Broker: what `H`, the handling of its
request, found, and how it left the Broker as `b`. -/
inductive Learns (P : Platform) (E : Environment) (H : Handling) (b : Broker) :
    Call → Result → Prop
  | account {sid : WString} {account : AccountRecord} : Found P E H sid (some account) →
      Learns P E H b (.getStatus sid) (.status (statusOf P account))
  | noAccount {sid : WString} : Found P E H sid none → Learns P E H b (.getStatus sid) (.status {})
  | unenforced {sid : WString} {account : Option AccountRecord} : Found P E H sid account →
      account.filter (·.enforced) = none →
      (handle P E H.caller H.request H.before).1 =
        .returned (.obj [(text "enforced", .bool false), (text "ok", .bool true)]) →
      Learns P E H b (.beginAuthentication sid) (.challenge {})
  | enforced {sid : WString} {account : AccountRecord} {id : Bytes} {session : Session} :
      Found P E H sid (some account) → account.enforced = true →
      Issued P E H b .authentication sid id session →
      Learns P E H b (.beginAuthentication sid) (.challenge (challengeOf session id account))
  | test {sid : WString} {account : AccountRecord} {id : Bytes} {session : Session} :
      Found P E H sid (some account) → Issued P E H b .authentication sid id session →
      Learns P E H b (.beginTest sid) (.challenge (challengeOf session id account))
  | registration {sid username password : WString} {label id userId : Bytes}
      {account : Option AccountRecord} {session : Session} :
      Found P E H sid account → Issued P E H b .registration sid id session →
      Learns P E H b (.beginRegistration sid username password label) (.registration
        (registrationOf session id userId ((account.map (·.credentials)).getD [])))
  | removal {sid username password : WString} {credentialId id : Bytes} {account : AccountRecord}
      {session : Session} :
      Found P E H sid (some account) → Issued P E H b .removalAuthorization sid id session →
      Learns P E H b (.beginRemoval sid username password credentialId)
        (.challenge (challengeOf session id account))
  | authenticated {sessionId : Bytes} {assertion : FIDOSignResponse} {session : Session}
      {value : Json} {c : Broker} :
      AtVerification P E H .authentication session value c →
      assertionFromJson value = .ok assertion →
      verifySessionAssertion P E session value c.machine = (.returned (.ok ()), b.machine) →
      Learns P E H b (.finishAuthentication sessionId assertion) .done
  | registered {sessionId label attestationObject clientDataJson : Bytes} {session : Session}
      {registration : RegistrationResult} {c : Broker} {count : Nat} :
      Took P E H .registration session c → MayRegister P E H session registration c.machine →
      storeRegistration P E session registration c.machine = (.returned count, b.machine) →
      Learns P E H b (.commitRegistration sessionId label attestationObject clientDataJson) .done
  | removedByPassword {sid username password : WString} {credentialId : Bytes} {m : Machine} :
      Relation.ReflTransGen (Prepares P E H) H.before.machine m → Validated P E H sid m →
      removeCredential P E sid credentialId m = (.returned (.ok ()), b.machine) →
      Learns P E H b (.removeCredentialWithPassword sid username password credentialId) .done
  | removed {sessionId : Bytes} {authorization : FIDOSignResponse} {session : Session}
      {m : Machine} :
      Relation.ReflTransGen (Prepares P E H) H.before.machine m →
      Entered E H .removalAuthorization session m → Asserted P E H session m →
      removeCredential P E session.targetSid session.credentialToRemove m =
        (.returned (.ok ()), b.machine) →
      Learns P E H b (.finishRemoval sessionId authorization) .done
  | enforcementSet {sid username password : WString} {enabled allowFilterConflict : Bool}
      {m : Machine} :
      Relation.ReflTransGen (Prepares P E H) H.before.machine m →
      H.caller.isElevatedAdmin = true → Validated P E H sid m →
      setEnforced P E sid enabled m = (.returned (.ok ()), b.machine) →
      Learns P E H b (.setEnforcement sid username password enabled allowFilterConflict) .done

theorem validated_sid {sid given : WString} {m : Machine} (h : Validated P E H sid m)
    (hRead : wideField P H.request (text "sid") = .ok given) : sid = given := by
  obtain ⟨_, _, _, _, _, hSid, -⟩ := h
  exact Except.ok.inj (hSid.symm.trans hRead)

/-! ### The calls on a reply -/

section Receiving

variable {message : Bytes} {reply : Json} (hReply : callReply P message = .ok reply)
include hReply

theorem receive_status {sid : WString} {status : AccountStatus}
    (h : accountStatusFromJson P reply = .ok status) :
    (Call.getStatus sid).receive P message = .returned (.status status) := by
  have hRead : BrokerClient.statusReply P message = .ok (.ok status) := by
    unfold BrokerClient.statusReply
    rw [hReply, except_ok_bind, h]
    rfl
  simp only [Call.receive, hRead]

/-- `BeginAuthentication` and `BeginTest`. -/
theorem receive_challenge {challenge : AuthenticationChallenge} (sid : WString)
    (h : parseAuthenticationChallenge reply = .ok challenge) :
    (Call.beginAuthentication sid).receive P message = .returned (.challenge challenge) ∧
      (Call.beginTest sid).receive P message = .returned (.challenge challenge) := by
  have hRead : ∀ invalid, beginReply P invalid message = .ok challenge := by
    intro invalid
    unfold beginReply
    rw [hReply, except_ok_bind, h]
  simp only [Call.receive, hRead]
  exact ⟨rfl, rfl⟩

theorem receive_registration {registration : RegistrationChallenge} {sid username password : WString}
    {label : Bytes}
    (h : (reply.at_ (text "registration") >>= parseRegistrationChallenge) = .ok registration) :
    (Call.beginRegistration sid username password label).receive P message =
      .returned (.registration registration) := by
  have hRead : BrokerClient.registrationReply P message = .ok registration := by
    unfold BrokerClient.registrationReply
    rw [hReply, except_ok_bind, h]
  simp only [Call.receive, hRead]
  rfl

theorem receive_removal {challenge : AuthenticationChallenge} {sid username password : WString}
    {credentialId : Bytes}
    (h : (reply.at_ (text "authorization") >>= parseAuthenticationChallenge) = .ok challenge) :
    (Call.beginRemoval sid username password credentialId).receive P message =
      .returned (.challenge challenge) := by
  have hRead : BrokerClient.removalReply P message = .ok challenge := by
    unfold BrokerClient.removalReply
    rw [hReply, except_ok_bind, h]
  simp only [Call.receive, hRead]
  rfl

end Receiving

/-- What the client makes of a reply is what the Broker told. -/
theorem receive_of_told {call : Call} {op message : Bytes} {j : Json} (hTold : Told P E H b op j)
    (hOp : op = call.operation) (hArguments : ReadsArguments P H.request call)
    (hHandle : handle P E H.caller H.request H.before = (.returned j, b))
    (hParse : P.parse message = .ok j) :
    ∃ result, call.receive P message = .returned result ∧ Learns P E H b call result := by
  have hReply := callReply_of_parse hParse (canonical_of_told hTold).2
  -- one call goes with each reply; the arguments of the others do not fit the operation
  cases hTold with
  | account hSid hFound =>
      cases hArguments with
      | getStatus hRead =>
          obtain rfl := Except.ok.inj (hSid.symm.trans hRead)
          have hStatus := accountStatusFromJson_statusReply (P := P) fun c hc =>
            (hFound.valid.credentials c hc).algorithm
          exact ⟨_, receive_status hReply hStatus, .account hFound⟩
      | _ =>
          simp only [Call.operation] at hOp
          exact absurd hOp (by decide)
  | noAccount hSid hFound =>
      cases hArguments with
      | getStatus hRead =>
          obtain rfl := Except.ok.inj (hSid.symm.trans hRead)
          exact ⟨_, receive_status hReply rfl, .noAccount hFound⟩
      | _ =>
          simp only [Call.operation] at hOp
          exact absurd hOp (by decide)
  | unenforced hSid hFound hFilter =>
      cases hArguments with
      | beginAuthentication hRead =>
          obtain rfl := Except.ok.inj (hSid.symm.trans hRead)
          exact ⟨_, (receive_challenge hReply _ rfl).1,
            .unenforced hFound hFilter (congrArg Prod.fst hHandle)⟩
      | _ =>
          simp only [Call.operation] at hOp
          exact absurd hOp (by decide)
  | @challenge _ sid account id session hWhich hSid hFound hIssued =>
      have hChallenge := (parseAuthenticationChallenge_session session id account).1
      cases hArguments with
      | beginAuthentication hRead =>
          obtain rfl := Except.ok.inj (hSid.symm.trans hRead)
          -- `begin_test` gives the same challenge without asking for the enforcement
          have hEnforced : account.enforced = true := by
            rcases hWhich with ⟨-, hEnforced⟩ | hTest
            · exact hEnforced
            · simp only [Call.operation] at hOp
              exact absurd (hOp.symm.trans hTest) (by decide)
          exact ⟨_, (receive_challenge hReply sid hChallenge).1, .enforced hFound hEnforced hIssued⟩
      | beginTest hRead =>
          obtain rfl := Except.ok.inj (hSid.symm.trans hRead)
          exact ⟨_, (receive_challenge hReply sid hChallenge).2, .test hFound hIssued⟩
      | _ =>
          simp only [Call.operation] at hOp
          rcases hWhich with ⟨hBegin, -⟩ | hTest
          · exact absurd (hOp.symm.trans hBegin) (by decide)
          · exact absurd (hOp.symm.trans hTest) (by decide)
  | registration hSid hFound hIssued =>
      cases hArguments with
      | beginRegistration hLogon _ =>
          obtain rfl := Except.ok.inj (hSid.symm.trans hLogon.sid)
          exact ⟨_, receive_registration hReply (parseRegistrationChallenge_session _ _ _ _),
            .registration hFound hIssued⟩
      | _ =>
          simp only [Call.operation] at hOp
          exact absurd hOp (by decide)
  | removal hSid hFound hIssued =>
      cases hArguments with
      | beginRemoval hLogon _ =>
          obtain rfl := Except.ok.inj (hSid.symm.trans hLogon.sid)
          exact ⟨_, receive_removal hReply (parseAuthenticationChallenge_session _ _ _).2,
            .removal hFound hIssued⟩
      | _ =>
          simp only [Call.operation] at hOp
          exact absurd hOp (by decide)
  | authenticated hAt hVerified =>
      cases hArguments with
      | finishAuthentication hRead =>
          have hAssertion := hRead.assertion
          rw [hAt.assertion] at hAssertion
          refine ⟨.done, ?_, .authenticated hAt hAssertion hVerified⟩
          simp only [Call.receive, hReply, Ending.ofExcept]
      | _ =>
          simp only [Call.operation] at hOp
          exact absurd hOp (by decide)
  | registered hTook hMay hStored =>
      cases hArguments with
      | commitRegistration label _ _ _ =>
          refine ⟨.done, ?_, .registered hTook hMay hStored⟩
          simp only [Call.receive, hReply, Ending.ofExcept]
      | _ =>
          simp only [Call.operation] at hOp
          exact absurd hOp (by decide)
  | removed hOperation hPrepared hMay hRemoved =>
      cases hMay with
      | password hOther hValidated hCredential =>
          obtain rfl := Except.ok.inj (hOperation.symm.trans hOther)
          cases hArguments with
          | removeCredentialWithPassword hLogon hRead =>
              obtain rfl := validated_sid hValidated hLogon.sid
              obtain rfl := Except.ok.inj (hCredential.symm.trans hRead)
              refine ⟨.done, ?_, .removedByPassword hPrepared hValidated hRemoved⟩
              simp only [Call.receive, hReply, Ending.ofExcept]
          | _ =>
              simp only [Call.operation] at hOp
              exact absurd hOp (by decide)
      | session hOther hEntered hAsserted hSid hCredential =>
          obtain rfl := Except.ok.inj (hOperation.symm.trans hOther)
          subst hSid hCredential
          cases hArguments with
          | finishRemoval _ =>
              refine ⟨.done, ?_, .removed hPrepared hEntered hAsserted hRemoved⟩
              simp only [Call.receive, hReply, Ending.ofExcept]
          | _ =>
              simp only [Call.operation] at hOp
              exact absurd hOp (by decide)
  | enforced hPrepared hMay hSet =>
      cases hArguments with
      | setEnforcement hLogon hEnabled _ =>
          obtain rfl := validated_sid hMay.validated hLogon.sid
          obtain rfl := Except.ok.inj (hMay.enabled.symm.trans hEnabled)
          refine ⟨.done, ?_, .enforcementSet hPrepared hMay.elevated hMay.validated hSet⟩
          simp only [Call.receive, hReply, Ending.ofExcept]
      | _ =>
          simp only [Call.operation] at hOp
          exact absurd hOp (by decide)

/-! ## One call -/

/-- How a call ends whose message the Broker handled as `H` and answered with `output`,
ending as `b`. -/
inductive Concludes (P : Platform) (E : Environment) (H : Handling) (b : Broker) (output : Bytes)
    (call : Call) : Ending → Prop
  | returned {result : Result} : output.length ≤ kMaxBrokerMessageBytes →
      Learns P E H b call result → Concludes P E H b output call (.returned result)
  | refused {what : Bytes} : output.length ≤ kMaxBrokerMessageBytes →
      handle P E H.caller H.request H.before = (.threw what, b) →
      Concludes P E H b output call (.refused (Convert.toWString P what))
  | oversized : kMaxBrokerMessageBytes < output.length →
      Concludes P E H b output call
        (.refused (Convert.toWString P (text "Broker response is too large")))

theorem parse_oversizedResponse (hObjects : P.ParsesObjects) :
    P.parse oversizedResponse = .ok (errorReply (text "Broker response is too large")) := by
  have hParse := hObjects
    [(text "ok", .bool false), (text "error", .str (text "Broker response is too large"))]
    (by simp) (by simp [Json.canonical]) (by decide)
  have hText : (Json.obj [(text "ok", .bool false),
      (text "error", .str (text "Broker response is too large"))]).render = oversizedResponse := by
    decide +kernel
  rw [hText] at hParse
  exact hParse

/-- A call that was answered ends the way the Broker left it. -/
theorem concludes_of_served (hParses : P.ParsesDumps) (hPrints : P.PrintsCompactly)
    (hObjects : P.ParsesObjects) {call : Call} {message : Bytes}
    (hSent : callMessage P (call.request P) = .ok message) {pipe : PipeClient} {caller : Caller}
    (hCaller : getCaller pipe = .ok caller) {b : Broker} {output : Bytes} {ok : Bool}
    (hServed : (serve P E pipe message b).1 = some (output, ok)) :
    Concludes P E ⟨b, caller, envelope (call.request P)⟩ (serve P E pipe message b).2 output
      (call.transcoded P) (call.receive P (pipeResponse output)) := by
  have hOpen := openRequest_callMessage hParses hPrints hSent hCaller
  have hReads := reads_envelope (P := P) call
  unfold pipeResponse
  by_cases hLong : kMaxBrokerMessageBytes < output.length
  · rw [if_pos hLong, receive_of_error call (parse_oversizedResponse hObjects)]
    exact .oversized hLong
  rw [if_neg hLong]
  have hFits := Nat.le_of_not_lt hLong
  rcases handle_of_serve hOpen hServed with ⟨j, hHandle, hDump⟩ | ⟨what, hHandle, hDump⟩
  · have hTold := told_of_handle (H := ⟨b, caller, envelope (call.request P)⟩) hReads.operation hHandle
    have hParse := hParses _ _ (canonical_of_told hTold).1 hDump
    obtain ⟨result, hResult, hLearns⟩ :=
      receive_of_told hTold rfl hReads.arguments hHandle hParse
    rw [receive_transcoded] at hResult
    rw [hResult]
    exact .returned hFits hLearns
  · have hCanonical : (errorReply what).canonical = true :=
      canonicalFields_cons rfl rfl <| canonicalFields_cons rfl rfl rfl
    rw [receive_of_error call (hParses _ _ hCanonical hDump)]
    exact .refused hFits hHandle

/-- Every call whose message was sent is read by the Broker with the arguments it was
given, and ends the way the Broker left it: it never fails on a reply that the Broker
wrote. -/
theorem call_concludes (hParses : P.ParsesDumps) (hPrints : P.PrintsCompactly)
    (hObjects : P.ParsesObjects) (call : Call) {message : Bytes}
    (hSent : callMessage P (call.request P) = .ok message) {pipe : PipeClient} {caller : Caller}
    (hCaller : getCaller pipe = .ok caller) {b : Broker} {output : Bytes} {ok : Bool}
    (hServed : (serve P E pipe message b).1 = some (output, ok)) :
    ∃ request, openRequest P pipe message = .ok (caller, request) ∧
      Reads P request (call.transcoded P) ∧
      Concludes P E ⟨b, caller, request⟩ (serve P E pipe message b).2 output (call.transcoded P)
        (call.receive P (pipeResponse output)) :=
  ⟨envelope (call.request P), openRequest_callMessage hParses hPrints hSent hCaller,
    reads_envelope call, concludes_of_served hParses hPrints hObjects hSent hCaller hServed⟩

end Learning

section Example

open Reference BrokerService

theorem parsesObjects (fido : FidoLibrary) : (platform fido).ParsesObjects := by
  intro fields hNonempty hCanonical hStrings
  show Reference.parse (Json.obj fields).render = _
  rw [Reference.parse, Json.parse_render_obj hNonempty hCanonical hStrings]

/-- `BeginAuthentication` as it is sent for `alice`. -/
def sentText : Bytes :=
  text "\x7b\"op\":\"begin_auth\",\"sid\":\"S-1-5-21-1-2-3-1001\",\"version\":1\x7d"

/-- A challenge that comes back. -/
def challengeText (challenge id : Bytes) : Bytes :=
  text "\x7b\"challenge\":\"" ++ challenge ++
    text "\",\"credentialIds\":[\"" ++ text "AAECAwQFBgcICQoLDA0ODw" ++
    text "\"],\"enforced\":true,\"ok\":true,\"origin\":\"https://" ++
    text "wfl-00000000000000000000000000000000.login.local" ++ text "\",\"rpId\":\"" ++
    text "wfl-00000000000000000000000000000000.login.local" ++ text "\",\"sessionId\":\"" ++
    id ++ text "\"\x7d"

def answerText : Bytes :=
  challengeText (text "BwcHBwcHBwcHBwcHBwcHBwcHBwcHBwcHBwcHBwcHBwc")
    (text "CQkJCQkJCQkJCQkJCQkJCQkJCQkJCQkJ")

theorem sent_sentText : callMessage (platform {})
    ((Call.beginAuthentication aliceSid).request (platform {})) = .ok sentText := by
  decide +kernel

theorem served_sentText :
    (serve (platform {}) calm alicePipe sentText keyBroker).1 = some (answerText, true) := by
  decide +kernel

theorem call_concludes_example :
    ∃ request, openRequest (platform {}) alicePipe sentText = .ok (aliceCaller, request) ∧
      Reads (platform {}) request
        ((Call.beginAuthentication aliceSid).transcoded (platform {})) ∧
      Concludes (platform {}) calm ⟨keyBroker, aliceCaller, request⟩
        (serve (platform {}) calm alicePipe sentText keyBroker).2 answerText
        ((Call.beginAuthentication aliceSid).transcoded (platform {}))
        ((Call.beginAuthentication aliceSid).receive (platform {}) (pipeResponse answerText)) := by
  exact call_concludes (parsesDumps {}) (printsCompactly {}) (parsesObjects {})
    (Call.beginAuthentication aliceSid) sent_sentText (by decide +kernel)
    served_sentText

end Example

end BrokerClient
end WindowsFidoLogon
