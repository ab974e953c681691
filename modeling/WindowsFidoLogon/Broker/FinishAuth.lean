import WindowsFidoLogon.Broker.Finishing

/-!
# What an accepted login proves

A `finish_auth` answered with `ok` goes back to one `begin_auth` or `begin_test` of
the same caller, which handed out the session less than 120 seconds before it was
taken; it was taken only once; and the request carries one assertion, which was accepted
for this session and for a credential that the account it was begun for has in the vault
that the request loaded.
-/

namespace WindowsFidoLogon
namespace BrokerService

open Program Text LocalAccount LocalCredentialStore Environment Handling

variable {P : Platform} {E : Environment}

/-! ## The checks of an accepted request -/

/-- What `LoadOrCreate` returns was loaded, or has no accounts. -/
theorem load_of_loadOrCreate {m n : Machine} {v : Vault}
    (h : loadOrCreate P E m = (.returned (.ok v), n)) :
    load P E m = (.returned (.ok v), n) ∨ v.accounts = [] := by
  unfold loadOrCreate at h
  obtain ⟨r, k, hLoad, h⟩ := bind_returned_iff.mp h
  cases r with
  | ok w =>
      cases h
      exact .inl hLoad
  | error e =>
      dsimp only at h
      split_ifs at h
      · cases h
      obtain ⟨machineId, k₁, _, h⟩ := bind_returned_iff.mp h
      split_ifs at h
      · cases h
      obtain ⟨_, k₂, _, h⟩ := bind_returned_iff.mp h
      obtain ⟨r, k₃, _, h⟩ := bind_returned_iff.mp h
      cases r with
      | ok _ =>
          cases h
          exact .inr rfl
      | error e => cases h

/-- An account that was found is in the vault that was loaded. -/
theorem load_of_findAccount {sid : WString} {m n : Machine} {account : AccountRecord}
    (h : findAccount P E sid m = (.returned (some account), n)) :
    ∃ v, load P E m = (.returned (.ok v), n) ∧ accountOf sid v.accounts = some account := by
  unfold findAccount at h
  obtain ⟨r, k, hLoad, h⟩ := bind_returned_iff.mp h
  cases r with
  | error e => cases h
  | ok v =>
      obtain ⟨hFound, rfl⟩ := pure_returned_iff.mp h
      rcases load_of_loadOrCreate hLoad with hLoad | hEmpty
      · exact ⟨v, hLoad, hFound⟩
      · rw [hEmpty] at hFound
        cases hFound

/-- What it means that the assertion `value` was accepted for a session: it is one
assertion, by a credential that the vault loaded at `m` has for the session's target,
and the verifier accepts it against the session and this credential. -/
def Accepts (P : Platform) (E : Environment) (session : Session) (value : Json) (m : Machine) :
    Prop :=
  ∃ v n account assertion front record counter,
    load P E m = (.returned (.ok v), n) ∧
    accountOf session.targetSid v.accounts = some account ∧
    assertionFromJson value = .ok assertion ∧ assertion.assertions = [front] ∧
    record ∈ account.credentials ∧ record.credentialId = front.credentialid ∧
    FidoVerifier.verifyAssertion P record session.challenge session.rpId session.origin assertion =
      .ok counter

/-- Everything that `VerifySessionAssertion` went through when it returned true. -/
theorem verifySessionAssertion_ok {session : Session} {value : Json} {m n : Machine}
    (h : verifySessionAssertion P E session value m = (.returned (.ok ()), n)) :
    ∃ account k assertion front record counter,
      findAccount P E session.targetSid m = (.returned (some account), k) ∧
      assertionFromJson value = .ok assertion ∧ assertion.assertions = [front] ∧
      account.credentials.find? (fun item => item.credentialId == front.credentialid) =
        some record ∧
      FidoVerifier.verifyAssertion P record session.challenge session.rpId session.origin
        assertion = .ok counter ∧
      upsertAccount P E { account with
        credentials := setSignCount record.credentialId counter account.credentials } k =
          (.returned (.ok ()), n) := by
  unfold verifySessionAssertion at h
  obtain ⟨found, k, hFind, h⟩ := bind_returned_iff.mp h
  cases found with
  | none => cases h
  | some account =>
      dsimp only at h
      split_ifs at h
      · cases h
      obtain ⟨assertion, k', hParsed, h⟩ := bind_returned_iff.mp h
      obtain ⟨hAssertion, rfl⟩ := ofExcept_returned_iff.mp hParsed
      rcases hOne : assertion.assertions with _ | ⟨front, _ | ⟨second, more⟩⟩
      · rw [hOne] at h
        cases h
      · rw [hOne] at h
        dsimp only at h
        cases hRecord : account.credentials.find?
            (fun item => item.credentialId == front.credentialid) with
        | none =>
            rw [hRecord] at h
            cases h
        | some record =>
            rw [hRecord] at h
            dsimp only at h
            cases hVerify : FidoVerifier.verifyAssertion P record session.challenge session.rpId
                session.origin assertion with
            | error e =>
                rw [hVerify] at h
                cases h
            | ok counter =>
                rw [hVerify] at h
                dsimp only at h
                obtain ⟨r, k', hUpsert, h⟩ := bind_returned_iff.mp h
                cases r with
                | error e => cases h
                | ok _ =>
                    cases h
                    exact ⟨account, k, assertion, front, record, counter, hFind, hAssertion, hOne,
                      hRecord, hVerify, hUpsert⟩
      · rw [hOne] at h
        cases h

theorem accepts_of_verifySessionAssertion {session : Session} {value : Json} {m n : Machine}
    (h : verifySessionAssertion P E session value m = (.returned (.ok ()), n)) :
    Accepts P E session value m := by
  obtain ⟨account, k, assertion, front, record, counter, hFind, hAssertion, hOne, hRecord, hVerify,
    _⟩ := verifySessionAssertion_ok h
  obtain ⟨v, hLoad, hAccount⟩ := load_of_findAccount hFind
  exact ⟨v, k, account, assertion, front, record, counter, hLoad, hAccount, hAssertion, hOne,
    List.mem_of_find?_eq_some hRecord, by simpa using List.find?_some hRecord, hVerify⟩

/-! ## Soundness of `finish_auth` -/

/-- The event is a `begin_auth` or `begin_test` that was answered with the session
`id`: with its challenge, RP ID and origin, for the account `session.targetSid`. -/
def HandsOut (P : Platform) (E : Environment) (b : Broker) (e : Event) (id : Bytes)
    (session : Session) : Prop :=
  ∃ pipe input caller request account output, e = .request pipe input ∧
    openRequest P pipe input = .ok (caller, request) ∧
    (request.valueOr Json.getString (text "op") [] = .ok (text "begin_auth") ∨
      request.valueOr Json.getString (text "op") [] = .ok (text "begin_test")) ∧
    session.callerSid = caller.sid ∧
    wideField P request (text "sid") = .ok session.targetSid ∧
    (serve P E pipe input b).1 = some (output, true) ∧
    P.dump (((createAuthChallenge session account).set (text "sessionId") (.str id)).set
      (text "ok") (.bool true)) = .ok output

/-- A session for an authentication was handed out by the request that opened it. -/
theorem handsOut_of_openedBy {b : Broker} {e : Event} {id : Bytes} {session : Session}
    (h : OpenedBy P E b e id session) (hKind : session.kind = .authentication) :
    HandsOut P E b e id session := by
  obtain ⟨pipe, input, caller, request, o, b', rfl, hOpen, _, _, hOpened, hReply⟩ := h
  have hPurpose := hOpened.purpose
  simp only [hKind] at hPurpose
  obtain ⟨hOp, account, rfl⟩ := hPurpose
  obtain ⟨output, ok, hServed, hPrinted⟩ := hReply _ rfl
  obtain ⟨hDump, hOk⟩ := printed_eq_returned.mp hPrinted
  have hTrue : ok = true := (Except.ok.inj hOk).symm
  subst hTrue
  exact ⟨pipe, input, caller, request, account, output, rfl, hOpen, hOp, hOpened.callerSid,
    hOpened.targetSid, hServed, hDump⟩

/-- Whenever `finish_auth` is answered with `ok` for a session identifier, then an
earlier `begin_auth` or `begin_test` reply handed it out, less than 120 seconds before
the session was taken; no request in between that could refresh and load the store
named it; the caller is the one who began the session, or LocalSystem; and the one
assertion in the request was accepted for this session, by the credentials in store when
the request came to verify it. -/
theorem finishAuth_sound {b₀ : Broker} (h₀ : b₀.sessions = []) {es : List Event}
    {pipe : PipeClient} {input output : Bytes} {caller : Caller} {request : Json} {id : Bytes}
    (hOpen : openRequest P pipe input = .ok (caller, request))
    (hOp : request.valueOr Json.getString (text "op") [] = .ok (text "finish_auth"))
    (hId : stringField request (text "sessionId") = .ok id)
    (hOk : (serve P E pipe input (run P E b₀ es)).1 = some (output, true)) :
    ∃ pre e post session, es = pre ++ e :: post ∧
      HandsOut P E (run P E b₀ pre) e id session ∧
      (∃ t t', (run P E b₀ pre).machine.tick ≤ t ∧ t < (run P E b₀ (pre ++ [e])).machine.tick ∧
        (run P E b₀ es).machine.tick ≤ t' ∧
        t' < (serve P E pipe input (run P E b₀ es)).2.machine.tick ∧
        E.clock t' < E.clock t + kSessionLifetime) ∧
      (∀ mid e' rest, post = mid ++ e' :: rest →
        ¬ Takes P E (run P E b₀ (pre ++ e :: mid)) e' id) ∧
      (caller.isSystem = true ∨ isSameSid caller.sid session.callerSid = true) ∧
      ∃ value b, AtVerification P E ⟨run P E b₀ es, caller, request⟩ .authentication session value
          b ∧
        verifySessionAssertion P E session value b.machine =
          (.returned (.ok ()), (serve P E pipe input (run P E b₀ es)).2.machine) ∧
        Accepts P E session value b.machine := by
  obtain ⟨j, b', hHandle, _, hAfter⟩ := handle_of_serve_ok hOpen hOk
  obtain ⟨session, value, b, n, hAt, hVerified⟩ := atVerification_of_returned .auth hOp hHandle
  -- nothing comes after the verification
  have hLast : (serve P E pipe input (run P E b₀ es)).2.machine = n := by
    rw [hAt.handle_auth hVerified] at hHandle
    rw [hAfter, ← (Prod.mk.inj hHandle).2]
    rfl
  obtain ⟨id', pre, e, post, t, t', hId', hSplit, hOpened, hFresh, hNotTaken, hKind, hCaller⟩ :=
    entered_origin h₀ hAt.enters
  -- the origin is that of the session the request names
  obtain rfl : id = id' := Except.ok.inj (hId.symm.trans hId')
  rw [hLast]
  exact ⟨pre, e, post, session, hSplit, handsOut_of_openedBy hOpened hKind,
    ⟨t, t', hFresh.opened.1, hFresh.opened.2, hFresh.taken.1,
      hFresh.taken.2.trans_le (later_of_verified hVerified).tick_le, hFresh.inTime⟩,
    hNotTaken, hCaller, value, b, hAt, hVerified, accepts_of_verifySessionAssertion hVerified⟩

section Example

open Reference

/-- The vault of `alice` with the key that can sign. -/
def keyVault : Vault := vault [alice true [keyCredential (text "AAECAwQFBgcICQoLDA0ODw")]]

def beginText : Bytes :=
  text "\x7b\"version\":1,\"op\":\"begin_auth\",\"sid\":\"S-1-5-21-1-2-3-1001\"\x7d"

/-- The client data for the challenge that is drawn at tick 7. -/
def clientDataText : String :=
  "eyJ0eXBlIjoid2ViYXV0aG4uZ2V0IiwiY2hhbGxlbmdlIjoiQndjSEJ3Y0hCd2NIQndjSEJ3Y0hCd2NIQndjSEJ3Y0hCd2NIQndjSEJ3YyIsIm9yaWdpbiI6Imh0dHBzOi8vd2ZsLTAwMDAwMDAwMDAwMDAwMDAwMDAwMDAwMDAwMDAwMDAwLmxvZ2luLmxvY2FsIiwiY3Jvc3NPcmlnaW4iOmZhbHNlfQ"

/-- Authenticator data with the counter 1. -/
def authDataText : String := "pcrlIYpZCmvC4a8b9_jjVRdSUeBX2WtctsMacYaUNUwFAAAAAQ"

def signatureText : String :=
  "MEUCIQCgFDu1DT3zpR0a-PlRpyuQuTxR6sIJReLi0cc_kMmpUwIgfvgY3s0_7dGmUfAxx2MrWXu3JaVqnUOyujOSC_XE-wU"

/-- What the key signed. -/
def signedOnce : AssertInput where
  clientData := Convert.base64URLDecode (text clientDataText)
  rpId := rpIdOf (List.replicate 32 48)
  authData := Convert.base64URLDecode (text authDataText)
  signature := Convert.base64URLDecode (text signatureText)
  publicKey := keyX ++ keyY

/-- The identifier that is drawn at tick 9. -/
def sessionText : String := "CQkJCQkJCQkJCQkJCQkJCQkJCQkJCQkJ"

def finishText : Bytes :=
  text "\x7b\"version\":1,\"op\":\"finish_auth\",\"sessionId\":\"" ++ text sessionText ++
    text "\",\"assertion\":\x7b\"clientData\":\"" ++ text clientDataText ++
    text "\",\"assertions\":[\x7b\"credentialId\":\"AAECAwQFBgcICQoLDA0ODw\",\"authenticatorData\":\"" ++
    text authDataText ++ text "\",\"signature\":\"" ++ text signatureText ++ text "\"\x7d]\x7d\x7d"

def keyPlatform : Platform := platform (securityKey [signedOnce])

/-- The vault file is in use at tick 10, when the second request comes. -/
def busyOnce : Environment :=
  { calm with readFault := fun file n =>
      if file = .primary ∧ n = 10 then some ⟨32, by decide⟩ else none }

def keyBroker : Broker := { machine := machine (some keyVault) none }

/-- `alice` begins, and tries to finish while the vault file is in use. -/
def interrupted : List Event := [.request alicePipe beginText, .request alicePipe finishText]

def aliceCaller : Caller := { sid := aliceSid }

theorem finishText_fields :
    (Json.parse finishText).isSome = true ∧
      (parsed finishText).valueOr Json.getUnsigned (text "version") 0 = .ok kBrokerProtocolVersion ∧
      (parsed finishText).valueOr Json.getString (text "op") [] = .ok (text "finish_auth") ∧
      stringField (parsed finishText) (text "sessionId") = .ok (text sessionText) := by
  decide +kernel

theorem openRequest_finishText :
    openRequest keyPlatform alicePipe finishText = .ok (aliceCaller, parsed finishText) :=
  openRequest_eq rfl (by decide +kernel) (parse_eq_parsed finishText_fields.1)
    finishText_fields.2.1 (by decide +kernel)

theorem finishes_after_interruption :
    (serve keyPlatform busyOnce alicePipe finishText
      (run keyPlatform busyOnce keyBroker interrupted)).1 = some (text "\x7b\"ok\":true\x7d", true) := by
  decide +kernel

/-- The login of `alice`, in spite of the interruption. -/
theorem finishAuth_sound_example :
    ∃ pre e post session, interrupted = pre ++ e :: post ∧
      HandsOut keyPlatform busyOnce (run keyPlatform busyOnce keyBroker pre) e (text sessionText)
        session ∧
      (∃ t t', (run keyPlatform busyOnce keyBroker pre).machine.tick ≤ t ∧
        t < (run keyPlatform busyOnce keyBroker (pre ++ [e])).machine.tick ∧
        (run keyPlatform busyOnce keyBroker interrupted).machine.tick ≤ t' ∧
        t' < (serve keyPlatform busyOnce alicePipe finishText
          (run keyPlatform busyOnce keyBroker interrupted)).2.machine.tick ∧
        busyOnce.clock t' < busyOnce.clock t + kSessionLifetime) ∧
      (∀ mid e' rest, post = mid ++ e' :: rest →
        ¬ Takes keyPlatform busyOnce (run keyPlatform busyOnce keyBroker (pre ++ e :: mid)) e'
          (text sessionText)) ∧
      (aliceCaller.isSystem = true ∨ isSameSid aliceCaller.sid session.callerSid = true) ∧
      ∃ value b, AtVerification keyPlatform busyOnce
          ⟨run keyPlatform busyOnce keyBroker interrupted, aliceCaller, parsed finishText⟩
          .authentication session value b ∧
        verifySessionAssertion keyPlatform busyOnce session value b.machine =
          (.returned (.ok ()), (serve keyPlatform busyOnce alicePipe finishText
            (run keyPlatform busyOnce keyBroker interrupted)).2.machine) ∧
        Accepts keyPlatform busyOnce session value b.machine :=
  finishAuth_sound rfl openRequest_finishText finishText_fields.2.2.1 finishText_fields.2.2.2
    finishes_after_interruption

/-- The request names the session `id` in one of the three finishing operations,
whatever becomes of it. -/
def Names (P : Platform) (e : Event) (id : Bytes) : Prop :=
  ∃ pipe input caller request op, e = .request pipe input ∧
    openRequest P pipe input = .ok (caller, request) ∧
    request.valueOr Json.getString (text "op") [] = .ok op ∧
    (op = text "finish_auth" ∨ op = text "commit_registration" ∨ op = text "finish_remove") ∧
    stringField request (text "sessionId") = .ok id

/-- A login is accepted although another request named its session before: that one was
refused while the store could not be refreshed, and did not take the session. -/
theorem finishAuth_renamed_counterexample :
    (serve keyPlatform busyOnce alicePipe finishText
      (run keyPlatform busyOnce keyBroker interrupted)).1 = some (text "\x7b\"ok\":true\x7d", true) ∧
      ¬ ∃ pre e post session, interrupted = pre ++ e :: post ∧
        HandsOut keyPlatform busyOnce (run keyPlatform busyOnce keyBroker pre) e (text sessionText)
          session ∧
        ∀ e' ∈ post, ¬ Names keyPlatform e' (text sessionText) := by
  refine ⟨finishes_after_interruption, ?_⟩
  rintro ⟨pre, e, post, session, hSplit, hHandsOut, hNone⟩
  rcases pre with _ | ⟨e₁, _ | ⟨e₂, pre⟩⟩
  · -- the second request named the session
    cases hSplit
    exact hNone _ List.mem_cons_self ⟨alicePipe, finishText, aliceCaller, parsed finishText, _, rfl,
      openRequest_finishText, finishText_fields.2.2.1, .inl rfl, finishText_fields.2.2.2⟩
  · -- the second request begins nothing
    cases hSplit
    obtain ⟨pipe, input, caller, request, account, output, hEvent, hOpen, hOp, _⟩ := hHandsOut
    cases hEvent
    rw [openRequest_finishText] at hOpen
    cases hOpen
    rw [finishText_fields.2.2.1] at hOp
    exact absurd hOp (by decide)
  · simp [interrupted] at hSplit

end Example

end BrokerService
end WindowsFidoLogon
